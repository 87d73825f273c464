import RuleFilter.Proofs.Condition.Compiling
import RuleFilter.Proofs.Layout.Normal
import RuleFilter.Proofs.Rule.Parsing
import RuleFilter.Proofs.Token.Clause

namespace RuleFilter

def Text.isWord : List Char → Bool
  | [] => false
  | c :: cs => (isWordChar c || c == '-' && cs.head?.any Char.isDigit) && cs.all isWordChar

/-- What permissive reading makes of a class of strict reading: behind a comparison an unknown word
is a value. -/
def TokenKind.loosen (kind : TokenKind) (previous : Option TokenKind) (text : List Char) :
    TokenKind :=
  if previous = some .operator ∧ kind = .unknown ∧ Text.isWord text = true then .value else kind

def Lexeme.loosen (lexeme : Lexeme) (previous : Option TokenKind) : Lexeme :=
  { lexeme with kind := lexeme.kind.loosen previous lexeme.text }

def Token.loosen (token : Token) (previous : Option TokenKind) : Token :=
  { token with kind := token.kind.loosen previous token.text.toList }

def loosened (previous : Option TokenKind) : List Token → List Token
  | [] => []
  | token :: tokens => token.loosen previous :: loosened (some token.kind) tokens

/-! ## Words -/

theorem TokenKind.loosen_of_known {kind : TokenKind} (known : kind ≠ .unknown)
    (previous : Option TokenKind) (text : List Char) : kind.loosen previous text = kind :=
  if_neg fun bare => known bare.2.1

theorem TokenKind.loosen_eq_iff {other : TokenKind} (known : other ≠ .unknown)
    (valueless : other ≠ .value) (kind : TokenKind) (previous : Option TokenKind)
    (text : List Char) : kind.loosen previous text = other ↔ kind = other := by
  unfold loosen
  split
  · next bare =>
    rw [bare.2.1]
    exact iff_of_false valueless.symm known.symm
  · rfl

theorem Lexeme.loosen_of_known {lexeme : Lexeme} (known : lexeme.kind ≠ .unknown)
    (previous : Option TokenKind) : lexeme.loosen previous = lexeme := by
  rw [loosen, TokenKind.loosen_of_known known]

theorem Lexeme.loosen_of_other {lexeme : Lexeme} (other : Text.isWord lexeme.text = false)
    (previous : Option TokenKind) : lexeme.loosen previous = lexeme := by
  have same : lexeme.kind.loosen previous lexeme.text = lexeme.kind :=
    if_neg fun bare => Bool.false_ne_true (other.symm.trans bare.2.2)
  rw [loosen, same]

namespace Lexicon

theorem beginsNegative_congr {previous previous' : Option TokenKind}
    (behind : (previous == some .operator) = (previous' == some .operator)) (c : Char)
    (cs : List Char) : beginsNegative previous c cs = beginsNegative previous' c cs := by
  rw [beginsNegative, beginsNegative, behind]

theorem isWord_or_isLiteralWord {previous : Option TokenKind} {c : Char} {cs : List Char}
    (begins : (Text.isWordChar c || beginsNegative previous c cs) = true) :
    Text.isWord (Lexeme.splitWord c cs).1 = true ∨
      isLiteralWord (String.ofList (Lexeme.splitWord c cs).1) = true := by
  rcases Lexeme.splitWord_cases c cs with
    ⟨letters, rest, -, inside, -, split⟩ |
    ⟨whole, fraction, _, -, -, integer, some_digit, only, split⟩
  · have text : (Lexeme.splitWord c cs).1 = c :: letters := by rw [split]
    rw [text, Text.isWord, Bool.and_eq_true, List.all_eq_true]
    refine .inl ⟨?_, inside⟩
    rw [Bool.or_eq_true] at begins ⊢
    refine begins.imp_right fun negative => ?_
    simp only [beginsNegative, Bool.and_eq_true] at negative ⊢
    exact ⟨negative.1.1, Lexeme.splitWord_digit text negative.1.2⟩
  · have digits : Text.isDigits fraction = true := by
      simpa [Text.isDigits, some_digit] using only
    have number := Text.isNumberText_of_decimal integer digits
    right
    rw [split, isLiteralWord, String.toList_ofList, ← List.cons_append, number, Bool.or_true]

theorem isWord_of_unknown {lexicon : Lexicon} {previous : Option TokenKind} {c : Char}
    {cs : List Char} (begins : (Text.isWordChar c || beginsNegative previous c cs) = true)
    (unknown : lexicon.classify previous (String.ofList (Lexeme.splitWord c cs).1) = .unknown) :
    Text.isWord (Lexeme.splitWord c cs).1 = true := by
  refine (isWord_or_isLiteralWord begins).resolve_right fun literal => ?_
  rw [classify, if_pos literal] at unknown
  cases unknown

theorem classify_loosen (schema : Schema) {previous previous' : Option TokenKind}
    (behind : (previous == some .operator) = (previous' == some .operator)) {text : List Char}
    (word : classify ⟨schema, false⟩ previous (String.ofList text) = .unknown →
      Text.isWord text = true) :
    classify ⟨schema, true⟩ previous' (String.ofList text) =
      (classify ⟨schema, false⟩ previous (String.ofList text)).loosen previous text := by
  unfold classify at word ⊢
  simp only [← behind, Bool.true_and, Bool.false_and, Bool.false_eq_true, if_false] at word ⊢
  split
  · exact (TokenKind.loosen_of_known (by simp) previous text).symm
  split
  · exact (TokenKind.loosen_of_known (by simp) previous text).symm
  next literal known =>
  rw [if_neg literal, if_neg known] at word
  simp [TokenKind.loosen, word]

theorem quoted_loosen {quote : Char} (is : Text.isQuote quote = true) (cs : List Char)
    (previous : Option TokenKind) :
    (Lexeme.quoted quote cs).loosen previous = Lexeme.quoted quote cs := by
  have other : (Text.isWordChar quote || quote == '-') = false := by
    rcases Text.isQuote_iff.1 is with rfl | rfl <;> decide
  rw [Bool.or_eq_false_iff] at other
  apply Lexeme.loosen_of_other
  rcases Lexeme.closed_or_open quote cs with ⟨body, rest, rfl, inside⟩ | inside
  · rw [Lexeme.quoted_closed inside, Text.isWord, other.1, other.2]
    rfl
  · rw [Lexeme.quoted_open inside, Text.isWord, other.1, other.2]
    rfl

theorem lexeme_loosen (schema : Schema) {previous previous' : Option TokenKind}
    (behind : (previous == some .operator) = (previous' == some .operator)) (c : Char)
    (cs : List Char) :
    lexeme ⟨schema, true⟩ previous' c cs =
      (lexeme ⟨schema, false⟩ previous c cs).loosen previous := by
  unfold lexeme
  rw [← beginsNegative_congr behind]
  split
  · exact (Lexeme.loosen_of_known (by simp) previous).symm
  split
  · exact (Lexeme.loosen_of_known (by simp) previous).symm
  split
  · next is => exact (quoted_loosen is cs previous).symm
  split
  · next found =>
    refine (Lexeme.loosen_of_known (fun unknown => ?_) previous).symm
    obtain ⟨-, spelling, member, -, kind, -⟩ := Lexeme.operator?_eq_some found
    have known : ∀ spelling ∈ operatorSpellings, spelling.2 ≠ .unknown := by decide
    exact known spelling member (kind.symm.trans unknown)
  split
  · next begins =>
    have word := @isWord_of_unknown ⟨schema, false⟩ previous c cs begins
    simp only [classify_loosen schema behind word, Lexeme.loosen]
  · next others =>
    rw [Bool.or_eq_true, not_or] at others
    refine (Lexeme.loosen_of_other ?_ previous).symm
    simp [Text.isWord, others.1]

/-- The tokens of permissive reading are those of strict reading, loosened. Both look at the class
before only to see whether it is that of a comparison. -/
theorem Reads.loosened {schema : Schema} {offset : Nat} {previous previous' : Option TokenKind}
    {cs : List Char} {tokens : List Token} (reads : Reads ⟨schema, false⟩ offset previous cs tokens)
    (behind : (previous == some .operator) = (previous' == some .operator)) :
    Reads ⟨schema, true⟩ offset previous' cs (RuleFilter.loosened previous tokens) := by
  induction reads generalizing previous' with
  | done => exact .done
  | blank blank _ ih => exact .blank blank (ih behind)
  | @token offset previous c cs lexeme tokens visible found _ ih =>
    subst found
    have loose := lexeme_loosen schema behind c cs
    have operator := @TokenKind.loosen_eq_iff .operator nofun nofun
    have others := @ih (some ((lexeme ⟨schema, false⟩ previous c cs).loosen previous).kind) (by
      rw [Bool.eq_iff_iff]
      simp [Lexeme.loosen, operator])
    rw [RuleFilter.loosened, Token.loosen, String.toList_ofList]
    exact .token visible loose others

theorem tokens_loosened (schema : Schema) (text : String) :
    tokens ⟨schema, true⟩ text = loosened none (tokens ⟨schema, false⟩ text) :=
  reads_iff.1 ((reads_tokens ⟨schema, false⟩ text).loosened rfl)

end Lexicon

/-! ## What the modes have in common -/

theorem loosened_of_known {tokens : List Token} (known : ∀ token ∈ tokens, token.kind ≠ .unknown)
    (previous : Option TokenKind) : loosened previous tokens = tokens := by
  induction tokens generalizing previous with
  | nil => rfl
  | cons token tokens ih =>
    rw [List.forall_mem_cons] at known
    rw [loosened, Token.loosen, TokenKind.loosen_of_known known.1, ih known.2]

theorem normalWord_loosen (schema : Schema) (token : Token) (previous : Option TokenKind) :
    Layout.normalWord schema (token.loosen previous) = Layout.normalWord schema token := by
  by_cases unknown : token.kind = .unknown
  · have kinds : (token.loosen previous).kind = .value ∨
        (token.loosen previous).kind = .unknown := by
      rw [Token.loosen, TokenKind.loosen, unknown]
      split <;> simp
    rw [Layout.normalWord_of_kind, Layout.normalWord_of_kind]
    · rfl
    all_goals rcases kinds with kind | kind <;> simp [kind, unknown]
  · rw [Token.loosen, TokenKind.loosen_of_known unknown]

theorem normalChars_loosened (schema : Schema) (previous : Option TokenKind) (tokens : List Token)
    {before before' : Option TokenKind}
    (tight : (before == none || before == some .openParen) =
      (before' == none || before' == some .openParen)) :
    Layout.normalChars schema before' (loosened previous tokens) =
      Layout.normalChars schema before tokens := by
  induction tokens generalizing previous before before' with
  | nil => rfl
  | cons token tokens ih =>
    have opening := @TokenKind.loosen_eq_iff .openParen nofun nofun
    have closing := @TokenKind.loosen_eq_iff .closeParen nofun nofun
    have others := @ih (some token.kind) (some token.kind) (some (token.loosen previous).kind) (by
      rw [Bool.eq_iff_iff]
      simp [Token.loosen, opening])
    have same : ((token.loosen previous).kind == .closeParen) = (token.kind == .closeParen) := by
      rw [Bool.eq_iff_iff]
      simp [Token.loosen, closing]
    rw [loosened, Layout.normalChars, Layout.normalChars, tight, normalWord_loosen, same, others]

namespace Lexicon

theorem normalize_mode (schema : Schema) (permissive : Bool) (text : String) :
    Layout.normalize schema (tokens ⟨schema, permissive⟩ text) =
      Layout.normalize schema (tokens ⟨schema, true⟩ text) := by
  cases permissive with
  | true => rfl
  | false =>
    rw [← String.toList_inj, Layout.normalize_eq, Layout.normalize_eq, tokens_loosened,
      normalChars_loosened schema none _ rfl]

theorem tokens_mode {schema : Schema} {text : String} {rule : Rule}
    (parses : Rule.parse (tokens ⟨schema, false⟩ text) = .ok rule) :
    tokens ⟨schema, true⟩ text = tokens ⟨schema, false⟩ text := by
  rw [tokens_loosened, loosened_of_known (Rule.derives_of_parse parses).known]

theorem compile_mode {schema : Schema} {text : String} {condition : Condition}
    (compiles : schema.compile (tokens ⟨schema, false⟩ text) = .ok condition) :
    schema.compile (tokens ⟨schema, true⟩ text) = .ok condition := by
  obtain ⟨rule, parses, -⟩ := Schema.compile_eq_ok_iff.1 compiles
  rwa [tokens_mode parses]

end Lexicon

/-! ## Token by token -/

def kindBefore (previous : Option TokenKind) (tokens : List Token) : Nat → Option TokenKind
  | 0 => previous
  | index + 1 => tokens[index]?.map Token.kind

theorem kindBefore_cons (previous : Option TokenKind) (token : Token) (tokens : List Token)
    (index : Nat) :
    kindBefore previous (token :: tokens) (index + 1) =
      kindBefore (some token.kind) tokens index := by
  cases index <;> rfl

theorem getElem?_loosened (previous : Option TokenKind) (tokens : List Token) (index : Nat) :
    (loosened previous tokens)[index]? =
      tokens[index]?.map (·.loosen (kindBefore previous tokens index)) := by
  induction tokens generalizing previous index with
  | nil => rfl
  | cons token tokens ih =>
    cases index with
    | zero => rfl
    | succ index =>
      rw [loosened, List.getElem?_cons_succ, List.getElem?_cons_succ, ih, kindBefore_cons]

theorem map_place_loosened (previous : Option TokenKind) (tokens : List Token) :
    (loosened previous tokens).map (fun token => (token.text, token.span)) =
      tokens.map fun token => (token.text, token.span) := by
  induction tokens generalizing previous with
  | nil => rfl
  | cons token tokens ih =>
    rw [loosened, List.map_cons, List.map_cons, ih]
    rfl

namespace Lexicon

/-- Permissive reading gives the tokens of strict reading, with the same texts at the same places.
Their classes differ exactly at the unknown words directly behind a comparison, which become values.
So a rule that compiles in strict reading has the same condition in permissive reading. -/
theorem strict_restricts (schema : Schema) (text : String) :
    let strict := tokens ⟨schema, false⟩ text
    let permissive := tokens ⟨schema, true⟩ text
    permissive.map (fun token => (token.text, token.span)) =
        strict.map (fun token => (token.text, token.span)) ∧
      (∀ index, permissive[index]?.map Token.kind = strict[index]?.map fun token =>
        if kindBefore none strict index = some .operator ∧ token.kind = .unknown ∧
            Text.isWord token.text.toList = true then .value
        else token.kind) ∧
      ∀ condition, schema.compile strict = .ok condition →
        schema.compile permissive = .ok condition := by
  intro strict permissive
  have loose : permissive = loosened none strict := tokens_loosened schema text
  refine ⟨?_, fun index => ?_, fun condition compiles => compile_mode compiles⟩
  · rw [loose, map_place_loosened]
  · rw [loose, getElem?_loosened, Option.map_map]
    rfl

theorem strict_restricts_word :
    let schema : Schema := ⟨[⟨"Name", .string, none⟩], by decide⟩
    (∃ condition, schema.compile (tokens ⟨schema, false⟩ "Name == 'Ann'") = .ok condition ∧
      schema.compile (tokens ⟨schema, true⟩ "Name == 'Ann'") = .ok condition) ∧
    (tokens ⟨schema, true⟩ "Name == Ann")[2]?.map Token.kind = some .value := by
  intro schema
  have read : tokens ⟨schema, false⟩ "Name == 'Ann'" = [⟨.property, "Name", ⟨0, 4⟩, none⟩,
      ⟨.operator, "==", ⟨5, 7⟩, none⟩, ⟨.value, "'Ann'", ⟨8, 13⟩, none⟩] :=
    reads_iff.1 (.token rfl rfl (.blank rfl (.token rfl rfl (.blank rfl (.token rfl rfl .done)))))
  have bare : tokens ⟨schema, false⟩ "Name == Ann" = [⟨.property, "Name", ⟨0, 4⟩, none⟩,
      ⟨.operator, "==", ⟨5, 7⟩, none⟩, ⟨.unknown, "Ann", ⟨8, 11⟩, none⟩] :=
    reads_iff.1 (.token rfl rfl (.blank rfl (.token rfl rfl (.blank rfl (.token rfl rfl .done)))))
  have compiles : schema.compile (tokens ⟨schema, false⟩ "Name == 'Ann'") =
      .ok (.comparison ⟨"Name", .string, .eq, .string "Ann"⟩) := by
    rw [read]
    rfl
  refine ⟨⟨_, compiles, (strict_restricts schema _).2.2 _ compiles⟩, ?_⟩
  rw [(strict_restricts schema _).2.1, bare]
  rfl

end Lexicon
end RuleFilter

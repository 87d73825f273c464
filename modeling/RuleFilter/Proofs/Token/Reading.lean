import RuleFilter.Proofs.Token.Lexeme

/-!
# Reading tokens one by one

`Lexicon.Reads` tells which tokens characters stand for, blank by blank and token by token, with the
places of the tokens (`Lexicon.reads_iff`). What is read is genuine: the text of a token is one of
its class (`Lexicon.genuine_tokens`).
-/

namespace RuleFilter

def Spelled (tokens : List Token) : Prop :=
  ∀ token ∈ tokens, (token.kind = .operator → (Comparator.ofSymbol? token.text).isSome) ∧
    (token.kind = .logical → (Connective.ofSymbol? token.text).isSome)

instance (tokens : List Token) : Decidable (Spelled tokens) :=
  inferInstanceAs (Decidable (∀ token ∈ tokens, _ ∧ _))

theorem Spelled.of_append {tokens rest : List Token} (h : Spelled (tokens ++ rest)) :
    Spelled rest := fun token member => h token (List.mem_append_right _ member)

theorem Spelled.tail {token : Token} {tokens : List Token} (h : Spelled (token :: tokens)) :
    Spelled tokens := fun token member => h token (List.mem_cons_of_mem _ member)

theorem Spelled.isConnective {token : Token} {tokens : List Token}
    (h : Spelled (token :: tokens)) (kind : token.kind = .logical) :
    ∃ connective, token.isConnective connective = true := by
  obtain ⟨connective, spells⟩ := Option.isSome_iff_exists.1 ((h token List.mem_cons_self).2 kind)
  have same := List.find?_some spells
  rw [Text.sameLetters_comm] at same
  exact ⟨connective, by simp [Token.isConnective, kind, same]⟩

def Token.moved (bytes : Nat) (token : Token) : Token :=
  { token with span := ⟨token.span.start + bytes, token.span.stop + bytes⟩ }

structure Token.Genuine (schema : Schema) (token : Token) : Prop where
  property : token.kind = .property → schema.contains token.text = true
  operator : token.kind = .operator → (Comparator.ofSymbol? token.text).isSome = true
  logical : token.kind = .logical → (Connective.ofSymbol? token.text).isSome = true
  openParen : token.kind = .openParen → token.text = "("
  closeParen : token.kind = .closeParen → token.text = ")"

theorem Token.Genuine.of_kind {schema : Schema} {token : Token}
    (h : token.kind = .value ∨ token.kind = .unknown) : token.Genuine schema := by
  rcases h with kind | kind <;> constructor <;> intro is <;> cases kind.symm.trans is

namespace Lexicon

/-- Which tokens the characters from `offset` on stand for behind a token of class `previous`. -/
inductive Reads (lexicon : Lexicon) : Nat → Option TokenKind → List Char → List Token → Prop
  | done {offset : Nat} {previous : Option TokenKind} : Reads lexicon offset previous [] []
  | blank {offset : Nat} {previous : Option TokenKind} {c : Char} {cs : List Char}
      {tokens : List Token} : Text.isBlank c = true →
      Reads lexicon (offset + c.utf8Size) previous cs tokens →
      Reads lexicon offset previous (c :: cs) tokens
  | token {offset : Nat} {previous : Option TokenKind} {c : Char} {cs : List Char}
      {lexeme : Lexeme} {tokens : List Token} : Text.isBlank c = false →
      lexicon.lexeme previous c cs = lexeme →
      Reads lexicon (offset + Text.byteLength lexeme.text) (some lexeme.kind) lexeme.rest tokens →
      Reads lexicon offset previous (c :: cs)
        (⟨lexeme.kind, String.ofList lexeme.text,
          ⟨offset, offset + Text.byteLength lexeme.text⟩, none⟩ :: tokens)

theorem Reads.tokensFrom_eq {lexicon : Lexicon} {offset : Nat} {previous : Option TokenKind}
    {cs : List Char} {tokens : List Token} (reads : lexicon.Reads offset previous cs tokens)
    (taken : List Token) :
    lexicon.tokensFrom offset previous taken cs = taken.reverse ++ tokens := by
  induction reads generalizing taken with
  | done =>
    unfold tokensFrom
    exact (List.append_nil _).symm
  | blank blank _ ih =>
    unfold tokensFrom
    simp only [blank, if_true, ih]
  | token visible found _ ih =>
    unfold tokensFrom
    simp only [visible, Bool.false_eq_true, if_false, found, ih, List.reverse_cons,
      List.append_assoc, List.singleton_append]

theorem exists_reads (lexicon : Lexicon) (offset : Nat) (previous : Option TokenKind)
    (cs : List Char) : ∃ tokens, lexicon.Reads offset previous cs tokens := by
  induction length : cs.length using Nat.strongRecOn generalizing offset previous cs with
  | _ _ ih =>
    subst length
    cases cs with
    | nil => exact ⟨[], .done⟩
    | cons c cs =>
      cases visible : Text.isBlank c with
      | true =>
        obtain ⟨tokens, reads⟩ := ih cs.length (Nat.lt_succ_self _) _ previous cs rfl
        exact ⟨tokens, .blank visible reads⟩
      | false =>
        have shorter := Nat.lt_succ_of_le (lexicon.lexeme_rest_length previous c cs)
        obtain ⟨tokens, reads⟩ := ih _ shorter _ _ _ rfl
        exact ⟨_, .token visible rfl reads⟩

theorem reads_iff {lexicon : Lexicon} {offset : Nat} {previous : Option TokenKind}
    {cs : List Char} {tokens : List Token} :
    lexicon.Reads offset previous cs tokens ↔
      lexicon.tokensFrom offset previous [] cs = tokens := by
  constructor
  · exact fun reads => reads.tokensFrom_eq []
  · rintro rfl
    obtain ⟨tokens, reads⟩ := lexicon.exists_reads offset previous cs
    rwa [reads.tokensFrom_eq]

theorem reads_tokens (lexicon : Lexicon) (text : String) :
    lexicon.Reads 0 none text.toList (lexicon.tokens text) :=
  reads_iff.2 rfl

theorem Reads.eq_nil {lexicon : Lexicon} {offset : Nat} {previous : Option TokenKind}
    {tokens : List Token} (reads : lexicon.Reads offset previous [] tokens) : tokens = [] := by
  cases reads
  rfl

theorem Reads.moved {lexicon : Lexicon} {offset : Nat} {previous : Option TokenKind}
    {cs : List Char} {tokens : List Token} (reads : lexicon.Reads offset previous cs tokens)
    (bytes : Nat) :
    lexicon.Reads (offset + bytes) previous cs (tokens.map (Token.moved bytes)) := by
  induction reads with
  | done => exact .done
  | blank blank _ ih => exact .blank blank (by rwa [Nat.add_right_comm])
  | token visible found _ ih =>
    rw [List.map_cons, Token.moved]
    simp only [Nat.add_right_comm _ _ bytes] at ih ⊢
    exact .token visible found ih

/-! ## What is read -/

theorem lexeme_elim {lexicon : Lexicon} {previous : Option TokenKind} {c : Char} {cs : List Char}
    {P : Lexeme → Prop} (opening : P ⟨.openParen, ['('], cs⟩) (closing : P ⟨.closeParen, [')'], cs⟩)
    (quoted : Text.isQuote c = true → P (Lexeme.quoted c cs))
    (operator : ∀ lexeme, Lexeme.operator? (c :: cs) = some lexeme → P lexeme)
    (word : Text.isQuote c = false → (Text.isWordChar c || beginsNegative previous c cs) = true →
      ∀ text rest, Lexeme.splitWord c cs = (text, rest) →
        P ⟨lexicon.classify previous (String.ofList text), text, rest⟩)
    (other : Text.isQuote c = false → Text.isWordChar c = false → P ⟨.unknown, [c], cs⟩) :
    P (lexicon.lexeme previous c cs) := by
  unfold lexeme
  split
  · next is => rwa [beq_iff_eq.1 is]
  split
  · next is => rwa [beq_iff_eq.1 is]
  split
  · next is => exact quoted is
  next unquoted =>
  split
  · next found => exact operator _ found
  split
  · next begins => exact word (Bool.eq_false_iff.2 unquoted) begins _ _ rfl
  · next others =>
    rw [Bool.not_eq_true, Bool.or_eq_false_iff] at others
    exact other (Bool.eq_false_iff.2 unquoted) others.1

theorem classify_eq_property {lexicon : Lexicon} {previous : Option TokenKind} {word : String}
    (h : lexicon.classify previous word = .property) : lexicon.schema.contains word = true := by
  unfold classify at h
  split at h
  · cases h
  split at h
  · assumption
  split at h <;> cases h

theorem classify_cases (lexicon : Lexicon) (previous : Option TokenKind) (word : String) :
    lexicon.classify previous word = .value ∨ lexicon.classify previous word = .property ∨
      lexicon.classify previous word = .unknown := by
  unfold classify
  repeat' split
  all_goals simp

theorem quoted_kind (quote : Char) (cs : List Char) :
    (Lexeme.quoted quote cs).kind = .value ∨ (Lexeme.quoted quote cs).kind = .unknown := by
  unfold Lexeme.quoted
  split <;> simp

theorem lexeme_text (lexicon : Lexicon) (previous : Option TokenKind) (c : Char)
    (cs : List Char) : ∃ tail, (lexicon.lexeme previous c cs).text = c :: tail := by
  have some_char : (lexicon.lexeme previous c cs).text ≠ [] := by
    refine @lexeme_elim _ _ _ _ (·.text ≠ []) (List.cons_ne_nil _ _) (List.cons_ne_nil _ _)
      ?_ ?_ ?_ fun _ _ => List.cons_ne_nil _ _
    · intro _
      unfold Lexeme.quoted
      split <;> exact List.cons_ne_nil _ _
    · intro lexeme found empty
      obtain ⟨-, spelling, member, letters, -⟩ := Lexeme.operator?_eq_some found
      have : ∀ spelling ∈ operatorSpellings, [] ≠ spelling.1.toList.map Char.toLower := by decide
      exact this spelling member (by rw [← letters, empty, List.map_nil])
    · rintro - - text rest split rfl
      rcases Lexeme.splitWord_cases c cs with
        ⟨letters, _, -, -, -, split'⟩ | ⟨letters, digits, _, -, -, -, -, -, split'⟩ <;>
          cases split.symm.trans split'
  obtain ⟨d, tail, text⟩ := List.exists_cons_of_ne_nil some_char
  have split := lexicon.lexeme_split previous c cs
  rw [text, List.cons_append] at split
  exact ⟨tail, by rw [text, (List.cons.inj split).1]⟩

theorem lexeme_open {lexicon : Lexicon} {previous : Option TokenKind} {c : Char} {cs : List Char}
    (is : Text.isQuote c = true) (unknown : (lexicon.lexeme previous c cs).kind = .unknown) :
    lexicon.lexeme previous c cs = ⟨.unknown, c :: cs, []⟩ ∧ c ∉ cs := by
  revert unknown
  refine @lexeme_elim _ _ _ _ (fun lexeme => lexeme.kind = .unknown →
    lexeme = ⟨.unknown, c :: cs, []⟩ ∧ c ∉ cs) nofun nofun ?_ ?_ ?_ ?_
  · intro _ unknown
    rcases Lexeme.closed_or_open c cs with ⟨body, rest, rfl, inside⟩ | inside
    · rw [Lexeme.quoted_closed inside] at unknown
      cases unknown
    · exact ⟨Lexeme.quoted_open inside, fun member => inside c member rfl⟩
  · intro lexeme found unknown
    obtain ⟨-, spelling, member, -, kind, -⟩ := Lexeme.operator?_eq_some found
    have other : ∀ spelling ∈ operatorSpellings, TokenKind.unknown ≠ spelling.2 := by decide
    exact absurd (unknown.symm.trans kind) (other spelling member)
  · exact fun unquoted => absurd (unquoted.symm.trans is) Bool.false_ne_true
  · exact fun unquoted => absurd (unquoted.symm.trans is) Bool.false_ne_true

theorem lexeme_unterminated {lexicon : Lexicon} {previous : Option TokenKind} {c : Char}
    {cs : List Char} (kind : (lexicon.lexeme previous c cs).kind = .unknown)
    (is : Text.isQuote c = true) : (lexicon.lexeme previous c cs).rest = [] := by
  rw [(lexeme_open is kind).1]

theorem genuine_spelling : ∀ spelling ∈ operatorSpellings,
    (spelling.2 = .operator ∧ (Comparator.ofSymbol? spelling.1).isSome = true) ∨
      (spelling.2 = .logical ∧ (Connective.ofSymbol? spelling.1).isSome = true) := by
  decide

theorem genuine_lexeme (lexicon : Lexicon) (previous : Option TokenKind) (c : Char)
    (cs : List Char) (span : Span) :
    Token.Genuine lexicon.schema ⟨(lexicon.lexeme previous c cs).kind,
      String.ofList (lexicon.lexeme previous c cs).text, span, none⟩ := by
  refine @lexeme_elim _ _ _ _ (fun lexeme => Token.Genuine lexicon.schema
    ⟨lexeme.kind, String.ofList lexeme.text, span, none⟩) ?_ ?_ ?_ ?_ ?_ ?_
  · refine ⟨?_, ?_, ?_, fun _ => rfl, ?_⟩ <;> intro is <;> cases is
  · refine ⟨?_, ?_, ?_, ?_, fun _ => rfl⟩ <;> intro is <;> cases is
  · intro _
    exact .of_kind (quoted_kind c cs)
  · intro lexeme found
    obtain ⟨-, spelling, member, letters, kind, -⟩ := Lexeme.operator?_eq_some found
    have same : Text.foldCase (String.ofList lexeme.text) = Text.foldCase spelling.1 := by
      rw [Text.foldCase, String.toList_ofList, letters, Text.foldCase]
    rcases genuine_spelling spelling member with ⟨kind', spells⟩ | ⟨kind', spells⟩
    · rw [← Comparator.ofSymbol?_congr same] at spells
      refine ⟨?_, fun _ => spells, ?_, ?_, ?_⟩ <;> intro is <;>
        cases (kind.trans kind').symm.trans is
    · rw [← Connective.ofSymbol?_congr same] at spells
      refine ⟨?_, ?_, fun _ => spells, ?_, ?_⟩ <;> intro is <;>
        cases (kind.trans kind').symm.trans is
  · intro _ _ text rest _
    rcases lexicon.classify_cases previous (String.ofList text) with kind | kind | kind
    · exact .of_kind (.inl kind)
    · refine ⟨fun _ => classify_eq_property kind, ?_, ?_, ?_, ?_⟩ <;> intro is <;>
        cases kind.symm.trans is
    · exact .of_kind (.inr kind)
  · intro _ _
    exact .of_kind (.inr rfl)

theorem Reads.genuine {lexicon : Lexicon} {offset : Nat} {previous : Option TokenKind}
    {cs : List Char} {tokens : List Token} (reads : lexicon.Reads offset previous cs tokens) :
    ∀ token ∈ tokens, token.Genuine lexicon.schema := by
  induction reads with
  | done => nofun
  | blank _ _ ih => exact ih
  | token _ found _ ih =>
    subst found
    exact List.forall_mem_cons.2 ⟨genuine_lexeme .., ih⟩

theorem genuine_tokens (lexicon : Lexicon) (text : String) :
    ∀ token ∈ lexicon.tokens text, token.Genuine lexicon.schema :=
  (lexicon.reads_tokens text).genuine

theorem spelled_tokens (lexicon : Lexicon) (text : String) : Spelled (lexicon.tokens text) :=
  fun token member =>
    ⟨(lexicon.genuine_tokens text token member).operator,
      (lexicon.genuine_tokens text token member).logical⟩

end Lexicon
end RuleFilter

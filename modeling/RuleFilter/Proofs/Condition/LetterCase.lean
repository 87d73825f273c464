import RuleFilter.Proofs.Condition.Compiling
import RuleFilter.Proofs.Rule.Parsing
import RuleFilter.Proofs.Token.Coverage
import RuleFilter.Proofs.Token.LetterCase
import RuleFilter.Proofs.Value.LetterCase
import RuleFilter.Schema.Naming

namespace RuleFilter

/-- Whether the letter case of literals does not matter: truth values are read in any, and a string
stands for the allowed value with the same letters. -/
def Property.ignoresCase (property : Property) : Bool :=
  match property.type, property.allowed with
  | .boolean, none | .string, some _ => true
  | _, _ => false

/-- Whether the letter case of a token behind `earlier`, which are held in reverse, does not
matter. Literals belong to the property two tokens before them. -/
def caseFree (schema : Schema) (earlier : List Token) (token : Token) : Bool :=
  match token.kind with
  | .property | .operator | .logical => true
  | .value => (earlier[1]?.bind schema.named?).any Property.ignoresCase
  | .openParen | .closeParen | .unknown => false

def caseBound (schema : Schema) (earlier : List Token) : List Token → List Token
  | [] => []
  | token :: tokens =>
    if caseFree schema earlier token then caseBound schema (token :: earlier) tokens
    else token :: caseBound schema (token :: earlier) tokens

/-- Whether two texts differ at most in the case of letters, while the tokens of the first text
whose case matters stand in the second one as they are. -/
structure Lexicon.Recased (lexicon : Lexicon) (text again : String) : Prop where
  letters : Text.foldCase again = Text.foldCase text
  others : ∀ token ∈ caseBound lexicon.schema [] (lexicon.tokens text),
    Text.HasAt again token.span token.text

/-! ## Literals -/

namespace Property

variable {property : Property} {literal again : String} {value : Value}

theorem spelling?_congr (property : Property)
    (letters : Text.foldCase again = Text.foldCase literal) :
    property.spelling? again = property.spelling? literal := by
  have inside := Text.foldCase_unquote letters
  simp only [spelling?, Text.sameLetters, inside]

theorem operand_recased (letters : Text.foldCase again = Text.foldCase literal)
    (exact : property.ignoresCase = false → again = literal)
    (found : property.operand literal = .ok value) : property.operand again = .ok value := by
  cases free : property.ignoresCase with
  | false => rwa [exact free]
  | true =>
    unfold ignoresCase at free
    split at free
    · next typed unlimited =>
      have same := Value.booleanOfText?_congr (Text.foldCase_unquote letters)
      rw [operand, typed, unlimited] at found ⊢
      simp only [Value.ofLiteral?, same, Option.isNone_none, if_true] at found ⊢
      cases read : Value.booleanOfText? (Text.unquote literal) with
      | none => simp [read] at found
      | some b => simpa [read] using found
    · next typed limited =>
      rw [operand, typed, limited] at found ⊢
      rw [spelling?_congr property letters]
      simp only [Value.ofLiteral?, Option.isNone_some, Bool.false_eq_true, if_false] at found ⊢
      cases spelled : property.spelling? literal with
      | none => simp [spelled] at found
      | some spelling => simpa [spelled] using found
    · cases free

end Property

/-! ## Clauses -/

theorem Clause.compile_of_letters {schema : Schema} {name name' literal literal' : String}
    {op : Comparator} {span span' : Span} {comparison : Comparison}
    (names : Text.foldCase name' = Text.foldCase name)
    (literals : Text.foldCase literal' = Text.foldCase literal)
    (exact : (schema.describe? name).any Property.ignoresCase = false → literal' = literal)
    (compiled : Clause.compile schema ⟨name, op, literal, span⟩ = .ok comparison) :
    Clause.compile schema ⟨name', op, literal', span'⟩ = .ok comparison := by
  unfold Clause.compile at compiled ⊢
  simp only [schema.describe?_congr names]
  cases found : schema.describe? name with
  | none => simp [found] at compiled
  | some property =>
    simp only [found] at compiled ⊢
    split at compiled
    · next legal =>
      obtain ⟨value, operand, rfl⟩ := map_eq_ok_iff.1 compiled
      have exact' (sensitive : property.ignoresCase = false) : literal' = literal :=
        exact (by rw [found]; exact sensitive)
      rw [if_pos legal, Property.operand_recased literals exact' operand]
      rfl
    · cases compiled

/-! ## Rules -/

inductive Recast (schema : Schema) : (earlier tokens tokens' : List Token) → Prop
  | nil {earlier : List Token} : Recast schema earlier [] []
  | cons {earlier tokens tokens' : List Token} {token again : Token} : token.Recased again →
      (caseFree schema earlier token = false → again.text = token.text) →
      Recast schema (token :: earlier) tokens tokens' →
      Recast schema earlier (token :: tokens) (again :: tokens')

theorem Recast.of_append {schema : Schema} {earlier tokens rest tokens' : List Token}
    (same : Recast schema earlier (tokens ++ rest) tokens') :
    ∃ left right, tokens' = left ++ right ∧ Recast schema earlier tokens left ∧
      Recast schema (tokens.reverse ++ earlier) rest right := by
  induction tokens generalizing earlier tokens' with
  | nil => exact ⟨[], tokens', rfl, .nil, same⟩
  | cons token tokens ih =>
    cases same with
    | cons first exact others =>
      obtain ⟨left, right, rfl, same, same'⟩ := ih others
      refine ⟨_ :: left, right, rfl, .cons first exact same, ?_⟩
      rwa [List.reverse_cons, List.append_assoc]

namespace Grammar

def Carries (schema : Schema) (part : Phrase) : Prop :=
  ∀ earlier tokens rule tokens' condition, part tokens rule →
    rule.compile schema = .ok condition → Recast schema earlier tokens tokens' →
    ∃ again, part tokens' again ∧ again.compile schema = .ok condition

variable {schema : Schema} {part inner : Phrase}

theorem Run.carries {connective : Connective} (carries : Carries schema part)
    {earlier tokens tokens' : List Token} {rules : List Rule} {conditions : List Condition}
    (run : Run connective part tokens rules)
    (compiled : rules.map (Rule.compile schema) = conditions.map .ok)
    (same : Recast schema earlier tokens tokens') :
    ∃ again, Run connective part tokens' again ∧
      again.map (Rule.compile schema) = conditions.map .ok := by
  induction run generalizing earlier tokens' conditions with
  | last derived =>
    obtain ⟨condition, others, rfl, first, none⟩ := List.map_eq_cons_iff.1 compiled.symm
    obtain ⟨again, derived', compiled'⟩ := carries _ _ _ _ _ derived first.symm same
    exact ⟨[again], .last derived', by simp [compiled', ← none]⟩
  | more derived is _ ih =>
    obtain ⟨condition, others, rfl, first, behind⟩ := List.map_eq_cons_iff.1 compiled.symm
    obtain ⟨left, right, rfl, operand, behind'⟩ := same.of_append
    cases behind' with
    | cons sign _ others' =>
      obtain ⟨again, derived', compiled'⟩ := carries _ _ _ _ _ derived first.symm operand
      obtain ⟨rules', run', compiled''⟩ := ih behind.symm others'
      rw [← Token.isConnective_congr sign.kind sign.letters] at is
      exact ⟨again :: rules', .more derived' is run', by simp [compiled', compiled'']⟩

theorem Joined.carries {connective : Connective} {node : List Rule → Rule}
    {node' : List Condition → Condition}
    (compiles : ∀ rules, (node rules).compile schema =
      (Rule.compileFrom schema [] rules).map node')
    (carries : Carries schema part) : Carries schema (Joined connective node part) := by
  intro earlier tokens rule tokens' condition derived compiled same
  obtain ⟨rules, run, rfl⟩ := joined_iff.1 derived
  obtain ⟨conditions, parts, joined⟩ := (Rule.compile_join compiles).1 compiled
  obtain ⟨again, run', parts'⟩ := run.carries carries parts same
  exact ⟨_, joined_iff.2 ⟨again, run', rfl⟩,
    (Rule.compile_join compiles).2 ⟨conditions, parts', joined⟩⟩

theorem Disjunction.carries (carries : Carries schema inner) :
    Carries schema (Disjunction inner) :=
  Joined.carries (fun _ => rfl) (Joined.carries (fun _ => rfl) carries)

theorem Operand.carries (carries : Carries schema inner) : Carries schema (Operand inner) := by
  intro earlier tokens rule tokens' condition derived compiled same
  cases derived with
  | clause kind₁ kind₂ spelled kind₃ =>
    cases same with | cons property _ same =>
    cases same with | cons operator _ same =>
    cases same with | cons value exact none =>
    cases none
    obtain ⟨comparison, compiles, rfl⟩ := map_eq_ok_iff.1 compiled
    have spelled' := (Comparator.ofSymbol?_congr operator.letters).trans spelled
    refine ⟨_, .clause (property.kind.trans kind₁) (operator.kind.trans kind₂) spelled'
      (value.kind.trans kind₃), map_eq_ok_iff.2 ⟨comparison, ?_, rfl⟩⟩
    refine Clause.compile_of_letters property.letters value.letters
      (fun sensitive => exact ?_) compiles
    simpa [caseFree, kind₃, Schema.named?, kind₁] using sensitive
  | negation is derived =>
    cases same with
    | cons sign _ same =>
      obtain ⟨inside, compiles, rfl⟩ := map_eq_ok_iff.1 compiled
      obtain ⟨again, derived', compiled'⟩ := carries _ _ _ _ _ derived compiles same
      rw [← Token.isConnective_congr sign.kind sign.letters] at is
      exact ⟨_, .negation is derived', map_eq_ok_iff.2 ⟨_, compiled', rfl⟩⟩
  | group opening derived closing =>
    cases same with
    | cons first _ same =>
      obtain ⟨left, right, rfl, inside, behind⟩ := same.of_append
      cases behind with
      | cons last _ none =>
        cases none
        obtain ⟨again, derived', compiled'⟩ :=
          Disjunction.carries carries _ _ _ _ _ derived compiled inside
        exact ⟨again, .group (first.kind.trans opening) derived' (last.kind.trans closing),
          compiled'⟩

theorem Unary.carries (levels : Nat) : Carries schema (Unary levels) := by
  induction levels with
  | zero => exact Operand.carries fun _ _ _ _ _ none => none.elim
  | succ levels ih => exact Operand.carries ih

end Grammar

/-! ## Texts -/

namespace Lexicon

variable {lexicon : Lexicon} {text again : String}

theorem Recased.recast (recased : lexicon.Recased text again) :
    Recast lexicon.schema [] (lexicon.tokens text) (lexicon.tokens again) := by
  have same := lexicon.tokens_foldCase recased.letters
  have placed := (lexicon.reads_tokens again).placed
  have others := recased.others
  generalize lexicon.tokens text = tokens at same others
  generalize lexicon.tokens again = tokens' at same placed
  generalize ([] : List Token) = earlier at others
  induction same generalizing earlier with
  | nil => exact .nil
  | cons first _ ih =>
    rw [List.forall_mem_cons] at placed
    rw [caseBound] at others
    split at others
    · next free =>
      refine .cons first (fun bound => ?_) (ih placed.2 _ others)
      cases free.symm.trans bound
    · rw [List.forall_mem_cons] at others
      have there := placed.1.hasAt
      rw [first.span] at there
      exact .cons first (fun _ => there.eq others.1) (ih placed.2 _ others.2)

/-- A rule that compiles has the same condition where the case of letters is changed that belong to
names, operators or connectives, to the truth values of a property without allowed values, or to the
allowed strings of a property. -/
theorem compile_recased {condition : Condition}
    (compiles : lexicon.schema.compile (lexicon.tokens text) = .ok condition)
    (recased : lexicon.Recased text again) :
    lexicon.schema.compile (lexicon.tokens again) = .ok condition := by
  obtain ⟨rule, parsed, compiled⟩ := Schema.compile_eq_ok_iff.1 compiles
  obtain ⟨rule', derived, compiled'⟩ := Grammar.Disjunction.carries
    (Grammar.Unary.carries nestingLimit) _ _ _ _ _ (Rule.derives_of_parse parsed) compiled
    recased.recast
  exact Schema.compile_eq_ok_iff.2 ⟨rule', Rule.parse_of_derives derived, compiled'⟩

theorem compile_recased_kind :
    let lexicon : Lexicon :=
      ⟨⟨[⟨"Kind", .string, some ["Ann"]⟩, ⟨"Title", .string, none⟩], by decide⟩, false⟩
    let condition : Condition := .all [.comparison ⟨"Kind", .string, .eq, .string "Ann"⟩,
      .comparison ⟨"Title", .string, .contains, .string "Boss"⟩]
    lexicon.schema.compile (lexicon.tokens "Kind == 'Ann' AND Title CONTAINS 'Boss'") =
        .ok condition ∧
      lexicon.schema.compile (lexicon.tokens "KIND == 'ann' and title Contains 'Boss'") =
        .ok condition := by
  intro lexicon condition
  have read : lexicon.tokens "Kind == 'Ann' AND Title CONTAINS 'Boss'" = [
      ⟨.property, "Kind", ⟨0, 4⟩, none⟩, ⟨.operator, "==", ⟨5, 7⟩, none⟩,
      ⟨.value, "'Ann'", ⟨8, 13⟩, none⟩, ⟨.logical, "AND", ⟨14, 17⟩, none⟩,
      ⟨.property, "Title", ⟨18, 23⟩, none⟩, ⟨.operator, "CONTAINS", ⟨24, 32⟩, none⟩,
      ⟨.value, "'Boss'", ⟨33, 39⟩, none⟩] :=
    reads_iff.1 (.token rfl rfl (.blank rfl (.token rfl rfl (.blank rfl (.token rfl rfl
      (.blank rfl (.token rfl rfl (.blank rfl (.token rfl rfl (.blank rfl (.token rfl rfl
      (.blank rfl (.token rfl rfl .done)))))))))))))
  have compiles : lexicon.schema.compile
      (lexicon.tokens "Kind == 'Ann' AND Title CONTAINS 'Boss'") = .ok condition := by
    rw [read]
    rfl
  refine ⟨compiles, compile_recased compiles ⟨by decide, ?_⟩⟩
  have bound : caseBound lexicon.schema []
      (lexicon.tokens "Kind == 'Ann' AND Title CONTAINS 'Boss'") =
      [⟨.value, "'Boss'", ⟨33, 39⟩, none⟩] := by
    rw [read]
    rfl
  rw [bound, List.forall_mem_singleton]
  exact ⟨"KIND == 'ann' and title Contains ", "", by decide, by decide, by decide⟩

end Lexicon
end RuleFilter

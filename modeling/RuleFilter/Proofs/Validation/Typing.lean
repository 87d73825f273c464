import RuleFilter.Proofs.Condition.Compiling
import RuleFilter.Proofs.Validation.Acceptance
import RuleFilter.Proofs.Value.LetterCase

namespace RuleFilter

/-! ## Clauses -/

namespace Clause

variable (schema : Schema) (clause : Clause)

def Typed : Prop :=
  ∃ property, schema.describe? clause.property = some property ∧
    clause.op.isLegalFor property.type = true ∧
    (Value.ofLiteral? clause.literal property.type).isSome = true ∧
    property.allows clause.literal = true

/-- Whether the literal stands for an allowed date that the schema spells with a small mark. -/
def Misspelt : Prop :=
  ∃ property spelling, schema.describe? clause.property = some property ∧
    property.type = .dateTime ∧ property.spelling? clause.literal = some spelling ∧
    Time.isSmallMarked spelling.toList = true

end Clause

namespace Property

theorem foldCase_of_spelling? {property : Property} {literal spelling : String}
    (h : property.spelling? literal = some spelling) :
    Text.foldCase (Text.unquote literal) = Text.foldCase spelling := by
  obtain ⟨values, -, found⟩ := Option.bind_eq_some_iff.1 h
  have same := List.find?_some found
  exact (Text.sameLetters_iff.1 same).symm

theorem exists_operand_iff {property : Property} {literal : String} :
    (∃ operand, property.operand literal = .ok operand) ↔
      (Value.ofLiteral? literal property.type).isSome = true ∧ property.allows literal = true ∧
        ∀ spelling, property.spelling? literal = some spelling →
          ¬(property.type = .dateTime ∧ Time.isSmallMarked spelling.toList = true) := by
  unfold operand allows
  cases reads : Value.ofLiteral? literal property.type with
  | none => simp
  | some value =>
    cases limits : property.allowed with
    | none => simp [spelling?, limits]
    | some values =>
      cases spells : property.spelling? literal with
      | none => simp
      | some spelling =>
        have again := Value.isSome_ofLiteral?_iff (foldCase_of_spelling? spells)
          (Option.isSome_iff_exists.2 ⟨value, reads⟩)
        simp only [Option.isNone_some, Bool.false_eq_true, if_false, Option.bind_some,
          Option.isSome_some, Bool.or_true, true_and, Option.some.injEq, forall_eq', ← again]
        cases Value.ofLiteral? spelling property.type <;> simp

end Property

theorem Clause.exists_compile_iff {schema : Schema} {clause : Clause} :
    (∃ comparison, clause.compile schema = .ok comparison) ↔
      clause.Typed schema ∧ ¬ clause.Misspelt schema := by
  unfold compile Typed Misspelt
  cases schema.describe? clause.property with
  | none => simp
  | some property =>
    simp only [Option.some.injEq]
    split
    · next legal =>
      rw [exists_map_eq_ok_iff, Property.exists_operand_iff]
      constructor
      · rintro ⟨reads, allowed, spelled⟩
        refine ⟨⟨property, rfl, legal, reads, allowed⟩, ?_⟩
        rintro ⟨_, spelling, rfl, dated, spells, small⟩
        exact spelled spelling spells ⟨dated, small⟩
      · rintro ⟨⟨_, rfl, -, reads, allowed⟩, right⟩
        refine ⟨reads, allowed, fun spelling spells small => ?_⟩
        exact right ⟨property, spelling, rfl, small.1, spells, small.2⟩
    · next illegal => simp [illegal]

/-! ## Tokens -/

namespace Validation

def WellTyped (schema : Schema) : (earlier tokens : List Token) → Prop
  | _, [] => True
  | earlier, token :: tokens =>
    typeProblem? schema earlier token = none ∧ WellTyped schema (token :: earlier) tokens

theorem wellTyped_append {schema : Schema} {earlier tokens rest : List Token} :
    WellTyped schema earlier (tokens ++ rest) ↔
      WellTyped schema earlier tokens ∧ WellTyped schema (tokens.reverse ++ earlier) rest := by
  induction tokens generalizing earlier with
  | nil => simp [WellTyped]
  | cons token tokens ih => simp [WellTyped, ih, and_assoc]

theorem typeProblem?_of_kind {schema : Schema} {earlier : List Token} {token : Token}
    (operator : token.kind ≠ .operator) (value : token.kind ≠ .value) :
    typeProblem? schema earlier token = none := by
  unfold typeProblem?
  split
  · next kind => exact absurd kind operator
  · next kind => exact absurd kind value
  · rfl

theorem wellTyped_cons_of_kind {schema : Schema} {earlier tokens : List Token} {token : Token}
    (operator : token.kind ≠ .operator) (value : token.kind ≠ .value) :
    WellTyped schema earlier (token :: tokens) ↔ WellTyped schema (token :: earlier) tokens :=
  and_iff_right (typeProblem?_of_kind operator value)

theorem operatorProblem?_eq_none_iff {property : Property} {symbol : String} {op : Comparator}
    (spelled : Comparator.ofSymbol? symbol = some op) :
    operatorProblem? property symbol = none ↔ op.isLegalFor property.type = true := by
  simp [operatorProblem?, spelled]

theorem literalProblem?_eq_none_iff {property : Property} {literal : String} :
    literalProblem? property literal = none ↔
      (Value.ofLiteral? literal property.type).isSome = true ∧ property.allows literal = true := by
  unfold literalProblem?
  cases Value.ofLiteral? literal property.type <;> simp

theorem wellTyped_clause {schema : Schema} {earlier : List Token} {property operator value : Token}
    {op : Comparator} {span : Span} (kind₁ : property.kind = .property)
    (kind₂ : operator.kind = .operator) (spelled : Comparator.ofSymbol? operator.text = some op)
    (kind₃ : value.kind = .value) :
    WellTyped schema earlier [property, operator, value] ↔
      (schema.contains property.text = true →
        Clause.Typed schema ⟨property.text, op, value.text, span⟩) := by
  have named : schema.named? property = schema.describe? property.text := if_pos kind₁
  rw [wellTyped_cons_of_kind (by simp [kind₁]) (by simp [kind₁])]
  simp only [WellTyped, typeProblem?, kind₂, kind₃, List.getElem?_cons_zero,
    List.getElem?_cons_succ, Option.bind_some, named, Schema.contains, Clause.Typed, and_true]
  cases schema.describe? property.text with
  | none => simp
  | some described =>
    simp [operatorProblem?_eq_none_iff spelled, literalProblem?_eq_none_iff]

theorem wellTyped_iff_known {schema : Schema} {levels : Nat} {tokens : List Token} {rule : Rule}
    (derived : Grammar.Derives levels tokens rule) (earlier : List Token) :
    WellTyped schema earlier tokens ↔
      ∀ clause ∈ rule.clauses, schema.contains clause.property = true → clause.Typed schema := by
  refine derived.clauses_induction (P := fun tokens clauses => ∀ earlier,
    WellTyped schema earlier tokens ↔
      ∀ clause ∈ clauses, schema.contains clause.property = true → clause.Typed schema)
    ?_ ?_ ?_ ?_ earlier
  · intro property operator value op kind₁ kind₂ spelled kind₃ earlier
    rw [wellTyped_clause kind₁ kind₂ spelled kind₃, List.forall_mem_singleton]
  · intro sign tokens clauses is inside earlier
    have kind := Token.kind_of_isConnective is
    rw [wellTyped_cons_of_kind (by simp [kind]) (by simp [kind])]
    exact inside _
  · intro opening closing tokens clauses kind kind' inside earlier
    rw [wellTyped_cons_of_kind (by simp [kind]) (by simp [kind]), wellTyped_append,
      wellTyped_cons_of_kind (by simp [kind']) (by simp [kind']), inside]
    exact and_iff_left trivial
  · intro connective token tokens rest clauses clauses' _ is left right earlier
    have kind := Token.kind_of_isConnective is
    rw [wellTyped_append, wellTyped_cons_of_kind (by simp [kind]) (by simp [kind]), left, right,
      List.forall_mem_append]

theorem wellTyped_iff_clauses {schema : Schema} {levels : Nat} {tokens : List Token} {rule : Rule}
    (known : ∀ token ∈ tokens, token.kind = .property → schema.contains token.text = true)
    (derived : Grammar.Derives levels tokens rule) (earlier : List Token) :
    WellTyped schema earlier tokens ↔ ∀ clause ∈ rule.clauses, clause.Typed schema := by
  rw [wellTyped_iff_known derived]
  refine forall₂_congr fun clause member => forall_prop_of_true ?_
  obtain ⟨token, inside, kind, text⟩ := derived.exists_token member
  exact text ▸ known token inside kind

/-! ## Reports -/

theorem untyped_iff {schema : Schema} {tokens : List Token} (some_token : tokens ≠ []) :
    (schema.validate tokens).report.ofKind .type = [] ↔
      ∀ problem, some problem ∈ problemsBehind schema [] tokens → problem.kind ≠ .type := by
  rw [← forall_inColumn_iff (p := (· ≠ .type)) (length_problemsBehind schema [] tokens),
    Report.ofKind, List.filter_eq_nil_iff]
  simp only [mem_diagnostics some_token, beq_iff_eq]
  refine ⟨fun quiet diagnostic member => quiet diagnostic (.inl member), fun quiet => ?_⟩
  rintro diagnostic (member | member | found | ⟨index, token, -, rfl⟩) is
  · exact quiet diagnostic member is
  · obtain ⟨token, member, -⟩ := Findings.mem_inColumn.1 member
    have ends := List.mem_singleton.1 (List.of_mem_zip member).2
    rw [show diagnostic.kind = .grammar from endProblem?_kind ends.symm] at is
    cases is
  · rw [unmatched?_kind found] at is
    cases is
  · cases is

theorem tokenProblem?_eq {schema : Schema} {earlier : List Token} {token : Token}
    (right : ∀ problem ∈ tokenProblem? schema earlier token, problem.kind = .type) :
    tokenProblem? schema earlier token = typeProblem? schema earlier token := by
  obtain ⟨known, follows⟩ := tokenProblem?_kind_iff.1 right
  rw [← mayFollow_eq_allows] at follows
  simp only [tokenProblem?, known, if_false, follows, if_true]

theorem wellTyped_iff {schema : Schema} {earlier tokens : List Token}
    (right : ∀ problem, some problem ∈ problemsBehind schema earlier tokens →
      problem.kind = .type) :
    (∀ problem, some problem ∈ problemsBehind schema earlier tokens → problem.kind ≠ .type) ↔
      WellTyped schema earlier tokens := by
  induction tokens generalizing earlier with
  | nil => simp [problemsBehind, WellTyped]
  | cons token tokens ih =>
    simp only [problemsBehind, List.mem_cons, or_imp, forall_and] at right ⊢
    have first : ∀ problem ∈ tokenProblem? schema earlier token, problem.kind = .type :=
      fun problem found => right.1 problem found.symm
    rw [WellTyped, ← ih right.2, ← tokenProblem?_eq first, Option.eq_none_iff_forall_ne_some]
    refine and_congr_left fun _ => forall_congr' fun problem => ?_
    exact ⟨fun quiet found => quiet found.symm (first problem found),
      fun quiet found => absurd found.symm (quiet ·)⟩

end Validation

open Validation

/-! ## Tokens that pass validation -/

section

variable {schema : Schema} {tokens : List Token}

theorem exists_parse_of_valid (spelled : Spelled tokens)
    (valid : (schema.validate tokens).report.isValid = true) :
    ∃ rule, Rule.parse tokens = .ok rule ∧ WellTyped schema [] tokens := by
  have silent := List.isEmpty_iff.1 valid
  have some_token : tokens ≠ [] := by
    rintro rfl
    cases silent
  have accepts := (@validate_silent_iff schema _ some_token).1 (by simp [silent])
  have right := ((@accepts_iff schema [] tokens 0 .start (by simp)).1 accepts).1
  have typed : (schema.validate tokens).report.ofKind .type = [] := by
    rw [Report.ofKind, silent, List.filter_nil]
  rw [untyped_iff some_token, wellTyped_iff right] at typed
  obtain ⟨rule, derived⟩ := derives_of_accepts spelled accepts
  exact ⟨rule, Rule.parse_of_derives derived, typed⟩

def Clause.Sound (schema : Schema) (clause : Clause) : Prop :=
  schema.contains clause.property = true ∧ ¬ clause.Misspelt schema

theorem exists_compile_iff_sound {rule : Rule} (parsed : Rule.parse tokens = .ok rule)
    (typed : WellTyped schema [] tokens) {clause : Clause} (member : clause ∈ rule.clauses) :
    (∃ comparison, clause.compile schema = .ok comparison) ↔ clause.Sound schema := by
  rw [Clause.exists_compile_iff]
  refine and_congr_left fun _ => ⟨?_, ?_⟩
  · rintro ⟨property, found, -⟩
    exact Option.isSome_iff_exists.2 ⟨property, found⟩
  · exact (wellTyped_iff_known (Rule.derives_of_parse parsed) []).1 typed clause member

theorem compile_of_typed {rule : Rule} (parsed : Rule.parse tokens = .ok rule)
    (typed : WellTyped schema [] tokens) :
    ((∃ condition, schema.compile tokens = .ok condition) ↔
        ∀ clause ∈ rule.clauses, clause.Sound schema) ∧
      ∀ name, schema.compile tokens = .error (.unknownProperty name) ↔
        ∃ before clause after, rule.clauses = before ++ clause :: after ∧
          (∀ earlier ∈ before, earlier.Sound schema) ∧
          clause.property = name ∧ schema.contains clause.property = false := by
  have sound := @exists_compile_iff_sound schema tokens rule parsed typed
  have compiled : schema.compile tokens = rule.compile schema := by
    rw [Schema.compile, parsed]
  rw [compiled]
  constructor
  · rw [Rule.exists_compile_iff]
    exact forall₂_congr fun clause member => sound member
  · intro name
    rw [Rule.compile_eq_error_iff, List.findSome?_eq_some_iff]
    refine exists_congr fun before => exists_congr fun clause => exists_congr fun after => ?_
    rw [Clause.error?_eq_some_iff, Clause.compile_eq_unknown_iff]
    refine and_congr_right fun split => ?_
    rw [and_comm]
    refine and_congr_left fun _ => forall₂_congr fun earlier member => ?_
    rw [Clause.error?_eq_none_iff, sound (split ▸ List.mem_append_left _ member)]

end

namespace Lexicon

/-- A rule compiles where validation finds nothing wrong with types, unless a literal of it is
misspelt in the schema. In particular this is when a valid rule compiles. -/
theorem compiles_iff_typed (lexicon : Lexicon) (text : String) :
    (∀ rule, Rule.parse (lexicon.tokens text) = .ok rule →
      ((∃ condition, rule.compile lexicon.schema = .ok condition) ↔
        (lexicon.schema.validate (lexicon.tokens text)).report.ofKind .type = [] ∧
          ∀ clause ∈ rule.clauses, ¬ clause.Misspelt lexicon.schema)) ∧
    ((lexicon.schema.validate (lexicon.tokens text)).report.isValid = true →
      ∃ rule, Rule.parse (lexicon.tokens text) = .ok rule ∧
        ((∃ condition, rule.compile lexicon.schema = .ok condition) ↔
          ∀ clause ∈ rule.clauses, ¬ clause.Misspelt lexicon.schema)) := by
  have typed (rule : Rule) (parsed : Rule.parse (lexicon.tokens text) = .ok rule) :
      (∃ condition, rule.compile lexicon.schema = .ok condition) ↔
        (lexicon.schema.validate (lexicon.tokens text)).report.ofKind .type = [] ∧
          ∀ clause ∈ rule.clauses, ¬ clause.Misspelt lexicon.schema := by
    have derived := Rule.derives_of_parse parsed
    have right := ((@accepts_iff lexicon.schema [] _ 0 .start (by simp)).1
      (accepts_of_derives derived)).1
    have known := fun token member => (lexicon.genuine_tokens text token member).property
    rw [untyped_iff derived.ne_nil, wellTyped_iff right, wellTyped_iff_clauses known derived,
      Rule.exists_compile_iff]
    simp only [Clause.exists_compile_iff, forall_and]
  refine ⟨typed, fun valid => ?_⟩
  have silent := List.isEmpty_iff.1 valid
  have some_token : lexicon.tokens text ≠ [] := by
    intro none
    rw [none] at silent
    cases silent
  have quiet : ∀ diagnostic ∈ (lexicon.schema.validate (lexicon.tokens text)).report.diagnostics,
      diagnostic.kind = .type := by simp [silent]
  have accepts := (validate_silent_iff some_token).1 quiet
  obtain ⟨rule, derived⟩ := derives_of_accepts (lexicon.spelled_tokens text) accepts
  have parsed := Rule.parse_of_derives derived
  refine ⟨rule, parsed, (typed rule parsed).trans (and_iff_right ?_)⟩
  rw [Report.ofKind, silent, List.filter_nil]

theorem compiles_iff_typed_age :
    let lexicon : Lexicon := ⟨⟨[⟨"Age", .integer, some ["1"]⟩], by decide⟩, true⟩
    let rule : Rule := .clause ⟨"Age", .gt, "1", ⟨0, 7⟩⟩
    Rule.parse (lexicon.tokens "Age > 1") = .ok rule ∧
      ((∃ condition, rule.compile lexicon.schema = .ok condition) ↔
        (lexicon.schema.validate (lexicon.tokens "Age > 1")).report.ofKind .type = [] ∧
          ∀ clause ∈ rule.clauses, ¬ clause.Misspelt lexicon.schema) ∧
      (lexicon.schema.validate (lexicon.tokens "Age > 1")).report.isValid = true ∧
      ∃ rule, Rule.parse (lexicon.tokens "Age > 1") = .ok rule ∧
        ((∃ condition, rule.compile lexicon.schema = .ok condition) ↔
          ∀ clause ∈ rule.clauses, ¬ clause.Misspelt lexicon.schema) := by
  intro lexicon rule
  have read : lexicon.tokens "Age > 1" = [⟨.property, "Age", ⟨0, 3⟩, none⟩,
      ⟨.operator, ">", ⟨4, 5⟩, none⟩, ⟨.value, "1", ⟨6, 7⟩, none⟩] :=
    reads_iff.1 (.token rfl rfl (.blank rfl (.token rfl rfl (.blank rfl (.token rfl rfl .done)))))
  have parsed : Rule.parse (lexicon.tokens "Age > 1") = .ok rule := by
    rw [read]
    rfl
  have valid : (lexicon.schema.validate (lexicon.tokens "Age > 1")).report.isValid = true := by
    rw [read]
    exact List.isEmpty_iff.2 (List.mergeSort_nil ..)
  exact ⟨parsed, (compiles_iff_typed lexicon "Age > 1").1 rule parsed, valid,
    (compiles_iff_typed lexicon "Age > 1").2 valid⟩

theorem not_compiles_iff_typed :
    ¬ ∀ (lexicon : Lexicon) (text : String) (rule : Rule),
      Rule.parse (lexicon.tokens text) = .ok rule →
        ((lexicon.schema.validate (lexicon.tokens text)).report.ofKind .type = [] ↔
          ∃ condition, rule.compile lexicon.schema = .ok condition) := by
  intro claimed
  let schema : Schema := ⟨[⟨"Joined", .dateTime, some ["2024-01-01t00:00:00"]⟩], by decide⟩
  let lexicon : Lexicon := ⟨schema, true⟩
  have read : lexicon.tokens "Joined == '2024-01-01T00:00:00'" =
      [⟨.property, "Joined", ⟨0, 6⟩, none⟩, ⟨.operator, "==", ⟨7, 9⟩, none⟩,
        ⟨.value, "'2024-01-01T00:00:00'", ⟨10, 31⟩, none⟩] :=
    reads_iff.1 (.token rfl rfl (.blank rfl (.token rfl rfl (.blank rfl (.token rfl rfl .done)))))
  let rule : Rule := .clause ⟨"Joined", .eq, "'2024-01-01T00:00:00'", ⟨0, 31⟩⟩
  have same := claimed lexicon "Joined == '2024-01-01T00:00:00'" rule
  rw [untyped_iff (by simp [read]), read] at same
  obtain ⟨compiles, -⟩ := same rfl
  have quiet : problemsBehind schema [] [⟨.property, "Joined", ⟨0, 6⟩, none⟩,
      ⟨.operator, "==", ⟨7, 9⟩, none⟩, ⟨.value, "'2024-01-01T00:00:00'", ⟨10, 31⟩, none⟩] =
      [none, none, none] := by decide +kernel
  obtain ⟨condition, compiled⟩ := compiles (by rw [quiet]; simp)
  have fails : rule.compile schema =
      .error (.valueNotAllowed "'2024-01-01T00:00:00'" "Joined") := by rfl
  cases fails.symm.trans compiled

end Lexicon
end RuleFilter

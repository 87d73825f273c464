import RuleFilter.Proofs.Condition.Compiling
import RuleFilter.Proofs.Rule.Parsing
import RuleFilter.Proofs.Rule.Pieces
import RuleFilter.Proofs.Token.Reading
import RuleFilter.Schema.Naming

/-!
# The meaning of a rule

`meaning` tests a target by the tokens of a rule, without a tree: tokens are cut at the ORs outside
parentheses, then at the ANDs, and what is left is a negation, a rule in parentheses or a clause.
What a literal stands for is a parameter.

A compiled rule means the same (`Schema.holds_eq_meaning`) where literals are taken in the spelling
that the schema has for them. Taken as they are written they may mean something else
(`Schema.not_holds_eq_meaning_written`).
-/

namespace RuleFilter

abbrev LiteralMeaning := Property → String → Option Value

namespace LiteralMeaning

def written : LiteralMeaning := fun property literal =>
  Value.ofLiteral? literal property.type

/-- A literal stands for the allowed value that it matches, as the schema spells it, and otherwise
for the value that it denotes as it is written. -/
def registered : LiteralMeaning := fun property literal =>
  Value.ofLiteral? ((property.spelling? literal).getD literal) property.type

end LiteralMeaning

/-- Whether a property, an operator and a value hold of a target: the value of the target, brought
to the type of the property, compares with the literal. It does not if there is no such value. -/
def clauseMeaning (literal : LiteralMeaning) (schema : Schema) (target : Target) :
    List Token → Bool
  | [name, operator, value] =>
    match schema.named? name, Comparator.ofSymbol? operator.text with
    | some property, some op =>
      match (target property.name).bind (·.coerce? property.type), literal property value.text with
      | some actual, some operand => op.holds actual operand
      | _, _ => false
    | _, _ => false
  | _ => false

/-- Whether the tokens of a rule hold of a target. They are cut at OR outside all parentheses, and
each part at AND. A part that begins with NOT negates the rest, one in parentheses means what is
inside, and any other is a clause. -/
def meaning (literal : LiteralMeaning) (schema : Schema) (target : Target) (tokens : List Token) :
    Bool :=
  (pieces .or 0 tokens).attach.any fun ⟨disjunct, _⟩ =>
    (pieces .and 0 disjunct).attach.all fun ⟨part, _⟩ =>
      match part with
      | [] => false
      | first :: rest =>
        if first.isConnective .not then !meaning literal schema target rest
        else if first.kind = .openParen then meaning literal schema target rest.dropLast
        else clauseMeaning literal schema target (first :: rest)
termination_by tokens.length
decreasing_by
  all_goals
    have := length_of_mem_pieces ‹_ ∈ pieces .or 0 tokens›
    have := length_of_mem_pieces ‹_ ∈ pieces .and 0 _›
    simp only [List.length_cons, List.length_dropLast] at *
    omega

section

variable (literal : LiteralMeaning) (schema : Schema) (target : Target)

def partMeaning : List Token → Bool
  | [] => false
  | first :: rest =>
    if first.isConnective .not then !meaning literal schema target rest
    else if first.kind = .openParen then meaning literal schema target rest.dropLast
    else clauseMeaning literal schema target (first :: rest)

theorem meaning_eq (tokens : List Token) :
    meaning literal schema target tokens =
      (pieces .or 0 tokens).any fun disjunct =>
        (pieces .and 0 disjunct).all (partMeaning literal schema target) := by
  rw [meaning]
  refine (List.any_subtype fun disjunct _ => ?_).trans
    (congrArg (List.any · _) List.unattach_attach)
  refine (List.all_subtype fun part _ => ?_).trans (congrArg (List.all · _) List.unattach_attach)
  cases part <;> rfl

end

/-! ## Conditions have the meaning of their tokens -/

open Grammar

theorem LiteralMeaning.registered_of_operand {property : Property} {literal : String}
    {operand : Value} (h : property.operand literal = .ok operand) :
    registered property literal = some operand := by
  unfold Property.operand at h
  split at h
  · cases h
  next value written =>
    split at h
    · next free =>
      cases h
      have unlimited : property.spelling? literal = none := by
        rw [Property.spelling?, Option.isNone_iff_eq_none.1 free, Option.bind_none]
      rw [registered, unlimited, Option.getD_none, written]
    · split at h
      · cases h
      · next found =>
        cases h
        obtain ⟨spelling, spelled, read⟩ := Option.bind_eq_some_iff.1 found
        rw [registered, spelled, Option.getD_some, read]

section

variable {schema : Schema} {target : Target} {tokens : List Token} {rule : Rule}
  {condition : Condition}

theorem clauseMeaning_eq {property operator value : Token} {op : Comparator} {span : Span}
    (kind : property.kind = .property) (spelled : Comparator.ofSymbol? operator.text = some op)
    (compiles : (Rule.clause ⟨property.text, op, value.text, span⟩).compile schema =
      .ok condition) :
    clauseMeaning .registered schema target [property, operator, value] =
      condition.holds target := by
  obtain ⟨comparison, compiled, rfl⟩ := map_eq_ok_iff.1 (by rwa [Rule.compile] at compiles)
  unfold Clause.compile at compiled
  split at compiled
  · cases compiled
  next described found =>
    split at compiled
    · obtain ⟨operand, read, rfl⟩ := map_eq_ok_iff.1 compiled
      have named : schema.named? property = some described := by
        rw [Schema.named?, if_pos kind, found]
      simp only [clauseMeaning, named, spelled, LiteralMeaning.registered_of_operand read,
        Condition.holds, Comparison.holds]
      cases (target described.name).bind (·.coerce? described.type) <;> rfl
    · cases compiled

theorem meaning_of_disjunction {levels : Nat}
    (parts : ∀ tokens rule condition, Unary levels tokens rule →
      rule.compile schema = .ok condition →
      partMeaning .registered schema target tokens = condition.holds target)
    (derived : Disjunction (Unary levels) tokens rule)
    (compiles : rule.compile schema = .ok condition) :
    meaning .registered schema target tokens = condition.holds target := by
  have conjunctions (tokens : List Token) (rule : Rule) (condition : Condition)
      (derived : Conjunction (Unary levels) tokens rule)
      (compiles : rule.compile schema = .ok condition) :
      (pieces .and 0 tokens).all (partMeaning .registered schema target) =
        condition.holds target := by
    obtain ⟨rules, run, rfl⟩ := joined_iff.1 derived
    obtain ⟨conditions, compiled, rfl⟩ :=
      (Rule.compile_join fun rules => by rw [Rule.compile]).1 compiles
    have cut := run.pieces_map (fun _ _ part => part.whole (by decide) 0) parts compiled
    rw [Condition.holds_join_all]
    simpa only [List.all_map, Function.id_comp] using congrArg (List.all · id) cut
  obtain ⟨rules, run, rfl⟩ := joined_iff.1 derived
  obtain ⟨conditions, compiled, rfl⟩ :=
    (Rule.compile_join fun rules => by rw [Rule.compile]).1 compiles
  have cut := run.pieces_map (fun _ _ part => part.whole) conjunctions compiled
  rw [meaning_eq, Condition.holds_join_any]
  simpa only [List.any_map, Function.id_comp] using congrArg (List.any · id) cut

theorem meaning_eq_partMeaning {literal : LiteralMeaning} {levels : Nat}
    (derived : Unary levels tokens rule) :
    meaning literal schema target tokens = partMeaning literal schema target tokens := by
  have disjunct : pieces .or 0 tokens = [tokens] := (derived.whole (by decide) 0).pieces_eq
  have part : pieces .and 0 tokens = [tokens] := (derived.whole (by decide) 0).pieces_eq
  simp [meaning_eq, disjunct, part]

theorem partMeaning_of_unary {levels : Nat} (derived : Unary levels tokens rule)
    (compiles : rule.compile schema = .ok condition) :
    partMeaning .registered schema target tokens = condition.holds target := by
  have clause {property operator value : Token} {op : Comparator} {condition : Condition}
      (kind : property.kind = .property) (spelled : Comparator.ofSymbol? operator.text = some op)
      (compiles : (Rule.clause ⟨property.text, op, value.text, ⟨property.span.start,
        value.span.stop⟩⟩).compile schema = .ok condition) :
      partMeaning .registered schema target [property, operator, value] =
        condition.holds target := by
    have other : property.isConnective .not = false :=
      Token.isConnective_false_of_kind (by simp [kind])
    rw [partMeaning, other, kind]
    exact clauseMeaning_eq kind spelled compiles
  induction levels generalizing tokens rule condition with
  | zero =>
    cases derived with
    | clause kind _ spelled _ => exact clause kind spelled compiles
    | negation _ inner => exact inner.elim
    | group _ inner _ => exact (not_disjunction_false inner).elim
  | succ levels ih =>
    cases derived with
    | clause kind _ spelled _ => exact clause kind spelled compiles
    | negation is inner =>
      obtain ⟨negated, compiled, rfl⟩ := map_eq_ok_iff.1 (by rwa [Rule.compile] at compiles)
      rw [partMeaning, if_pos is, meaning_eq_partMeaning inner, ih inner compiled,
        Condition.holds]
    | @group opening closing tokens _ opens inner closes =>
      have other : opening.isConnective .not = false :=
        Token.isConnective_false_of_kind (by simp [opens])
      rw [partMeaning, other, if_neg Bool.false_ne_true, if_pos opens, List.dropLast_concat]
      exact meaning_of_disjunction (fun _ _ _ => ih) inner compiles

end

namespace Schema

/-- The condition of a rule holds of the targets of which its tokens hold, where a literal that
matches an allowed value stands for that value as the schema spells it. -/
theorem holds_eq_meaning {schema : Schema} {tokens : List Token} {condition : Condition}
    (compiles : schema.compile tokens = .ok condition) (target : Target) :
    condition.holds target = meaning .registered schema target tokens := by
  obtain ⟨rule, parsed, compiled⟩ := compile_eq_ok_iff.1 compiles
  exact (meaning_of_disjunction (fun _ _ _ => partMeaning_of_unary)
    (Rule.derives_of_parse parsed) compiled).symm

theorem holds_eq_meaning_status :
    let schema : Schema :=
      ⟨[⟨"Age", .integer, none⟩, ⟨"Status", .string, some ["Open"]⟩], by decide⟩
    let tokens : List Token := [⟨.logical, "not", ⟨0, 3⟩, none⟩, ⟨.openParen, "(", ⟨4, 5⟩, none⟩,
      ⟨.property, "age", ⟨5, 8⟩, none⟩, ⟨.operator, ">", ⟨9, 10⟩, none⟩,
      ⟨.value, "17", ⟨11, 13⟩, none⟩, ⟨.logical, "or", ⟨14, 16⟩, none⟩,
      ⟨.property, "Age", ⟨17, 20⟩, none⟩, ⟨.operator, "<", ⟨21, 22⟩, none⟩,
      ⟨.value, "5", ⟨23, 24⟩, none⟩, ⟨.closeParen, ")", ⟨24, 25⟩, none⟩,
      ⟨.logical, "AND", ⟨26, 29⟩, none⟩, ⟨.property, "Status", ⟨30, 36⟩, none⟩,
      ⟨.operator, "==", ⟨37, 39⟩, none⟩, ⟨.value, "'open'", ⟨40, 46⟩, none⟩]
    let condition : Condition := .all [
      .negation (.any [.comparison ⟨"Age", .integer, .gt, .integer 17⟩,
        .comparison ⟨"Age", .integer, .lt, .integer 5⟩]),
      .comparison ⟨"Status", .string, .eq, .string "Open"⟩]
    let target : Target := .ofFields [("Age", .integer 12), ("Status", .string "Open")]
    schema.compile tokens = .ok condition ∧
      condition.holds target = meaning .registered schema target tokens ∧
      condition.holds target = true := by
  intro schema tokens condition target
  have compiles : schema.compile tokens = .ok condition := by rfl
  exact ⟨compiles, holds_eq_meaning compiles target, by decide⟩

theorem not_holds_eq_meaning_written :
    ¬ ∀ (schema : Schema) (tokens : List Token) (condition : Condition) (target : Target),
      schema.compile tokens = .ok condition →
        condition.holds target = meaning .written schema target tokens := by
  intro claimed
  let schema : Schema := ⟨[⟨"Status", .string, some ["Open"]⟩], by decide⟩
  let tokens : List Token := [⟨.property, "Status", ⟨0, 6⟩, none⟩,
    ⟨.operator, "==", ⟨7, 9⟩, none⟩, ⟨.value, "'open'", ⟨10, 16⟩, none⟩]
  have derived : Unary 0 tokens _ :=
    .clause 0 rfl rfl (show Comparator.ofSymbol? "==" = some .eq by decide) rfl
  have compiles : schema.compile tokens =
      .ok (.comparison ⟨"Status", .string, .eq, .string "Open"⟩) := by rfl
  have same := claimed schema tokens _ (.ofFields [("Status", .string "open")]) compiles
  rw [meaning_eq_partMeaning derived] at same
  revert same
  decide

end Schema
end RuleFilter

import RuleFilter.Proofs.Condition.Compiling
import RuleFilter.Proofs.Schema.Lookup
import RuleFilter.Proofs.Value.Typing

namespace RuleFilter

namespace Condition

mutual

def leaves : Condition → List Comparison
  | .comparison c => [c]
  | .all conditions => leavesOf conditions
  | .any conditions => leavesOf conditions
  | .negation condition => leaves condition

def leavesOf : List Condition → List Comparison
  | [] => []
  | condition :: conditions => leaves condition ++ leavesOf conditions

end

theorem leavesOf_append (front back : List Condition) :
    leavesOf (front ++ back) = leavesOf front ++ leavesOf back := by
  induction front with
  | nil => rfl
  | cons condition front ih => rw [List.cons_append, leavesOf, leavesOf, ih, List.append_assoc]

end Condition

namespace Rule

mutual

theorem leaves_of_compile (schema : Schema) : ∀ (rule : Rule) (condition : Condition),
    rule.compile schema = .ok condition →
      rule.clauses.map (Clause.compile schema) = condition.leaves.map .ok
  | .clause c, condition, compiles => by
    rw [compile] at compiles
    obtain ⟨comparison, compiled, rfl⟩ := map_eq_ok_iff.1 compiles
    rw [clauses_clause, Condition.leaves, List.map_singleton, compiled, List.map_singleton]
  | .all rules, condition, compiles => by
    rw [compile] at compiles
    obtain ⟨conditions, compiled, rfl⟩ := map_eq_ok_iff.1 compiles
    rw [clauses_all, Condition.leaves]
    exact leaves_of_compileFrom schema rules [] conditions compiled
  | .any rules, condition, compiles => by
    rw [compile] at compiles
    obtain ⟨conditions, compiled, rfl⟩ := map_eq_ok_iff.1 compiles
    rw [clauses_any, Condition.leaves]
    exact leaves_of_compileFrom schema rules [] conditions compiled
  | .negation rule, condition, compiles => by
    rw [compile] at compiles
    obtain ⟨negated, compiled, rfl⟩ := map_eq_ok_iff.1 compiles
    rw [clauses_negation, Condition.leaves]
    exact leaves_of_compile schema rule negated compiled

theorem leaves_of_compileFrom (schema : Schema) : ∀ (rules : List Rule)
    (taken conditions : List Condition), compileFrom schema taken rules = .ok conditions →
      (Condition.leavesOf taken.reverse).map .ok ++
          (rules.flatMap clauses).map (Clause.compile schema) =
        (Condition.leavesOf conditions).map .ok
  | [], taken, conditions, compiles => by
    cases compiles
    exact List.append_nil _
  | rule :: rules, taken, conditions, compiles => by
    rw [compileFrom] at compiles
    split at compiles
    · cases compiles
    · next condition compiled =>
      have first := leaves_of_compile schema rule condition compiled
      rw [← leaves_of_compileFrom schema rules (condition :: taken) conditions compiles]
      simp [Condition.leavesOf_append, Condition.leavesOf, first]

end

end Rule

/-! ## Well-typed comparisons -/

/-- Whether a comparison is of a property of the schema and of its type, with an operator for that
type and an operand of it that compares with others. -/
structure Comparison.WellTyped (schema : Schema) (comparison : Comparison) : Prop where
  registered : ∃ property ∈ schema.properties,
    comparison.property = property.name ∧ comparison.type = property.type
  legal : comparison.op.isLegalFor comparison.type = true
  operand : comparison.operand.HasType comparison.type
  number : comparison.operand ≠ .decimal .nan

theorem Property.exists_of_operand {property : Property} {literal : String} {value : Value}
    (h : property.operand literal = .ok value) :
    ∃ text, Value.ofLiteral? text property.type = some value := by
  unfold operand at h
  split at h
  · cases h
  next read =>
  split at h
  · cases h
    exact ⟨literal, read⟩
  split at h
  · cases h
  · next found =>
    cases h
    obtain ⟨spelling, -, read⟩ := Option.bind_eq_some_iff.1 found
    exact ⟨spelling, read⟩

theorem Clause.wellTyped_of_compile {schema : Schema} {clause : Clause} {comparison : Comparison}
    (h : clause.compile schema = .ok comparison) : comparison.WellTyped schema := by
  unfold compile at h
  split at h
  · cases h
  next property described =>
  split at h
  · next legal =>
    obtain ⟨value, stands, rfl⟩ := map_eq_ok_iff.1 h
    obtain ⟨text, read⟩ := property.exists_of_operand stands
    obtain ⟨typed, number⟩ := Value.hasType_of_ofLiteral? read
    have member := (Schema.describe?_eq_some_iff.1 described).1
    exact ⟨⟨property, member, rfl, rfl⟩, legal, typed, number⟩
  · cases h

def Comparison.answer (comparison : Comparison) (target : Target) (op : Comparator) : Bool :=
  Comparison.holds ⟨comparison.property, comparison.type, op, comparison.operand⟩ target

theorem Comparison.WellTyped.coherent {schema : Schema} {comparison : Comparison}
    (well : comparison.WellTyped schema) {target : Target} {actual : Value}
    (found : (target comparison.property).bind (·.coerce? comparison.type) = some actual)
    (number : actual ≠ .decimal .nan) : Comparator.Coherent (comparison.answer target) := by
  obtain ⟨value, -, coerced⟩ := Option.bind_eq_some_iff.1 found
  obtain ⟨order, compared⟩ := Value.exists_compare? (Value.hasType_of_coerce? coerced) well.operand
    number well.number
  have answers : comparison.answer target = fun op => op.holds actual comparison.operand := by
    funext op
    simp only [answer, holds, found]
  rw [answers]
  exact .of_compare? compared

namespace Schema

theorem wellTyped_of_compile {schema : Schema} {tokens : List Token} {condition : Condition}
    (compiles : schema.compile tokens = .ok condition) :
    ∀ leaf ∈ condition.leaves, leaf.WellTyped schema := by
  intro leaf member
  obtain ⟨rule, -, compiled⟩ := compile_eq_ok_iff.1 compiles
  have same := rule.leaves_of_compile schema condition compiled
  have listed : Except.ok leaf ∈ rule.clauses.map (Clause.compile schema) :=
    same ▸ List.mem_map_of_mem member
  obtain ⟨clause, -, compiled⟩ := List.mem_map.1 listed
  exact Clause.wellTyped_of_compile compiled

/-- The comparisons of a compiled rule are well typed, and coercion gives values of the type asked
for and leaves those alone. So a comparison fails under every operator where the target has no value
of its type, and elsewhere the operators agree with each other. -/
theorem coherent_of_compile (schema : Schema) :
    (∀ (value : Value) (type : PropertyType) (actual : Value),
      value.coerce? type = some actual →
        actual.HasType type ∧ actual.coerce? type = some actual) ∧
    ∀ tokens condition, schema.compile tokens = .ok condition →
      ∀ leaf ∈ condition.leaves, leaf.WellTyped schema ∧ ∀ target : Target,
        ((target leaf.property).bind (·.coerce? leaf.type) = none →
          ∀ op, leaf.answer target op = false) ∧
        ∀ actual, (target leaf.property).bind (·.coerce? leaf.type) = some actual →
          actual ≠ .decimal .nan → Comparator.Coherent (leaf.answer target) := by
  constructor
  · intro value type actual coerced
    have typed := Value.hasType_of_coerce? coerced
    exact ⟨typed, Value.coerce?_of_hasType typed⟩
  · intro tokens condition compiles leaf member
    have well := wellTyped_of_compile compiles leaf member
    refine ⟨well, fun target => ⟨fun missing op => ?_, fun actual found number => ?_⟩⟩
    · simp only [Comparison.answer, Comparison.holds, missing]
    · exact well.coherent found number

theorem coherent_of_compile_age :
    let schema : Schema := ⟨[⟨"Age", .integer, none⟩], by decide⟩
    let tokens : List Token := [⟨.logical, "not", ⟨0, 3⟩, none⟩, ⟨.property, "age", ⟨4, 7⟩, none⟩,
      ⟨.operator, ">=", ⟨8, 10⟩, none⟩, ⟨.value, "'18'", ⟨11, 15⟩, none⟩]
    let leaf : Comparison := ⟨"Age", .integer, .ge, .integer 18⟩
    let target : Target := .ofFields [("AGE", .string "17")]
    schema.compile tokens = .ok (.negation (.comparison leaf)) ∧ leaf.WellTyped schema ∧
      Comparator.Coherent (leaf.answer target) := by
  intro schema tokens leaf target
  have compiles : schema.compile tokens = .ok (.negation (.comparison leaf)) := by rfl
  obtain ⟨well, answers⟩ :=
    (coherent_of_compile schema).2 tokens _ compiles leaf List.mem_cons_self
  have found : (target "Age").bind (·.coerce? .integer) = some (.integer 17) := by decide
  exact ⟨compiles, well, (answers target).2 _ found nofun⟩

end Schema
end RuleFilter

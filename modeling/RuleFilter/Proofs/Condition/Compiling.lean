import RuleFilter.Condition.Compiler
import RuleFilter.Proofs.Rule.Clauses

namespace RuleFilter

def Condition.join (node : List Condition → Condition) : List Condition → Condition
  | [condition] => condition
  | conditions => node conditions

namespace Condition

theorem holds_join_all (target : Target) (conditions : List Condition) :
    (join .all conditions).holds target = conditions.all (holds target) := by
  unfold join
  split
  · simp
  · rw [holds, allHold_eq_all]

theorem holds_join_any (target : Target) (conditions : List Condition) :
    (join .any conditions).holds target = conditions.any (holds target) := by
  unfold join
  split
  · simp
  · rw [holds, anyHolds_eq_any]

end Condition

theorem map_eq_ok_iff {ε α β : Type} {x : Except ε α} {f : α → β} {b : β} :
    x.map f = .ok b ↔ ∃ a, x = .ok a ∧ f a = b := by
  cases x <;> simp [Except.map]

theorem map_eq_error_iff {ε α β : Type} {x : Except ε α} {f : α → β} {error : ε} :
    x.map f = .error error ↔ x = .error error := by
  cases x <;> simp [Except.map]

theorem exists_map_eq_ok_iff {ε α β : Type} {x : Except ε α} {f : α → β} :
    (∃ b, x.map f = .ok b) ↔ ∃ a, x = .ok a := by
  cases x <;> simp [Except.map]

def Clause.error? (schema : Schema) (clause : Clause) : Option CompileError :=
  match clause.compile schema with
  | .error error => some error
  | .ok _ => none

namespace Clause

theorem error?_eq_some_iff {schema : Schema} {clause : Clause} {error : CompileError} :
    clause.error? schema = some error ↔ clause.compile schema = .error error := by
  unfold error?
  cases clause.compile schema <;> simp

theorem error?_eq_none_iff {schema : Schema} {clause : Clause} :
    clause.error? schema = none ↔ ∃ comparison, clause.compile schema = .ok comparison := by
  unfold error?
  cases clause.compile schema <;> simp

theorem compile_eq_unknown_iff {schema : Schema} {clause : Clause} {name : String} :
    clause.compile schema = .error (.unknownProperty name) ↔
      clause.property = name ∧ schema.contains clause.property = false := by
  unfold compile Schema.contains
  cases schema.describe? clause.property with
  | none => simp
  | some property =>
    simp only [Option.isSome_some, Bool.true_eq_false, and_false, iff_false]
    split
    · rw [map_eq_error_iff, Property.operand]
      repeat' split
      all_goals nofun
    · nofun

end Clause

namespace Rule

theorem compileFrom_eq_ok_iff {schema : Schema} {taken conditions : List Condition}
    {rules : List Rule} :
    compileFrom schema taken rules = .ok conditions ↔
      ∃ found, rules.map (compile schema) = found.map .ok ∧
        conditions = taken.reverse ++ found := by
  induction rules generalizing taken with
  | nil => simp [compileFrom, eq_comm]
  | cons rule rules ih =>
    simp only [compileFrom, List.map_cons, @eq_comm _ (_ :: _), List.map_eq_cons_iff]
    cases compiled : compile schema rule with
    | error error => simp
    | ok condition =>
      simp only [ih]
      constructor
      · rintro ⟨found, others, rfl⟩
        exact ⟨condition :: found, ⟨condition, found, rfl, rfl, others.symm⟩, by simp⟩
      · rintro ⟨_, ⟨_, found, rfl, first, others⟩, rfl⟩
        cases first
        exact ⟨found, others.symm, by simp⟩

theorem compile_join {schema : Schema} {node : List Rule → Rule}
    {node' : List Condition → Condition}
    (compiles : ∀ rules, (node rules).compile schema = (compileFrom schema [] rules).map node')
    {rules : List Rule} {condition : Condition} :
    (join node rules).compile schema = .ok condition ↔
      ∃ conditions, rules.map (compile schema) = conditions.map .ok ∧
        Condition.join node' conditions = condition := by
  have several : (node rules).compile schema = .ok condition ↔
      ∃ conditions, rules.map (compile schema) = conditions.map .ok ∧
        node' conditions = condition := by
    rw [compiles, map_eq_ok_iff]
    simp only [compileFrom_eq_ok_iff, List.reverse_nil, List.nil_append]
    grind
  -- A single rule is joined to itself on both sides, and all others make a node.
  rcases rules with - | ⟨rule, _ | ⟨second, rules⟩⟩
  · rw [join, several]
    · refine exists_congr fun conditions => and_congr_right fun same => ?_
      rw [List.map_eq_nil_iff.1 same.symm, Condition.join]
      nofun
    · nofun
  · simp only [join, List.map_cons, List.map_nil, @eq_comm _ [_], List.map_eq_cons_iff,
      List.map_eq_nil_iff]
    constructor
    · intro compiled
      exact ⟨[condition], ⟨condition, [], rfl, compiled.symm, rfl⟩, rfl⟩
    · rintro ⟨_, ⟨_, _, rfl, compiled, rfl⟩, rfl⟩
      exact compiled.symm
  · rw [join, several]
    · refine exists_congr fun conditions => and_congr_right fun same => ?_
      obtain ⟨first, others, rfl, -, rest⟩ := List.map_eq_cons_iff.1 same.symm
      obtain ⟨second', others, rfl, -, -⟩ := List.map_eq_cons_iff.1 rest
      rw [Condition.join]
      nofun
    · nofun

mutual

theorem exists_compile_iff (schema : Schema) : ∀ rule : Rule,
    (∃ condition, rule.compile schema = .ok condition) ↔
      ∀ clause ∈ rule.clauses, ∃ comparison, clause.compile schema = .ok comparison
  | .clause c => by
    rw [compile, exists_map_eq_ok_iff, clauses_clause, List.forall_mem_singleton]
  | .all rules => by
    rw [compile, exists_map_eq_ok_iff, clauses_all, exists_compileFrom_iff schema [] rules]
  | .any rules => by
    rw [compile, exists_map_eq_ok_iff, clauses_any, exists_compileFrom_iff schema [] rules]
  | .negation rule => by
    rw [compile, exists_map_eq_ok_iff, clauses_negation, exists_compile_iff schema rule]

theorem exists_compileFrom_iff (schema : Schema) (taken : List Condition) : ∀ rules : List Rule,
    (∃ conditions, compileFrom schema taken rules = .ok conditions) ↔
      ∀ clause ∈ rules.flatMap clauses, ∃ comparison, clause.compile schema = .ok comparison
  | [] => by simp [compileFrom]
  | rule :: rules => by
    have first := exists_compile_iff schema rule
    simp only [compileFrom, List.flatMap_cons, List.mem_append, or_imp, forall_and, ← first]
    cases compile schema rule with
    | error error => simp
    | ok condition => simpa using exists_compileFrom_iff schema (condition :: taken) rules

end

mutual

theorem compile_eq_error_iff (schema : Schema) (error : CompileError) : ∀ rule : Rule,
    rule.compile schema = .error error ↔
      rule.clauses.findSome? (Clause.error? schema) = some error
  | .clause c => by
    rw [compile, map_eq_error_iff, clauses_clause, List.findSome?_singleton,
      Clause.error?_eq_some_iff]
  | .all rules => by
    rw [compile, map_eq_error_iff, clauses_all, compileFrom_eq_error_iff schema error [] rules]
  | .any rules => by
    rw [compile, map_eq_error_iff, clauses_any, compileFrom_eq_error_iff schema error [] rules]
  | .negation rule => by
    rw [compile, map_eq_error_iff, clauses_negation, compile_eq_error_iff schema error rule]

theorem compileFrom_eq_error_iff (schema : Schema) (error : CompileError)
    (taken : List Condition) : ∀ rules : List Rule,
    compileFrom schema taken rules = .error error ↔
      (rules.flatMap clauses).findSome? (Clause.error? schema) = some error
  | [] => by simp [compileFrom]
  | rule :: rules => by
    rw [compileFrom, List.flatMap_cons, List.findSome?_append]
    cases compiled : compile schema rule with
    | error first => simp [(compile_eq_error_iff schema first rule).1 compiled]
    | ok condition =>
      have silent : rule.clauses.findSome? (Clause.error? schema) = none := by
        rw [List.findSome?_eq_none_iff]
        intro clause member
        exact Clause.error?_eq_none_iff.2
          ((exists_compile_iff schema rule).1 ⟨condition, compiled⟩ clause member)
      rw [silent, Option.none_or]
      exact compileFrom_eq_error_iff schema error (condition :: taken) rules

end

end Rule

theorem Schema.compile_eq_ok_iff {schema : Schema} {tokens : List Token} {condition : Condition} :
    schema.compile tokens = .ok condition ↔
      ∃ rule, Rule.parse tokens = .ok rule ∧ rule.compile schema = .ok condition := by
  unfold compile
  cases Rule.parse tokens <;> simp

end RuleFilter

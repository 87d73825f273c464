import Mathlib.Logic.ExistsUnique
import RuleFilter.Value.Coercion
import RuleFilter.Value.Order

namespace RuleFilter

namespace Value

inductive HasType : Value → PropertyType → Prop
  | string (text : String) : HasType (string text) .string
  | integer (n : Int) : HasType (integer n) .integer
  | decimal (x : Decimal) : HasType (decimal x) .decimal
  | boolean (b : Bool) : HasType (boolean b) .boolean
  | dateTime (instant : Time.Instant) : HasType (dateTime instant) .dateTime
  | hosted (text name : String) : HasType (hosted text) (.custom name)

theorem hasType_of_ofLiteral? {literal : String} {type : PropertyType} {value : Value}
    (reads : ofLiteral? literal type = some value) : value.HasType type ∧ value ≠ decimal .nan := by
  cases type with
  | string =>
    cases reads
    exact ⟨.string _, nofun⟩
  | integer =>
    obtain ⟨n, -, rfl⟩ := Option.map_eq_some_iff.1 reads
    exact ⟨.integer n, nofun⟩
  | decimal =>
    obtain ⟨x, -, finite⟩ := Option.bind_eq_some_iff.1 reads
    split at finite
    · next number =>
      cases finite
      refine ⟨.decimal x, ?_⟩
      rintro ⟨⟩
      cases number
    · cases finite
  | boolean =>
    obtain ⟨b, -, rfl⟩ := Option.map_eq_some_iff.1 reads
    exact ⟨.boolean b, nofun⟩
  | dateTime =>
    obtain ⟨instant, -, rfl⟩ := Option.map_eq_some_iff.1 reads
    exact ⟨.dateTime instant, nofun⟩
  | custom name =>
    cases reads
    exact ⟨.hosted _ name, nofun⟩

theorem hasType_of_coerce? {type : PropertyType} {value actual : Value}
    (coerced : value.coerce? type = some actual) : actual.HasType type := by
  unfold coerce? at coerced
  -- One case for each line of the table, in its order; only text is read as a literal.
  split at coerced
  · cases coerced
  · cases coerced
    exact .string _
  · cases coerced
    exact .string _
  · cases coerced
  · cases coerced
    exact .integer _
  · obtain ⟨n, -, rfl⟩ := Option.map_eq_some_iff.1 coerced
    exact .integer n
  · cases coerced
    exact .decimal _
  · cases coerced
    exact .decimal _
  · cases coerced
    exact .boolean _
  · cases coerced
    exact .dateTime _
  · cases coerced
    exact .hosted _ _
  · exact (hasType_of_ofLiteral? coerced).1
  · cases coerced

theorem coerce?_of_hasType {type : PropertyType} {value : Value} (typed : value.HasType type) :
    value.coerce? type = some value := by
  cases typed <;> rfl

theorem exists_compare? {type : PropertyType} {a b : Value} (left : a.HasType type)
    (right : b.HasType type) (number : a ≠ decimal .nan) (number' : b ≠ decimal .nan) :
    ∃ order, a.compare? b = some order := by
  cases left with
  | decimal x =>
    cases right with
    | decimal y =>
      refine Option.ne_none_iff_exists'.1 fun none => ?_
      rw [compare?, Decimal.compare?_eq_none_iff, Decimal.position?_eq_none_iff,
        Decimal.position?_eq_none_iff] at none
      rcases none with rfl | rfl
      · exact number rfl
      · exact number' rfl
  | _ =>
    cases right
    exact ⟨_, rfl⟩

end Value

namespace Comparator

/-- Whether the answers of the operators that compare agree with each other. -/
structure Coherent (answer : Comparator → Bool) : Prop where
  ne : answer .ne = !answer .eq
  one : ∃! op, op ∈ [lt, eq, gt] ∧ answer op = true
  ge : answer .ge = !answer .lt
  le : answer .le = !answer .gt

def ofOrder : Ordering → Comparator
  | .lt => lt
  | .eq => eq
  | .gt => gt

theorem Coherent.of_compare? {a b : Value} {order : Ordering}
    (compared : a.compare? b = some order) : Coherent fun op => op.holds a b where
  ne := by
    simp only [holds, compared]
    cases order <;> rfl
  one := by
    refine ⟨ofOrder order, ?_, ?_⟩
    · cases order <;> simp [ofOrder, holds, compared]
    · rintro op ⟨member, answered⟩
      simp only [List.mem_cons, List.not_mem_nil, or_false] at member
      rcases member with rfl | rfl | rfl <;>
        simp only [holds, compared, beq_iff_eq, Option.some.injEq] at answered <;> rw [answered] <;>
        rfl
  ge := by
    simp only [holds, compared]
    cases order <;> rfl
  le := by
    simp only [holds, compared]
    cases order <;> rfl

end Comparator
end RuleFilter

import RuleFilter.Target
import RuleFilter.Value.Coercion
import RuleFilter.Value.Order

namespace RuleFilter

structure Comparison where
  property : String
  type : PropertyType
  op : Comparator
  operand : Value
  deriving DecidableEq, Repr

/-- Whether a comparison holds of a target. It fails under every operator when the target has no
value for the property, or none that can be of its type. -/
def Comparison.holds (comparison : Comparison) (target : Target) : Bool :=
  match (target comparison.property).bind (·.coerce? comparison.type) with
  | some actual => comparison.op.holds actual comparison.operand
  | none => false

inductive Condition where
  | comparison (comparison : Comparison)
  | all (conditions : List Condition)
  | any (conditions : List Condition)
  | negation (condition : Condition)
  deriving Repr, Inhabited

namespace Condition

mutual

def holds (target : Target) : Condition → Bool
  | .comparison c => c.holds target
  | .all conditions => allHold target conditions
  | .any conditions => anyHolds target conditions
  | .negation condition => !(holds target condition)

def allHold (target : Target) : List Condition → Bool
  | [] => true
  | condition :: conditions => holds target condition && allHold target conditions

def anyHolds (target : Target) : List Condition → Bool
  | [] => false
  | condition :: conditions => holds target condition || anyHolds target conditions

end

theorem allHold_eq_all (target : Target) (conditions : List Condition) :
    allHold target conditions = conditions.all (holds target) := by
  induction conditions with
  | nil => rfl
  | cons condition conditions ih => simp [allHold, ih]

theorem anyHolds_eq_any (target : Target) (conditions : List Condition) :
    anyHolds target conditions = conditions.any (holds target) := by
  induction conditions with
  | nil => rfl
  | cons condition conditions ih => simp [anyHolds, ih]

end Condition
end RuleFilter

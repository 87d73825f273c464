import RuleFilter.Condition.Basic

namespace RuleFilter

structure Predicate where
  condition : Option Condition
  source : String
  serial : Nat

namespace Predicate

def always : Predicate := ⟨none, "", 0⟩

def isAlways (predicate : Predicate) : Bool :=
  predicate.condition.isNone

def holds (predicate : Predicate) (target : Target) : Bool :=
  match predicate.condition with
  | none => true
  | some condition => condition.holds target

def text (predicate : Predicate) : String :=
  if predicate.isAlways then "<always true>" else predicate.source

def same (a b : Predicate) : Bool :=
  match a.condition, b.condition with
  | some _, some _ => a.serial == b.serial
  | none, none => true
  | _, _ => false

end Predicate
end RuleFilter

import RuleFilter.Operator
import RuleFilter.Value.Basic

namespace RuleFilter

namespace Value

def compare? : Value → Value → Option Ordering
  | integer a, integer b => some (compare a b)
  | integer a, decimal b => (Decimal.ofInt a).compare? b
  | decimal a, integer b => a.compare? (Decimal.ofInt b)
  | decimal a, decimal b => a.compare? b
  | string a, string b => some (compare a b)
  | hosted a, hosted b => some (compare a b)
  | boolean a, boolean b => some (compare a b)
  | dateTime a, dateTime b => some (a.compare b)
  | _, _ => none

/-- Equality of values of one kind; a NaN equals nothing, and both zeros are equal. -/
def equal : Value → Value → Bool
  | decimal a, decimal b => a.compare? b == some .eq
  | a, b => a == b

end Value

def isHead (part text : List Char) : Bool :=
  part.isPrefixOf text

def isWithin (part : List Char) : (text : List Char) → Bool
  | [] => part.isEmpty
  | c :: cs => isHead part (c :: cs) || isWithin part cs

namespace Comparator

def textTest (test : (text part : List Char) → Bool) (actual operand : Value) : Bool :=
  match actual.text?, operand.text? with
  | some text, some part => test text.toList part.toList
  | _, _ => false

def holds (op : Comparator) (actual operand : Value) : Bool :=
  match op with
  | eq => actual.compare? operand == some .eq
  | ne => actual.compare? operand == some .lt || actual.compare? operand == some .gt
  | gt => actual.compare? operand == some .gt
  | lt => actual.compare? operand == some .lt
  | ge => actual.compare? operand == some .gt || actual.compare? operand == some .eq
  | le => actual.compare? operand == some .lt || actual.compare? operand == some .eq
  | contains => textTest (fun text part => isWithin part text) actual operand
  | startsWith => textTest (fun text part => isHead part text) actual operand
  | endsWith => textTest (fun text part => isHead part.reverse text.reverse) actual operand

end Comparator
end RuleFilter

import RuleFilter.PropertyType
import RuleFilter.Text.Count
import RuleFilter.Text.Quoted
import RuleFilter.Time.Reader
import RuleFilter.Value.Basic

namespace RuleFilter.Value

def integerOfText? (text : String) : Option Int :=
  let (negative, digits) := Decimal.splitSign text.toList
  let limit := if negative then integerRange.1.natAbs else integerRange.2.natAbs
  if digits.isEmpty then none
  else (Text.countFrom limit 0 digits).toOption.map fun magnitude =>
    if negative then -(magnitude : Int) else magnitude

def booleanOfText? (text : String) : Option Bool :=
  if Text.sameLetters "true" text then some true
  else if Text.sameLetters "false" text then some false
  else none

def ofLiteral? (literal : String) (type : PropertyType) : Option Value :=
  let text := Text.unquote literal
  match type with
  | .string => some (string text)
  | .integer => (integerOfText? text).map integer
  | .decimal =>
    (Decimal.ofText? text).bind fun x => if x.isFinite then some (decimal x) else none
  | .boolean => (booleanOfText? text).map boolean
  | .dateTime => (Time.Instant.ofText? text).map dateTime
  | .custom _ => some (hosted text)

end RuleFilter.Value

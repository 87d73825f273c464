import RuleFilter.Value.Literal

namespace RuleFilter.Value

def integerOfDecimal? (x : Decimal) : Option Int :=
  x.toInt?.bind fun n => if fitsInteger n then some n else none

def coerce? (type : PropertyType) (value : Value) : Option Value :=
  match type, value with
  | _, null => none
  | .string, string text | .string, hosted text => some (string text)
  | .string, _ => none
  | .integer, integer n => some (integer n)
  | .integer, decimal x => (integerOfDecimal? x).map integer
  | .decimal, decimal x => some (decimal x)
  | .decimal, integer n => some (decimal (Decimal.ofInt n))
  | .boolean, boolean b => some (boolean b)
  | .dateTime, dateTime instant => some (dateTime instant)
  | .custom _, value => some (hosted value.toText)
  | type, string text => ofLiteral? text type
  | _, _ => none

end RuleFilter.Value

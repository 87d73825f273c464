import RuleFilter.Decimal.Notation
import RuleFilter.Json.Writer
import RuleFilter.Time.Instant

namespace RuleFilter

inductive Value where
  | string (text : String)
  | integer (n : Int)
  | decimal (x : Decimal)
  | boolean (b : Bool)
  | dateTime (instant : Time.Instant)
  | hosted (text : String)
  | null
  deriving DecidableEq, Repr

namespace Value

def integerRange : Int × Int := (-0x8000000000000000, 0x7FFFFFFFFFFFFFFF)

def fitsInteger (n : Int) : Bool :=
  integerRange.1 ≤ n && n ≤ integerRange.2

def toText : Value → String
  | string text | hosted text => text
  | integer n => toString n
  | decimal x => x.toText .plain
  | boolean b => if b then "true" else "false"
  | dateTime instant => instant.toText Time.Instant.offsetZone
  | null => "null"

def text? : Value → Option String
  | string text | hosted text => some text
  | _ => none

def isNull : Value → Bool
  | null => true
  | _ => false

/-- The value of an entry of a document. Integers within range stay integers, other numbers become
decimals, and arrays and objects become the text of the document. -/
def ofJson : Json → Value
  | .null => null
  | .bool b => boolean b
  | .int n => if fitsInteger n then integer n else decimal (Decimal.ofInt n)
  | .float x => decimal x
  | .text s => string s
  | json => hosted json.compact

def toJson : Value → Json
  | string text => .object [("String", .text text)]
  | integer n => .object [("Integer", .int n)]
  | decimal x => .object [("Decimal", .float x)]
  | boolean b => .object [("Boolean", .bool b)]
  | dateTime instant => .object [("DateTime", .text (instant.toText Time.Instant.letterZone))]
  | hosted text => .object [("Opaque", .text text)]
  | null => .text "Null"

end Value
end RuleFilter

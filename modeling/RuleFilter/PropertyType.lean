import RuleFilter.Text.Casing

namespace RuleFilter

inductive PropertyType where
  | string
  | integer
  | decimal
  | boolean
  | dateTime
  | custom (name : String)
  deriving DecidableEq, Repr

namespace PropertyType

def name : PropertyType → String
  | string => "String"
  | integer => "Integer"
  | decimal => "Decimal"
  | boolean => "Boolean"
  | dateTime => "DateTime"
  | custom name => name

def isNumeric : PropertyType → Bool
  | integer | decimal => true
  | _ => false

def isOrdered : PropertyType → Bool
  | integer | decimal | dateTime => true
  | _ => false

def words : List (String × PropertyType) := [
  ("string", string), ("str", string), ("text", string),
  ("integer", integer), ("int", integer), ("long", integer), ("i64", integer),
  ("decimal", decimal), ("float", decimal), ("double", decimal), ("number", decimal),
  ("f64", decimal),
  ("boolean", boolean), ("bool", boolean),
  ("datetime", dateTime), ("date", dateTime), ("timestamp", dateTime)]

/-- The type that a word names, in any letter case; a word without a meaning of its own names a type
of the host, just as it is written. -/
def ofWord (word : String) : PropertyType :=
  match words.find? fun entry => Text.sameLetters entry.1 word with
  | some entry => entry.2
  | none => custom word

end PropertyType
end RuleFilter

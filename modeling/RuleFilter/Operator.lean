import RuleFilter.PropertyType

namespace RuleFilter

inductive Comparator where
  | eq
  | ne
  | gt
  | lt
  | ge
  | le
  | contains
  | startsWith
  | endsWith
  deriving DecidableEq, Repr

namespace Comparator

def all : List Comparator :=
  [eq, ne, gt, lt, ge, le, contains, startsWith, endsWith]

def symbol : Comparator → String
  | eq => "=="
  | ne => "!="
  | gt => ">"
  | lt => "<"
  | ge => ">="
  | le => "<="
  | contains => "CONTAINS"
  | startsWith => "STARTSWITH"
  | endsWith => "ENDSWITH"

def ofSymbol? (text : String) : Option Comparator :=
  all.find? fun op => Text.sameLetters op.symbol text

def isOrdering : Comparator → Bool
  | gt | lt | ge | le => true
  | _ => false

def isTextual : Comparator → Bool
  | contains | startsWith | endsWith => true
  | _ => false

/-- Whether a comparison may be used with a type: equality with every type, order with the ordered
ones, parts of text with strings. -/
def isLegalFor (op : Comparator) (type : PropertyType) : Bool :=
  if op.isOrdering then type.isOrdered
  else if op.isTextual then type == .string
  else true

def legalFor (type : PropertyType) : List Comparator :=
  all.filter (·.isLegalFor type)

end Comparator

inductive Connective where
  | and
  | or
  | not
  deriving DecidableEq, Repr

namespace Connective

def all : List Connective := [and, or, not]

def symbol : Connective → String
  | and => "AND"
  | or => "OR"
  | not => "NOT"

def ofSymbol? (text : String) : Option Connective :=
  all.find? fun op => Text.sameLetters op.symbol text

def isBinary : Connective → Bool
  | not => false
  | _ => true

end Connective

def reservedWords : List String :=
  ["AND", "OR", "NOT", "CONTAINS", "STARTSWITH", "ENDSWITH", "TRUE", "FALSE"]

def isReserved (word : String) : Bool :=
  reservedWords.any fun reserved => Text.sameLetters reserved word

end RuleFilter

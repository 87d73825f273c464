import RuleFilter.Decimal.Basic

namespace RuleFilter

inductive Json where
  | null
  | bool (b : Bool)
  | int (n : Int)
  | float (x : Decimal)
  | text (s : String)
  | array (items : List Json)
  | object (fields : List (String × Json))
  deriving Inhabited

namespace Json

def insertField (key : String) (value : Json) :
    List (String × Json) → List (String × Json)
  | [] => [(key, value)]
  | field :: fields =>
    if key < field.1 then (key, value) :: field :: fields
    else if key == field.1 then (key, value) :: fields
    else field :: insertField key value fields

def field? (key : String) : Json → Option Json
  | object fields => (fields.find? fun field => field.1 == key).map Prod.snd
  | _ => none

end Json
end RuleFilter

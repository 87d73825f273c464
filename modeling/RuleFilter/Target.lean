import RuleFilter.Text.Casing
import RuleFilter.Value.Basic

namespace RuleFilter

abbrev Target := String → Option Value

namespace Target

/-- Looks a name up among keyed entries: an entry of exactly that key comes first, then the first
one whose key differs only in letter case. -/
def lookup? {α : Type} (entries : List (String × α)) (name : String) : Option α :=
  let exact := entries.find? fun entry => entry.1 == name
  let folded := entries.find? fun entry => Text.sameLetters entry.1 name
  (exact <|> folded).map Prod.snd

def ofFields (fields : List (String × Value)) : Target :=
  lookup? fields

def ofJson : Json → Target
  | .object fields => fun name => (lookup? fields name).map Value.ofJson
  | _ => fun _ => none

end Target
end RuleFilter

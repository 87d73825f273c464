import RuleFilter.Settings.Basic
import RuleFilter.Text.Count

namespace RuleFilter.Settings

def variableNames : List String := [
  "SIEVE_CACHE_CAPACITY", "SIEVE_PERMISSIVE_VALUES", "SIEVE_ALLOW_EMPTY_EXPRESSION",
  "SIEVE_INDENT_WIDTH"]

def countOr (default : Nat) (text : Option String) : Nat :=
  (text.bind fun text => (Text.count text).toOption).getD default

def switchOr (default : Bool) : Option String → Bool
  | none => default
  | some text => text == "true" || text == "1"

def ofEnvironment (value : String → Option String) : Settings :=
  let default : Settings := {}
  { cacheCapacity := countOr default.cacheCapacity (value "SIEVE_CACHE_CAPACITY")
    permissiveValues := switchOr default.permissiveValues (value "SIEVE_PERMISSIVE_VALUES")
    allowEmpty := switchOr default.allowEmpty (value "SIEVE_ALLOW_EMPTY_EXPRESSION")
    indentWidth := countOr default.indentWidth (value "SIEVE_INDENT_WIDTH") }

end RuleFilter.Settings

namespace RuleFilter

structure Settings where
  cacheCapacity : Nat := 1000
  permissiveValues : Bool := true
  /-- Whether a rule without tokens compiles; it holds of everything. -/
  allowEmpty : Bool := false
  indentWidth : Nat := 4
  deriving DecidableEq, Repr

inductive SettingsError where
  | zero (field : String)
  deriving DecidableEq, Repr

def SettingsError.message : SettingsError → String
  | zero field => s!"Invalid value for {field}: must be greater than zero"

namespace Settings

def fault? (settings : Settings) : Option SettingsError :=
  if settings.cacheCapacity = 0 then some (.zero "cache_capacity")
  else if settings.indentWidth = 0 then some (.zero "indent_width")
  else none

end Settings
end RuleFilter

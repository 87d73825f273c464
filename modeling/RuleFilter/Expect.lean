import RuleFilter.Schema.Basic
import RuleFilter.Settings.Basic
import RuleFilter.Target

namespace RuleFilter.Expect

def usable (settings : Settings) : Bool :=
  settings.fault?.isNone

def refusedField (settings : Settings) (field : String) : Bool :=
  settings.fault? == some (.zero field)

def duplicate (properties : List Property) (name : String) : Bool :=
  match firstFault? [] properties with
  | some (.duplicate found) => Text.sameLetters found name
  | _ => false

def sameElements (actual expected : List String) : Bool :=
  actual.isPerm expected

def partitions (test : Target → Bool) (matching rejected : List Target) : Bool :=
  matching.all test && rejected.all fun target => !test target

end RuleFilter.Expect

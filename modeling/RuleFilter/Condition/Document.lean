import RuleFilter.Condition.Basic

namespace RuleFilter

def PropertyType.toJson : PropertyType → Json
  | .custom name => .object [("Custom", .text name)]
  | type => .text type.name

def Comparator.word : Comparator → String
  | .eq => "eq"
  | .ne => "ne"
  | .gt => "gt"
  | .lt => "lt"
  | .ge => "ge"
  | .le => "le"
  | .contains => "contains"
  | .startsWith => "startswith"
  | .endsWith => "endswith"

def Comparison.toJson (comparison : Comparison) : Json :=
  .object [
    ("property", .text comparison.property),
    ("property_type", comparison.type.toJson),
    ("op", .text comparison.op.word),
    ("operand", comparison.operand.toJson)]

namespace Condition

mutual

def toJson : Condition → Json
  | .comparison c => .object [("Comparison", c.toJson)]
  | .all conditions => .object [("All", .array (toJsonFrom [] conditions))]
  | .any conditions => .object [("Any", .array (toJsonFrom [] conditions))]
  | .negation condition => .object [("Not", condition.toJson)]

def toJsonFrom (taken : List Json) : List Condition → List Json
  | [] => taken.reverse
  | condition :: conditions => toJsonFrom (condition.toJson :: taken) conditions

end

end Condition
end RuleFilter

import RuleFilter.Schema.Basic
import RuleFilter.Text.Blank
import RuleFilter.Text.Split

/-!
# Declaring properties

On a command line a list of properties is written as `Name:Type` or `Name:Type=Value|Value`, with
commas between them. A property without a type is a string. Blanks around the parts do not count,
and neither do parts with nothing else in them between commas.
-/

namespace RuleFilter

namespace Property

def ofDeclaration (part : List Char) : Property :=
  let (declared, values) := match Text.splitFirst? '=' part with
    | some (declared, values) => (declared, some values)
    | none => (part, none)
  let (name, type) := match Text.splitFirst? ':' declared with
    | some (name, word) => (name, PropertyType.ofWord (String.ofList (Text.trim word)))
    | none => (declared, .string)
  { name := String.ofList (Text.trim name)
    type := type
    allowed := values.map fun values =>
      (Text.splitAll '|' values).map fun value => String.ofList (Text.trim value) }

end Property

def declaredProperties (text : String) : List Property :=
  let parts := (Text.splitAll ',' text.toList).map Text.trim
  (parts.filter fun part => !part.isEmpty).map Property.ofDeclaration

end RuleFilter

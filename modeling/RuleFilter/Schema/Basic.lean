import RuleFilter.Operator
import RuleFilter.Text.Quoted
import RuleFilter.Text.Word

namespace RuleFilter

structure Property where
  name : String
  type : PropertyType
  allowed : Option (List String)
  deriving DecidableEq, Repr

inductive SchemaError where
  | invalidName (name : String)
  | noAllowedValue (name : String)
  | duplicate (name : String)
  deriving DecidableEq, Repr

def SchemaError.message : SchemaError → String
  | invalidName name =>
    s!"Invalid property name '{name}': names must be [A-Za-z_][A-Za-z0-9_]* and not a reserved word"
  | noAllowedValue name => s!"Property '{name}' declares an empty allowed-value set"
  | duplicate name =>
    s!"Duplicate property: '{name}' is already registered (names are case-insensitive)"

namespace Property

def fault? (property : Property) : Option SchemaError :=
  if !Text.isName property.name || isReserved property.name then some (.invalidName property.name)
  else if property.allowed == some [] then some (.noAllowedValue property.name)
  else none

def spelling? (property : Property) (literal : String) : Option String :=
  property.allowed.bind fun values =>
    values.find? fun value => Text.sameLetters value (Text.unquote literal)

def allows (property : Property) (literal : String) : Bool :=
  property.allowed.isNone || (property.spelling? literal).isSome

end Property

/-- The first fault in a list of properties that follows the properties `earlier`, in any order. A
property is checked by itself before it is compared with the earlier ones. -/
def firstFault? : (earlier properties : List Property) → Option SchemaError
  | _, [] => none
  | earlier, property :: properties =>
    match property.fault? with
    | some error => some error
    | none =>
      if earlier.any fun other => Text.sameLetters other.name property.name then
        some (.duplicate property.name)
      else firstFault? (property :: earlier) properties

/-- A list of properties without a fault: the names are names and not reserved, they differ in more
than letter case, and a set of allowed values is not empty. -/
structure Schema where
  properties : List Property
  sound : firstFault? [] properties = none

namespace Schema

def empty : Schema := ⟨[], rfl⟩

def ofProperties (properties : List Property) : Except SchemaError Schema :=
  match sound : firstFault? [] properties with
  | none => .ok ⟨properties, sound⟩
  | some error => .error error

def describe? (schema : Schema) (name : String) : Option Property :=
  schema.properties.find? fun property => Text.sameLetters property.name name

def contains (schema : Schema) (name : String) : Bool :=
  (schema.describe? name).isSome

def names (schema : Schema) : List String :=
  schema.properties.map Property.name

def size (schema : Schema) : Nat :=
  schema.properties.length

theorem ofProperties_eq_ok_iff {properties : List Property} {schema : Schema} :
    ofProperties properties = .ok schema ↔ schema.properties = properties := by
  obtain ⟨held, sound⟩ := schema
  unfold ofProperties
  split
  · simp only [Except.ok.injEq, mk.injEq]
    exact eq_comm
  · next error fault =>
    simp only [reduceCtorEq, false_iff]
    rintro rfl
    rw [sound] at fault
    cases fault

end Schema
end RuleFilter

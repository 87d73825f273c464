import RuleFilter.Schema.Basic
import RuleFilter.Target

namespace RuleFilter

structure Person where
  name : String
  age : Int
  score : Decimal
  active : Bool
  joined : Time.Instant
  status : String
  deriving DecidableEq, Repr

namespace Person

def new (name : String) (age : Int) : Person :=
  ⟨name, age, .zero, true, ⟨1705311000, 0⟩, "Open"⟩

def fields (person : Person) : List (String × Value) := [
  ("name", .string person.name),
  ("age", .integer person.age),
  ("score", .decimal person.score),
  ("active", .boolean person.active),
  ("joined", .dateTime person.joined),
  ("status", .string person.status)]

def target (person : Person) : Target :=
  .ofFields person.fields

def johnDoe : Person := new "John Doe" 25

def youngJohn : Person := new "John Doe" 10

def janeSmith : Person :=
  { new "Jane Smith" 41 with
    score := Decimal.nearest false 177 2
    active := false
    status := "Closed" }

def properties : List Property := [
  ⟨"Name", .string, none⟩,
  ⟨"Age", .integer, none⟩,
  ⟨"Score", .decimal, none⟩,
  ⟨"Active", .boolean, none⟩,
  ⟨"Joined", .dateTime, none⟩,
  ⟨"Status", .string, some ["Open", "Closed", "Pending"]⟩]

end Person

def ageNameProperties : List Property := [
  ⟨"Age", .integer, none⟩,
  ⟨"Name", .string, none⟩]

def allTypesProperties : List Property := [
  ⟨"Title", .string, none⟩,
  ⟨"Count", .integer, none⟩,
  ⟨"Ratio", .decimal, none⟩,
  ⟨"Enabled", .boolean, none⟩,
  ⟨"Created", .dateTime, none⟩,
  ⟨"Color", .custom "Color", none⟩,
  ⟨"Priority", .string, some ["Low", "High"]⟩]

def personDocument (age : Int) (name : String) : Json :=
  .object [("Age", .int age), ("Name", .text name)]

end RuleFilter

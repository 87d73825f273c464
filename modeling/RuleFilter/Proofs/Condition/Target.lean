import Mathlib.Data.List.Nodup
import RuleFilter.Condition.Basic
import RuleFilter.Proofs.Text.Casing

namespace RuleFilter
namespace Target

variable {α : Type} {entries others : List (String × α)} {name : String} {value : α}

def folded (entries : List (String × α)) : List (List Char × α) :=
  entries.map fun entry => (Text.foldCase entry.1, entry.2)

def KeysApart (entries : List (String × α)) : Prop :=
  ((folded entries).map Prod.fst).Nodup

instance (entries : List (String × α)) : Decidable (KeysApart entries) :=
  inferInstanceAs (Decidable (List.Nodup _))

def Rekeyed (entries others : List (String × α)) : Prop :=
  (folded entries).Perm (folded others)

instance [DecidableEq α] (entries others : List (String × α)) :
    Decidable (Rekeyed entries others) :=
  inferInstanceAs (Decidable (List.Perm _ _))

inductive Maps : Target → List (String × Value) → Prop
  | fields (fields : List (String × Value)) : Maps (ofFields fields) fields
  | object (fields : List (String × Json)) :
      Maps (ofJson (.object fields)) (fields.map fun field => (field.1, Value.ofJson field.2))

/-! ## Looking up -/

theorem mem_folded {key : List Char} :
    (key, value) ∈ folded entries ↔
      ∃ written, (written, value) ∈ entries ∧ Text.foldCase written = key := by
  simp [folded]

theorem KeysApart.rekeyed (apart : KeysApart entries) (rekeyed : Rekeyed entries others) :
    KeysApart others :=
  (List.Perm.map Prod.fst rekeyed).nodup_iff.1 apart

theorem KeysApart.eq_of_mem (apart : KeysApart entries) {key : List Char} {a b : α}
    (first : (key, a) ∈ folded entries) (second : (key, b) ∈ folded entries) : a = b :=
  congrArg Prod.snd (List.inj_on_of_nodup_map apart first second rfl)

theorem lookup?_eq_or (entries : List (String × α)) (name : String) :
    lookup? entries name = ((entries.find? fun entry => entry.1 == name).or
      (entries.find? fun entry => Text.sameLetters entry.1 name)).map Prod.snd := by
  simp only [lookup?, Option.orElse_eq_orElse, Option.orElse_eq_or]

theorem mem_of_lookup? (found : lookup? entries name = some value) :
    (Text.foldCase name, value) ∈ folded entries := by
  rw [lookup?_eq_or] at found
  obtain ⟨⟨key, _⟩, first, rfl⟩ := Option.map_eq_some_iff.1 found
  rcases Option.or_eq_some_iff.1 first with exact | ⟨-, same⟩
  · have is := List.find?_some exact
    obtain rfl : key = name := beq_iff_eq.1 is
    exact mem_folded.2 ⟨key, List.mem_of_find?_eq_some exact, rfl⟩
  · have letters := List.find?_some same
    exact mem_folded.2 ⟨key, List.mem_of_find?_eq_some same, Text.sameLetters_iff.1 letters⟩

theorem lookup?_eq_some_of_mem (member : (Text.foldCase name, value) ∈ folded entries) :
    ∃ value, lookup? entries name = some value := by
  obtain ⟨key, listed, letters⟩ := mem_folded.1 member
  have some_folded : (entries.find? fun entry => Text.sameLetters entry.1 name).isSome = true :=
    List.find?_isSome.2 ⟨_, listed, Text.sameLetters_iff.2 letters⟩
  rw [← Option.isSome_iff_exists, lookup?_eq_or, Option.isSome_map, Option.isSome_or, some_folded,
    Bool.or_true]

theorem lookup?_eq_some_iff (apart : KeysApart entries) :
    lookup? entries name = some value ↔ (Text.foldCase name, value) ∈ folded entries := by
  constructor
  · exact mem_of_lookup?
  · intro member
    obtain ⟨held, found⟩ := lookup?_eq_some_of_mem member
    rw [found, apart.eq_of_mem (mem_of_lookup? found) member]

theorem lookup?_rekeyed (apart : KeysApart entries) (rekeyed : Rekeyed entries others)
    (name : String) : lookup? entries name = lookup? others name := by
  apply Option.ext
  intro value
  rw [lookup?_eq_some_iff apart, lookup?_eq_some_iff (apart.rekeyed rekeyed)]
  exact rekeyed.mem_iff

/-! ## Targets -/

theorem lookup?_map {β : Type} (f : α → β) (entries : List (String × α)) (name : String) :
    lookup? (entries.map fun entry => (entry.1, f entry.2)) name =
      (lookup? entries name).map f := by
  simp only [lookup?_eq_or, List.find?_map, Function.comp_def, ← Option.map_or, Option.map_map]

theorem Maps.eq_lookup? {target : Target} {fields : List (String × Value)}
    (maps : target.Maps fields) : target = lookup? fields := by
  cases maps with
  | fields => rfl
  | object fields => exact funext fun name => (lookup?_map Value.ofJson fields name).symm

end Target

open Target

/-- A condition holds of a map if and only if it holds of every other that has the same values in
any order under keys that differ in letter case only, as long as no two keys of it do. -/
theorem Condition.holds_rekeyed (condition : Condition) {target other : Target}
    {fields fields' : List (String × Value)} (maps : target.Maps fields)
    (maps' : other.Maps fields') (apart : KeysApart fields) (rekeyed : Rekeyed fields fields') :
    condition.holds target = condition.holds other := by
  have same : lookup? fields = lookup? fields' := funext (lookup?_rekeyed apart rekeyed)
  rw [maps.eq_lookup?, maps'.eq_lookup?, same]

theorem Condition.holds_rekeyed_name :
    let condition : Condition := .all [.comparison ⟨"Age", .integer, .gt, .integer 18⟩,
      .negation (.comparison ⟨"Name", .string, .eq, .string "Ann"⟩)]
    let fields : List (String × Json) := [("Age", .int 30), ("name", .text "Bob")]
    let fields' : List (String × Json) := [("NAME", .text "Bob"), ("age", .int 30)]
    let values : List (String × Value) := [("Age", .integer 30), ("name", .string "Bob")]
    let values' : List (String × Value) := [("NAME", .string "Bob"), ("age", .integer 30)]
    Maps (ofJson (.object fields)) values ∧ Maps (ofJson (.object fields')) values' ∧
      KeysApart values ∧ Rekeyed values values' ∧
      condition.holds (ofJson (.object fields)) = condition.holds (ofJson (.object fields')) := by
  intro condition fields fields' values values'
  have maps : Maps (ofJson (.object fields)) values := .object fields
  have maps' : Maps (ofJson (.object fields')) values' := .object fields'
  have apart : KeysApart values := by decide
  have rekeyed : Rekeyed values values' := by decide
  exact ⟨maps, maps', apart, rekeyed, condition.holds_rekeyed maps maps' apart rekeyed⟩

end RuleFilter

import Std.Data.HashMap
import Mathlib.Data.List.Induction
import RuleFilter.Proofs.Schema.Lookup
import RuleFilter.Proofs.Text.Casing

/-!
# Registering properties

A list of properties makes a schema where none of them offends against those in front of it
(`Registrable`), and else the first one that does gives the error (`Schema.ofProperties_correct`).
An index of positions that is entered while the list is checked stops at the same fault, and finds
what a scan from the left finds (`Index.Finds.enter`).
-/

namespace RuleFilter

structure ProperName (name : String) : Prop where
  form : ∃ c cs, name.toList = c :: cs ∧ (c.isAlpha = true ∨ c = '_') ∧
    ∀ d ∈ cs, d.isAlpha = true ∨ d.isDigit = true ∨ d = '_'
  free : ∀ word ∈ reservedWords, Text.sameLetters word name = false

structure Registrable (properties : List Property) : Prop where
  proper : ∀ property ∈ properties, ProperName property.name
  allowed : ∀ property ∈ properties, property.allowed ≠ some []
  distinct : properties.Pairwise fun a b => Text.sameLetters a.name b.name = false

/-- How a property offends against those in front of it. Its name counts before its allowed values
and these before the names in front. -/
inductive Offends (before : List Property) (property : Property) : SchemaError → Prop
  | name : ¬ ProperName property.name → Offends before property (.invalidName property.name)
  | allowed : ProperName property.name → property.allowed = some [] →
      Offends before property (.noAllowedValue property.name)
  | duplicate {other : Property} : ProperName property.name → property.allowed ≠ some [] →
      other ∈ before → Text.sameLetters other.name property.name = true →
      Offends before property (.duplicate property.name)

/-! ## One property -/

theorem Text.isNameChar_iff {c : Char} :
    isNameChar c = true ↔ c.isAlpha = true ∨ c.isDigit = true ∨ c = '_' := by
  simp [isNameChar, Char.isAlphanum, or_assoc]

theorem Text.isNameChar_first_iff {c : Char} :
    c.isDigit = false ∧ isNameChar c = true ↔ c.isAlpha = true ∨ c = '_' := by
  rw [isNameChar_iff]
  constructor
  · intro ⟨digit, word⟩
    simpa [digit] using word
  · intro letter
    cases digit : c.isDigit with
    | false => exact ⟨rfl, letter.imp_right .inr⟩
    | true =>
      rcases letter with letter | rfl
      · rw [isAlpha_of_isDigit digit] at letter
        cases letter
      · cases digit

theorem Text.isName_iff {name : String} :
    isName name = true ↔ ∃ c cs, name.toList = c :: cs ∧ (c.isAlpha = true ∨ c = '_') ∧
      ∀ d ∈ cs, d.isAlpha = true ∨ d.isDigit = true ∨ d = '_' := by
  unfold isName
  split
  · next chars => simp [chars]
  · next c cs chars =>
    rw [List.all_cons, ← Bool.and_assoc, Bool.and_eq_true, Bool.and_eq_true, Bool.not_eq_true',
      isNameChar_first_iff, List.all_eq_true]
    simp only [isNameChar_iff]
    constructor
    · intro ⟨letter, rest⟩
      exact ⟨c, cs, chars, letter, rest⟩
    · rintro ⟨_, _, same, letter, rest⟩
      cases chars.symm.trans same
      exact ⟨letter, rest⟩

theorem properName_iff {name : String} :
    ProperName name ↔ Text.isName name = true ∧ isReserved name = false := by
  rw [Text.isName_iff, isReserved, List.any_eq_false]
  simp only [Bool.not_eq_true]
  exact ⟨fun proper => ⟨proper.form, proper.free⟩, fun ⟨form, free⟩ => ⟨form, free⟩⟩

namespace Property

variable {property : Property}

theorem fault?_of_not_proper (improper : ¬ ProperName property.name) :
    property.fault? = some (.invalidName property.name) := by
  rw [properName_iff] at improper
  apply if_pos
  cases named : Text.isName property.name
  · rfl
  · simpa [named] using improper

theorem fault?_of_empty (proper : ProperName property.name) (empty : property.allowed = some []) :
    property.fault? = some (.noAllowedValue property.name) := by
  rw [properName_iff] at proper
  unfold fault?
  rw [proper.1, proper.2, empty]
  rfl

theorem fault?_of_proper (proper : ProperName property.name)
    (filled : property.allowed ≠ some []) : property.fault? = none :=
  fault?_eq_none_iff.2 ⟨(properName_iff.1 proper).1, (properName_iff.1 proper).2, filled⟩

end Property

/-! ## One behind the other -/

variable {before after properties : List Property} {property : Property} {error : SchemaError}

theorem firstFault?_of_offends (offends : Offends before property error) :
    firstFault? before.reverse (property :: after) = some error := by
  rw [firstFault?]
  cases offends with
  | name improper => rw [Property.fault?_of_not_proper improper]
  | allowed proper empty => rw [Property.fault?_of_empty proper empty]
  | duplicate proper filled member same =>
    rw [Property.fault?_of_proper proper filled]
    apply if_pos
    rw [List.any_reverse]
    exact List.any_eq_true.2 ⟨_, member, same⟩

theorem Registrable.concat (registrable : Registrable before)
    (sound : ∀ error, ¬ Offends before property error) : Registrable (before ++ [property]) := by
  have proper : ProperName property.name := by
    by_contra improper
    exact sound _ (.name improper)
  have filled : property.allowed ≠ some [] := fun empty => sound _ (.allowed proper empty)
  have distinct : ∀ other ∈ before, Text.sameLetters other.name property.name = false := by
    intro other member
    rw [← Bool.not_eq_true]
    exact fun same => sound _ (.duplicate proper filled member same)
  constructor
  · exact List.forall_mem_append.2 ⟨registrable.proper, List.forall_mem_singleton.2 proper⟩
  · exact List.forall_mem_append.2 ⟨registrable.allowed, List.forall_mem_singleton.2 filled⟩
  · rw [List.pairwise_append]
    refine ⟨registrable.distinct, List.pairwise_singleton .., fun other member last same => ?_⟩
    rw [List.mem_singleton.1 same]
    exact distinct other member

theorem Registrable.of_append (registrable : Registrable (before ++ after)) : Registrable before :=
  ⟨fun property member => registrable.proper property (List.mem_append_left _ member),
    fun property member => registrable.allowed property (List.mem_append_left _ member),
    (List.pairwise_append.1 registrable.distinct).1⟩

theorem firstFault?_of_registrable (registrable : Registrable (before ++ property :: after))
    (rest : List Property) : firstFault? before.reverse (property :: rest) =
      firstFault? (before ++ [property]).reverse rest := by
  have member : property ∈ before ++ property :: after := by simp
  have distinct := (List.pairwise_append.1 registrable.distinct).2.2
  rw [firstFault?, Property.fault?_of_proper (registrable.proper property member)
    (registrable.allowed property member), List.reverse_concat]
  apply if_neg
  rw [List.any_reverse, Bool.not_eq_true, List.any_eq_false]
  intro other earlier
  rw [distinct other earlier property List.mem_cons_self]
  exact Bool.false_ne_true

theorem firstFault?_behind (before : List Property) {after : List Property}
    (registrable : Registrable (before ++ after)) (rest : List Property) :
    firstFault? before.reverse (after ++ rest) = firstFault? (before ++ after).reverse rest := by
  induction after generalizing before with
  | nil => rw [List.append_nil, List.nil_append]
  | cons property after ih =>
    rw [List.cons_append, firstFault?_of_registrable registrable]
    rw [List.append_cons] at registrable
    rw [ih _ registrable, ← List.append_cons]

theorem registrable_or_offends (properties : List Property) :
    Registrable properties ∨ ∃ before property after error,
      properties = before ++ property :: after ∧ Registrable before ∧
        Offends before property error := by
  induction properties using List.reverseRecOn with
  | nil => exact .inl ⟨nofun, nofun, .nil⟩
  | append_singleton properties last ih =>
    rcases ih with registrable | ⟨before, property, after, error, rfl, first⟩
    · by_cases sound : ∀ error, ¬ Offends properties last error
      · exact .inl (registrable.concat sound)
      · simp only [not_forall, not_not] at sound
        obtain ⟨error, offends⟩ := sound
        exact .inr ⟨properties, last, [], error, rfl, registrable, offends⟩
    · exact .inr ⟨before, property, after ++ [last], error, List.append_assoc .., first⟩

theorem firstFault?_of_first (registrable : Registrable before)
    (offends : Offends before property error) (after : List Property) :
    firstFault? [] (before ++ property :: after) = some error :=
  (firstFault?_behind [] registrable _).trans (firstFault?_of_offends offends)

theorem firstFault?_eq_none_iff : firstFault? [] properties = none ↔ Registrable properties := by
  constructor
  · intro sound
    rcases registrable_or_offends properties with
      registrable | ⟨before, property, after, error, rfl, registrable, offends⟩
    · exact registrable
    · rw [firstFault?_of_first registrable offends] at sound
      cases sound
  · intro registrable
    have through := firstFault?_behind [] registrable []
    rwa [List.append_nil] at through

theorem firstFault?_eq_some_iff : firstFault? [] properties = some error ↔
    ∃ before property after, properties = before ++ property :: after ∧ Registrable before ∧
      Offends before property error := by
  constructor
  · intro fault
    rcases registrable_or_offends properties with
      registrable | ⟨before, property, after, error', rfl, registrable, offends⟩
    · rw [firstFault?_eq_none_iff.2 registrable] at fault
      cases fault
    · rw [firstFault?_of_first registrable offends] at fault
      cases fault
      exact ⟨before, property, after, rfl, registrable, offends⟩
  · rintro ⟨before, property, after, rfl, registrable, offends⟩
    exact firstFault?_of_first registrable offends after

/-! ## An index of positions -/

abbrev Index := Std.HashMap String Nat

namespace Index

variable {index : Index}

def enter (index : Index) (position : Nat) : List Property → Except SchemaError Index
  | [] => .ok index
  | property :: properties =>
    match property.fault? with
    | some error => .error error
    | none =>
      if index.contains (Text.folded property.name) then .error (.duplicate property.name)
      else enter (index.insert (Text.folded property.name) position) (position + 1) properties

/-- Whether an index finds in a list what a scan from the left finds in it. -/
def Finds (index : Index) (properties : List Property) : Prop :=
  ∀ name, index[Text.folded name]? =
    properties.findIdx? fun property => Text.sameLetters property.name name

theorem finds_nil : Finds ∅ [] := fun _ => Std.HashMap.getElem?_empty

theorem Finds.contains_eq (finds : index.Finds properties) (name : String) :
    index.contains (Text.folded name) =
      properties.any fun property => Text.sameLetters property.name name := by
  rw [Std.HashMap.contains_eq_isSome_getElem?, finds, List.findIdx?_isSome]

theorem Finds.bind_getElem? (finds : index.Finds properties) (name : String) :
    index[Text.folded name]?.bind (properties[·]?) =
      properties.find? fun property => Text.sameLetters property.name name := by
  rw [finds, List.find?_eq_bind_findIdx?_getElem?]

theorem Finds.insert (finds : index.Finds before)
    (absent : index.contains (Text.folded property.name) = false) :
    Finds (index.insert (Text.folded property.name) before.length) (before ++ [property]) := by
  intro name
  rw [Std.HashMap.getElem?_insert, finds, List.findIdx?_append, List.findIdx?_singleton]
  by_cases same : Text.folded property.name = Text.folded name
  · have letters : Text.sameLetters property.name name = true :=
      Text.sameLetters_iff.2 (Text.folded_inj.1 same)
    have missing : before.findIdx? (fun other => Text.sameLetters other.name name) = none := by
      rw [← finds, ← same]
      rwa [Std.HashMap.contains_eq_isSome_getElem?, Option.isSome_eq_false_iff,
        Option.isNone_iff_eq_none] at absent
    rw [missing, if_pos (beq_iff_eq.2 same), if_pos letters]
    simp
  · have letters : ¬ Text.sameLetters property.name name = true := fun letters =>
      same (Text.folded_inj.2 (Text.sameLetters_iff.1 letters))
    rw [if_neg (mt beq_iff_eq.1 same), if_neg letters]
    simp

theorem Finds.enter (finds : index.Finds before) (properties : List Property) :
    (∀ error, index.enter before.length properties = .error error ↔
      firstFault? before.reverse properties = some error) ∧
    ∀ entered, index.enter before.length properties = .ok entered →
      entered.Finds (before ++ properties) := by
  induction properties generalizing index before with
  | nil =>
    constructor
    · intro error
      simp [Index.enter, firstFault?]
    · intro entered same
      cases same
      rwa [List.append_nil]
  | cons property properties ih =>
    unfold Index.enter firstFault?
    cases property.fault? with
    | some fault => simp
    | none =>
      rw [List.any_reverse, ← finds.contains_eq]
      cases known : index.contains (Text.folded property.name) with
      | true => simp
      | false =>
        have later := ih (finds.insert known)
        rwa [List.length_append, List.reverse_concat, ← List.append_cons] at later

end Index

namespace Schema

theorem ofProperties_eq_error_iff :
    ofProperties properties = .error error ↔ firstFault? [] properties = some error := by
  unfold ofProperties
  split
  · next sound => simp [sound]
  · next fault => simp [fault]

theorem exists_ofProperties_iff :
    (∃ schema, ofProperties properties = .ok schema) ↔ Registrable properties := by
  rw [← firstFault?_eq_none_iff]
  constructor
  · rintro ⟨schema, made⟩
    rw [← ofProperties_eq_ok_iff.1 made]
    exact schema.sound
  · intro sound
    exact ⟨⟨properties, sound⟩, ofProperties_eq_ok_iff.2 rfl⟩

theorem contains_iff {schema : Schema} {name : String} : schema.contains name = true ↔
    ∃ property ∈ schema.properties, Text.sameLetters property.name name = true := by
  rw [contains, describe?, List.find?_isSome]

/-- A list of properties makes a schema where it is registrable. The schema keeps the list and finds
by a name the only property that goes by it, and where the list makes no schema, the error is that
of the first property that offends. An index of positions, entered while the list is checked, has
the same errors and finds the same properties. -/
theorem ofProperties_correct (properties : List Property) :
    ((∃ schema, ofProperties properties = .ok schema) ↔ Registrable properties) ∧
    (∀ schema, ofProperties properties = .ok schema →
      schema.properties = properties ∧ ∀ name,
        (∀ property, schema.describe? name = some property ↔
          property ∈ properties ∧ Text.sameLetters property.name name = true) ∧
        (schema.describe? name = none ↔
          ∀ property ∈ properties, Text.sameLetters property.name name = false) ∧
        (schema.contains name = true ↔
          ∃ property ∈ properties, Text.sameLetters property.name name = true)) ∧
    (∀ error, ofProperties properties = .error error ↔
      ∃ before property after, properties = before ++ property :: after ∧ Registrable before ∧
        Offends before property error) ∧
    (∀ error, Index.enter ∅ 0 properties = .error error ↔
      ofProperties properties = .error error) ∧
    ∀ index schema, Index.enter ∅ 0 properties = .ok index →
      ofProperties properties = .ok schema → ∀ name,
        index[Text.folded name]?.bind (properties[·]?) = schema.describe? name ∧
        index.contains (Text.folded name) = schema.contains name := by
  obtain ⟨errors, entries⟩ := Index.finds_nil.enter properties
  refine ⟨exists_ofProperties_iff, ?_, fun error => ?_, fun error => ?_, ?_⟩
  · intro schema made
    obtain rfl := ofProperties_eq_ok_iff.1 made
    refine ⟨rfl, fun name => ⟨fun property => describe?_eq_some_iff, ?_, contains_iff⟩⟩
    simp only [describe?, List.find?_eq_none, Bool.not_eq_true]
  · rw [ofProperties_eq_error_iff, firstFault?_eq_some_iff]
  · rw [ofProperties_eq_error_iff]
    exact errors error
  · intro index schema entered made name
    obtain rfl := ofProperties_eq_ok_iff.1 made
    have finds := entries index entered
    refine ⟨finds.bind_getElem? name, ?_⟩
    rw [Bool.eq_iff_iff, finds.contains_eq, List.any_eq_true, contains_iff]
    rfl

theorem ofProperties_correct_age :
    let age : Property := ⟨"Age", .integer, none⟩
    let status : Property := ⟨"_status", .string, some ["open", "closed"]⟩
    let again : Property := ⟨"AGE", .string, some []⟩
    let schema : Schema := ⟨[age, status], by decide⟩
    ofProperties [age, status] = .ok schema ∧ Registrable [age, status] ∧
      schema.describe? "_Status" = some status ∧ schema.contains "status" = false ∧
      ofProperties [age, again, status] = .error (.noAllowedValue "AGE") := by
  intro age status again schema
  have made : ofProperties [age, status] = .ok schema := ofProperties_eq_ok_iff.2 rfl
  obtain ⟨accepted, found, -⟩ := ofProperties_correct [age, status]
  have registrable := accepted.1 ⟨schema, made⟩
  have lookups := (found schema made).2
  refine ⟨made, registrable, ((lookups "_Status").1 status).2 ⟨by simp, by decide⟩, ?_, ?_⟩
  · rw [← Bool.not_eq_true, (lookups "status").2.2]
    decide
  · obtain ⟨-, -, failed, -⟩ := ofProperties_correct [age, again, status]
    refine (failed _).2 ⟨[age], again, [status], rfl, ?_, ?_⟩
    · exact registrable.of_append
    · exact .allowed (properName_iff.2 ⟨by decide, by decide⟩) rfl

end Schema
end RuleFilter

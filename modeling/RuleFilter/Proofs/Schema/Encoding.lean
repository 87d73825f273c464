import RuleFilter.Schema.Fingerprint

namespace RuleFilter

def Unseparated (text : String) : Prop :=
  '\x1e' ∉ text.toList ∧ '\x1f' ∉ text.toList

instance (text : String) : Decidable (Unseparated text) :=
  inferInstanceAs (Decidable (_ ∧ _))

namespace PropertyType

/-- Whether a type of the host has a name of its own. -/
def Genuine : PropertyType → Prop
  | custom name => name ∉ [string, integer, decimal, boolean, dateTime].map PropertyType.name
  | _ => True

instance : DecidablePred Genuine
  | custom name => inferInstanceAs (Decidable (name ∉ _))
  | string | integer | decimal | boolean | dateTime => .isTrue trivial

theorem name_inj {a b : PropertyType} (genuine : a.Genuine) (genuine' : b.Genuine)
    (same : a.name = b.name) : a = b := by
  cases a <;> cases b <;> simp_all [Genuine, name]

end PropertyType

namespace Property

def fields (property : Property) : List String :=
  property.name :: property.type.name :: property.allowed.getD []

def label (property : Property) : String × String × Option (List String) :=
  (property.name, property.type.name, property.allowed)

def Separable (property : Property) : Prop :=
  Unseparated property.type.name ∧ ∀ value ∈ property.allowed.getD [], Unseparated value

instance : DecidablePred Separable := fun property =>
  inferInstanceAs (Decidable (Unseparated property.type.name ∧ _))

def record (property : Property) : List Char :=
  ['\x1f'].intercalate (property.fields.map String.toList)

/-! ## Sound properties -/

theorem unseparated_of_isName {name : String} (named : Text.isName name = true) :
    Unseparated name := by
  unfold Text.isName at named
  split at named
  · cases named
  · next c cs chars =>
    have all := List.all_eq_true.1 (Bool.and_eq_true_iff.1 named).2
    rw [Unseparated, chars]
    exact ⟨fun member => absurd (all _ member) (by decide),
      fun member => absurd (all _ member) (by decide)⟩

theorem fault?_eq_none_iff {property : Property} :
    property.fault? = none ↔ Text.isName property.name = true ∧
      isReserved property.name = false ∧ property.allowed ≠ some [] := by
  unfold fault?
  cases Text.isName property.name <;> cases isReserved property.name <;> simp

theorem fields_eq_iff {property property' : Property} (sound : property.allowed ≠ some [])
    (sound' : property'.allowed ≠ some []) :
    property.fields = property'.fields ↔ property.label = property'.label := by
  simp only [fields, label, List.cons.injEq, Prod.mk.injEq]
  refine and_congr_right fun _ => and_congr_right fun _ => ?_
  cases limits : property.allowed <;> cases limits' : property'.allowed <;> simp_all [eq_comm]

theorem label_inj {property property' : Property} (genuine : property.type.Genuine)
    (genuine' : property'.type.Genuine) :
    property.label = property'.label ↔ property = property' := by
  refine ⟨fun same => ?_, congrArg label⟩
  obtain ⟨name, type, allowed⟩ := property
  obtain ⟨name', type', allowed'⟩ := property'
  simp only [label, Prod.mk.injEq] at same
  obtain ⟨rfl, types, rfl⟩ := same
  cases PropertyType.name_inj genuine genuine' types
  rfl

end Property

theorem fault?_of_firstFault? {earlier properties : List Property}
    (sound : firstFault? earlier properties = none) :
    ∀ property ∈ properties, property.fault? = none := by
  induction properties generalizing earlier with
  | nil => simp
  | cons property properties ih =>
    unfold firstFault? at sound
    split at sound
    · cases sound
    · next faultless =>
      split at sound
      · cases sound
      · exact List.forall_mem_cons.2 ⟨faultless, ih sound⟩

/-! ## Texts with separators -/

theorem intercalate_cons {α : Type} (a : α) (part : List α) (parts : List (List α)) :
    [a].intercalate (part :: parts) = part ++ parts.flatMap (a :: ·) := by
  induction parts generalizing part with
  | nil => rw [List.intercalate_singleton, List.flatMap_nil, List.append_nil]
  | cons next parts ih =>
    rw [List.intercalate_cons_cons, ih, List.flatMap_cons, List.append_assoc]
    rfl

theorem flatMap_terminated (a : Char) (parts : List (List Char)) :
    parts.flatMap (· ++ [a]) = [a].intercalate (parts ++ [[]]) := by
  induction parts with
  | nil => rfl
  | cons part parts ih =>
    rw [List.flatMap_cons, ih, List.cons_append]
    obtain ⟨next, rest, shape⟩ :=
      List.exists_cons_of_ne_nil (List.append_ne_nil_of_right_ne_nil parts (List.cons_ne_nil [] []))
    rw [shape, List.intercalate_cons_cons]

theorem intercalate_inj {a : Char} {parts parts' : List (List Char)} (some_part : parts ≠ [])
    (some_part' : parts' ≠ []) (free : ∀ part ∈ parts, a ∉ part) (free' : ∀ part ∈ parts', a ∉ part)
    (same : [a].intercalate parts = [a].intercalate parts') : parts = parts' := by
  rw [← List.splitOn_intercalate a free some_part, same,
    List.splitOn_intercalate a free' some_part']

theorem flatMap_terminated_inj {a : Char} {parts parts' : List (List Char)}
    (free : ∀ part ∈ parts, a ∉ part) (free' : ∀ part ∈ parts', a ∉ part)
    (same : parts.flatMap (· ++ [a]) = parts'.flatMap (· ++ [a])) : parts = parts' := by
  have free_end {parts : List (List Char)} (free : ∀ part ∈ parts, a ∉ part) :
      ∀ part ∈ parts ++ [[]], a ∉ part :=
    List.forall_mem_append.2 ⟨free, List.forall_mem_singleton.2 List.not_mem_nil⟩
  rw [flatMap_terminated, flatMap_terminated] at same
  exact List.append_cancel_right
    (intercalate_inj (by simp) (by simp) (free_end free) (free_end free') same)

theorem not_mem_intercalate {a b : Char} (other : b ≠ a) {parts : List (List Char)}
    (free : ∀ part ∈ parts, b ∉ part) : b ∉ [a].intercalate parts := by
  cases parts with
  | nil => exact List.not_mem_nil
  | cons part parts =>
    obtain ⟨first, others⟩ := List.forall_mem_cons.1 free
    rw [intercalate_cons]
    intro member
    rcases List.mem_append.1 member with member | member
    · exact first member
    · obtain ⟨next, listed, member⟩ := List.mem_flatMap.1 member
      rcases List.mem_cons.1 member with same | member
      · exact other same
      · exact others next listed member

/-! ## Encodings -/

namespace Property

theorem toList_encoding (property : Property) :
    property.encoding.toList = property.record ++ ['\x1e'] := by
  simp only [encoding, record, fields, List.map_cons, intercalate_cons, String.toList_append,
    String.toList_join, List.flatMap_map, List.flatMap_cons, unitSeparator, recordSeparator,
    List.append_assoc, List.cons_append]
  rfl

theorem unseparated_fields {property : Property} (sound : property.fault? = none)
    (separable : property.Separable) : ∀ field ∈ property.fields, Unseparated field :=
  List.forall_mem_cons.2 ⟨unseparated_of_isName (fault?_eq_none_iff.1 sound).1,
    List.forall_mem_cons.2 separable⟩

theorem not_mem_record {property : Property} (sound : property.fault? = none)
    (separable : property.Separable) : '\x1e' ∉ property.record :=
  not_mem_intercalate (by decide) (List.forall_mem_map.2 fun field member =>
    (unseparated_fields sound separable field member).1)

theorem record_eq_iff {property property' : Property} (sound : property.fault? = none)
    (separable : property.Separable) (sound' : property'.fault? = none)
    (separable' : property'.Separable) :
    property.record = property'.record ↔ property.label = property'.label := by
  have limits := fault?_eq_none_iff.1 sound
  have limits' := fault?_eq_none_iff.1 sound'
  rw [← fields_eq_iff limits.2.2 limits'.2.2]
  refine ⟨fun same => ?_, fun same => by rw [record, record, same]⟩
  have free {property : Property} (sound : property.fault? = none)
      (separable : property.Separable) :
      ∀ part ∈ property.fields.map String.toList, '\x1f' ∉ part :=
    List.forall_mem_map.2 fun field member => (unseparated_fields sound separable field member).2
  have parts := intercalate_inj (by simp [fields]) (by simp [fields]) (free sound separable)
    (free sound' separable') same
  exact (List.map_inj_right fun _ _ => String.toList_inj.1).1 parts

end Property

theorem toList_encodeProperties (properties : List Property) :
    (encodeProperties properties).toList =
      (properties.map Property.record).flatMap (· ++ ['\x1e']) := by
  simp only [encodeProperties, String.toList_join, List.flatMap_map, Property.toList_encoding]

theorem map_eq_map_iff {α β γ : Type} {f : α → β} {g : α → γ} {as bs : List α}
    (each : ∀ a ∈ as, ∀ b ∈ bs, (f a = f b ↔ g a = g b)) :
    as.map f = bs.map f ↔ as.map g = bs.map g := by
  induction as generalizing bs with
  | nil => simp only [List.map_nil, eq_comm, List.map_eq_nil_iff]
  | cons a as ih =>
    cases bs with
    | nil => simp only [List.map_nil, List.map_cons, List.cons_ne_nil]
    | cons b bs =>
      rw [List.map_cons, List.map_cons, List.map_cons, List.map_cons, List.cons.injEq,
        List.cons.injEq, each a List.mem_cons_self b List.mem_cons_self]
      exact and_congr_right fun _ => ih fun a member b member' =>
        each a (List.mem_cons_of_mem _ member) b (List.mem_cons_of_mem _ member')

theorem encodeProperties_of_labels {properties properties' : List Property}
    (same : properties.map Property.label = properties'.map Property.label) :
    encodeProperties properties = encodeProperties properties' := by
  have encode (properties : List Property) : encodeProperties properties =
      String.join ((properties.map Property.label).map fun (name, type, allowed) =>
        name ++ unitSeparator ++ type ++
          String.join ((allowed.getD []).map (unitSeparator ++ ·)) ++ recordSeparator) := by
    rw [List.map_map]
    rfl
  rw [encode, encode, same]

section

variable {properties properties' : List Property}
  (sound : ∀ property ∈ properties, property.fault? = none)
  (separable : ∀ property ∈ properties, property.Separable)
  (sound' : ∀ property ∈ properties', property.fault? = none)
  (separable' : ∀ property ∈ properties', property.Separable)

include sound separable sound' separable'

theorem encodeProperties_eq_iff_labels :
    encodeProperties properties = encodeProperties properties' ↔
      properties.map Property.label = properties'.map Property.label := by
  have free {properties : List Property} (sound : ∀ property ∈ properties, property.fault? = none)
      (separable : ∀ property ∈ properties, property.Separable) :
      ∀ part ∈ properties.map Property.record, '\x1e' ∉ part :=
    List.forall_mem_map.2 fun property member =>
      Property.not_mem_record (sound property member) (separable property member)
  have records : encodeProperties properties = encodeProperties properties' ↔
      properties.map Property.record = properties'.map Property.record := by
    rw [← String.toList_inj, toList_encodeProperties, toList_encodeProperties]
    exact ⟨flatMap_terminated_inj (free sound separable) (free sound' separable'), congrArg _⟩
  rw [records]
  exact map_eq_map_iff fun property member property' member' =>
    Property.record_eq_iff (sound property member) (separable property member)
      (sound' property' member') (separable' property' member')

theorem encodeProperties_inj (genuine : ∀ property ∈ properties, property.type.Genuine)
    (genuine' : ∀ property ∈ properties', property.type.Genuine) :
    encodeProperties properties = encodeProperties properties' ↔ properties = properties' := by
  rw [encodeProperties_eq_iff_labels sound separable sound' separable',
    map_eq_map_iff (g := id), List.map_id, List.map_id]
  intro property member property' member'
  exact Property.label_inj (genuine property member) (genuine' property' member')

end

-- Without separators kept out, fields and whole properties can hide in a field.
example : encodeProperties [⟨"A", .custom "T\x1fv", none⟩] =
    encodeProperties [⟨"A", .custom "T", some ["v"]⟩] := rfl

example : encodeProperties [⟨"A", .string, some ["v\x1eB", "Integer"]⟩] =
    encodeProperties [⟨"A", .string, some ["v"]⟩, ⟨"B", .integer, none⟩] := rfl

end RuleFilter

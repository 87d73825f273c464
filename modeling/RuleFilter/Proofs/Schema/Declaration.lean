import Mathlib.Data.List.Forall2
import RuleFilter.Proofs.Schema.Encoding
import RuleFilter.Proofs.Text.Split
import RuleFilter.Schema.Declaration

namespace RuleFilter

def Property.declaration (property : Property) : String :=
  let declared := property.name ++ ":" ++ property.type.name
  match property.allowed with
  | none => declared
  | some values => declared ++ "=" ++ "|".intercalate values

def declaration (properties : List Property) : String :=
  ",".intercalate (properties.map Property.declaration)

/-- Whether a property can be declared. A type of the host goes by a word that means nothing else,
and each part is free of blanks around it and of the separators that end it. -/
structure Property.Declarable (property : Property) : Prop where
  name : Text.Trimmed property.name.toList ∧
    ',' ∉ property.name.toList ∧ ':' ∉ property.name.toList ∧ '=' ∉ property.name.toList
  type : ∀ word, property.type = .custom word →
    (Text.Trimmed word.toList ∧ ',' ∉ word.toList ∧ '=' ∉ word.toList) ∧
      ∀ entry ∈ PropertyType.words, Text.sameLetters entry.1 word = false
  allowed : ∀ values, property.allowed = some values → values ≠ [] ∧
    ∀ value ∈ values, Text.Trimmed value.toList ∧ ',' ∉ value.toList ∧ '|' ∉ value.toList

/-- Whether characters declare a property, with nothing but blanks around its name, the word of its
type and each of its values. So there may be blanks around the whole too. -/
inductive Property.Declares (property : Property) : List Char → Prop
  | free {name type : List Char} : property.allowed = none →
      Text.Pads name property.name.toList → Text.Pads type property.type.name.toList →
      Declares property (name ++ ':' :: type)
  | limited {name type : List Char} {values : List String} {parts : List (List Char)} :
      property.allowed = some values →
      Text.Pads name property.name.toList → Text.Pads type property.type.name.toList →
      List.Forall₂ (fun part value => Text.Pads part value.toList) parts values →
      Declares property ((name ++ ':' :: type) ++ '=' :: ['|'].intercalate parts)

def Declares (text : String) (properties : List Property) : Prop :=
  ∃ parts, text.toList = [','].intercalate parts ∧
    List.Forall₂ (fun part property => property.Declares part) parts properties

theorem map_eq_of_forall₂ {α β : Type} {R : α → β → Prop} {P : α → Prop} {f : α → β} {as : List α}
    {bs : List β} (related : List.Forall₂ R as bs)
    (each : ∀ a, ∀ b ∈ bs, R a b → P a ∧ f a = b) : (∀ a ∈ as, P a) ∧ as.map f = bs := by
  induction related with
  | nil => exact ⟨nofun, rfl⟩
  | cons first _ ih =>
    obtain ⟨others, rest⟩ := ih fun a b member => each a b (List.mem_cons_of_mem _ member)
    obtain ⟨holds, made⟩ := each _ _ List.mem_cons_self first
    exact ⟨List.forall_mem_cons.2 ⟨holds, others⟩, by rw [List.map_cons, made, rest]⟩

theorem Text.pads_refl (cs : List Char) : Pads cs cs :=
  ⟨[], [], by simp, nofun, nofun⟩

/-! ## Types -/

theorem PropertyType.ofWord_custom {word : String}
    (other : ∀ entry ∈ words, Text.sameLetters entry.1 word = false) :
    ofWord word = .custom word := by
  have none : (words.find? fun entry => Text.sameLetters entry.1 word) = none := by
    simpa using other
  rw [ofWord, none]

namespace Property

variable {property : Property}

theorem Declarable.word (declarable : property.Declarable) :
    PropertyType.ofWord property.type.name = property.type ∧
      Text.Trimmed property.type.name.toList ∧
      ',' ∉ property.type.name.toList ∧ '=' ∉ property.type.name.toList := by
  cases type : property.type with
  | custom word =>
    obtain ⟨plain, other⟩ := declarable.type word type
    exact ⟨PropertyType.ofWord_custom other, plain⟩
  | _ => exact ⟨by decide, by decide⟩

/-! ## One property -/

def nameAndType (declared : List Char) : String × PropertyType :=
  match Text.splitFirst? ':' declared with
  | some (name, word) => (String.ofList (Text.trim name),
      PropertyType.ofWord (String.ofList (Text.trim word)))
  | none => (String.ofList (Text.trim declared), .string)

def declaredValues (values : List Char) : List String :=
  ((Text.splitAll '|' values).map Text.trim).map String.ofList

theorem ofDeclaration_open {part : List Char} (unlimited : Text.splitFirst? '=' part = none) :
    ofDeclaration part = ⟨(nameAndType part).1, (nameAndType part).2, none⟩ := by
  simp only [ofDeclaration, unlimited, nameAndType]
  cases Text.splitFirst? ':' part <;> rfl

theorem ofDeclaration_limited {part declared values : List Char}
    (limited : Text.splitFirst? '=' part = some (declared, values)) :
    ofDeclaration part =
      ⟨(nameAndType declared).1, (nameAndType declared).2, some (declaredValues values)⟩ := by
  simp only [ofDeclaration, limited, nameAndType, declaredValues, List.map_map]
  cases Text.splitFirst? ':' declared <;> rfl

theorem nameAndType_pads {padded declared : List Char} (pads : Text.Pads padded declared) :
    nameAndType padded = nameAndType declared := by
  have trimmed := pads.trim_eq
  obtain ⟨front, back, rfl, before, behind⟩ := pads
  have split := @Text.splitFirst?_pads ':' front back (by decide) before behind declared
  unfold nameAndType
  rw [split, trimmed]
  cases Text.splitFirst? ':' declared with
  | none => rfl
  | some halves =>
    obtain ⟨name, word⟩ := halves
    have name_eq : Text.trim (front ++ name) = Text.trim name := by
      simpa using @Text.trim_append front [] before nofun name
    have word_eq : Text.trim (word ++ back) = Text.trim word :=
      @Text.trim_append [] back nofun behind word
    simp only [Option.map_some, name_eq, word_eq]

theorem ofDeclaration_pads {padded part : List Char} (pads : Text.Pads padded part) :
    ofDeclaration padded = ofDeclaration part := by
  have names := nameAndType_pads pads
  obtain ⟨front, back, rfl, before, behind⟩ := pads
  have split := @Text.splitFirst?_pads '=' front back (by decide) before behind part
  cases found : Text.splitFirst? '=' part with
  | none =>
    rw [found, Option.map_none] at split
    rw [ofDeclaration_open split, ofDeclaration_open found, names]
  | some halves =>
    obtain ⟨declared, values⟩ := halves
    rw [found, Option.map_some] at split
    have front_only : Text.Pads (front ++ declared) declared :=
      ⟨front, [], by simp, before, nofun⟩
    have same : declaredValues (values ++ back) = declaredValues values :=
      congrArg (List.map String.ofList) (Text.map_trim_splitAll (by decide) behind values)
    rw [ofDeclaration_limited split, ofDeclaration_limited found, nameAndType_pads front_only, same]

theorem nameAndType_of_pads (declarable : property.Declarable) {name type : List Char}
    (named : Text.Pads name property.name.toList)
    (typed : Text.Pads type property.type.name.toList) :
    nameAndType (name ++ ':' :: type) = (property.name, property.type) := by
  obtain ⟨meant, trimmed, -⟩ := declarable.word
  have absent : ':' ∉ name := named.not_mem (by decide) declarable.name.2.2.1
  rw [nameAndType, Text.splitFirst?_append absent]
  simp only [named.trim_eq, typed.trim_eq, Text.trim_eq_self declarable.name.1,
    Text.trim_eq_self trimmed, String.ofList_toList, meant]

theorem values_of_pads (declarable : property.Declarable) {values : List String}
    (limited : property.allowed = some values) {parts : List (List Char)}
    (pads : List.Forall₂ (fun part value => Text.Pads part value.toList) parts values) :
    ',' ∉ ['|'].intercalate parts ∧ declaredValues (['|'].intercalate parts) = values := by
  obtain ⟨some_value, plain⟩ := declarable.allowed values limited
  have each (part : List Char) (value : String) (member : value ∈ values)
      (padded : Text.Pads part value.toList) :
      (',' ∉ part ∧ '|' ∉ part) ∧ String.ofList (Text.trim part) = value := by
    obtain ⟨trimmed, comma, bar⟩ := plain value member
    refine ⟨⟨padded.not_mem (by decide) comma, padded.not_mem (by decide) bar⟩, ?_⟩
    rw [padded.trim_eq, Text.trim_eq_self trimmed, String.ofList_toList]
  obtain ⟨free, made⟩ := map_eq_of_forall₂ pads each
  have some_part : parts ≠ [] := by
    rintro rfl
    exact some_value made.symm
  refine ⟨not_mem_intercalate (by decide) fun part member => (free part member).1, ?_⟩
  rw [declaredValues, Text.splitAll_intercalate some_part fun part member => (free part member).2,
    List.map_map]
  exact made

theorem not_mem_of_pads (declarable : property.Declarable) {name type : List Char}
    (named : Text.Pads name property.name.toList)
    (typed : Text.Pads type property.type.name.toList) :
    ',' ∉ name ++ ':' :: type ∧ '=' ∉ name ++ ':' :: type := by
  have absent {c : Char} (visible : Text.isBlank c = false) (other : c ≠ ':')
      (free : c ∉ property.name.toList) (free' : c ∉ property.type.name.toList) :
      c ∉ name ++ ':' :: type := by
    simp only [List.mem_append, List.mem_cons, not_or]
    exact ⟨named.not_mem visible free, other, typed.not_mem visible free'⟩
  obtain ⟨-, comma, -, equals⟩ := declarable.name
  obtain ⟨-, -, comma', equals'⟩ := declarable.word
  exact ⟨absent (by decide) (by decide) comma comma', absent (by decide) (by decide) equals equals'⟩

theorem ofDeclaration_of_declares (declarable : property.Declarable) {part : List Char}
    (declares : property.Declares part) : ',' ∉ part ∧ ofDeclaration part = property := by
  cases declares with
  | free unlimited named typed =>
    obtain ⟨comma, equals⟩ := not_mem_of_pads declarable named typed
    refine ⟨comma, ?_⟩
    rw [ofDeclaration_open (Text.splitFirst?_eq_none equals),
      nameAndType_of_pads declarable named typed, ← unlimited]
  | @limited name type _ parts limited named typed pads =>
    obtain ⟨comma, equals⟩ := not_mem_of_pads declarable named typed
    obtain ⟨free, values⟩ := values_of_pads declarable limited pads
    have split := Text.splitFirst?_append equals (['|'].intercalate parts)
    refine ⟨?_, ?_⟩
    · rw [List.mem_append, List.mem_cons, not_or, not_or]
      exact ⟨comma, by decide, free⟩
    · rw [ofDeclaration_limited split, values, ← limited,
        nameAndType_of_pads declarable named typed]

theorem Declares.colon_mem {part : List Char} (declares : property.Declares part) :
    ':' ∈ part := by
  cases declares <;> simp

theorem declares_declaration (property : Property) :
    property.Declares property.declaration.toList := by
  unfold declaration
  cases limited : property.allowed with
  | none =>
    simp only [String.toList_append]
    rw [List.append_assoc]
    exact .free limited (Text.pads_refl _) (Text.pads_refl _)
  | some values =>
    have chars :
        (property.name ++ ":" ++ property.type.name ++ "=" ++ "|".intercalate values).toList =
          (property.name.toList ++ ':' :: property.type.name.toList) ++
            '=' :: ['|'].intercalate (values.map String.toList) := by
      simp [String.toList_append, String.toList_intercalate]
    rw [chars]
    refine .limited limited (Text.pads_refl _) (Text.pads_refl _) ?_
    exact List.forall₂_map_left_iff.2 (List.forall₂_same.2 fun _ _ => Text.pads_refl _)

end Property

/-! ## All properties -/

theorem declares_declaration (properties : List Property) :
    Declares (declaration properties) properties := by
  refine ⟨properties.map fun property => property.declaration.toList, ?_, ?_⟩
  · rw [declaration, String.toList_intercalate, List.map_map]
    rfl
  · exact List.forall₂_map_left_iff.2
      (List.forall₂_same.2 fun property _ => property.declares_declaration)

theorem declaredProperties_of_declares {properties : List Property}
    (declarable : ∀ property ∈ properties, property.Declarable) {text : String}
    (declares : Declares text properties) : declaredProperties text = properties := by
  obtain ⟨parts, chars, written⟩ := declares
  have each (part : List Char) (property : Property) (member : property ∈ properties)
      (declares : property.Declares part) :
      (',' ∉ part ∧ Text.trim part ≠ []) ∧
        Property.ofDeclaration (Text.trim part) = property := by
    obtain ⟨comma, read⟩ :=
      Property.ofDeclaration_of_declares (declarable property member) declares
    refine ⟨⟨comma, Text.trim_ne_nil (by decide) declares.colon_mem⟩, ?_⟩
    rw [← Property.ofDeclaration_pads (Text.pads_trim part), read]
  obtain ⟨free, made⟩ := map_eq_of_forall₂ written each
  cases parts with
  | nil =>
    obtain rfl := made
    rw [declaredProperties, chars]
    rfl
  | cons part parts =>
    have parted := Text.splitAll_intercalate (List.cons_ne_nil part parts)
      fun part member => (free part member).1
    have kept : ((part :: parts).map Text.trim).filter (fun part => !part.isEmpty) =
        (part :: parts).map Text.trim := by
      rw [List.filter_eq_self, List.forall_mem_map]
      intro part member
      simpa using (free part member).2
    rw [declaredProperties, chars, parted]
    simp only [kept, List.map_map]
    exact made

/-- Properties that can be declared are read back from their declarations, also where blanks stand
around the names, types and values in these. -/
theorem declaredProperties_declaration {properties : List Property}
    (declarable : ∀ property ∈ properties, property.Declarable) :
    declaredProperties (declaration properties) = properties ∧
      ∀ text, Declares text properties → declaredProperties text = properties :=
  ⟨declaredProperties_of_declares declarable (declares_declaration properties),
    fun _ declares => declaredProperties_of_declares declarable declares⟩

theorem declaredProperties_declaration_shade :
    let status : Property := ⟨"Status", .string, some ["Open", "a:b=c"]⟩
    let shade : Property := ⟨"Shade", .custom "Color:x", none⟩
    (∀ property ∈ [status, shade], property.Declarable) ∧
      Declares " Status: String =Open | a:b=c,Shade :Color:x " [status, shade] ∧
      declaredProperties "Status:String=Open|a:b=c,Shade:Color:x" = [status, shade] ∧
      declaredProperties " Status: String =Open | a:b=c,Shade :Color:x " = [status, shade] := by
  intro status shade
  have declarable : ∀ property ∈ [status, shade], property.Declarable := by
    refine List.forall_mem_cons.2 ⟨⟨by decide, nofun, ?_⟩,
      List.forall_mem_singleton.2 ⟨by decide, ?_, nofun⟩⟩
    · rintro _ ⟨⟩
      decide
    · rintro _ ⟨⟩
      decide
  have blank : ∀ c ∈ [' '], Text.isBlank c = true := List.forall_mem_singleton.2 rfl
  have declares : Declares " Status: String =Open | a:b=c,Shade :Color:x " [status, shade] := by
    refine ⟨[" Status: String =Open | a:b=c".toList, "Shade :Color:x ".toList], by decide, .cons
      (@Property.Declares.limited _ " Status".toList " String ".toList _
        ["Open ".toList, " a:b=c".toList] rfl ?_ ?_ (.cons ?_ (.cons ?_ .nil)))
      (.cons (@Property.Declares.free _ "Shade ".toList "Color:x ".toList rfl ?_ ?_) .nil)⟩
    · exact ⟨[' '], [], by decide, blank, nofun⟩
    · exact ⟨[' '], [' '], by decide, blank, blank⟩
    · exact ⟨[], [' '], by decide, nofun, blank⟩
    · exact ⟨[' '], [], by decide, blank, nofun⟩
    · exact ⟨[], [' '], by decide, nofun, blank⟩
    · exact ⟨[], [' '], by decide, nofun, blank⟩
  obtain ⟨written, padded⟩ := declaredProperties_declaration declarable
  exact ⟨declarable, declares, written, padded _ declares⟩

end RuleFilter

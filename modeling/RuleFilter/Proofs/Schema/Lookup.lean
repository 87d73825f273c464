import RuleFilter.Proofs.Schema.Encoding

namespace RuleFilter

theorem pairwise_of_firstFault? {earlier properties : List Property}
    (sound : firstFault? earlier properties = none) :
    (∀ property ∈ properties, ∀ other ∈ earlier,
      Text.sameLetters other.name property.name = false) ∧
    properties.Pairwise fun a b => Text.sameLetters a.name b.name = false := by
  induction properties generalizing earlier with
  | nil => exact ⟨nofun, .nil⟩
  | cons property properties ih =>
    unfold firstFault? at sound
    split at sound
    · cases sound
    split at sound
    · cases sound
    · next distinct =>
      rw [Bool.not_eq_true, List.any_eq_false] at distinct
      simp only [Bool.not_eq_true] at distinct
      obtain ⟨behind, pairwise⟩ := ih sound
      simp only [List.forall_mem_cons] at behind ⊢
      exact ⟨⟨distinct, fun other member => (behind other member).2⟩,
        .cons (fun other member => (behind other member).1) pairwise⟩

namespace Schema

variable {schema : Schema} {property : Property}

theorem sound_of_mem (schema : Schema) : ∀ property ∈ schema.properties, property.fault? = none :=
  fault?_of_firstFault? schema.sound

theorem isName_of_mem (member : property ∈ schema.properties) :
    Text.isName property.name = true :=
  (Property.fault?_eq_none_iff.1 (schema.sound_of_mem property member)).1

theorem unreserved_of_mem (member : property ∈ schema.properties) :
    isReserved property.name = false :=
  (Property.fault?_eq_none_iff.1 (schema.sound_of_mem property member)).2.1

theorem describe?_eq_some_iff {name : String} :
    schema.describe? name = some property ↔
      property ∈ schema.properties ∧ Text.sameLetters property.name name = true := by
  constructor
  · intro found
    have same := List.find?_some found
    exact ⟨List.mem_of_find?_eq_some found, same⟩
  · rintro ⟨member, same⟩
    have distinct := (pairwise_of_firstFault? schema.sound).2
    obtain ⟨before, after, split⟩ := List.append_of_mem member
    refine List.find?_eq_some_iff_append.2 ⟨same, before, after, split, fun other listed => ?_⟩
    rw [split, List.pairwise_append] at distinct
    have differs := distinct.2.2 other listed property List.mem_cons_self
    rw [Text.sameLetters, Text.sameLetters_iff.1 same] at differs
    simpa [Text.sameLetters] using differs

theorem describe?_of_mem (member : property ∈ schema.properties) {name : String}
    (same : Text.sameLetters name property.name = true) :
    schema.describe? name = some property :=
  describe?_eq_some_iff.2 ⟨member, by rwa [Text.sameLetters_comm]⟩

end Schema
end RuleFilter

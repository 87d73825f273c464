import RuleFilter.Proofs.Engine.Session
import RuleFilter.Proofs.Schema.Lookup

namespace RuleFilter

def Schema.Plain (schema : Schema) : Prop :=
  ∀ property ∈ schema.properties, property.Separable ∧ property.type.Genuine

instance : DecidablePred Schema.Plain := fun schema =>
  inferInstanceAs (Decidable (∀ property ∈ schema.properties, _))

namespace Session

def Collisionless (engines : List Engine) : Prop :=
  (∀ engine ∈ engines, ∀ schema, engine.chosen = some schema →
    schema.fingerprint ≠ blankFingerprint) ∧
  ∀ engine ∈ engines, ∀ engine' ∈ engines, ∀ schema schema', engine.chosen = some schema →
    engine'.chosen = some schema' → schema.fingerprint = schema'.fingerprint →
      (encodeProperties schema.properties).toUTF8 = (encodeProperties schema'.properties).toUTF8

def EncodedApart (engines : List Engine) : Prop :=
  ∀ engine ∈ engines, ∀ engine' ∈ engines,
    (encodeProperties engine.schema.properties).toUTF8 =
      (encodeProperties engine'.schema.properties).toUTF8 → engine.schema = engine'.schema

theorem encodedApart_of_plain {engines : List Engine}
    (plain : ∀ engine ∈ engines, engine.schema.Plain) : EncodedApart engines := by
  intro engine member engine' member' bytes
  have plain₁ := plain engine member
  have plain₂ := plain engine' member'
  have properties := (encodeProperties_inj engine.schema.sound_of_mem
    (fun property listed => (plain₁ property listed).1) engine'.schema.sound_of_mem
    (fun property listed => (plain₂ property listed).1)
    (fun property listed => (plain₁ property listed).2)
    (fun property listed => (plain₂ property listed).2)).1 (String.toByteArray_inj.1 bytes)
  rwa [Schema.mk.injEq]

theorem toldApart_of_encodedApart {engines : List Engine} (collisionless : Collisionless engines)
    (apart : EncodedApart engines) : ToldApart engines := by
  obtain ⟨blank, distinct⟩ := collisionless
  intro engine member engine' member' same
  have schemas := apart engine member engine' member'
  unfold Engine.fingerprint Engine.schema at *
  cases chosen : engine.chosen with
  | none =>
    cases chosen' : engine'.chosen with
    | none => rfl
    | some schema' =>
      rw [chosen, chosen'] at same
      exact absurd same.symm (blank engine' member' schema' chosen')
  | some schema =>
    cases chosen' : engine'.chosen with
    | none =>
      rw [chosen, chosen'] at same
      exact absurd same (blank engine member schema chosen)
    | some schema' =>
      rw [chosen, chosen'] at same schemas
      exact schemas (distinct engine member engine' member' schema schema' chosen chosen' same)

theorem served_by_own_schema {capacity : Nat} {engines : List Engine} {steps : List (Nat × Action)}
    (apart : ToldApart ((sharing (.ofCapacity capacity) engines).engines steps)) {index : Nat}
    {seat : Seat}
    (sits : ((sharing (.ofCapacity capacity) engines).after steps).seats[index]? = some seat)
    {text : String} {predicate : Predicate}
    (found : (((sharing (.ofCapacity capacity) engines).after steps).cacheOf seat).predicates[
      seat.engine.cacheKey (seat.engine.tokens text)]? = some predicate) :
    ∃ other ∈ (sharing (.ofCapacity capacity) engines).engines steps, ∃ text' condition,
      other.schema = seat.engine.schema ∧ other.normalize text' = seat.engine.normalize text ∧
        other.schema.compile (other.tokens text') = .ok condition ∧
        predicate.condition = some condition := by
  have member := List.mem_of_getElem? sits
  have honest := (honest_sharing
    (· ∈ (sharing (.ofCapacity capacity) engines).engines steps) capacity engines).after
      fun _ employs => employs
  obtain ⟨other, text', condition, employs, schemas, normal, compiles, holds⟩ :=
    Engine.exists_compiled_of_found (mem_engines member) apart (honest.cacheOf member) found
  exact ⟨other, employs, text', condition, schemas, normal, compiles, holds⟩

/-- An encoding tells a schema but for the difference between a type and its name, if none of its
texts holds a separator. Where encodings tell the schemas of engines apart, a cache that they share
has for an engine only what was compiled with the schema of the engine. -/
theorem encoding_distinguishes (properties properties' : List Property) :
    (properties.map Property.label = properties'.map Property.label →
      (encodeProperties properties).toUTF8 = (encodeProperties properties').toUTF8) ∧
    (∀ schema schema' : Schema,
      Schema.ofProperties properties = .ok schema → Schema.ofProperties properties' = .ok schema' →
      (∀ property ∈ properties ++ properties', property.Separable) →
      (encodeProperties properties).toUTF8 = (encodeProperties properties').toUTF8 →
        properties.map Property.label = properties'.map Property.label ∧
          ((∀ property ∈ properties ++ properties', property.type.Genuine) →
            properties = properties')) ∧
    ∀ (capacity : Nat) (engines : List Engine) (steps : List (Nat × Action)) (index : Nat)
      (seat : Seat) (text : String) (predicate : Predicate),
      let start := sharing (.ofCapacity capacity) engines
      Collisionless (start.engines steps) →
      EncodedApart (start.engines steps) →
      (start.after steps).seats[index]? = some seat →
      ((start.after steps).cacheOf seat).predicates[
        seat.engine.cacheKey (seat.engine.tokens text)]? = some predicate →
      ∃ other ∈ start.engines steps, ∃ text' condition,
        other.schema = seat.engine.schema ∧ other.normalize text' = seat.engine.normalize text ∧
          other.schema.compile (other.tokens text') = .ok condition ∧
          predicate.condition = some condition := by
  refine ⟨fun labels => ?_, ?_, ?_⟩
  · rw [encodeProperties_of_labels labels]
  · intro schema schema' accepted accepted' separable bytes
    rw [Schema.ofProperties_eq_ok_iff] at accepted accepted'
    subst accepted accepted'
    obtain ⟨free, free'⟩ := List.forall_mem_append.1 separable
    have same := String.toByteArray_inj.1 bytes
    refine ⟨(encodeProperties_eq_iff_labels schema.sound_of_mem free schema'.sound_of_mem free').1
      same, fun genuine => ?_⟩
    obtain ⟨own, own'⟩ := List.forall_mem_append.1 genuine
    exact (encodeProperties_inj schema.sound_of_mem free schema'.sound_of_mem free' own own').1 same
  · intro capacity engines steps index seat text predicate start collisionless apart sits found
    exact served_by_own_schema (toldApart_of_encodedApart collisionless apart) sits found

/-! ## Two schemas in one cache -/

def titleSchema : Schema := ⟨[⟨"Name", .custom "Title", some ["Dr"]⟩], by decide⟩

def pairedEngines : List Engine := [.default, .default]

def pairedSteps : List (Nat × Action) :=
  [(0, .choose nameSchema.properties), (1, .choose titleSchema.properties),
    (0, .compile "Name == 'Dr'" none)]

def nameSeat : Seat := ⟨⟨{}, some nameSchema⟩, 0⟩

theorem paired_chosen : ∀ engine ∈ (sharing (.ofCapacity 8) pairedEngines).engines pairedSteps,
    engine.chosen = none ∨ engine.chosen = some nameSchema ∨ engine.chosen = some titleSchema := by
  have all : ((sharing (.ofCapacity 8) pairedEngines).engines pairedSteps).map Engine.chosen =
      [none, none, some nameSchema, none, some nameSchema, some titleSchema,
        some nameSchema, some titleSchema] := rfl
  intro engine member
  have chosen := List.mem_map_of_mem (f := Engine.chosen) member
  rw [all] at chosen
  simp only [List.mem_cons, List.not_mem_nil, or_false] at chosen
  grind

theorem paired_collisionless :
    Collisionless ((sharing (.ofCapacity 8) pairedEngines).engines pairedSteps) := by
  have titled : titleSchema.fingerprint ≠ blankFingerprint ∧
      nameSchema.fingerprint ≠ titleSchema.fingerprint := by decide +kernel
  obtain ⟨blank, distinct⟩ := titled
  constructor
  · intro engine member schema chosen
    rcases paired_chosen engine member with other | other | other <;> rw [chosen] at other <;>
      cases other
    · exact nameSchema_fingerprint
    · exact blank
  · intro engine member engine' member' schema schema' chosen chosen' same
    rcases paired_chosen engine member with other | other | other <;> rw [chosen] at other <;>
      cases other <;>
      rcases paired_chosen engine' member' with other' | other' | other' <;>
        rw [chosen'] at other' <;> cases other'
    · rfl
    · exact absurd same distinct
    · exact absurd same.symm distinct
    · rfl

theorem paired_plain : ∀ engine ∈ (sharing (.ofCapacity 8) pairedEngines).engines pairedSteps,
    engine.schema.Plain := by
  intro engine member
  unfold Engine.schema
  rcases paired_chosen engine member with chosen | chosen | chosen <;> rw [chosen] <;> decide

theorem paired_found : ∃ predicate,
    (((sharing (.ofCapacity 8) pairedEngines).after pairedSteps).cacheOf nameSeat).predicates[
      nameSeat.engine.cacheKey (nameSeat.engine.tokens "Name == 'Dr'")]? = some predicate := by
  have read : nameSeat.engine.tokens "Name == 'Dr'" = [⟨.property, "Name", ⟨0, 4⟩, none⟩,
      ⟨.operator, "==", ⟨5, 7⟩, none⟩, ⟨.value, "'Dr'", ⟨8, 12⟩, none⟩] :=
    Lexicon.reads_iff.1 (.token rfl rfl (.blank rfl (.token rfl rfl (.blank rfl
      (.token rfl rfl .done)))))
  have compiles : nameSeat.engine.schema.compile (nameSeat.engine.tokens "Name == 'Dr'") =
      .ok (.comparison ⟨"Name", .string, .eq, .string "Dr"⟩) := by
    rw [read]
    rfl
  have some_token : nameSeat.engine.tokens "Name == 'Dr'" ≠ [] := by simp [read]
  obtain ⟨predicate, compiled⟩ : ∃ predicate,
      (nameSeat.engine.compile 0 (.ofCapacity 8) "Name == 'Dr'").1 = .ok predicate := by
    rw [Engine.compile_empty]
    exact ⟨_, (Engine.compileAnew_eq_ok_iff some_token).2 ⟨_, compiles, rfl⟩⟩
  have found := Engine.found_of_compile some_token compiled
  exact ⟨predicate, found⟩

theorem encoding_distinguishes_title :
    (∀ property ∈ nameSchema.properties ++ titleSchema.properties, property.Separable) ∧
      (encodeProperties nameSchema.properties).toUTF8 ≠
        (encodeProperties titleSchema.properties).toUTF8 ∧
      ∃ predicate : Predicate,
        (((sharing (.ofCapacity 8) pairedEngines).after pairedSteps).cacheOf nameSeat).predicates[
          nameSeat.engine.cacheKey (nameSeat.engine.tokens "Name == 'Dr'")]? = some predicate ∧
        ∃ other ∈ (sharing (.ofCapacity 8) pairedEngines).engines pairedSteps,
          ∃ text' condition, other.schema = nameSchema ∧
            other.normalize text' = nameSeat.engine.normalize "Name == 'Dr'" ∧
            other.schema.compile (other.tokens text') = .ok condition ∧
            predicate.condition = some condition := by
  obtain ⟨-, tells, serves⟩ :=
    encoding_distinguishes nameSchema.properties titleSchema.properties
  have separable : ∀ property ∈ nameSchema.properties ++ titleSchema.properties,
      property.Separable := by decide
  refine ⟨separable, fun same => ?_, ?_⟩
  · have labels := tells nameSchema titleSchema (Schema.ofProperties_eq_ok_iff.2 rfl)
      (Schema.ofProperties_eq_ok_iff.2 rfl) separable same
    exact absurd labels.1 (by decide)
  · obtain ⟨predicate, found⟩ := paired_found
    exact ⟨predicate, found, serves 8 pairedEngines pairedSteps 0 nameSeat "Name == 'Dr'" predicate
      paired_collisionless (encodedApart_of_plain paired_plain) rfl found⟩

/-- A type of the host may have the name of a built-in one. -/
theorem not_encoding_distinguishes :
    ¬ ∀ (properties properties' : List Property) (schema schema' : Schema),
      Schema.ofProperties properties = .ok schema → Schema.ofProperties properties' = .ok schema' →
      (encodeProperties properties).toUTF8 = (encodeProperties properties').toUTF8 →
        properties = properties' := by
  intro claimed
  let builtIn : Schema := ⟨[⟨"Age", .integer, none⟩], by decide⟩
  let named : Schema := ⟨[⟨"Age", .custom "Integer", none⟩], by decide⟩
  have same := claimed builtIn.properties named.properties builtIn named
    (Schema.ofProperties_eq_ok_iff.2 rfl) (Schema.ofProperties_eq_ok_iff.2 rfl)
    (congrArg String.toUTF8 (encodeProperties_of_labels rfl))
  exact absurd same (by decide)

end Session
end RuleFilter

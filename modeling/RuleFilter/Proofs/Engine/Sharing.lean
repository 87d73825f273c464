import RuleFilter.Proofs.Engine.Compilation
import RuleFilter.Proofs.Text.Hex
import RuleFilter.Proofs.Token.Mode

/-!
# What a shared cache holds

Every predicate in a cache that engines share has the condition of its rule in permissive reading
(`Cache.Honest`, `Engine.condition_of_found`), since rules of strict reading mean the same there and
the modes give the same normal forms. So what a permissive engine compiles does not depend on what
others compiled before; a strict engine is misled where the cache knows a rule that only permissive
reading finds in a text (`Engine.compile_outcome`).
-/

namespace RuleFilter

/-! ## What a cache holds -/

namespace Cache

theorem getElem?_makeRoom {cache : Cache} {key : CacheKey} {predicate : Predicate}
    (h : cache.makeRoom.predicates[key]? = some predicate) :
    cache.predicates[key]? = some predicate := by
  unfold makeRoom at h
  split at h
  · exact h
  split at h
  · exact h
  · rw [Std.HashMap.getElem?_erase] at h
    split at h
    · cases h
    · exact h

theorem getElem?_insert {cache : Cache} {key key' : CacheKey} {predicate predicate' : Predicate}
    (h : (cache.insert key predicate).predicates[key']? = some predicate') :
    key = key' ∧ predicate = predicate' ∨ cache.predicates[key']? = some predicate' := by
  unfold insert at h
  split at h
  · exact .inr h
  · rw [Std.HashMap.getElem?_insert] at h
    split at h
    · next same => exact .inl ⟨beq_iff_eq.1 same, Option.some.inj h⟩
    · exact .inr (getElem?_makeRoom h)

theorem getElem?_insert_self {cache : Cache} {key : CacheKey}
    (missing : cache.predicates[key]? = none) (predicate : Predicate) :
    (cache.insert key predicate).predicates[key]? = some predicate := by
  have absent : ¬ cache.predicates.contains key = true := by
    rw [Std.HashMap.contains_eq_isSome_getElem?, missing]
    exact Bool.false_ne_true
  rw [insert, if_neg absent]
  exact Std.HashMap.getElem?_insert_self

/-- Whether every predicate stands for a rule that one of the engines compiles. -/
def Honest (employed : Engine → Prop) (cache : Cache) : Prop :=
  ∀ key predicate, cache.predicates[key]? = some predicate →
    ∃ engine text condition, employed engine ∧ key = engine.cacheKey (engine.tokens text) ∧
      engine.schema.compile (engine.tokens text) = .ok condition ∧
      predicate.condition = some condition

theorem Honest.insert {employed : Engine → Prop} {cache : Cache} (honest : cache.Honest employed)
    {engine : Engine} (employs : employed engine) {text : String} {condition : Condition}
    (compiles : engine.schema.compile (engine.tokens text) = .ok condition) (source : String)
    (serial : Nat) :
    (cache.insert (engine.cacheKey (engine.tokens text)) ⟨some condition, source, serial⟩).Honest
      employed := by
  intro key predicate found
  rcases getElem?_insert found with ⟨rfl, rfl⟩ | before
  · exact ⟨engine, text, condition, employs, rfl, compiles, rfl⟩
  · exact honest key predicate before

end Cache

namespace Engine

def permissive (engine : Engine) : Engine :=
  { engine with settings := { engine.settings with permissiveValues := true } }

def alone (engine : Engine) (text : String) : Except CompileError (Option Condition) :=
  (engine.compile 0 (.ofCapacity engine.settings.cacheCapacity) text).1.map Predicate.condition

/-- Whether an engine of strict reading finds in a cache a rule that it would not compile. -/
def MisledBy (engine : Engine) (cache : Cache) (text : String) : Prop :=
  engine.settings.permissiveValues = false ∧ engine.tokens text ≠ [] ∧
    (∃ error, engine.schema.compile (engine.tokens text) = .error error) ∧
    cache.predicates.contains (engine.cacheKey (engine.tokens text)) = true

theorem compile_honest {employed : Engine → Prop} {engine : Engine} (employs : employed engine)
    {cache : Cache} (honest : cache.Honest employed) (serial : Nat) (text : String) :
    (engine.compile serial cache text).2.Honest employed := by
  refine compile_cases engine serial cache text ?_ ?_ ?_ ?_
  · exact fun _ => honest
  · exact fun _ _ _ => honest
  · exact fun _ _ _ _ => honest
  · intro condition _ _ compiles
    have counted : Cache.Honest employed { cache with misses := cache.misses + 1 } := honest
    exact counted.insert employs compiles _ _

/-! ## Modes -/

theorem normalize_permissive (engine : Engine) (text : String) :
    engine.permissive.normalize text = engine.normalize text :=
  (Lexicon.normalize_mode engine.schema engine.settings.permissiveValues text).symm

theorem cacheKey_permissive (engine : Engine) (text : String) :
    engine.permissive.cacheKey (engine.permissive.tokens text) =
      engine.cacheKey (engine.tokens text) :=
  congrArg (CacheKey.mk (Text.hex engine.fingerprint)) (normalize_permissive engine text)

theorem tokens_permissive {engine : Engine} (mode : engine.settings.permissiveValues = true)
    (text : String) : engine.permissive.tokens text = engine.tokens text := by
  unfold tokens lexicon
  rw [mode]
  rfl

theorem ne_nil_of_compile {schema : Schema} {tokens : List Token} {condition : Condition}
    (compiles : schema.compile tokens = .ok condition) : tokens ≠ [] := by
  rintro rfl
  cases compiles

theorem compile_permissive {engine : Engine} {text : String} {condition : Condition}
    (compiles : engine.schema.compile (engine.tokens text) = .ok condition) :
    engine.schema.compile (engine.permissive.tokens text) = .ok condition := by
  cases mode : engine.settings.permissiveValues with
  | true => rwa [tokens_permissive mode]
  | false =>
    have strict : engine.tokens text = Lexicon.tokens ⟨engine.schema, false⟩ text := by
      rw [tokens, lexicon, mode]
    rw [strict] at compiles
    exact Lexicon.compile_mode compiles

theorem compile_ok_of_normalize {engine engine' : Engine} {text text' : String}
    {condition : Condition} (lexicons : engine'.lexicon = engine.lexicon)
    (normal : engine'.normalize text' = engine.normalize text)
    (compiles : engine'.schema.compile (engine'.tokens text') = .ok condition) :
    engine.schema.compile (engine.tokens text) = .ok condition := by
  unfold normalize tokens at *
  rw [show engine'.schema = engine.schema from congrArg Lexicon.schema lexicons] at *
  rw [lexicons] at *
  exact @Lexicon.compile_ok_of_normalize engine.lexicon _ _ _ normal compiles

/-! ## What an engine gets from a cache -/

theorem alone_eq {engine : Engine} {text : String} (some_token : engine.tokens text ≠ []) :
    engine.alone text = (engine.schema.compile (engine.tokens text)).map some := by
  have : (engine.tokens text).isEmpty = false := by simpa using some_token
  rw [alone, compile_empty, compileAnew, this]
  cases engine.schema.compile (engine.tokens text) <;> rfl

theorem compileAnew_condition (engine : Engine) (serial : Nat) (text : String) :
    (engine.compileAnew serial text).map Predicate.condition = engine.alone text := by
  rw [alone, compile_empty, compileAnew, compileAnew]
  split
  · rfl
  · cases engine.schema.compile (engine.tokens text) <;> rfl

section

variable {employed : Engine → Prop} {engine : Engine} (employs : employed engine)
  (distinct : ∀ engine, employed engine → ∀ engine', employed engine' →
    engine.fingerprint = engine'.fingerprint → engine.schema = engine'.schema)
  {cache : Cache} (honest : cache.Honest employed)

include employs distinct honest

theorem exists_compiled_of_found {text : String} {predicate : Predicate}
    (found : cache.predicates[engine.cacheKey (engine.tokens text)]? = some predicate) :
    ∃ engine' text' condition, employed engine' ∧ engine'.schema = engine.schema ∧
      engine'.normalize text' = engine.normalize text ∧
      engine'.schema.compile (engine'.tokens text') = .ok condition ∧
      predicate.condition = some condition := by
  obtain ⟨engine', text', condition, employs', same, compiles, holds⟩ := honest _ _ found
  simp only [cacheKey, CacheKey.mk.injEq] at same
  have schemas := distinct _ employs _ employs' (Text.hex_inj same.1)
  exact ⟨engine', text', condition, employs', schemas.symm, same.2.symm, compiles, holds⟩

theorem condition_of_found {text : String} {predicate : Predicate}
    (found : cache.predicates[engine.cacheKey (engine.tokens text)]? = some predicate) :
    ∃ condition, engine.schema.compile (engine.permissive.tokens text) = .ok condition ∧
      predicate.condition = some condition := by
  obtain ⟨engine', text', condition, -, schemas, normal, compiles, holds⟩ :=
    exists_compiled_of_found employs distinct honest found
  have lexicons : engine'.permissive.lexicon = engine.permissive.lexicon :=
    congrArg (Lexicon.mk · true) schemas
  have compiles' := compile_permissive compiles
  rw [← normalize_permissive engine', ← normalize_permissive engine] at normal
  exact ⟨condition, compile_ok_of_normalize lexicons normal compiles', holds⟩

theorem MisledBy.exists_permissive {text : String} (misled : engine.MisledBy cache text) :
    ∃ engine', employed engine' ∧ engine'.settings.permissiveValues = true ∧
      engine'.schema = engine.schema := by
  obtain ⟨strict, -, ⟨error, fails⟩, known⟩ := misled
  obtain ⟨predicate, found⟩ := Option.isSome_iff_exists.1
    ((Std.HashMap.contains_eq_isSome_getElem? (m := cache.predicates)).symm.trans known)
  obtain ⟨engine', text', condition, employs', schemas, normal, compiles, -⟩ :=
    exists_compiled_of_found employs distinct honest found
  refine ⟨engine', employs', ?_, schemas⟩
  cases mode : engine'.settings.permissiveValues with
  | true => rfl
  | false =>
    have lexicons : engine'.lexicon = engine.lexicon := by
      rw [lexicon, lexicon, schemas, mode, strict]
    cases fails.symm.trans (compile_ok_of_normalize lexicons normal compiles)

theorem compile_outcome (serial : Nat) (text : String) :
    ((engine.compile serial cache text).1.map Predicate.condition = engine.alone text ↔
        ¬ engine.MisledBy cache text) ∧
      (engine.MisledBy cache text →
        (engine.compile serial cache text).1.map Predicate.condition =
          engine.permissive.alone text) := by
  by_cases some_token : engine.tokens text = []
  · have blank : ¬ engine.MisledBy cache text := fun misled => misled.2.1 some_token
    refine ⟨iff_of_true ?_ blank, fun misled => absurd misled blank⟩
    rw [alone, compile, compile]
    simp [some_token]
  cases found : cache.predicates[engine.cacheKey (engine.tokens text)]? with
  | none =>
    have unknown : ¬ engine.MisledBy cache text := by
      rintro ⟨-, -, -, known⟩
      rw [Std.HashMap.contains_eq_isSome_getElem?, found] at known
      cases known
    refine ⟨iff_of_true ?_ unknown, fun misled => absurd misled unknown⟩
    rw [compile_missing found, compileAnew_condition]
  | some predicate =>
    obtain ⟨condition, compiles, holds⟩ := condition_of_found employs distinct honest found
    have outcome : (engine.compile serial cache text).1.map Predicate.condition =
        .ok (some condition) := by
      simp [compile, some_token, Cache.get, found, holds, Except.map]
    have loose : engine.permissive.alone text = .ok (some condition) := by
      rw [alone_eq (ne_nil_of_compile compiles)]
      exact congrArg (Except.map some) compiles
    rw [outcome, loose, alone_eq some_token]
    refine ⟨?_, fun _ => rfl⟩
    -- What is found has a condition, so the answers differ where the engine itself has none.
    cases own : engine.schema.compile (engine.tokens text) with
    | ok condition' =>
      cases compiles.symm.trans (compile_permissive own)
      apply iff_of_true rfl
      rintro ⟨-, -, ⟨error, fails⟩, -⟩
      cases own.symm.trans fails
    | error error =>
      have known : cache.predicates.contains (engine.cacheKey (engine.tokens text)) = true := by
        rw [Std.HashMap.contains_eq_isSome_getElem?, found]
        rfl
      have strict : engine.settings.permissiveValues = false := by
        cases mode : engine.settings.permissiveValues with
        | false => rfl
        | true =>
          rw [tokens_permissive mode, own] at compiles
          cases compiles
      have misled : engine.MisledBy cache text := ⟨strict, some_token, ⟨error, own⟩, known⟩
      exact iff_of_false (fun same => by cases same) (not_not_intro misled)

end

theorem found_of_compile {engine : Engine} {serial : Nat} {cache : Cache} {text : String}
    {predicate : Predicate} (some_token : engine.tokens text ≠ [])
    (compiled : (engine.compile serial cache text).1 = .ok predicate) :
    (engine.compile serial cache text).2.predicates[engine.cacheKey (engine.tokens text)]? =
      some predicate := by
  revert compiled
  refine compile_cases engine serial cache text ?_ ?_ ?_ ?_
  · exact fun blank => absurd blank some_token
  · rintro known - found ⟨⟩
    exact found
  · rintro error - - - ⟨⟩
  · rintro condition - missing - ⟨⟩
    apply Cache.getElem?_insert_self
    exact missing

theorem contains_of_compile {engine : Engine} {serial : Nat} {cache : Cache} {text : String}
    {predicate : Predicate} (some_token : engine.tokens text ≠ [])
    (compiled : (engine.compile serial cache text).1 = .ok predicate) :
    (engine.compile serial cache text).2.predicates.contains
      (engine.cacheKey (engine.tokens text)) = true := by
  rw [Std.HashMap.contains_eq_isSome_getElem?, found_of_compile some_token compiled]
  rfl

end Engine

end RuleFilter

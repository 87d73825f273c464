import RuleFilter.Engine.Basic
import RuleFilter.Proofs.Rule.Shape

namespace RuleFilter

theorem Lexicon.compile_eq_of_normalize {lexicon : Lexicon} {a b : String}
    (same : Layout.normalize lexicon.schema (lexicon.tokens a) =
      Layout.normalize lexicon.schema (lexicon.tokens b)) :
    (lexicon.schema.compile (lexicon.tokens a)).mapError CompileError.kind =
      (lexicon.schema.compile (lexicon.tokens b)).mapError CompileError.kind := by
  apply lexicon.schema.compile_eq_of_shape
  have normal := Lexicon.normalTokens_eq_of_normalize_eq same
  revert normal
  generalize lexicon.tokens a = tokens
  generalize lexicon.tokens b = tokens'
  intro normal
  induction tokens generalizing tokens' with
  | nil => rw [List.map_eq_nil_iff.1 normal.symm]
  | cons token tokens ih =>
    obtain ⟨token', tokens', rfl, first, others⟩ := List.map_eq_cons_iff.1 normal.symm
    rw [List.map_cons, List.map_cons, Token.shape_eq_of_normalToken first.symm, ih _ others.symm]

theorem mapError_eq_ok_iff {ε κ α : Type} {x : Except ε α} {kind : ε → κ} {a : α} :
    x.mapError kind = .ok a ↔ x = .ok a := by
  cases x with
  | error error => exact iff_of_false (fun same => by cases same) fun same => by cases same
  | ok b => exact ⟨fun same => by cases same; rfl, fun same => by cases same; rfl⟩

theorem Lexicon.compile_ok_of_normalize {lexicon : Lexicon} {a b : String} {condition : Condition}
    (same : Layout.normalize lexicon.schema (lexicon.tokens a) =
      Layout.normalize lexicon.schema (lexicon.tokens b))
    (compiles : lexicon.schema.compile (lexicon.tokens a) = .ok condition) :
    lexicon.schema.compile (lexicon.tokens b) = .ok condition := by
  rw [← mapError_eq_ok_iff, ← compile_eq_of_normalize same, mapError_eq_ok_iff, compiles]

namespace Engine

def compileAnew (engine : Engine) (serial : Nat) (text : String) : Except CompileError Predicate :=
  if (engine.tokens text).isEmpty then
    if engine.settings.allowEmpty then .ok .always else .error .empty
  else
    (engine.schema.compile (engine.tokens text)).map fun condition =>
      ⟨some condition, engine.normalize text, serial⟩

theorem compile_missing {engine : Engine} {cache : Cache} {text : String}
    (missing : cache.predicates[engine.cacheKey (engine.tokens text)]? = none) (serial : Nat) :
    (engine.compile serial cache text).1 = engine.compileAnew serial text := by
  simp only [compile, compileAnew, Cache.get, missing]
  split
  · rfl
  · cases engine.schema.compile (engine.tokens text) <;> rfl

theorem compile_of_blank {engine : Engine} {text : String} (blank : engine.tokens text = [])
    (serial : Nat) (cache : Cache) :
    engine.compile serial cache text = (engine.compileAnew serial text, cache) := by
  simp only [compile, compileAnew, blank, List.isEmpty_nil, if_true]

theorem compile_of_found {engine : Engine} {cache : Cache} {text : String} {predicate : Predicate}
    (some_token : engine.tokens text ≠ [])
    (found : cache.predicates[engine.cacheKey (engine.tokens text)]? = some predicate)
    (serial : Nat) :
    engine.compile serial cache text =
      (.ok predicate, { cache with hits := cache.hits + 1 }) := by
  simp [compile, some_token, Cache.get, found]

theorem compile_of_error {engine : Engine} {cache : Cache} {text : String} {error : CompileError}
    (some_token : engine.tokens text ≠ [])
    (missing : cache.predicates[engine.cacheKey (engine.tokens text)]? = none)
    (fails : engine.schema.compile (engine.tokens text) = .error error) (serial : Nat) :
    engine.compile serial cache text =
      (.error error, { cache with misses := cache.misses + 1 }) := by
  simp [compile, some_token, Cache.get, missing, fails]

theorem compile_of_ok {engine : Engine} {cache : Cache} {text : String} {condition : Condition}
    (some_token : engine.tokens text ≠ [])
    (missing : cache.predicates[engine.cacheKey (engine.tokens text)]? = none)
    (compiles : engine.schema.compile (engine.tokens text) = .ok condition) (serial : Nat) :
    engine.compile serial cache text =
      (.ok ⟨some condition, engine.normalize text, serial⟩,
        Cache.insert { cache with misses := cache.misses + 1 }
          (engine.cacheKey (engine.tokens text))
          ⟨some condition, engine.normalize text, serial⟩) := by
  simp only [compile, List.isEmpty_iff, some_token, if_false, Cache.get, missing, compiles]
  rfl

@[elab_as_elim]
theorem compile_cases {motive : Except CompileError Predicate × Cache → Prop} (engine : Engine)
    (serial : Nat) (cache : Cache) (text : String)
    (blank : engine.tokens text = [] → motive (engine.compileAnew serial text, cache))
    (hit : ∀ predicate, engine.tokens text ≠ [] →
      cache.predicates[engine.cacheKey (engine.tokens text)]? = some predicate →
      motive (.ok predicate, { cache with hits := cache.hits + 1 }))
    (failed : ∀ error, engine.tokens text ≠ [] →
      cache.predicates[engine.cacheKey (engine.tokens text)]? = none →
      engine.schema.compile (engine.tokens text) = .error error →
      motive (.error error, { cache with misses := cache.misses + 1 }))
    (inserted : ∀ condition, engine.tokens text ≠ [] →
      cache.predicates[engine.cacheKey (engine.tokens text)]? = none →
      engine.schema.compile (engine.tokens text) = .ok condition →
      motive (.ok ⟨some condition, engine.normalize text, serial⟩,
        Cache.insert { cache with misses := cache.misses + 1 }
          (engine.cacheKey (engine.tokens text))
          ⟨some condition, engine.normalize text, serial⟩)) :
    motive (engine.compile serial cache text) := by
  by_cases some_token : engine.tokens text = []
  · rw [compile_of_blank some_token]
    exact blank some_token
  cases found : cache.predicates[engine.cacheKey (engine.tokens text)]? with
  | some predicate =>
    rw [compile_of_found some_token found]
    exact hit predicate some_token found
  | none =>
    cases compiles : engine.schema.compile (engine.tokens text) with
    | error error =>
      rw [compile_of_error some_token found compiles]
      exact failed error some_token found compiles
    | ok condition =>
      rw [compile_of_ok some_token found compiles]
      exact inserted condition some_token found compiles

theorem compile_empty (engine : Engine) (serial capacity : Nat) (text : String) :
    (engine.compile serial (.ofCapacity capacity) text).1 = engine.compileAnew serial text :=
  compile_missing (by simp [Cache.ofCapacity]) serial

theorem compileAnew_eq_ok_iff {engine : Engine} {serial : Nat} {text : String}
    {predicate : Predicate} (some_token : engine.tokens text ≠ []) :
    engine.compileAnew serial text = .ok predicate ↔
      ∃ condition, engine.schema.compile (engine.tokens text) = .ok condition ∧
        predicate = ⟨some condition, engine.normalize text, serial⟩ := by
  have : (engine.tokens text).isEmpty = false := by simpa using some_token
  rw [compileAnew, this]
  cases engine.schema.compile (engine.tokens text) <;> simp [Except.map, eq_comm]

theorem tokens_normalize_ne_nil {engine : Engine} {text : String}
    (some_token : engine.tokens text ≠ []) : engine.tokens (engine.normalize text) ≠ [] := by
  intro none
  have normal := Lexicon.normalTokens_normalize engine.lexicon text
  rw [show engine.lexicon.tokens (Layout.normalize engine.lexicon.schema
    (engine.lexicon.tokens text)) = [] from none] at normal
  exact some_token (List.map_eq_nil_iff.1 normal.symm)

theorem compileAnew_source {engine : Engine} {serial : Nat} {text : String} {predicate : Predicate}
    (compiled : engine.compileAnew serial text = .ok predicate) (serial' : Nat) :
    ∃ predicate', engine.compileAnew serial' predicate.source = .ok predicate' ∧
      predicate'.condition = predicate.condition := by
  by_cases blank : engine.tokens text = []
  · have allowed : engine.settings.allowEmpty = true ∧ predicate = .always := by
      rw [compileAnew, blank] at compiled
      simp only [List.isEmpty_nil, if_true] at compiled
      split at compiled
      · next allowed => exact ⟨allowed, (Except.ok.inj compiled).symm⟩
      · cases compiled
    obtain ⟨allowed, rfl⟩ := allowed
    have none : engine.tokens Predicate.always.source = [] :=
      Lexicon.reads_iff.1 .done
    exact ⟨.always, by simp [compileAnew, none, allowed], rfl⟩
  · obtain ⟨condition, compiles, rfl⟩ := (compileAnew_eq_ok_iff blank).1 compiled
    have again := Lexicon.compile_ok_of_normalize
      (Lexicon.normalize_normalize engine.lexicon text).symm compiles
    have some_token := tokens_normalize_ne_nil blank
    exact ⟨_, (compileAnew_eq_ok_iff some_token).2 ⟨condition, again, rfl⟩, rfl⟩

/-- Rules with the same normal form have the same condition, or fail in the same way. In particular
an engine finds the condition of a predicate again in its source, which is a normal form. -/
theorem normalize_determines_compile (engine : Engine) :
    (∀ a b : String, engine.normalize a = engine.normalize b →
      (engine.schema.compile (engine.tokens a)).mapError CompileError.kind =
        (engine.schema.compile (engine.tokens b)).mapError CompileError.kind) ∧
    ∀ (serial serial' capacity capacity' : Nat) (text : String) (predicate : Predicate),
      (engine.compile serial (.ofCapacity capacity) text).1 = .ok predicate →
      ∃ predicate', (engine.compile serial' (.ofCapacity capacity') predicate.source).1 =
        .ok predicate' ∧ predicate'.condition = predicate.condition := by
  constructor
  · exact fun a b same => @Lexicon.compile_eq_of_normalize engine.lexicon a b same
  · intro serial serial' capacity capacity' text predicate compiled
    rw [compile_empty] at compiled ⊢
    exact compileAnew_source compiled serial'

theorem normalize_determines_compile_age :
    let engine : Engine := ⟨{}, some ⟨[⟨"Age", .integer, none⟩], by decide⟩⟩
    engine.normalize "age>1" = engine.normalize "Age > 1" ∧
      (engine.schema.compile (engine.tokens "age>1")).mapError CompileError.kind =
        (engine.schema.compile (engine.tokens "Age > 1")).mapError CompileError.kind ∧
      ∃ predicate, (engine.compile 0 (.ofCapacity 1) "age>1").1 = .ok predicate ∧
        ∃ predicate', (engine.compile 1 (.ofCapacity 1) predicate.source).1 = .ok predicate' ∧
          predicate'.condition = predicate.condition := by
  intro engine
  have read : engine.tokens "age>1" = [⟨.property, "age", ⟨0, 3⟩, none⟩,
      ⟨.operator, ">", ⟨3, 4⟩, none⟩, ⟨.value, "1", ⟨4, 5⟩, none⟩] :=
    Lexicon.reads_iff.1 (.token rfl rfl (.token rfl rfl (.token rfl rfl .done)))
  have read' : engine.tokens "Age > 1" = [⟨.property, "Age", ⟨0, 3⟩, none⟩,
      ⟨.operator, ">", ⟨4, 5⟩, none⟩, ⟨.value, "1", ⟨6, 7⟩, none⟩] :=
    Lexicon.reads_iff.1 (.token rfl rfl (.blank rfl (.token rfl rfl (.blank rfl
      (.token rfl rfl .done)))))
  have same : engine.normalize "age>1" = engine.normalize "Age > 1" := by
    rw [normalize, normalize, read, read']
    rfl
  have compiles : engine.schema.compile (engine.tokens "age>1") =
      .ok (.comparison ⟨"Age", .integer, .gt, .integer 1⟩) := by
    rw [read]
    rfl
  obtain ⟨predicate, compiled⟩ :
      ∃ predicate, (engine.compile 0 (.ofCapacity 1) "age>1").1 = .ok predicate := by
    rw [compile_empty]
    exact ⟨_, (compileAnew_eq_ok_iff (by simp [read])).2 ⟨_, compiles, rfl⟩⟩
  exact ⟨same, (normalize_determines_compile engine).1 _ _ same, predicate, compiled,
    (normalize_determines_compile engine).2 0 1 1 1 _ _ compiled⟩

end Engine
end RuleFilter

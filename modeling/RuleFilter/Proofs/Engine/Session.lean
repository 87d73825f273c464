import RuleFilter.Engine.Session
import RuleFilter.Proofs.Engine.Sharing

namespace RuleFilter

namespace Session

def next (session : Session) (step : Nat × Action) : Session :=
  ((session.step? step.1 step.2).map Prod.snd).getD session

def after (session : Session) (steps : List (Nat × Action)) : Session :=
  steps.foldl next session

def history (session : Session) : List (Nat × Action) → List Session
  | [] => [session]
  | step :: steps => session :: (session.next step).history steps

def engines (session : Session) (steps : List (Nat × Action)) : List Engine :=
  (session.history steps).flatMap fun session => session.seats.map Seat.engine

theorem after_mem_history (session : Session) (steps : List (Nat × Action)) :
    session.after steps ∈ session.history steps := by
  induction steps generalizing session with
  | nil => exact List.mem_singleton_self session
  | cons step steps ih => exact List.mem_cons_of_mem _ (ih (session.next step))

theorem mem_engines {session : Session} {steps : List (Nat × Action)} {seat : Seat}
    (member : seat ∈ (session.after steps).seats) : seat.engine ∈ session.engines steps :=
  List.mem_flatMap.2 ⟨_, after_mem_history session steps, List.mem_map_of_mem member⟩

section

variable {P : Session → Prop} {employed : Engine → Prop}
  (keeps : ∀ (session : Session) index seat action, session.seats[index]? = some seat →
    employed seat.engine → P session → P (session.perform index seat action).2)

include keeps

theorem next_of_perform {session : Session}
    (employs : ∀ seat ∈ session.seats, employed seat.engine) (holds : P session)
    (step : Nat × Action) : P (session.next step) := by
  unfold next step?
  cases found : session.seats[step.1]? with
  | none => exact holds
  | some seat => exact keeps _ _ _ _ found (employs seat (List.mem_of_getElem? found)) holds

/-- What every action keeps that one of the engines performs holds before and behind all actions. -/
theorem history_induction {start : Session} {steps : List (Nat × Action)}
    (employs : ∀ engine ∈ start.engines steps, employed engine) (holds : P start) :
    ∀ session ∈ start.history steps, P session := by
  induction steps generalizing start with
  | nil => exact List.forall_mem_singleton.2 holds
  | cons step steps ih =>
    simp only [engines, history, List.flatMap_cons, List.mem_append, or_imp, forall_and] at employs
    refine List.forall_mem_cons.2 ⟨holds, ih employs.2 ?_⟩
    refine next_of_perform keeps (fun seat member => ?_) holds step
    exact employs.1 _ (List.mem_map_of_mem member)

theorem after_induction {start : Session} {steps : List (Nat × Action)}
    (employs : ∀ engine ∈ start.engines steps, employed engine) (holds : P start) :
    P (start.after steps) :=
  history_induction keeps employs holds _ (after_mem_history start steps)

end

section

variable {seat : Seat} {properties : List Property}

theorem perform_choose_of_error {error : SchemaError}
    (refused : seat.engine.choose properties = .error error) (session : Session) (index : Nat) :
    session.perform index seat (.choose properties) = (.refused error, session) := by
  simp only [perform, refused]

theorem perform_choose_of_ok {engine : Engine}
    (accepted : seat.engine.choose properties = .ok engine) (session : Session) (index : Nat) :
    session.perform index seat (.choose properties) = (.names engine.schema.names,
      { session with seats := session.seats.set index { seat with engine := engine } }) := by
  simp only [perform, accepted]

end

structure Honest (employed : Engine → Prop) (session : Session) : Prop where
  shared : ∃ cache, session.caches = [cache] ∧ cache.Honest employed
  seats : ∀ seat ∈ session.seats, seat.cacheIndex = 0

theorem Honest.cacheOf {employed : Engine → Prop} {session : Session}
    (honest : session.Honest employed) {seat : Seat} (member : seat ∈ session.seats) :
    (session.cacheOf seat).Honest employed := by
  obtain ⟨cache, caches, holds⟩ := honest.shared
  simpa [Session.cacheOf, caches, honest.seats seat member] using holds

theorem Honest.withCache {employed : Engine → Prop} {session : Session}
    (honest : session.Honest employed) {seat : Seat} (member : seat ∈ session.seats) {cache : Cache}
    (holds : cache.Honest employed) : (session.withCache seat cache).Honest employed := by
  obtain ⟨before, caches, -⟩ := honest.shared
  refine ⟨⟨cache, ?_, holds⟩, honest.seats⟩
  simp [Session.withCache, caches, honest.seats seat member]

theorem Honest.perform {employed : Engine → Prop} {session : Session}
    (honest : session.Honest employed) {seat : Seat} (member : seat ∈ session.seats)
    (employs : employed seat.engine) (index : Nat) (action : Action) :
    (session.perform index seat action).2.Honest employed := by
  cases action with
  | choose properties =>
    cases chooses : seat.engine.choose properties with
    | error error => rwa [perform_choose_of_error chooses]
    | ok engine =>
      rw [perform_choose_of_ok chooses]
      refine ⟨honest.shared, fun other listed => ?_⟩
      rcases List.mem_or_eq_of_mem_set listed with listed | rfl
      · exact honest.seats other listed
      · exact honest.seats seat member
  | compile text name =>
    have holds := Engine.compile_honest employs (honest.cacheOf member) session.serial text
    have kept := honest.withCache member holds
    exact ⟨kept.shared, kept.seats⟩
  | clear => exact honest.withCache member fun key predicate found => by simp [Cache.clear] at found
  | _ => exact ⟨honest.shared, honest.seats⟩

theorem Honest.after {employed : Engine → Prop} {session : Session} {steps : List (Nat × Action)}
    (honest : session.Honest employed)
    (employs : ∀ engine ∈ session.engines steps, employed engine) :
    (session.after steps).Honest employed :=
  after_induction (fun _ index _ action sits employs honest =>
    honest.perform (List.mem_of_getElem? sits) employs index action) employs honest

theorem honest_sharing (employed : Engine → Prop) (capacity : Nat) (engines : List Engine) :
    (sharing (.ofCapacity capacity) engines).Honest employed := by
  refine ⟨⟨_, rfl, fun key predicate found => ?_⟩, fun seat member => ?_⟩
  · simp [Cache.ofCapacity] at found
  · obtain ⟨engine, -, rfl⟩ := List.mem_map.1 member
    rfl

def ToldApart (engines : List Engine) : Prop :=
  ∀ engine ∈ engines, ∀ engine' ∈ engines,
    engine.fingerprint = engine'.fingerprint → engine.schema = engine'.schema

theorem step?_compile {session : Session} {index : Nat} {seat : Seat}
    (sits : session.seats[index]? = some seat) (text : String) (name : Option String) :
    session.step? index (.compile text name) = some (session.compile seat text name) := by
  rw [step?, sits]
  rfl

theorem outcome_of_sharing {capacity : Nat} {engines : List Engine} {steps : List (Nat × Action)}
    (apart : ToldApart ((sharing (.ofCapacity capacity) engines).engines steps)) {index : Nat}
    {seat : Seat}
    (sits : ((sharing (.ofCapacity capacity) engines).after steps).seats[index]? = some seat)
    (serial : Nat) (text : String) :
    let cache := ((sharing (.ofCapacity capacity) engines).after steps).cacheOf seat
    ((seat.engine.compile serial cache text).1.map Predicate.condition = seat.engine.alone text ↔
        ¬ seat.engine.MisledBy cache text) ∧
      (seat.engine.MisledBy cache text →
        (seat.engine.compile serial cache text).1.map Predicate.condition =
            seat.engine.permissive.alone text ∧
          ∃ other ∈ (sharing (.ofCapacity capacity) engines).engines steps,
            other.settings.permissiveValues = true ∧ other.schema = seat.engine.schema) := by
  intro cache
  have member := List.mem_of_getElem? sits
  have employs := mem_engines member
  have honest := (honest_sharing
    (· ∈ (sharing (.ofCapacity capacity) engines).engines steps) capacity engines).after
      fun _ employs => employs
  have outcome := Engine.compile_outcome employs apart (honest.cacheOf member) serial text
  refine ⟨outcome.1, fun misled => ⟨outcome.2 misled, ?_⟩⟩
  exact misled.exists_permissive employs apart (honest.cacheOf member)

/-- Whatever engines that share a cache did before, each compiles what it would compile alone,
unless it is misled: an engine of strict reading takes from the cache what only permissive reading
finds in a text, and what an engine of permissive reading has left there. -/
theorem compile_sharing {capacity : Nat} {engines : List Engine} {steps : List (Nat × Action)}
    (apart : ToldApart ((sharing (.ofCapacity capacity) engines).engines steps)) {index : Nat}
    {seat : Seat}
    (sits : ((sharing (.ofCapacity capacity) engines).after steps).seats[index]? = some seat)
    (text : String) (name : Option String) :
    let session := (sharing (.ofCapacity capacity) engines).after steps
    ∃ result stats later,
      session.step? index (.compile text name) = some (.compiled result stats, later) ∧
      (result.map Predicate.condition = seat.engine.alone text ↔
        ¬ seat.engine.MisledBy (session.cacheOf seat) text) ∧
      (seat.engine.MisledBy (session.cacheOf seat) text →
        result.map Predicate.condition = seat.engine.permissive.alone text ∧
          ∃ other ∈ (sharing (.ofCapacity capacity) engines).engines steps,
            other.settings.permissiveValues = true ∧ other.schema = seat.engine.schema) := by
  intro session
  exact ⟨_, _, _, step?_compile sits text name, outcome_of_sharing apart sits session.serial text⟩

/-! ## A strict engine misled by a permissive one -/

theorem toldApart_of_schema {engines : List Engine} {schema : Schema}
    (differs : schema.fingerprint ≠ blankFingerprint)
    (only : ∀ engine ∈ engines, engine.chosen = none ∨ engine.chosen = some schema) :
    ToldApart engines := by
  intro engine member engine' member' same
  unfold Engine.fingerprint Engine.schema at *
  rcases only engine member with chosen | chosen <;>
    rcases only engine' member' with chosen' | chosen' <;>
      simp_all [eq_comm]

def nameSchema : Schema := ⟨[⟨"Name", .string, none⟩], by decide⟩

theorem nameSchema_fingerprint : nameSchema.fingerprint ≠ blankFingerprint := by decide +kernel

def mixedEngines : List Engine := [⟨{}, none⟩, ⟨{ permissiveValues := false }, none⟩]

def mixedSteps : List (Nat × Action) :=
  [(0, .choose nameSchema.properties), (1, .choose nameSchema.properties),
    (0, .compile "Name == John" none)]

def strictSeat : Seat := ⟨⟨{ permissiveValues := false }, some nameSchema⟩, 0⟩

theorem mixed_toldApart :
    ToldApart ((sharing (.ofCapacity 8) mixedEngines).engines mixedSteps) := by
  apply toldApart_of_schema nameSchema_fingerprint
  let loose : Settings := {}
  let strict : Settings := { permissiveValues := false }
  have all : (sharing (.ofCapacity 8) mixedEngines).engines mixedSteps =
      [⟨loose, none⟩, ⟨strict, none⟩, ⟨loose, some nameSchema⟩, ⟨strict, none⟩,
        ⟨loose, some nameSchema⟩, ⟨strict, some nameSchema⟩,
        ⟨loose, some nameSchema⟩, ⟨strict, some nameSchema⟩] := rfl
  rw [all]
  simp

theorem mixed_sits :
    ((sharing (.ofCapacity 8) mixedEngines).after mixedSteps).seats[1]? = some strictSeat := rfl

theorem mixed_misled : strictSeat.engine.MisledBy
    (((sharing (.ofCapacity 8) mixedEngines).after mixedSteps).cacheOf strictSeat)
    "Name == John" := by
  let engine := strictSeat.engine
  have strict : engine.tokens "Name == John" = [⟨.property, "Name", ⟨0, 4⟩, none⟩,
      ⟨.operator, "==", ⟨5, 7⟩, none⟩, ⟨.unknown, "John", ⟨8, 12⟩, none⟩] :=
    Lexicon.reads_iff.1 (.token rfl rfl (.blank rfl (.token rfl rfl (.blank rfl
      (.token rfl rfl .done)))))
  have loose : engine.permissive.tokens "Name == John" = [⟨.property, "Name", ⟨0, 4⟩, none⟩,
      ⟨.operator, "==", ⟨5, 7⟩, none⟩, ⟨.value, "John", ⟨8, 12⟩, none⟩] :=
    Lexicon.reads_iff.1 (.token rfl rfl (.blank rfl (.token rfl rfl (.blank rfl
      (.token rfl rfl .done)))))
  have compiles : engine.permissive.schema.compile (engine.permissive.tokens "Name == John") =
      .ok (.comparison ⟨"Name", .string, .eq, .string "John"⟩) := by
    rw [loose]
    rfl
  obtain ⟨predicate, compiled⟩ : ∃ predicate,
      (engine.permissive.compile 0 (.ofCapacity 8) "Name == John").1 = .ok predicate := by
    rw [Engine.compile_empty]
    exact ⟨_, (Engine.compileAnew_eq_ok_iff (by simp [loose])).2 ⟨_, compiles, rfl⟩⟩
  have known := Engine.contains_of_compile (by simp [loose]) compiled
  rw [Engine.cacheKey_permissive] at known
  refine ⟨rfl, by simp [strict, engine], ?_, known⟩
  rw [strict]
  exact ⟨_, rfl⟩

theorem compile_sharing_mixed :
    let session := (sharing (.ofCapacity 8) mixedEngines).after mixedSteps
    ToldApart ((sharing (.ofCapacity 8) mixedEngines).engines mixedSteps) ∧
      session.seats[1]? = some strictSeat ∧
      ∃ result stats later,
        session.step? 1 (.compile "Name == John" none) = some (.compiled result stats, later) ∧
        (result.map Predicate.condition = strictSeat.engine.alone "Name == John" ↔
          ¬ strictSeat.engine.MisledBy (session.cacheOf strictSeat) "Name == John") ∧
        (strictSeat.engine.MisledBy (session.cacheOf strictSeat) "Name == John" →
          result.map Predicate.condition = strictSeat.engine.permissive.alone "Name == John" ∧
            ∃ other ∈ (sharing (.ofCapacity 8) mixedEngines).engines mixedSteps,
              other.settings.permissiveValues = true ∧
                other.schema = strictSeat.engine.schema) :=
  ⟨mixed_toldApart, mixed_sits, compile_sharing mixed_toldApart mixed_sits "Name == John" none⟩

theorem not_compile_alone :
    ¬ ∀ (capacity : Nat) (engines : List Engine) (steps : List (Nat × Action)) (index : Nat)
      (seat : Seat) (text : String) (name : Option String)
      (result : Except CompileError Predicate) (stats : CacheStats) (later : Session),
      (∀ engine ∈ engines, ∃ settings, Engine.ofSettings settings = .ok engine) →
      ToldApart ((sharing (.ofCapacity capacity) engines).engines steps) →
      ((sharing (.ofCapacity capacity) engines).after steps).seats[index]? = some seat →
      ((sharing (.ofCapacity capacity) engines).after steps).step? index (.compile text name) =
        some (.compiled result stats, later) →
      result.map Predicate.condition = seat.engine.alone text := by
  intro alone
  have built : ∀ engine ∈ mixedEngines, ∃ settings, Engine.ofSettings settings = .ok engine := by
    intro engine member
    simp only [mixedEngines, List.mem_cons, List.not_mem_nil, or_false] at member
    rcases member with rfl | rfl
    · exact ⟨{}, rfl⟩
    · exact ⟨{ permissiveValues := false }, rfl⟩
  exact (outcome_of_sharing mixed_toldApart mixed_sits _ "Name == John").1.1
    (alone 8 mixedEngines mixedSteps 1 strictSeat "Name == John" none _ _ _ built mixed_toldApart
      mixed_sits (step?_compile mixed_sits _ _)) mixed_misled

end Session
end RuleFilter

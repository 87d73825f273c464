import RuleFilter.Proofs.Cache.Queue
import RuleFilter.Proofs.Condition.Compiling
import RuleFilter.Proofs.Engine.Session

namespace RuleFilter

/-! ## Compilation and the queue -/

theorem exists_contains_of_compile {schema : Schema} {tokens : List Token} {condition : Condition}
    (compiles : schema.compile tokens = .ok condition) :
    ∃ name, schema.contains name = true := by
  obtain ⟨rule, parsed, compiled⟩ := Schema.compile_eq_ok_iff.1 compiles
  have derived := Rule.derives_of_parse parsed
  obtain ⟨clause, member⟩ := List.exists_mem_of_ne_nil _ derived.clauses_ne_nil
  obtain ⟨comparison, compiled⟩ := (Rule.exists_compile_iff schema rule).1 ⟨condition, compiled⟩
    clause member
  refine ⟨clause.property, Bool.not_eq_false _ ▸ fun unknown => ?_⟩
  rw [Clause.compile_eq_unknown_iff.2 ⟨rfl, unknown⟩] at compiled
  cases compiled

namespace Engine

inductive Leaves (engine : Engine) (text : String) (cache : Cache) :
    Except CompileError Predicate → Cache → Prop
  | untouched {result : Except CompileError Predicate} (blank : engine.tokens text = []) :
      Leaves engine text cache result cache
  | hit {predicate : Predicate} (some_token : engine.tokens text ≠ [])
      (found : cache.predicates[engine.cacheKey (engine.tokens text)]? = some predicate) :
      Leaves engine text cache (.ok predicate) { cache with hits := cache.hits + 1 }
  | failed {error : CompileError} (some_token : engine.tokens text ≠ [])
      (missing : cache.predicates[engine.cacheKey (engine.tokens text)]? = none) :
      Leaves engine text cache (.error error) { cache with misses := cache.misses + 1 }
  | inserted {predicate : Predicate} {later : Cache} (some_token : engine.tokens text ≠ [])
      (missing : cache.predicates[engine.cacheKey (engine.tokens text)]? = none)
      (contents : later.contents = Queue.enqueue cache.capacity cache.contents
        (engine.cacheKey (engine.tokens text), predicate))
      (capacity : later.capacity = cache.capacity) (hits : later.hits = cache.hits)
      (misses : later.misses = cache.misses + 1)
      (evictions : later.evictions =
        cache.evictions + if cache.contents.length < cache.capacity then 0 else 1) :
      Leaves engine text cache (.ok predicate) later

theorem compile_leaves (engine : Engine) (serial : Nat) {cache : Cache} {queue : Queue}
    (follows : cache.Follows queue) (text : String) :
    engine.Leaves text cache (engine.compile serial cache text).1
      (engine.compile serial cache text).2 := by
  refine compile_cases engine serial cache text .untouched (fun _ => .hit) ?_ ?_
  · exact fun error some_token missing _ => .failed some_token missing
  · intro condition some_token missing _
    have holds : Cache.Holds { cache with misses := cache.misses + 1 } queue.pairs :=
      follows.holds.congr rfl rfl
    have absent : engine.cacheKey (engine.tokens text) ∉ queue.pairs.map Prod.fst := by
      rw [← lookup_isSome_iff_mem, ← follows.holds.lookup, missing]
      exact Bool.false_ne_true
    let predicate : Predicate := ⟨some condition, engine.normalize text, serial⟩
    obtain ⟨kept, evictions⟩ :=
      holds.insert_of_not_mem (follows.limit ▸ follows.positive) absent predicate
    obtain ⟨capacity, hits, misses⟩ := Cache.insert_frame
      { cache with misses := cache.misses + 1 } (engine.cacheKey (engine.tokens text)) predicate
    rw [← follows.holds.contents_eq] at kept evictions
    exact .inserted some_token missing kept.contents_eq capacity hits misses evictions

theorem compile_calls (engine : Engine) (serial : Nat) (cache : Cache) (text : String) :
    ∃ calls, (engine.compile serial cache text).2 = cache.after calls := by
  let key := engine.cacheKey (engine.tokens text)
  refine compile_cases engine serial cache text ?_ ?_ ?_ ?_
  · exact fun _ => ⟨[], rfl⟩
  · intro predicate _ found
    refine ⟨[.get key], ?_⟩
    show _ = (cache.get key).2
    rw [Cache.get, found]
  · intro error _ missing _
    refine ⟨[.get key], ?_⟩
    show _ = (cache.get key).2
    rw [Cache.get, missing]
  · intro condition _ missing _
    refine ⟨[.get key, .insert key ⟨some condition, engine.normalize text, serial⟩], ?_⟩
    show _ = (cache.get key).2.insert key _
    rw [Cache.get, missing]

theorem tokens_ne_nil_of_normalize {engine engine' : Engine} {text text' : String}
    (lexicons : engine'.lexicon = engine.lexicon)
    (normal : engine'.normalize text' = engine.normalize text)
    (some_token : engine.tokens text ≠ []) : engine'.tokens text' ≠ [] := by
  unfold normalize tokens at *
  rw [show engine'.schema = engine.schema from congrArg Lexicon.schema lexicons] at normal
  rw [lexicons] at normal ⊢
  have same := @Lexicon.normalTokens_eq_of_normalize_eq engine.lexicon _ _ normal
  intro none
  rw [none, List.map_nil] at same
  exact some_token (List.map_eq_nil_iff.1 same.symm)

theorem fingerprint_of_schema {engine engine' : Engine} {tokens : List Token}
    {condition : Condition} (compiles : engine.schema.compile tokens = .ok condition)
    (schemas : engine'.schema = engine.schema) : engine'.fingerprint = engine.fingerprint := by
  -- The empty schema, which may be chosen or not, compiles no rule.
  obtain ⟨name, known⟩ := exists_contains_of_compile compiles
  unfold schema fingerprint at *
  cases chosen : engine.chosen with
  | none =>
    rw [chosen] at known
    cases known
  | some schema =>
    cases chosen' : engine'.chosen with
    | none =>
      rw [← schemas, chosen'] at known
      cases known
    | some schema' =>
      rw [chosen, chosen'] at schemas
      cases schemas
      rfl

theorem compile_again {engine engine' : Engine} (settings : engine'.settings = engine.settings)
    (schemas : engine'.schema = engine.schema) {text text' : String} {condition : Condition}
    (compiles : engine.schema.compile (engine.tokens text) = .ok condition)
    (normal : engine'.normalize text' = engine.normalize text) {cache : Cache}
    {predicate : Predicate}
    (found : cache.predicates[engine.cacheKey (engine.tokens text)]? = some predicate)
    (serial : Nat) :
    engine'.compile serial cache text' =
      (.ok predicate, { cache with hits := cache.hits + 1 }) := by
  have lexicons : engine'.lexicon = engine.lexicon := by
    rw [lexicon, lexicon, schemas, settings]
  have key : engine'.cacheKey (engine'.tokens text') = engine.cacheKey (engine.tokens text) := by
    rw [cacheKey, fingerprint_of_schema compiles schemas]
    exact congrArg (CacheKey.mk _) normal
  rw [← key] at found
  exact compile_of_found
    (tokens_ne_nil_of_normalize lexicons normal (ne_nil_of_compile compiles)) found serial

end Engine

/-! ## Sessions of one engine -/

namespace Session

structure Single (settings : Settings) (session : Session) : Prop where
  seats : ∃ chosen, session.seats = [⟨⟨settings, chosen⟩, 0⟩]
  caches : ∃ cache queue, session.caches = [cache] ∧ cache.Follows queue

namespace Single

variable {settings : Settings} {session : Session} {index : Nat} {seat : Seat}

theorem of_sits (single : session.Single settings) (sits : session.seats[index]? = some seat) :
    index = 0 ∧ ∃ chosen, seat = ⟨⟨settings, chosen⟩, 0⟩ := by
  obtain ⟨chosen, seats⟩ := single.seats
  rw [seats, List.getElem?_singleton] at sits
  split at sits
  · next first => exact ⟨first, chosen, (Option.some.inj sits).symm⟩
  · cases sits

theorem seat_eq (single : session.Single settings) (sits : session.seats[index]? = some seat) :
    seat.engine.settings = settings ∧ seat.cacheIndex = 0 := by
  obtain ⟨-, chosen, rfl⟩ := single.of_sits sits
  exact ⟨rfl, rfl⟩

theorem cacheOf (single : session.Single settings) (sits : session.seats[index]? = some seat) :
    ∃ queue, (session.cacheOf seat).Follows queue := by
  obtain ⟨-, chosen, rfl⟩ := single.of_sits sits
  obtain ⟨cache, queue, caches, follows⟩ := single.caches
  exact ⟨queue, by simpa [Session.cacheOf, caches] using follows⟩

theorem cacheOf_withCache (single : session.Single settings)
    (sits : session.seats[index]? = some seat) (cache : Cache) :
    (session.withCache seat cache).cacheOf seat = cache := by
  obtain ⟨-, chosen, rfl⟩ := single.of_sits sits
  obtain ⟨before, queue, caches, -⟩ := single.caches
  simp [Session.cacheOf, Session.withCache, caches]

theorem withCache (single : session.Single settings) (sits : session.seats[index]? = some seat)
    {cache : Cache} {queue : Queue} (follows : cache.Follows queue) :
    (session.withCache seat cache).Single settings := by
  obtain ⟨-, chosen, rfl⟩ := single.of_sits sits
  obtain ⟨before, -, caches, -⟩ := single.caches
  exact ⟨single.seats, cache, queue, by simp [Session.withCache, caches], follows⟩

theorem perform (single : session.Single settings) (sits : session.seats[index]? = some seat)
    (action : Action) : (session.perform index seat action).2.Single settings := by
  cases action with
  | choose properties =>
    cases chooses : seat.engine.choose properties with
    | error error => rwa [perform_choose_of_error chooses]
    | ok engine =>
      rw [perform_choose_of_ok chooses]
      obtain ⟨rfl, chosen, rfl⟩ := single.of_sits sits
      obtain ⟨schema, -, rfl⟩ := map_eq_ok_iff.1 chooses
      obtain ⟨chosen', seats⟩ := single.seats
      exact ⟨⟨some schema, by rw [seats]; rfl⟩, single.caches⟩
  | compile text name =>
    obtain ⟨queue, follows⟩ := single.cacheOf sits
    obtain ⟨calls, later⟩ :=
      seat.engine.compile_calls session.serial (session.cacheOf seat) text
    have kept := single.withCache sits (later ▸ follows.after calls)
    exact ⟨kept.seats, kept.caches⟩
  | clear =>
    obtain ⟨queue, follows⟩ := single.cacheOf sits
    exact single.withCache sits follows.clear
  | _ => exact ⟨single.seats, single.caches⟩

theorem history (single : session.Single settings) (steps : List (Nat × Action)) :
    ∀ later ∈ session.history steps, later.Single settings :=
  @history_induction _ (fun _ => True)
    (fun _ _ _ action sits _ single => single.perform sits action) _ _ (fun _ _ => trivial) single

theorem after (single : session.Single settings) (steps : List (Nat × Action)) :
    (session.after steps).Single settings :=
  single.history steps _ (after_mem_history session steps)

theorem of_step? (single : session.Single settings) {action : Action} {reply : Reply}
    {later : Session} (step : session.step? index action = some (reply, later)) :
    later.Single settings := by
  obtain ⟨seat, sits, performed⟩ := Option.map_eq_some_iff.1 step
  have kept := single.perform sits action
  rwa [performed] at kept

theorem settings_of_mem (single : session.Single settings) {steps : List (Nat × Action)}
    {engine : Engine} (member : engine ∈ session.engines steps) : engine.settings = settings := by
  obtain ⟨later, listed, member⟩ := List.mem_flatMap.1 member
  obtain ⟨chosen, seats⟩ := (single.history steps later listed).seats
  simp only [seats, List.map_cons, List.map_nil, List.mem_singleton] at member
  rw [member]

end Single

theorem single_sharing (capacity : Nat) (engine : Engine) :
    (sharing (.ofCapacity capacity) [engine]).Single engine.settings :=
  ⟨⟨engine.chosen, rfl⟩, _, _, rfl, .ofCapacity capacity⟩

/-! ## Actions that spare the cache -/

def Action.SparesCache : Action → Prop
  | .compile .. | .clear => False
  | _ => True

theorem caches_perform {session : Session} {index : Nat} {seat : Seat} {action : Action}
    (spares : action.SparesCache) :
    (session.perform index seat action).2.caches = session.caches := by
  cases action with
  | choose properties =>
    cases chooses : seat.engine.choose properties with
    | error error => rw [perform_choose_of_error chooses]
    | ok engine => rw [perform_choose_of_ok chooses]
  | compile text name => exact spares.elim
  | clear => exact spares.elim
  | _ => rfl

theorem caches_after {session : Session} {steps : List (Nat × Action)}
    (spare : ∀ step ∈ steps, step.2.SparesCache) :
    (session.after steps).caches = session.caches := by
  induction steps generalizing session with
  | nil => rfl
  | cons step steps ih =>
    obtain ⟨first, others⟩ := List.forall_mem_cons.1 spare
    refine (ih others).trans ?_
    unfold next step?
    cases session.seats[step.1]? with
    | none => rfl
    | some seat => exact caches_perform first

/-! ## Runs -/

theorem cacheOf_congr {session later : Session} {seat seat' : Seat}
    (caches : later.caches = session.caches) (same : seat'.cacheIndex = seat.cacheIndex) :
    later.cacheOf seat' = session.cacheOf seat := by
  rw [cacheOf, cacheOf, caches, same]

theorem seats_compile (session : Session) (seat : Seat) (text : String) (name : Option String) :
    (session.compile seat text name).2.seats = session.seats :=
  rfl

theorem exists_step?_compile {session : Session} {index : Nat} {seat : Seat}
    (sits : session.seats[index]? = some seat) {text : String}
    {result : Except CompileError Predicate} {cache : Cache}
    (compiles : seat.engine.compile session.serial (session.cacheOf seat) text = (result, cache))
    (name : Option String) :
    ∃ later, session.step? index (.compile text name) =
        some (.compiled result cache.stats, later) ∧
      later.caches = (session.withCache seat cache).caches := by
  rw [step?_compile sits, compile, compiles]
  exact ⟨_, rfl, rfl⟩

theorem alone_of_single {capacity : Nat} {engine : Engine} {steps : List (Nat × Action)}
    (apart : ToldApart ((sharing (.ofCapacity capacity) [engine]).engines steps)) {index : Nat}
    {seat : Seat}
    (sits : ((sharing (.ofCapacity capacity) [engine]).after steps).seats[index]? = some seat)
    (serial : Nat) (text : String) :
    (seat.engine.compile serial
      (((sharing (.ofCapacity capacity) [engine]).after steps).cacheOf seat) text).1.map
        Predicate.condition = seat.engine.alone text := by
  obtain ⟨own, other⟩ := outcome_of_sharing apart sits serial text
  refine own.2 fun misled => ?_
  -- Only an engine of other settings misleads, and the settings of an engine stay.
  obtain ⟨-, other, employs, permissive, -⟩ := other misled
  have single := single_sharing capacity engine
  rw [single.settings_of_mem employs,
    ← single.settings_of_mem (mem_engines (List.mem_of_getElem? sits)), misled.1] at permissive
  cases permissive

/-- An engine with a cache of its own, whatever it did before, compiles as if the cache were empty.
The cache is left as `Engine.Leaves` says, and while no other rule is compiled and the cache is not
cleared, a rule that compiled is found again in any layout, though the schema may have changed in
between. A list of properties that makes no schema changes nothing. -/
theorem compile_single {capacity : Nat} {engine : Engine} {steps : List (Nat × Action)}
    (apart : ToldApart ((sharing (.ofCapacity capacity) [engine]).engines steps)) {index : Nat}
    {seat : Seat}
    (sits : ((sharing (.ofCapacity capacity) [engine]).after steps).seats[index]? = some seat)
    (text : String) (name : Option String) :
    let session := (sharing (.ofCapacity capacity) [engine]).after steps
    (∃ result stats later,
      session.step? index (.compile text name) = some (.compiled result stats, later) ∧
      result.map Predicate.condition = seat.engine.alone text ∧
      seat.engine.Leaves text (session.cacheOf seat) result (later.cacheOf seat) ∧
      ∀ predicate, result = .ok predicate → seat.engine.tokens text ≠ [] →
        ∀ (between : List (Nat × Action)) (seat' : Seat) (text' : String) (name' : Option String),
          (∀ step ∈ between, step.2.SparesCache) →
          (later.after between).seats[index]? = some seat' →
          seat'.engine.schema = seat.engine.schema →
          seat'.engine.normalize text' = seat.engine.normalize text →
          ∃ stats' later',
            (later.after between).step? index (.compile text' name') =
              some (.compiled (.ok predicate) stats', later') ∧
            later'.cacheOf seat' =
              { later.cacheOf seat with hits := (later.cacheOf seat).hits + 1 }) ∧
    ∀ properties error, seat.engine.choose properties = .error error →
      session.step? index (.choose properties) = some (.refused error, session) := by
  intro session
  have single : session.Single engine.settings := (single_sharing capacity engine).after steps
  obtain ⟨queue, follows⟩ := single.cacheOf sits
  have outcome := alone_of_single apart sits session.serial text
  have leaves := seat.engine.compile_leaves session.serial follows text
  rcases compiles : seat.engine.compile session.serial (session.cacheOf seat) text with
    ⟨result, cache⟩
  rw [compiles] at outcome leaves
  obtain ⟨later, step, caches⟩ := exists_step?_compile sits compiles name
  have left : later.cacheOf seat = cache :=
    (cacheOf_congr caches rfl).trans (single.cacheOf_withCache sits cache)
  refine ⟨⟨result, _, later, step, outcome, left ▸ leaves, ?_⟩, ?_⟩
  · rintro predicate rfl some_token between seat' text' name' spare sits' schemas normal
    have single' := (single.of_step? step).after between
    obtain ⟨settings, position⟩ := single.seat_eq sits
    obtain ⟨settings', position'⟩ := single'.seat_eq sits'
    have found := Engine.found_of_compile some_token (congrArg Prod.fst compiles)
    rw [compiles] at found
    rw [Engine.alone_eq some_token] at outcome
    obtain ⟨condition, own, -⟩ := map_eq_ok_iff.1 outcome.symm
    -- Nothing that spares the cache takes the predicate out of it.
    have again := Engine.compile_again (settings'.trans settings.symm) schemas own normal found
      (later.after between).serial
    have held : (later.after between).cacheOf seat' = cache :=
      (cacheOf_congr (caches_after spare) (position'.trans position.symm)).trans left
    rw [← held] at again
    obtain ⟨later', step', caches'⟩ := exists_step?_compile sits' again name'
    refine ⟨_, later', step', ?_⟩
    rw [cacheOf_congr caches' rfl, single'.cacheOf_withCache sits', held, left]
  · intro properties error refused
    rw [step?, sits]
    exact congrArg some (perform_choose_of_error refused session index)

/-! ## A cache for one predicate -/

def annSteps : List (Nat × Action) := [(0, .choose nameSchema.properties)]

def annSeat : Seat := ⟨⟨{}, some nameSchema⟩, 0⟩

theorem ann_toldApart : ToldApart ((sharing (.ofCapacity 1) [.default]).engines annSteps) := by
  apply toldApart_of_schema nameSchema_fingerprint
  have all : (sharing (.ofCapacity 1) [.default]).engines annSteps =
      [⟨{}, none⟩, ⟨{}, some nameSchema⟩] := rfl
  rw [all]
  simp

theorem ann_tokens : annSeat.engine.tokens "Name == 'Ann'" = [⟨.property, "Name", ⟨0, 4⟩, none⟩,
    ⟨.operator, "==", ⟨5, 7⟩, none⟩, ⟨.value, "'Ann'", ⟨8, 13⟩, none⟩] :=
  Lexicon.reads_iff.1 (.token rfl rfl (.blank rfl (.token rfl rfl (.blank rfl
    (.token rfl rfl .done)))))

theorem ann_tokens_dense : annSeat.engine.tokens "name=='Ann'" =
    [⟨.property, "name", ⟨0, 4⟩, none⟩, ⟨.operator, "==", ⟨4, 6⟩, none⟩,
      ⟨.value, "'Ann'", ⟨6, 11⟩, none⟩] :=
  Lexicon.reads_iff.1 (.token rfl rfl (.token rfl rfl (.token rfl rfl .done)))

theorem compile_single_ann :
    let start := sharing (.ofCapacity 1) [.default]
    ToldApart (start.engines annSteps) ∧ (start.after annSteps).seats[0]? = some annSeat ∧
      ∃ predicate stats later,
        (start.after annSteps).step? 0 (.compile "Name == 'Ann'" none) =
          some (.compiled (.ok predicate) stats, later) ∧
        predicate.condition = some (.comparison ⟨"Name", .string, .eq, .string "Ann"⟩) ∧
        annSeat.engine.Leaves "Name == 'Ann'" ((start.after annSteps).cacheOf annSeat)
          (.ok predicate) (later.cacheOf annSeat) ∧
        ∃ stats' later', later.step? 0 (.compile "name=='Ann'" none) =
            some (.compiled (.ok predicate) stats', later') ∧
          later'.cacheOf annSeat =
            { later.cacheOf annSeat with hits := (later.cacheOf annSeat).hits + 1 } := by
  intro start
  have sits : (start.after annSteps).seats[0]? = some annSeat := rfl
  have some_token : annSeat.engine.tokens "Name == 'Ann'" ≠ [] := by simp [ann_tokens]
  have normal : annSeat.engine.normalize "name=='Ann'" =
      annSeat.engine.normalize "Name == 'Ann'" := by
    rw [Engine.normalize, Engine.normalize, ann_tokens, ann_tokens_dense]
    rfl
  have own : annSeat.engine.alone "Name == 'Ann'" =
      .ok (some (.comparison ⟨"Name", .string, .eq, .string "Ann"⟩)) := by
    rw [Engine.alone_eq some_token, ann_tokens]
    rfl
  obtain ⟨⟨result, stats, later, step, outcome, leaves, again⟩, -⟩ :=
    compile_single ann_toldApart sits "Name == 'Ann'" none
  rw [own] at outcome
  obtain ⟨predicate, rfl, condition⟩ := map_eq_ok_iff.1 outcome
  have sits' : later.seats[0]? = some annSeat := by
    rw [step?_compile sits] at step
    have same : (_ : Session) = later := congrArg Prod.snd (Option.some.inj step)
    rw [← same, seats_compile]
    exact sits
  exact ⟨ann_toldApart, sits, predicate, stats, later, step, condition, leaves,
    again predicate rfl some_token [] annSeat "name=='Ann'" none (List.forall_mem_nil _) sits' rfl
      normal⟩

end Session
end RuleFilter

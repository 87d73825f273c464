import RuleFilter.Proofs.Cache.Queue

/-!
# Caches over stores that order by use

A cache may be kept in a bounded store that drops what was used longest ago, if it only peeks into
the store and adds what is not in it: each entry is then used once, when it comes, so that the order
of use is the order of insertion.

* `RecencyStore`: what such a cache relies on, and nothing of what a store does otherwise.
* `StoredCache.Mirrors.after`: it does what `Cache` does, through any calls.
* `Cache.after_eq_queue`: both hold what the queue holds, and count the same.
-/

namespace RuleFilter

structure RecencyStore (κ ν : Type) [BEq κ] where
  State : Type
  empty : Nat → State
  peek : State → κ → Option ν
  contains : State → κ → Bool
  push : State → κ → ν → Option (κ × ν) × State
  clear : State → State
  size : State → Nat
  capacity : State → Nat
  entries : State → List (κ × ν)
  entries_empty : ∀ bound, entries (empty bound) = []
  capacity_empty : ∀ bound, capacity (empty bound) = bound
  peek_eq : ∀ state key, peek state key = (entries state).lookup key
  contains_eq : ∀ state key, contains state key = ((entries state).lookup key).isSome
  size_eq : ∀ state, size state = (entries state).length
  entries_clear : ∀ state, entries (clear state) = []
  capacity_clear : ∀ state, capacity (clear state) = capacity state
  capacity_push : ∀ state key value, capacity (push state key value).2 = capacity state
  push_of_lt : ∀ state key value, (entries state).lookup key = none →
    (entries state).length < capacity state →
      (push state key value).1 = none ∧
        entries (push state key value).2 = entries state ++ [(key, value)]
  push_of_full : ∀ state key value oldest rest, (entries state).lookup key = none →
    (entries state).length = capacity state → entries state = oldest :: rest →
      (push state key value).1 = some oldest ∧
        entries (push state key value).2 = rest ++ [(key, value)]

theorem RecencyStore.push_absent (store : RecencyStore CacheKey Predicate) {state : store.State}
    {key : CacheKey} (predicate : Predicate) (absent : (store.entries state).lookup key = none)
    (positive : 0 < store.capacity state)
    (within : (store.entries state).length ≤ store.capacity state) :
    store.entries (store.push state key predicate).2 =
        Queue.enqueue (store.capacity state) (store.entries state) (key, predicate) ∧
      (store.push state key predicate).1.isSome =
        decide (store.capacity state ≤ (store.entries state).length) := by
  by_cases room : (store.entries state).length < store.capacity state
  · obtain ⟨dropped, entries⟩ := store.push_of_lt state key predicate absent room
    rw [dropped, entries, Queue.enqueue_of_lt room]
    exact ⟨rfl, by simpa using room⟩
  · have full := Nat.le_antisymm within (Nat.le_of_not_lt room)
    obtain ⟨oldest, rest, split⟩ :=
      List.exists_cons_of_ne_nil (List.ne_nil_of_length_pos (full ▸ positive))
    obtain ⟨dropped, entries⟩ :=
      store.push_of_full state key predicate oldest rest absent full split
    rw [dropped, entries, Queue.enqueue_of_le positive (Nat.le_of_eq full.symm), full, split]
    exact ⟨rfl, by simp⟩

structure StoredCache (store : RecencyStore CacheKey Predicate) where
  state : store.State
  stats : CacheStats

namespace StoredCache

variable {store : RecencyStore CacheKey Predicate}

def ofCapacity (store : RecencyStore CacheKey Predicate) (capacity : Nat) : StoredCache store :=
  ⟨store.empty (max capacity 1), ⟨0, 0, 0, 0⟩⟩

def get (cache : StoredCache store) (key : CacheKey) : Option Predicate × StoredCache store :=
  match store.peek cache.state key with
  | some predicate =>
    (some predicate, { cache with stats := { cache.stats with hits := cache.stats.hits + 1 } })
  | none => (none, { cache with stats := { cache.stats with misses := cache.stats.misses + 1 } })

def insert (cache : StoredCache store) (key : CacheKey) (predicate : Predicate) :
    StoredCache store :=
  if store.contains cache.state key then cache
  else
    let (dropped, state) := store.push cache.state key predicate
    { state := state
      stats := { cache.stats with
        evictions := if dropped.isSome then cache.stats.evictions + 1 else cache.stats.evictions
        entries := store.size state } }

def clear (cache : StoredCache store) : StoredCache store :=
  { state := store.clear cache.state, stats := { cache.stats with entries := 0 } }

def call (cache : StoredCache store) : CacheCall → StoredCache store
  | .get key => (cache.get key).2
  | .insert key predicate => cache.insert key predicate
  | .clear => cache.clear

def after (cache : StoredCache store) (calls : List CacheCall) : StoredCache store :=
  calls.foldl call cache

structure Mirrors (stored : StoredCache store) (cache : Cache) (queue : Queue) : Prop where
  follows : cache.Follows queue
  entries : store.entries stored.state = queue.pairs
  capacity : store.capacity stored.state = queue.limit
  stats : stored.stats = cache.stats

namespace Mirrors

variable {stored : StoredCache store} {cache : Cache} {queue : Queue}

theorem ofCapacity (store : RecencyStore CacheKey Predicate) (capacity : Nat) :
    (StoredCache.ofCapacity store capacity).Mirrors (.ofCapacity capacity) (.ofCapacity capacity) :=
  ⟨.ofCapacity capacity, store.entries_empty _, store.capacity_empty _, rfl⟩

theorem get_fst (mirrors : stored.Mirrors cache queue) (key : CacheKey) :
    (stored.get key).1 = queue.pairs.lookup key := by
  rw [← mirrors.entries, ← store.peek_eq, StoredCache.get]
  split <;> simp [*]

theorem get (mirrors : stored.Mirrors cache queue) (key : CacheKey) :
    (stored.get key).2.Mirrors (cache.get key).2 (queue.call (.get key)) := by
  obtain ⟨follows, entries, capacity, stats⟩ := mirrors
  have peeked : store.peek stored.state key = cache.predicates[key]? := by
    rw [store.peek_eq, entries, follows.holds.lookup]
  refine ⟨follows.get key, ?_, ?_, ?_⟩
  · rw [StoredCache.get]
    split <;> exact entries
  · rw [StoredCache.get]
    split <;> exact capacity
  · rw [StoredCache.get, Cache.get, peeked, stats]
    cases cache.predicates[key]? <;> rfl

theorem insert (mirrors : stored.Mirrors cache queue) (key : CacheKey) (predicate : Predicate) :
    (stored.insert key predicate).Mirrors (cache.insert key predicate)
      (queue.call (.insert key predicate)) := by
  obtain ⟨follows, entries, capacity, stats⟩ := mirrors
  have next := follows.insert key predicate
  by_cases present : key ∈ queue.pairs.map Prod.fst
  · have contained : store.contains stored.state key = true := by
      rw [store.contains_eq, entries, lookup_isSome_iff_mem]
      exact present
    rw [StoredCache.insert, if_pos contained, follows.holds.insert_of_mem present, Queue.call,
      if_pos present]
    exact ⟨follows, entries, capacity, stats⟩
  · have unknown := lookup_eq_none_of_not_mem present
    have contained : store.contains stored.state key = false := by
      rw [store.contains_eq, entries, unknown, Option.isSome_none]
    have evictions := (follows.holds.insert_of_not_mem (follows.limit ▸ follows.positive) present
      predicate).2
    rw [follows.limit] at evictions
    have size := next.holds.size
    simp only [Queue.call, present, if_false] at size next ⊢
    obtain ⟨entries', dropped⟩ := store.push_absent predicate (by rw [entries, unknown])
      (by rw [capacity]; exact follows.positive) (by rw [entries, capacity]; exact follows.within)
    rw [entries, capacity] at entries' dropped
    rw [StoredCache.insert, contained, if_neg Bool.false_ne_true]
    refine ⟨next, entries', (store.capacity_push ..).trans capacity, ?_⟩
    obtain ⟨-, hits, misses⟩ := Cache.insert_frame cache key predicate
    simp only [Cache.stats, hits, misses, evictions, size, dropped, store.size_eq, entries', stats]
    by_cases room : queue.pairs.length < queue.limit <;> simp [room]

theorem clear (mirrors : stored.Mirrors cache queue) :
    stored.clear.Mirrors cache.clear (queue.call .clear) := by
  obtain ⟨follows, -, capacity, stats⟩ := mirrors
  refine ⟨follows.clear, store.entries_clear _, (store.capacity_clear _).trans capacity, ?_⟩
  rw [StoredCache.clear, stats]
  rfl

theorem call (mirrors : stored.Mirrors cache queue) (call : CacheCall) :
    (stored.call call).Mirrors (cache.call call) (queue.call call) := by
  cases call with
  | get key => exact mirrors.get key
  | insert key predicate => exact mirrors.insert key predicate
  | clear => exact mirrors.clear

theorem after (mirrors : stored.Mirrors cache queue) (calls : List CacheCall) :
    (stored.after calls).Mirrors (cache.after calls) (queue.after calls) := by
  induction calls generalizing stored cache queue with
  | nil => exact mirrors
  | cons call calls ih => exact ih (mirrors.call call)

end Mirrors
end StoredCache

/-- Through any calls a cache holds, answers and counts what the queue does, and so does a cache in
a store that orders by use. -/
theorem Cache.after_eq_queue (store : RecencyStore CacheKey Predicate) (capacity : Nat)
    (calls : List CacheCall) :
    let cache := (Cache.ofCapacity capacity).after calls
    let stored := (StoredCache.ofCapacity store capacity).after calls
    let queue := (Queue.ofCapacity capacity).after calls
    (cache.contents = queue.pairs ∧ store.entries stored.state = queue.pairs) ∧
      (∀ key, (cache.get key).1 = queue.pairs.lookup key ∧
        (stored.get key).1 = queue.pairs.lookup key) ∧
      stored.stats = cache.stats ∧
      (cache.stats.hits = queue.answered ∧ cache.stats.hits + cache.stats.misses = queue.asked) ∧
      (cache.stats.entries = cache.size ∧ stored.stats.entries = store.size stored.state ∧
        cache.size ≤ cache.capacity ∧ cache.capacity = max capacity 1) ∧
      queue.admitted = cache.stats.evictions + cache.stats.entries + queue.cleared := by
  intro cache stored queue
  have mirrors : stored.Mirrors cache queue :=
    (StoredCache.Mirrors.ofCapacity store capacity).after calls
  have follows := mirrors.follows
  have size := follows.holds.size
  have limit : queue.limit = max capacity 1 := (Queue.ofCapacity capacity).limit_after calls
  refine ⟨⟨follows.holds.contents_eq, mirrors.entries⟩, fun key => ?_, mirrors.stats,
    ⟨follows.answered, follows.asked⟩, ⟨rfl, ?_, ?_, follows.limit.trans limit⟩, ?_⟩
  · exact ⟨follows.holds.get_fst key, mirrors.get_fst key⟩
  · rw [mirrors.stats, store.size_eq, mirrors.entries]
    exact size
  · rw [size, follows.limit]
    exact follows.within
  · rw [follows.admitted]
    exact congrArg (cache.evictions + · + queue.cleared) size.symm

def RecencyStore.listed (κ ν : Type) [BEq κ] : RecencyStore κ ν where
  State := Nat × List (κ × ν)
  empty bound := (bound, [])
  peek state key := state.2.lookup key
  contains state key := (state.2.lookup key).isSome
  push state key value :=
    match state.2.lookup key with
    | some old => (some (key, old), state.1, state.2.filter (·.1 != key) ++ [(key, value)])
    | none =>
      if state.2.length < state.1 then (none, state.1, state.2 ++ [(key, value)])
      else (state.2.head?, state.1, state.2.tail ++ [(key, value)])
  clear state := (state.1, [])
  size state := state.2.length
  capacity := Prod.fst
  entries := Prod.snd
  entries_empty _ := rfl
  capacity_empty _ := rfl
  peek_eq _ _ := rfl
  contains_eq _ _ := rfl
  size_eq _ := rfl
  entries_clear _ := rfl
  capacity_clear _ := rfl
  capacity_push state key value := by
    split
    · rfl
    · split <;> rfl
  push_of_lt state key value absent room := by simp [absent, room]
  push_of_full state key value oldest rest absent full split := by
    simp [absent, full]
    simp [split]

theorem Cache.after_eq_queue_reread :
    let store := RecencyStore.listed CacheKey Predicate
    let a : CacheKey × Predicate := (⟨"", "a"⟩, ⟨none, "a", 0⟩)
    let b : CacheKey × Predicate := (⟨"", "b"⟩, ⟨none, "b", 1⟩)
    let c : CacheKey × Predicate := (⟨"", "c"⟩, ⟨none, "c", 3⟩)
    let calls : List CacheCall :=
      [.insert a.1 a.2, .insert b.1 b.2, .get a.1, .insert a.1 ⟨none, "a", 2⟩, .insert c.1 c.2]
    let cache := (Cache.ofCapacity 2).after calls
    let stored := (StoredCache.ofCapacity store 2).after calls
    cache.contents = [b, c] ∧ store.entries stored.state = [b, c] ∧ (cache.get a.1).1 = none ∧
      (stored.get b.1).1 = some b.2 ∧ stored.stats = cache.stats ∧ cache.stats.hits = 1 := by
  intro store a b c calls cache stored
  have queue : (Queue.ofCapacity 2).after calls = ⟨2, [b, c], 1, 1, 3, 0⟩ := rfl
  obtain ⟨⟨contents, entries⟩, answers, stats, ⟨hits, -⟩, -⟩ := Cache.after_eq_queue store 2 calls
  simp only [queue] at contents entries answers hits
  refine ⟨contents, entries, ?_, ?_, stats, hits⟩
  · exact (answers a.1).1.trans rfl
  · exact (answers b.1).2.trans rfl

end RuleFilter

import Mathlib.Data.List.Basic
import RuleFilter.Cache

namespace RuleFilter

inductive CacheCall where
  | get (key : CacheKey)
  | insert (key : CacheKey) (predicate : Predicate)
  | clear

/-- Pairs, the oldest first, and the numbers of lookups, of those with an answer, of keys taken in
and of keys dropped when all were. -/
structure Queue where
  limit : Nat
  pairs : List (CacheKey × Predicate)
  asked : Nat
  answered : Nat
  admitted : Nat
  cleared : Nat

namespace Queue

def ofCapacity (capacity : Nat) : Queue :=
  ⟨max capacity 1, [], 0, 0, 0, 0⟩

def enqueue (limit : Nat) (pairs : List (CacheKey × Predicate)) (pair : CacheKey × Predicate) :
    List (CacheKey × Predicate) :=
  if limit < (pairs ++ [pair]).length then (pairs ++ [pair]).tail else pairs ++ [pair]

def call (queue : Queue) : CacheCall → Queue
  | .get key =>
    { queue with
      asked := queue.asked + 1
      answered := queue.answered + if key ∈ queue.pairs.map Prod.fst then 1 else 0 }
  | .insert key predicate =>
    if key ∈ queue.pairs.map Prod.fst then queue
    else
      { queue with
        pairs := enqueue queue.limit queue.pairs (key, predicate)
        admitted := queue.admitted + 1 }
  | .clear => { queue with pairs := [], cleared := queue.cleared + queue.pairs.length }

def after (queue : Queue) (calls : List CacheCall) : Queue :=
  calls.foldl call queue

theorem limit_call (queue : Queue) (call : CacheCall) : (queue.call call).limit = queue.limit := by
  cases call with
  | insert key predicate =>
    simp only [Queue.call]
    split <;> rfl
  | _ => rfl

theorem limit_after (queue : Queue) (calls : List CacheCall) :
    (queue.after calls).limit = queue.limit := by
  induction calls generalizing queue with
  | nil => rfl
  | cons call calls ih => exact (ih (queue.call call)).trans (queue.limit_call call)

theorem enqueue_of_lt {limit : Nat} {pairs : List (CacheKey × Predicate)}
    (room : pairs.length < limit) (pair : CacheKey × Predicate) :
    enqueue limit pairs pair = pairs ++ [pair] :=
  if_neg (by rw [List.length_append, List.length_singleton]; omega)

theorem enqueue_of_le {limit : Nat} {pairs : List (CacheKey × Predicate)} (positive : 0 < limit)
    (full : limit ≤ pairs.length) (pair : CacheKey × Predicate) :
    enqueue limit pairs pair = pairs.tail ++ [pair] := by
  rw [enqueue, if_pos (by rw [List.length_append, List.length_singleton]; omega)]
  exact List.tail_append_of_ne_nil (List.ne_nil_of_length_pos (by omega))

theorem length_enqueue {limit : Nat} {pairs : List (CacheKey × Predicate)} (positive : 0 < limit)
    (within : pairs.length ≤ limit) (pair : CacheKey × Predicate) :
    (enqueue limit pairs pair).length =
      if pairs.length < limit then pairs.length + 1 else limit := by
  by_cases room : pairs.length < limit
  · rw [enqueue_of_lt room, if_pos room, List.length_append, List.length_singleton]
  · rw [enqueue_of_le positive (Nat.le_of_not_lt room), if_neg room, List.length_append,
      List.length_tail, List.length_singleton]
    omega

end Queue

theorem lookup_isSome_iff_mem {pairs : List (CacheKey × Predicate)} {key : CacheKey} :
    (pairs.lookup key).isSome = true ↔ key ∈ pairs.map Prod.fst := by
  simp only [List.lookup_isSome_iff, beq_iff_eq, List.mem_map, @eq_comm _ key]

theorem lookup_eq_none_of_not_mem {pairs : List (CacheKey × Predicate)} {key : CacheKey}
    (absent : key ∉ pairs.map Prod.fst) : pairs.lookup key = none := by
  rwa [← lookup_isSome_iff_mem, Option.not_isSome_iff_eq_none] at absent

namespace Cache

def call (cache : Cache) : CacheCall → Cache
  | .get key => (cache.get key).2
  | .insert key predicate => cache.insert key predicate
  | .clear => cache.clear

def after (cache : Cache) (calls : List CacheCall) : Cache :=
  calls.foldl call cache

theorem makeRoom_frame (cache : Cache) :
    cache.makeRoom.capacity = cache.capacity ∧ cache.makeRoom.hits = cache.hits ∧
      cache.makeRoom.misses = cache.misses := by
  unfold makeRoom
  split
  · exact ⟨rfl, rfl, rfl⟩
  · split <;> exact ⟨rfl, rfl, rfl⟩

theorem insert_frame (cache : Cache) (key : CacheKey) (predicate : Predicate) :
    (cache.insert key predicate).capacity = cache.capacity ∧
      (cache.insert key predicate).hits = cache.hits ∧
      (cache.insert key predicate).misses = cache.misses := by
  unfold insert
  split
  · exact ⟨rfl, rfl, rfl⟩
  · exact makeRoom_frame cache

def contents (cache : Cache) : List (CacheKey × Predicate) :=
  cache.keys.filterMap fun key => cache.predicates[key]?.map (key, ·)

/-! ## Index and order -/

structure Holds (cache : Cache) (pairs : List (CacheKey × Predicate)) : Prop where
  keys : cache.keys = pairs.map Prod.fst
  distinct : cache.keys.Nodup
  lookup : ∀ key, cache.predicates[key]? = pairs.lookup key

namespace Holds

variable {cache : Cache} {pairs : List (CacheKey × Predicate)}

theorem congr {cache' : Cache} (holds : cache.Holds pairs) (keys : cache'.keys = cache.keys)
    (predicates : cache'.predicates = cache.predicates) : cache'.Holds pairs := by
  refine ⟨keys.trans holds.keys, keys ▸ holds.distinct, fun key => ?_⟩
  rw [predicates, holds.lookup]

theorem size (holds : cache.Holds pairs) : cache.size = pairs.length := by
  rw [Cache.size, holds.keys, List.length_map]

theorem contains_iff (holds : cache.Holds pairs) {key : CacheKey} :
    cache.predicates.contains key = true ↔ key ∈ pairs.map Prod.fst := by
  rw [Std.HashMap.contains_eq_isSome_getElem?, holds.lookup, lookup_isSome_iff_mem]

theorem contents_eq (holds : cache.Holds pairs) : cache.contents = pairs := by
  have distinct := holds.distinct
  simp only [contents, holds.keys, holds.lookup] at distinct ⊢
  clear holds
  induction pairs with
  | nil => rfl
  | cons pair pairs ih =>
    obtain ⟨fresh, distinct⟩ := List.nodup_cons.1 distinct
    rw [List.map_cons, List.filterMap_cons_some (by rw [List.lookup_cons_self]; rfl)]
    refine congrArg _ (Eq.trans (List.filterMap_congr fun key member => ?_) (ih distinct))
    have other : (key == pair.1) = false := beq_false_of_ne fun same => fresh (same ▸ member)
    rw [List.lookup_cons, other]

theorem get_fst (holds : cache.Holds pairs) (key : CacheKey) :
    (cache.get key).1 = pairs.lookup key := by
  rw [← holds.lookup, Cache.get]
  split <;> simp [*]

theorem clear (cache : Cache) : cache.clear.Holds [] :=
  ⟨rfl, List.nodup_nil, fun key => by simp [Cache.clear]⟩

theorem makeRoom_of_lt (holds : cache.Holds pairs) (room : pairs.length < cache.capacity) :
    cache.makeRoom = cache := by
  rw [makeRoom, holds.size, if_pos room]

theorem makeRoom_of_le (holds : cache.Holds pairs) (positive : 0 < cache.capacity)
    (full : cache.capacity ≤ pairs.length) :
    cache.makeRoom.Holds pairs.tail ∧ cache.makeRoom.evictions = cache.evictions + 1 := by
  obtain ⟨oldest, rest, rfl⟩ :=
    List.exists_cons_of_ne_nil (List.ne_nil_of_length_pos (Nat.lt_of_lt_of_le positive full))
  have keys := holds.keys
  have distinct := holds.distinct
  rw [List.map_cons] at keys
  rw [keys] at distinct
  obtain ⟨fresh, distinct⟩ := List.nodup_cons.1 distinct
  rw [makeRoom, holds.size, if_neg (Nat.not_lt.2 full), keys]
  refine ⟨⟨rfl, distinct, fun key => ?_⟩, rfl⟩
  rw [Std.HashMap.getElem?_erase, holds.lookup, List.lookup_cons, List.tail_cons]
  by_cases same : oldest.1 = key
  · subst same
    rw [if_pos BEq.rfl, lookup_eq_none_of_not_mem fresh]
  · rw [if_neg (by simpa using same), beq_false_of_ne (Ne.symm same)]

theorem append (holds : cache.Holds pairs) {key : CacheKey} (absent : key ∉ pairs.map Prod.fst)
    (predicate : Predicate) :
    Holds { cache with
      predicates := cache.predicates.insert key predicate
      keys := cache.keys ++ [key] } (pairs ++ [(key, predicate)]) := by
  refine ⟨by simp [holds.keys], ?_, fun other => ?_⟩
  · rw [← holds.keys] at absent
    simpa [List.nodup_append] using ⟨holds.distinct, fun k member same => absent (same ▸ member)⟩
  · simp only [Std.HashMap.getElem?_insert, List.lookup_append, holds.lookup, List.lookup_cons]
    by_cases same : key = other
    · subst same
      simp [lookup_eq_none_of_not_mem absent]
    · simp [same, beq_false_of_ne (Ne.symm same)]

theorem insert_of_mem (holds : cache.Holds pairs) {key : CacheKey}
    (present : key ∈ pairs.map Prod.fst) (predicate : Predicate) :
    cache.insert key predicate = cache := by
  rw [Cache.insert, if_pos (holds.contains_iff.2 present)]

theorem insert_of_not_mem (holds : cache.Holds pairs) (positive : 0 < cache.capacity)
    {key : CacheKey} (absent : key ∉ pairs.map Prod.fst) (predicate : Predicate) :
    (cache.insert key predicate).Holds (Queue.enqueue cache.capacity pairs (key, predicate)) ∧
      (cache.insert key predicate).evictions =
        cache.evictions + if pairs.length < cache.capacity then 0 else 1 := by
  rw [Cache.insert, if_neg fun known => absent (holds.contains_iff.1 known)]
  by_cases room : pairs.length < cache.capacity
  · rw [Queue.enqueue_of_lt room, if_pos room, holds.makeRoom_of_lt room]
    exact ⟨holds.append absent predicate, rfl⟩
  · rw [Queue.enqueue_of_le positive (Nat.le_of_not_lt room), if_neg room]
    obtain ⟨holds', evictions⟩ := holds.makeRoom_of_le positive (Nat.le_of_not_lt room)
    refine ⟨holds'.append (fun member => absent ?_) predicate, evictions⟩
    rw [List.map_tail] at member
    exact List.mem_of_mem_tail member

end Holds

/-! ## Runs -/

structure Follows (cache : Cache) (queue : Queue) : Prop where
  holds : cache.Holds queue.pairs
  limit : cache.capacity = queue.limit
  positive : 0 < queue.limit
  within : queue.pairs.length ≤ queue.limit
  answered : cache.hits = queue.answered
  asked : cache.hits + cache.misses = queue.asked
  admitted : queue.admitted = cache.evictions + queue.pairs.length + queue.cleared

namespace Follows

variable {cache : Cache} {queue : Queue}

theorem ofCapacity (capacity : Nat) :
    (Cache.ofCapacity capacity).Follows (.ofCapacity capacity) where
  holds := ⟨rfl, List.nodup_nil, fun key => by simp [Cache.ofCapacity, Queue.ofCapacity]⟩
  limit := rfl
  positive := Nat.le_max_right capacity 1
  within := Nat.zero_le _
  answered := rfl
  asked := rfl
  admitted := rfl

theorem get (follows : cache.Follows queue) (key : CacheKey) :
    (cache.get key).2.Follows (queue.call (.get key)) := by
  obtain ⟨holds, limit, positive, within, answered, asked, admitted⟩ := follows
  have found := holds.lookup key
  cases lookup : queue.pairs.lookup key with
  | some predicate =>
    have present : key ∈ queue.pairs.map Prod.fst := by
      rw [← lookup_isSome_iff_mem, lookup, Option.isSome_some]
    simp only [Cache.get, found, lookup, Queue.call, present, if_true]
    refine ⟨holds.congr rfl rfl, limit, positive, within, ?_, ?_, admitted⟩
    · rw [answered]
    · rw [← asked, Nat.add_right_comm]
  | none =>
    have absent : key ∉ queue.pairs.map Prod.fst := by
      rw [← lookup_isSome_iff_mem, lookup, Option.isSome_none]
      exact Bool.false_ne_true
    simp only [Cache.get, found, lookup, Queue.call, absent, if_false]
    refine ⟨holds.congr rfl rfl, limit, positive, within, answered, ?_, admitted⟩
    rw [← asked, Nat.add_assoc]

theorem insert (follows : cache.Follows queue) (key : CacheKey) (predicate : Predicate) :
    (cache.insert key predicate).Follows (queue.call (.insert key predicate)) := by
  by_cases present : key ∈ queue.pairs.map Prod.fst
  · rw [follows.holds.insert_of_mem present, Queue.call, if_pos present]
    exact follows
  · obtain ⟨holds, limit, positive, within, answered, asked, admitted⟩ := follows
    obtain ⟨holds', evictions⟩ := holds.insert_of_not_mem (limit ▸ positive) present predicate
    obtain ⟨capacity, hits, misses⟩ := insert_frame cache key predicate
    have length := Queue.length_enqueue positive within (key, predicate)
    rw [limit] at holds' evictions
    simp only [Queue.call, present, if_false]
    refine ⟨holds', capacity.trans limit, positive, ?_, hits.trans answered, ?_, ?_⟩
    · show (Queue.enqueue queue.limit queue.pairs (key, predicate)).length ≤ queue.limit
      rw [length]
      split <;> omega
    · rw [hits, misses, asked]
    · dsimp only
      rw [length, evictions, admitted]
      -- Where there is room the queue grows, and otherwise the evictions do.
      by_cases room : queue.pairs.length < queue.limit
      · rw [if_pos room, if_pos room]
        omega
      · rw [if_neg room, if_neg room]
        omega

theorem clear (follows : cache.Follows queue) : cache.clear.Follows (queue.call .clear) := by
  have admitted := follows.admitted
  refine ⟨.clear cache, follows.limit, follows.positive, Nat.zero_le _, follows.answered,
    follows.asked, ?_⟩
  simp only [Queue.call, Cache.clear, List.length_nil]
  omega

theorem call (follows : cache.Follows queue) (call : CacheCall) :
    (cache.call call).Follows (queue.call call) := by
  cases call with
  | get key => exact follows.get key
  | insert key predicate => exact follows.insert key predicate
  | clear => exact follows.clear

theorem after (follows : cache.Follows queue) (calls : List CacheCall) :
    (cache.after calls).Follows (queue.after calls) := by
  induction calls generalizing cache queue with
  | nil => exact follows
  | cons call calls ih => exact ih (follows.call call)

end Follows
end Cache
end RuleFilter

import Std.Data.HashMap
import RuleFilter.Predicate

/-!
# The cache of predicates

A cache keeps a limited number of predicates under the schema and the text of their rules. A full
cache gives up the key that was inserted first. Looking a key up does not change the order, and
neither does inserting a key that is there.
-/

namespace RuleFilter

structure CacheKey where
  schema : String
  source : String
  deriving DecidableEq, Hashable, Repr

structure CacheStats where
  hits : Nat
  misses : Nat
  evictions : Nat
  entries : Nat
  deriving DecidableEq, Repr

structure Cache where
  capacity : Nat
  predicates : Std.HashMap CacheKey Predicate
  keys : List CacheKey
  hits : Nat
  misses : Nat
  evictions : Nat

namespace Cache

def defaultCapacity : Nat := 1000

def ofCapacity (capacity : Nat) : Cache :=
  ⟨max capacity 1, ∅, [], 0, 0, 0⟩

def size (cache : Cache) : Nat :=
  cache.keys.length

def get (cache : Cache) (key : CacheKey) : Option Predicate × Cache :=
  match cache.predicates[key]? with
  | some predicate => (some predicate, { cache with hits := cache.hits + 1 })
  | none => (none, { cache with misses := cache.misses + 1 })

def makeRoom (cache : Cache) : Cache :=
  if cache.size < cache.capacity then cache
  else
    match cache.keys with
    | [] => cache
    | oldest :: keys =>
      { cache with
        predicates := cache.predicates.erase oldest
        keys := keys
        evictions := cache.evictions + 1 }

def insert (cache : Cache) (key : CacheKey) (predicate : Predicate) : Cache :=
  if cache.predicates.contains key then cache
  else
    let cache := cache.makeRoom
    { cache with
      predicates := cache.predicates.insert key predicate
      keys := cache.keys ++ [key] }

def clear (cache : Cache) : Cache :=
  { cache with predicates := ∅, keys := [] }

def stats (cache : Cache) : CacheStats :=
  ⟨cache.hits, cache.misses, cache.evictions, cache.size⟩

def summary (cache : Cache) : String :=
  let counts := s!"hits: {cache.hits}, misses: {cache.misses}, evictions: {cache.evictions}, "
  s!"PredicateCache \x7b capacity: {cache.capacity}, stats: CacheStats \x7b " ++ counts ++
    s!"entries: {cache.size} \x7d \x7d"

end Cache
end RuleFilter

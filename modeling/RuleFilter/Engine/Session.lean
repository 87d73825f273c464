import RuleFilter.Engine.Basic

namespace RuleFilter

structure Seat where
  engine : Engine
  cacheIndex : Nat

structure Session where
  seats : List Seat
  caches : List Cache
  tokens : List Token
  named : List (String × Predicate)
  serial : Nat

namespace Session

inductive Action where
  | choose (properties : List Property)
  | names
  | fingerprint
  | settings
  | tokenize (text : String)
  | dropToken (index : Nat)
  | validateTokens
  | suggestTokens (caret : Nat)
  | validate (text : String)
  | suggest (text : String) (caret : Nat)
  | format (text : String)
  | normalize (text : String)
  | compile (text : String) (name : Option String)
  | stats
  | clear

inductive Reply where
  | refused (error : SchemaError)
  | names (names : List String)
  | fingerprint (bytes : List UInt8)
  | settings (settings : Settings)
  | tokens (tokens : List Token)
  | validated (validated : Validated)
  | suggestions (items : List String)
  | text (text : String)
  | compiled (result : Except CompileError Predicate) (stats : CacheStats)
  | stats (stats : CacheStats)

def separate (engines : List Engine) : Session where
  seats := engines.mapIdx fun index engine => ⟨engine, index⟩
  caches := engines.map fun engine => .ofCapacity engine.settings.cacheCapacity
  tokens := []
  named := []
  serial := 0

def sharing (cache : Cache) (engines : List Engine) : Session where
  seats := engines.map fun engine => ⟨engine, 0⟩
  caches := [cache]
  tokens := []
  named := []
  serial := 0

def named? (session : Session) (name : String) : Option Predicate :=
  (session.named.find? fun entry => entry.1 == name).map Prod.snd

def cacheOf (session : Session) (seat : Seat) : Cache :=
  session.caches.getD seat.cacheIndex (.ofCapacity Cache.defaultCapacity)

def withCache (session : Session) (seat : Seat) (cache : Cache) : Session :=
  { session with caches := session.caches.set seat.cacheIndex cache }

def compile (session : Session) (seat : Seat) (text : String) (name : Option String) :
    Reply × Session :=
  let (result, cache) := seat.engine.compile session.serial (session.cacheOf seat) text
  let named := match result, name with
    | .ok predicate, some name => (name, predicate) :: session.named
    | _, _ => session.named
  (.compiled result cache.stats,
    { session.withCache seat cache with named := named, serial := session.serial + 1 })

def perform (session : Session) (index : Nat) (seat : Seat) : Action → Reply × Session
  | .choose properties =>
    match seat.engine.choose properties with
    | .error error => (.refused error, session)
    | .ok engine =>
      (.names engine.schema.names,
        { session with seats := session.seats.set index { seat with engine := engine } })
  | .names => (.names seat.engine.schema.names, session)
  | .fingerprint => (.fingerprint seat.engine.fingerprint, session)
  | .settings => (.settings seat.engine.settings, session)
  | .tokenize text =>
    let tokens := seat.engine.tokens text
    (.tokens tokens, { session with tokens := tokens })
  | .dropToken index =>
    let tokens := session.tokens.eraseIdx index
    (.tokens tokens, { session with tokens := tokens })
  | .validateTokens =>
    let validated := seat.engine.validate session.tokens
    (.validated validated, { session with tokens := validated.tokens })
  | .suggestTokens caret => (.suggestions (seat.engine.suggest session.tokens caret), session)
  | .validate text => (.validated (seat.engine.validate (seat.engine.tokens text)), session)
  | .suggest text caret =>
    (.suggestions (seat.engine.suggest (seat.engine.tokens text) caret), session)
  | .format text => (.text (seat.engine.format text), session)
  | .normalize text => (.text (seat.engine.normalize text), session)
  | .compile text name => session.compile seat text name
  | .stats => (.stats (session.cacheOf seat).stats, session)
  | .clear =>
    let cache := (session.cacheOf seat).clear
    (.stats cache.stats, session.withCache seat cache)

def step? (session : Session) (index : Nat) (action : Action) : Option (Reply × Session) :=
  session.seats[index]?.map fun seat => session.perform index seat action

end Session
end RuleFilter

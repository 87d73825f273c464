import RuleFilter.Cache
import RuleFilter.Condition.Compiler
import RuleFilter.Layout
import RuleFilter.Schema.Fingerprint
import RuleFilter.Settings.Basic
import RuleFilter.Suggestion
import RuleFilter.Text.Hex
import RuleFilter.Token.Lexer
import RuleFilter.Validation.Basic

namespace RuleFilter

structure Engine where
  settings : Settings
  chosen : Option Schema

namespace Engine

def default : Engine := ⟨{}, none⟩

def ofSettings (settings : Settings) : Except SettingsError Engine :=
  match settings.fault? with
  | some error => .error error
  | none => .ok ⟨settings, none⟩

def schema (engine : Engine) : Schema :=
  engine.chosen.getD .empty

/-- The fingerprint of the schema. Before a target type is chosen it is blank, and not that of the
empty schema. -/
def fingerprint (engine : Engine) : List UInt8 :=
  match engine.chosen with
  | some schema => schema.fingerprint
  | none => blankFingerprint

def choose (engine : Engine) (properties : List Property) : Except SchemaError Engine :=
  (Schema.ofProperties properties).map fun schema => { engine with chosen := some schema }

def lexicon (engine : Engine) : Lexicon :=
  ⟨engine.schema, engine.settings.permissiveValues⟩

def tokens (engine : Engine) (text : String) : List Token :=
  engine.lexicon.tokens text

def validate (engine : Engine) (tokens : List Token) : Validated :=
  engine.schema.validate tokens

def suggest (engine : Engine) (tokens : List Token) (caret : Nat) : List String :=
  engine.schema.suggest tokens caret

def format (engine : Engine) (text : String) : String :=
  Layout.format engine.settings.indentWidth (engine.tokens text)

def normalize (engine : Engine) (text : String) : String :=
  Layout.normalize engine.schema (engine.tokens text)

def cacheKey (engine : Engine) (tokens : List Token) : CacheKey :=
  ⟨Text.hex engine.fingerprint, Layout.normalize engine.schema tokens⟩

/-- The predicate of a rule, from the cache if it is there, and the cache afterwards. A predicate
compiled now gets the given serial number and is kept. A rule without tokens does not concern the
cache, and one that does not compile is not kept. -/
def compile (engine : Engine) (serial : Nat) (cache : Cache) (text : String) :
    Except CompileError Predicate × Cache :=
  let tokens := engine.tokens text
  if tokens.isEmpty then
    (if engine.settings.allowEmpty then .ok .always else .error .empty, cache)
  else
    let key := engine.cacheKey tokens
    match cache.get key with
    | (some predicate, cache) => (.ok predicate, cache)
    | (none, cache) =>
      match engine.schema.compile tokens with
      | .error error => (.error error, cache)
      | .ok condition =>
        let predicate := ⟨some condition, key.source, serial⟩
        (.ok predicate, cache.insert key predicate)

end Engine
end RuleFilter

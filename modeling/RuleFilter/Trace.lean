import RuleFilter.Condition.Document
import RuleFilter.Engine.Basic
import RuleFilter.Schema.Declaration
import RuleFilter.Settings.Environment

namespace RuleFilter.Trace

structure Outcome where
  exit : Nat
  output : String
  errors : String

def unlines (lines : List String) : String :=
  String.join (lines.map (· ++ "\n"))

def padRight (width : Nat) (text : String) : String :=
  text ++ String.ofList (List.replicate (width - text.length) ' ')

def padLeft (width : Nat) (text : String) : String :=
  String.ofList (List.replicate (width - text.length) ' ') ++ text

def usage : List String := [
  "Usage: cargo run --bin trace_rule <schema> <expression> [caret]",
  "",
  "Example:",
  "  cargo run --bin trace_rule \"Age:Integer,Name:String\" " ++
    "\"Age > 18 AND Name CONTAINS 'John'\""]

def rule : String :=
  String.ofList (List.replicate 61 '─')

def frame : String :=
  String.ofList (List.replicate 63 '═')

def part (title : String) (lines : List String) : List String :=
  title :: rule :: lines

def tokenLine (token : Token) : String :=
  let marker := if token.flag.isSome then "✗" else " "
  let start := padLeft 3 (toString token.span.start)
  let stop := padRight 3 (toString token.span.stop)
  let kind := padRight 20 token.kind.describe
  s!"{marker} [{start}..{stop}] {kind} {token.text}"

def diagnosticLine (diagnostic : Diagnostic) : String :=
  let place := s!"at {diagnostic.span.start} (len {diagnostic.span.size})"
  s!"  {diagnostic.kind.name} {place}: {diagnostic.message}"

def reportLines (report : Report) : List String :=
  (if report.isValid then ["✓ valid"] else []) ++
    report.diagnostics.map diagnosticLine ++
    (if report.unknownProperties.isEmpty then []
      else ["  unknown properties: " ++ ", ".intercalate report.unknownProperties])

def compileLines (result : Except CompileError Predicate) : List String × Bool :=
  match result with
  | .error error => (["❌ " ++ error.message], false)
  | .ok predicate =>
    (("✓ " ++ predicate.text) ::
      (predicate.condition.map fun condition => condition.toJson.indented).toList, true)

def report (engine : Engine) (expression : String) (caret : Nat) : Outcome :=
  let validated := engine.validate (engine.tokens expression)
  let cache := Cache.ofCapacity engine.settings.cacheCapacity
  let (compiled, succeeded) := compileLines (engine.compile 0 cache expression).1
  let lines :=
    ["╔" ++ frame, "║ RULE EXPRESSION TRACER", "╚" ++ frame, ""] ++
    ["📝 INPUT:", expression, ""] ++
    part "🔍 TOKENS:" (validated.tokens.map tokenLine ++ [""]) ++
    part "🩺 DIAGNOSTICS:" (reportLines validated.report ++ [""]) ++
    part s!"💡 SUGGESTIONS AT {caret}:"
      ["  ".intercalate (engine.suggest validated.tokens caret), ""] ++
    part "📐 FORMATTED:" [engine.format expression, ""] ++
    part "⚙️  COMPILE:" compiled
  ⟨if succeeded then 0 else 2, unlines lines, ""⟩

def refuse (what message : String) : Outcome :=
  ⟨1, "", unlines [s!"❌ {what}: {message}"]⟩

def caretOf (expression : String) : Option String → Except Text.CountError Nat
  | none => .ok expression.utf8ByteSize
  | some text => Text.count text

def run (arguments : List String) (value : String → Option String) : Outcome :=
  match arguments with
  | declaration :: expression :: more =>
    match caretOf expression more.head? with
    | .error error => refuse "Invalid caret offset" error.message
    | .ok caret =>
      match Engine.ofSettings (Settings.ofEnvironment value) with
      | .error error => refuse "Invalid configuration" error.message
      | .ok engine =>
        match engine.choose (declaredProperties declaration) with
        | .error error => refuse "Invalid schema" error.message
        | .ok engine => report engine expression caret
  | _ => ⟨1, "", unlines usage⟩

end RuleFilter.Trace

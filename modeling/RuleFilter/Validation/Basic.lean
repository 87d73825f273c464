import RuleFilter.Validation.Nesting
import RuleFilter.Validation.Sequence

namespace RuleFilter

structure Findings where
  inPlace : List (Option Problem)
  atEnd : Option Problem
  unmatched : Option Diagnostic
  tooDeep : Option (Nat × Token)

namespace Findings

def of (schema : Schema) (tokens : List Token) : Findings where
  inPlace := Validation.tokenProblems schema tokens
  atEnd := Validation.endProblem? tokens
  unmatched := Validation.unmatched? tokens
  tooDeep := Validation.tooDeep? tokens

def inColumn (tokens : List Token) (problems : List (Option Problem)) : List Diagnostic :=
  (tokens.zip problems).filterMap fun (token, problem) => problem.map (⟨·, token.span⟩)

def diagnostics (findings : Findings) (tokens : List Token) : List Diagnostic :=
  inColumn tokens findings.inPlace ++
    inColumn tokens.getLast?.toList [findings.atEnd] ++
    findings.unmatched.toList ++
    (findings.tooDeep.map fun (_, token) => ⟨.tooDeep, token.span⟩).toList

def problemAt? (findings : Findings) (isLast : Bool) (index : Nat) (token : Token)
    (inPlace : Option Problem) : Option Problem :=
  inPlace
    <|> (if isLast then findings.atEnd else none)
    <|> (if token.kind.isParen then findings.unmatched.map Diagnostic.problem else none)
    <|> (if findings.tooDeep.any (·.1 == index) then some .tooDeep else none)

def flagFrom (findings : Findings) (index : Nat) (flagged : List Token) :
    List Token → List (Option Problem) → List Token
  | token :: tokens, inPlace :: problems =>
    let problem := findings.problemAt? tokens.isEmpty index token inPlace
    let token := { token with flag := problem.map Problem.message }
    findings.flagFrom (index + 1) (token :: flagged) tokens problems
  | _, _ => flagged.reverse

def flag (findings : Findings) (tokens : List Token) : List Token :=
  findings.flagFrom 0 [] tokens findings.inPlace

end Findings

structure Validated where
  report : Report
  tokens : List Token

def Schema.validate (schema : Schema) (tokens : List Token) : Validated :=
  if tokens.isEmpty then ⟨⟨[⟨.empty, .zero⟩], []⟩, []⟩
  else
    let findings := Findings.of schema tokens
    { report :=
        { diagnostics :=
            (findings.diagnostics tokens).mergeSort fun a b => a.span.start ≤ b.span.start
          unknownProperties := Validation.unknownNames schema tokens }
      tokens := findings.flag tokens }

end RuleFilter

import RuleFilter.Schema.Naming
import RuleFilter.Value.Literal
import RuleFilter.Validation.Diagnostic

/-!
# The sequence of tokens

The grammar of rules, parentheses apart, is a table of which token may stand behind which. A token
that is in its place is checked against the property of its clause: an operator against the property
in front of it, a literal against the one two places in front. Behind an unknown token, which is a
problem itself, anything may stand.
-/

namespace RuleFilter

inductive Role where
  | property
  | operator
  | value
  | connective
  | negation
  | openParen
  | closeParen
  | unknown
  deriving DecidableEq, Repr

def Token.role (token : Token) : Role :=
  match token.kind with
  | .property => .property
  | .operator => .operator
  | .value => .value
  | .logical => if token.isConnective .not then .negation else .connective
  | .openParen => .openParen
  | .closeParen => .closeParen
  | .unknown => .unknown

namespace Role

def beginsOperand : Role → Bool
  | property | openParen | negation => true
  | _ => false

def mayFollow (previous : Option Role) (next : Role) : Bool :=
  match previous with
  | none | some connective | some negation | some openParen => next.beginsOperand
  | some property => next == operator
  | some operator => next == value
  | some value | some closeParen => next == connective || next == closeParen
  | some unknown => true

def mayEnd : Role → Bool
  | value | closeParen | unknown => true
  | _ => false

end Role

def Expectation.after : Option Role → Expectation
  | none | some .connective | some .negation | some .openParen => operand
  | some .property => operator
  | some .operator => value
  | some .value | some .closeParen => joint
  | some .unknown => anything

namespace Validation

def literalProblem? (property : Property) (literal : String) : Option Problem :=
  if (Value.ofLiteral? literal property.type).isNone then
    some (.invalidLiteral literal property.type property.name)
  else if property.allows literal then none
  else some (.valueNotAllowed literal property.name (property.allowed.getD []))

def operatorProblem? (property : Property) (symbol : String) : Option Problem :=
  (Comparator.ofSymbol? symbol).bind fun op =>
    if op.isLegalFor property.type then none
    else some (.illegalOperator op property.type property.name)

def typeProblem? (schema : Schema) (earlier : List Token) (token : Token) : Option Problem :=
  match token.kind with
  | .operator => (earlier[0]?.bind schema.named?).bind (operatorProblem? · token.text)
  | .value => (earlier[1]?.bind schema.named?).bind (literalProblem? · token.text)
  | _ => none

def inValuePlace (earlier : List Token) : Bool :=
  earlier.head?.any (·.role == .operator)

def unknownProblem (earlier : List Token) (token : Token) : Problem :=
  if token.text.toList.head?.any Text.isQuote then .unterminated token.text
  else if !Text.isName token.text then .unrecognized token.text
  else if inValuePlace earlier then .unquoted token.text
  else .unknownProperty token.text

def tokenProblem? (schema : Schema) (earlier : List Token) (token : Token) : Option Problem :=
  let previous := earlier.head?.map Token.role
  if token.role = .unknown then some (unknownProblem earlier token)
  else if Role.mayFollow previous token.role then typeProblem? schema earlier token
  else some (.misplaced (.after previous) (earlier.head?.map Token.text) token.text)

def tokenProblemsFrom (schema : Schema) (earlier : List Token) (found : List (Option Problem)) :
    List Token → List (Option Problem)
  | [] => found.reverse
  | token :: tokens =>
    tokenProblemsFrom schema (token :: earlier) (tokenProblem? schema earlier token :: found) tokens

def tokenProblems (schema : Schema) (tokens : List Token) : List (Option Problem) :=
  tokenProblemsFrom schema [] [] tokens

def endProblem? (tokens : List Token) : Option Problem :=
  tokens.getLast?.bind fun last =>
    if last.role.mayEnd then none
    else some (.incomplete (.after (some last.role)) last.text)

def unknownNamesFrom (schema : Schema) (previous : Option Role) (names : List String) :
    List Token → List String
  | [] => names.reverse
  | token :: tokens =>
    let isNew := token.isUnknownName && !schema.contains token.text && previous != some .operator &&
      !names.any (Text.sameLetters · token.text)
    unknownNamesFrom schema (some token.role) (if isNew then token.text :: names else names) tokens

def unknownNames (schema : Schema) (tokens : List Token) : List String :=
  unknownNamesFrom schema none [] tokens

end Validation
end RuleFilter

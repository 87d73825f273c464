import RuleFilter.Rule.Basic

namespace RuleFilter

inductive Expectation where
  | operand
  | operator
  | value
  | joint
  | anything
  deriving DecidableEq, Repr

def Expectation.text : Expectation → String
  | operand => "a property, NOT or '('"
  | operator => "a comparison operator"
  | value => "a value"
  | joint => "AND, OR or ')'"
  | anything => "a valid token"

inductive DiagnosticKind where
  | empty
  | grammar
  | parenthesis
  | unknownProperty
  | type
  | nesting
  deriving DecidableEq, Repr

def DiagnosticKind.name : DiagnosticKind → String
  | empty => "Empty"
  | grammar => "Syntax"
  | parenthesis => "Parenthesis"
  | unknownProperty => "UnknownProperty"
  | type => "Type"
  | nesting => "Nesting"

inductive Problem where
  | empty
  | misplaced (expected : Expectation) (previous : Option String) (found : String)
  | incomplete (expected : Expectation) (last : String)
  | unterminated (text : String)
  | unknownProperty (name : String)
  | unquoted (text : String)
  | unrecognized (text : String)
  | illegalOperator (op : Comparator) (type : PropertyType) (property : String)
  | invalidLiteral (literal : String) (type : PropertyType) (property : String)
  | valueNotAllowed (literal property : String) (allowed : List String)
  | unmatchedOpen
  | unmatchedClose
  | tooDeep
  deriving DecidableEq, Repr

namespace Problem

def kind : Problem → DiagnosticKind
  | empty => .empty
  | misplaced .. | incomplete .. | unterminated _ | unquoted _ | unrecognized _ => .grammar
  | unknownProperty _ => .unknownProperty
  | illegalOperator .. | invalidLiteral .. | valueNotAllowed .. => .type
  | unmatchedOpen | unmatchedClose => .parenthesis
  | tooDeep => .nesting

def message : Problem → String
  | empty => "Expression is empty"
  | misplaced expected (some previous) found =>
    s!"Expected {expected.text} after '{previous}', found '{found}'"
  | misplaced expected none found =>
    s!"Expected {expected.text} at start of expression, found '{found}'"
  | incomplete expected last =>
    s!"Incomplete expression: expected {expected.text} after '{last}'"
  | unterminated text => s!"Unterminated string literal {text}"
  | unknownProperty name => s!"Unknown property '{name}'"
  | unquoted text => s!"Unrecognized value '{text}'; quote string values"
  | unrecognized text => s!"Unrecognized text '{text}'"
  | illegalOperator op type property =>
    s!"Operator '{op.symbol}' is not valid for {type.name} property '{property}'"
  | invalidLiteral literal type property =>
    s!"'{literal}' is not a valid {type.name} value for '{property}'"
  | valueNotAllowed literal property allowed =>
    let values := ", ".intercalate allowed
    s!"'{literal}' is not an allowed value for '{property}' (allowed: {values})"
  | unmatchedOpen => "Unbalanced parentheses: unmatched '('"
  | unmatchedClose => "Unbalanced parentheses: unmatched ')'"
  | tooDeep => s!"Expression nests deeper than {nestingLimit} levels"

end Problem

structure Diagnostic where
  problem : Problem
  span : Span
  deriving DecidableEq, Repr

namespace Diagnostic

def kind (diagnostic : Diagnostic) : DiagnosticKind :=
  diagnostic.problem.kind

def message (diagnostic : Diagnostic) : String :=
  diagnostic.problem.message

end Diagnostic

structure Report where
  diagnostics : List Diagnostic
  unknownProperties : List String
  deriving Repr

namespace Report

def isValid (report : Report) : Bool :=
  report.diagnostics.isEmpty

def ofKind (kind : DiagnosticKind) (report : Report) : List Diagnostic :=
  report.diagnostics.filter (·.kind == kind)

end Report
end RuleFilter

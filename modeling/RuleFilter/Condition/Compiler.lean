import RuleFilter.Condition.Basic
import RuleFilter.Rule.Parser
import RuleFilter.Schema.Basic

/-!
# Compiling rules

A clause is compiled by looking its property up in the schema and by checking, in this order, that
its operator may be used with the declared type, that its literal is one of that type, and that the
value is among the allowed ones. A rule is compiled clause by clause from left to right, and the
first clause that fails gives the error.
-/

namespace RuleFilter

inductive CompileError where
  | empty
  | ungrammatical (fault : ParseFault) (position : Nat)
  | unbalanced (position : Nat)
  | tooDeep (position : Nat)
  | unknownProperty (name : String)
  | illegalOperator (op : Comparator) (type : PropertyType) (property : String)
  | invalidLiteral (literal : String) (type : PropertyType)
  | valueNotAllowed (literal property : String)
  deriving DecidableEq, Repr

namespace CompileError

def message : CompileError → String
  | empty => "expression is empty"
  | ungrammatical fault position => s!"syntax error at offset {position}: {fault.message}"
  | unbalanced position => s!"unbalanced parentheses at offset {position}"
  | tooDeep position => s!"nesting exceeds {nestingLimit} levels at offset {position}"
  | unknownProperty name => s!"unknown property '{name}'"
  | illegalOperator op type property =>
    s!"operator '{op.symbol}' is not valid for {type.name} property '{property}'"
  | invalidLiteral literal type => s!"'{literal}' is not a valid {type.name} literal"
  | valueNotAllowed literal property =>
    s!"'{literal}' is not an allowed value for '{property}'"

def ofParseError (error : ParseError) : CompileError :=
  match error.fault with
  | .empty => empty
  | .unmatchedOpen | .unmatchedClose => unbalanced error.span.start
  | .tooDeep => tooDeep error.span.start
  | .unknownProperty name => unknownProperty name
  | fault => ungrammatical fault error.span.start

end CompileError

/-- The value that a literal stands for in comparisons with a property. Where values are limited,
the literal may differ from an allowed one in letter case, and stands for the allowed one as the
schema spells it. -/
def Property.operand (property : Property) (literal : String) : Except CompileError Value :=
  match Value.ofLiteral? literal property.type with
  | none => .error (.invalidLiteral literal property.type)
  | some value =>
    if property.allowed.isNone then .ok value
    else
      match (property.spelling? literal).bind (Value.ofLiteral? · property.type) with
      | none => .error (.valueNotAllowed literal property.name)
      | some value => .ok value

def Clause.compile (schema : Schema) (clause : Clause) : Except CompileError Comparison :=
  match schema.describe? clause.property with
  | none => .error (.unknownProperty clause.property)
  | some property =>
    if clause.op.isLegalFor property.type then
      (property.operand clause.literal).map (⟨property.name, property.type, clause.op, ·⟩)
    else .error (.illegalOperator clause.op property.type property.name)

namespace Rule

mutual

def compile (schema : Schema) : Rule → Except CompileError Condition
  | .clause c => (c.compile schema).map .comparison
  | .all rules => (compileFrom schema [] rules).map .all
  | .any rules => (compileFrom schema [] rules).map .any
  | .negation rule => (compile schema rule).map .negation

def compileFrom (schema : Schema) (taken : List Condition) :
    List Rule → Except CompileError (List Condition)
  | [] => .ok taken.reverse
  | rule :: rules =>
    match compile schema rule with
    | .error error => .error error
    | .ok condition => compileFrom schema (condition :: taken) rules

end

end Rule

def Schema.compile (schema : Schema) (tokens : List Token) : Except CompileError Condition :=
  match Rule.parse tokens with
  | .error error => .error (.ofParseError error)
  | .ok rule => rule.compile schema

end RuleFilter

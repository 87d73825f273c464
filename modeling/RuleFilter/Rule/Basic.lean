import RuleFilter.Operator
import RuleFilter.Token.Basic

namespace RuleFilter

def nestingLimit : Nat := 128

structure Clause where
  property : String
  op : Comparator
  literal : String
  span : Span
  deriving DecidableEq, Repr

/-- A rule. One run of AND or of OR makes one node with all its operands, of which there are at
least two. -/
inductive Rule where
  | clause (clause : Clause)
  | all (rules : List Rule)
  | any (rules : List Rule)
  | negation (rule : Rule)
  deriving Repr, Inhabited

def Clause.text (clause : Clause) : String :=
  s!"{clause.property} {clause.op.symbol} {clause.literal}"

namespace Rule

mutual

def text : Rule → String
  | .clause c => c.text
  | .all rules => "(" ++ " AND ".intercalate (textsFrom [] rules) ++ ")"
  | .any rules => "(" ++ " OR ".intercalate (textsFrom [] rules) ++ ")"
  | .negation rule => "(NOT " ++ rule.text ++ ")"

def textsFrom (taken : List String) : List Rule → List String
  | [] => taken.reverse
  | rule :: rules => textsFrom (rule.text :: taken) rules

end

mutual

def clausesOnto (taken : List Clause) : Rule → List Clause
  | .clause c => c :: taken
  | .all rules => clausesOfOnto taken rules
  | .any rules => clausesOfOnto taken rules
  | .negation rule => clausesOnto taken rule

def clausesOfOnto (taken : List Clause) : List Rule → List Clause
  | [] => taken
  | rule :: rules => clausesOfOnto (clausesOnto taken rule) rules

end

def clauses (rule : Rule) : List Clause :=
  (rule.clausesOnto []).reverse

/-- Several operands make one node; a single one stands alone. -/
def join (node : List Rule → Rule) : List Rule → Rule
  | [rule] => rule
  | rules => node rules

end Rule
end RuleFilter

import RuleFilter.Rule.Basic

/-!
# Parsing rules

A list of tokens is read by recursive descent. OR binds loosest, then AND, then NOT; a run of one
connective is read in a loop, so only parentheses and NOTs make the descent deeper, and those are
limited. `Cursor` holds what is left to read, and how many levels are open there.

Parentheses are checked to balance before anything is read.
-/

namespace RuleFilter

inductive Wanted where
  | property
  | operator
  | value
  | closeParen
  deriving DecidableEq, Repr

def Wanted.text : Wanted → String
  | property => "a property"
  | operator => "a comparison operator"
  | value => "a value"
  | closeParen => "')'"

inductive ParseFault where
  | empty
  | unmatchedOpen
  | unmatchedClose
  | tooDeep
  | unknownProperty (name : String)
  | unexpected (wanted : Wanted) (found : String)
  | ended (wanted : Wanted)
  | noOperator
  | leftOver (found : String)
  deriving DecidableEq, Repr

def ParseFault.message : ParseFault → String
  | empty => "Expression is empty"
  | unmatchedOpen => "Unmatched '('"
  | unmatchedClose => "Unmatched ')'"
  | tooDeep => s!"Expression nests deeper than {nestingLimit} levels"
  | unknownProperty name => s!"Unknown property '{name}'"
  | unexpected wanted found => s!"Expected {wanted.text}, found '{found}'"
  | ended wanted => s!"Unexpected end of expression, expected {wanted.text}"
  | noOperator => "Expected a comparison operator"
  | leftOver found => s!"Unexpected '{found}'"

structure ParseError where
  fault : ParseFault
  span : Span
  deriving DecidableEq, Repr

def ParseError.text (error : ParseError) : String :=
  s!"Parse error at offset {error.span.start}: {error.fault.message}"

/-! ## Balance -/

def imbalanceFrom? (depth : Nat) (lastOpen : Span) : List Token → Option ParseError
  | [] => if 0 < depth then some ⟨.unmatchedOpen, lastOpen⟩ else none
  | token :: tokens =>
    match token.kind with
    | .openParen => imbalanceFrom? (depth + 1) token.span tokens
    | .closeParen =>
      if depth = 0 then some ⟨.unmatchedClose, token.span⟩
      else imbalanceFrom? (depth - 1) lastOpen tokens
    | _ => imbalanceFrom? depth lastOpen tokens

def imbalance? (tokens : List Token) : Option ParseError :=
  imbalanceFrom? 0 .zero tokens

/-! ## Reading -/

structure Cursor where
  rest : List Token
  lastStop : Nat
  depth : Nat

namespace Cursor

def start (tokens : List Token) : Cursor := ⟨tokens, 0, 0⟩

def advance (cursor : Cursor) : Cursor :=
  match cursor.rest with
  | [] => cursor
  | token :: rest => { cursor with rest := rest, lastStop := token.span.stop }

def isAt (connective : Connective) (cursor : Cursor) : Bool :=
  cursor.rest.head?.any (·.isConnective connective)

def unexpected (wanted : Wanted) (cursor : Cursor) : ParseError :=
  match cursor.rest with
  | [] => ⟨.ended wanted, ⟨cursor.lastStop, cursor.lastStop⟩⟩
  | token :: _ => ⟨.unexpected wanted token.text, token.span⟩

def expect (kind : TokenKind) (wanted : Wanted) (cursor : Cursor) :
    Except ParseError (Token × Cursor) :=
  match cursor.rest with
  | [] => .error (cursor.unexpected wanted)
  | token :: _ =>
    if token.kind = kind then .ok (token, cursor.advance) else .error (cursor.unexpected wanted)

def expectProperty (cursor : Cursor) : Except ParseError (Token × Cursor) :=
  match cursor.rest with
  | [] => .error (cursor.unexpected .property)
  | token :: _ =>
    if token.isUnknownName then .error ⟨.unknownProperty token.text, token.span⟩
    else cursor.expect .property .property

def tooDeep (cursor : Cursor) : ParseError :=
  ⟨.tooDeep, (cursor.rest.head?.map Token.span).getD .zero⟩

def enter (cursor : Cursor) : Except ParseError Cursor :=
  if nestingLimit < cursor.depth + 1 then .error cursor.tooDeep
  else .ok { cursor.advance with depth := cursor.depth + 1 }

def leave (cursor : Cursor) : Cursor :=
  { cursor with depth := cursor.depth - 1 }

end Cursor

abbrev Reading := Cursor → Except ParseError (Rule × Cursor)

namespace Reading

def clause : Reading := fun cursor => do
  let (property, cursor) ← cursor.expectProperty
  let (operator, cursor) ← cursor.expect .operator .operator
  match Comparator.ofSymbol? operator.text with
  | none => .error ⟨.noOperator, operator.span⟩
  | some op =>
    let (value, cursor) ← cursor.expect .value .value
    .ok (.clause ⟨property.text, op, value.text, ⟨property.span.start, value.span.stop⟩⟩, cursor)

def operandsFrom (connective : Connective) (operand : Reading) :
    (bound : Nat) → (taken : List Rule) → Cursor → Except ParseError (List Rule × Cursor)
  | 0, taken, cursor => .ok (taken.reverse, cursor)
  | bound + 1, taken, cursor =>
    match operand cursor with
    | .error error => .error error
    | .ok (rule, cursor) =>
      if cursor.isAt connective then
        operandsFrom connective operand bound (rule :: taken) cursor.advance
      else .ok ((rule :: taken).reverse, cursor)

def operands (connective : Connective) (operand : Reading) (cursor : Cursor) :
    Except ParseError (List Rule × Cursor) :=
  operandsFrom connective operand (cursor.rest.length + 1) [] cursor

def conjunction (operand : Reading) : Reading := fun cursor => do
  let (rules, cursor) ← operands .and operand cursor
  .ok (Rule.join .all rules, cursor)

def disjunction (operand : Reading) : Reading := fun cursor => do
  let (rules, cursor) ← operands .or (conjunction operand) cursor
  .ok (Rule.join .any rules, cursor)

def operand : (levels : Nat) → Reading
  | 0 => fun cursor => .error cursor.tooDeep
  | levels + 1 => fun cursor =>
    if cursor.isAt .not then do
      let inner ← cursor.enter
      let (rule, cursor) ← operand levels inner
      .ok (.negation rule, cursor.leave)
    else if cursor.rest.head?.any (·.kind == .openParen) then do
      let inner ← cursor.enter
      let (rule, cursor) ← disjunction (operand levels) inner
      let (_, cursor) ← cursor.expect .closeParen .closeParen
      .ok (rule, cursor.leave)
    else clause cursor

/-- A whole rule. Below the deepest level that may be open there is one for its clauses. -/
def rule : Reading :=
  disjunction (operand (nestingLimit + 1))

end Reading

def Rule.parse (tokens : List Token) : Except ParseError Rule :=
  if tokens.isEmpty then .error ⟨.empty, .zero⟩
  else
    match imbalance? tokens with
    | some error => .error error
    | none =>
      match Reading.rule (.start tokens) with
      | .error error => .error error
      | .ok (rule, cursor) =>
        match cursor.rest with
        | [] => .ok rule
        | token :: _ => .error ⟨.leftOver token.text, token.span⟩

end RuleFilter

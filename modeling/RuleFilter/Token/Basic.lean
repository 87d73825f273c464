import RuleFilter.Operator
import RuleFilter.Text.Word

namespace RuleFilter

inductive TokenKind where
  | property
  | operator
  | logical
  | value
  | openParen
  | closeParen
  | unknown
  deriving DecidableEq, Repr

def TokenKind.describe : TokenKind → String
  | property => "property"
  | operator => "comparison operator"
  | logical => "logical operator"
  | value => "value"
  | openParen => "'('"
  | closeParen => "')'"
  | unknown => "unrecognized text"

def TokenKind.isParen : TokenKind → Bool
  | openParen | closeParen => true
  | _ => false

structure Span where
  start : Nat
  stop : Nat
  deriving DecidableEq, Repr

namespace Span

def zero : Span := ⟨0, 0⟩

def offsetCount : Nat := 0x10000000000000000

/-- The number of bytes. The count is one of 64 bits, and where the stop lies in front of the start,
as it does in no text, it wraps around. -/
def size (span : Span) : Nat :=
  if span.start ≤ span.stop then span.stop - span.start
  else offsetCount - (span.start - span.stop)

def isEmpty (span : Span) : Bool :=
  span.start == span.stop

def touches (span : Span) (caret : Nat) : Bool :=
  span.start < caret && caret ≤ span.stop

theorem size_of_le {span : Span} (h : span.start ≤ span.stop) :
    span.size = span.stop - span.start :=
  if_pos h

end Span

structure Token where
  kind : TokenKind
  text : String
  span : Span
  flag : Option String
  deriving DecidableEq, Repr

namespace Token

def isConnective (connective : Connective) (token : Token) : Bool :=
  token.kind == .logical && Text.sameLetters token.text connective.symbol

def isUnknownName (token : Token) : Bool :=
  token.kind == .unknown && Text.isName token.text

def unflagged (token : Token) : Token :=
  { token with flag := none }

end Token
end RuleFilter

import RuleFilter.Validation.Diagnostic

/-!
# Parentheses and nesting

Two passes look at the parentheses of a list of tokens alone. The first matches them with a stack
and tells the first one that has no partner, closing ones before opening ones. The second counts the
levels that parentheses and NOTs open, and tells the first token that opens one too many.
-/

namespace RuleFilter.Validation

/-! ## Matching -/

structure Matching where
  opened : List Span
  stray : Option Span
  deriving DecidableEq, Repr

namespace Matching

def start : Matching := ⟨[], none⟩

def step (matching : Matching) (token : Token) : Matching :=
  match token.kind with
  | .openParen => { matching with opened := token.span :: matching.opened }
  | .closeParen =>
    match matching.opened with
    | [] => { matching with stray := matching.stray <|> some token.span }
    | _ :: opened => { matching with opened := opened }
  | _ => matching

end Matching

def unmatched? (tokens : List Token) : Option Diagnostic :=
  let matching := tokens.foldl Matching.step .start
  match matching.stray with
  | some span => some ⟨.unmatchedClose, span⟩
  | none => matching.opened.getLast?.map (⟨.unmatchedOpen, ·⟩)

/-! ## Counting levels -/

/-- The levels that are open at some place. A run of NOTs reaches over the clause or the parentheses
behind it, so that the levels it opens are closed together with those. -/
structure Levels where
  depth : Nat
  waiting : Nat
  groups : List Nat
  deriving DecidableEq, Repr

namespace Levels

def start : Levels := ⟨0, 0, []⟩

def step (levels : Levels) (token : Token) : Levels :=
  match token.kind with
  | .logical =>
    if token.isConnective .not then { levels with waiting := levels.waiting + 1 } else levels
  | .openParen =>
    let brought := levels.waiting + 1
    ⟨levels.depth + brought, 0, brought :: levels.groups⟩
  | .closeParen =>
    match levels.groups with
    | [] => levels
    | brought :: groups => { levels with depth := levels.depth - brought, groups := groups }
  | .property => { levels with waiting := 0 }
  | _ => levels

def reached? (levels : Levels) (token : Token) : Option Nat :=
  match token.kind with
  | .logical =>
    if token.isConnective .not then some (levels.depth + (levels.waiting + 1)) else none
  | .openParen => some (levels.depth + (levels.waiting + 1))
  | _ => none

end Levels

def tooDeepFrom? (levels : Levels) (index : Nat) : List Token → Option (Nat × Token)
  | [] => none
  | token :: tokens =>
    if (levels.reached? token).any (nestingLimit < ·) then some (index, token)
    else tooDeepFrom? (levels.step token) (index + 1) tokens

def tooDeep? (tokens : List Token) : Option (Nat × Token) :=
  tooDeepFrom? .start 0 tokens

end RuleFilter.Validation

import RuleFilter.Decimal.Basic

/-!
# Shortest decimal digits

A finite binary64 number is written with the fewest decimal digits that round back to it, and among
those with the ones closest to it. The reals that round to a number form an interval around it. For
1, 2, … 17 digits, the two neighbours of the number on the grid of that many digits are tested; the
first grid with a neighbour in the interval gives the digits.
-/

namespace RuleFilter.Decimal

inductive Tie where
  | up
  | even
  deriving DecidableEq, Repr

structure Scientific where
  digits : Nat
  exponent : Int
  deriving DecidableEq, Repr

def decimalLength (n : Nat) : Nat :=
  if n = 0 then 0 else decimalLength (n / 10) + 1

def pointPosition (num den : Nat) : Int :=
  if den ≤ num then decimalLength (num / den)
  else 1 - (decimalLength ((den - 1) / num) : Nat)

structure Interval where
  low : Nat
  value : Nat
  high : Nat
  closed : Bool

/-- The interval of reals that round to `mantissa * twoTo shift` steps. The gap below a power of two
is half of the gap above it. -/
def Interval.around (mantissa shift : Nat) : Interval :=
  let half := 2 * twoTo shift
  let value := 4 * (mantissa * twoTo shift)
  { low := value - (if mantissa == hiddenBit && 0 < shift then twoTo shift else half)
    value := value
    high := value + half
    closed := mantissa % 2 == 0 }

def Interval.holds (interval : Interval) (digits up down : Nat) : Bool :=
  let point := digits * up * (4 * one)
  let low := interval.low * down
  let high := interval.high * down
  if interval.closed then low ≤ point && point ≤ high else low < point && point < high

def Interval.onGrid? (tie : Tie) (interval : Interval) (exponent : Int) : Option Nat :=
  let up := tenTo exponent.toNat
  let down := tenTo (-exponent).toNat
  let unit := up * (4 * one)
  let below := interval.value * down / unit
  let twice := 2 * (interval.value * down % unit)
  match interval.holds below up down, interval.holds (below + 1) up down with
  | true, true =>
    if twice < unit then some below
    else if unit < twice then some (below + 1)
    else match tie with
      | .up => some (below + 1)
      | .even => some (if below % 2 == 0 then below else below + 1)
  | true, false => some below
  | false, true => some (below + 1)
  | false, false => none

def Interval.search (tie : Tie) (interval : Interval) (exponent : Int) : (grids : Nat) → Scientific
  | 0 => ⟨(interval.onGrid? tie exponent).getD 0, exponent⟩
  | grids + 1 =>
    match interval.onGrid? tie exponent with
    | some digits => ⟨digits, exponent⟩
    | none => interval.search tie (exponent - 1) grids

def Scientific.normal (s : Scientific) : Scientific :=
  if h : s.digits ≠ 0 ∧ s.digits % 10 = 0 then
    Scientific.normal ⟨s.digits / 10, s.exponent + 1⟩
  else s
termination_by s.digits
decreasing_by exact Nat.div_lt_self (Nat.pos_of_ne_zero h.1) (by decide)

def shortest (tie : Tie) (mantissa shift : Nat) : Scientific :=
  let interval := Interval.around mantissa shift
  let first := pointPosition (mantissa * twoTo shift) one - 1
  (interval.search tie first 16).normal

end RuleFilter.Decimal

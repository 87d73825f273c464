import RuleFilter.Power

/-!
# Binary64 numbers

The numbers of a rule that are not integers are binary64 numbers, kept here as what they denote. A
finite number is a whole count of smallest steps, a step being 2⁻¹⁰⁷⁴, and the count is
`mantissa * twoTo shift`. Comparison and conversion are therefore exact integer arithmetic.
-/

namespace RuleFilter

/-- A binary64 number. The finite ones have a mantissa of at most 53 bits and a shift of at most
2045, and either no shift or a mantissa of 53 bits, so that each has one form; zero carries a
sign. -/
inductive Decimal where
  | finite (negative : Bool) (mantissa shift : Nat)
  | infinite (negative : Bool)
  | nan
  deriving DecidableEq, Repr

namespace Decimal

def one : Nat := twoTo 1074

def beyond : Nat := twoTo 2098

def hiddenBit : Nat := 0x10000000000000

def largestShift : Nat := 2045

def zero : Decimal := .finite false 0 0

def isFinite : Decimal → Bool
  | .finite .. => true
  | _ => false

/-- The place of a number on the line of smallest steps; only a NaN has none. Both zeros have
the same place. -/
def position? : Decimal → Option Int
  | .finite negative mantissa shift =>
    let steps : Nat := mantissa * twoTo shift
    some (if negative then -(steps : Int) else steps)
  | .infinite negative => some (if negative then -(beyond : Int) else beyond)
  | .nan => none

def compare? (a b : Decimal) : Option Ordering :=
  match a.position?, b.position? with
  | some x, some y => some (compare x y)
  | _, _ => none

def toInt? : Decimal → Option Int
  | .finite negative mantissa shift =>
    let steps := mantissa * twoTo shift
    if steps % one == 0 then
      some (if negative then -((steps / one : Nat) : Int) else (steps / one : Nat))
    else none
  | _ => none

theorem compare?_eq_none_iff {a b : Decimal} :
    a.compare? b = none ↔ a.position? = none ∨ b.position? = none := by
  unfold compare?
  cases a.position? <;> cases b.position? <;> simp

theorem position?_eq_none_iff {a : Decimal} : a.position? = none ↔ a = .nan := by
  cases a with
  | nan => exact ⟨fun _ => rfl, fun _ => rfl⟩
  | finite negative mantissa shift => exact ⟨nofun, nofun⟩
  | infinite negative => exact ⟨nofun, nofun⟩

end Decimal
end RuleFilter

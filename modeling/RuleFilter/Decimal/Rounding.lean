import RuleFilter.Decimal.Basic

namespace RuleFilter.Decimal

def carry (mantissa shift : Nat) : Nat × Nat :=
  if mantissa == 2 * hiddenBit then (hiddenBit, shift + 1) else (mantissa, shift)

def roundQuotient (num den : Nat) : Nat :=
  let below := num / den
  let twice := 2 * (num % den)
  if den < twice || (twice == den && below % 2 == 1) then below + 1 else below

def nearest (negative : Bool) (num den : Nat) : Decimal :=
  let steps := num * one
  let shift := (steps / den).log2 + 1 - 53
  match carry (roundQuotient steps (den * twoTo shift)) shift with
  | (mantissa, shift) =>
    if largestShift < shift then .infinite negative else .finite negative mantissa shift

def ofInt (n : Int) : Decimal :=
  nearest (n < 0) n.natAbs 1

end RuleFilter.Decimal

import RuleFilter.Time.Calendar

namespace RuleFilter.Time

structure Instant where
  seconds : Int
  /-- Below 10⁹, and below 2·10⁹ in a leap second. -/
  nanos : Nat
  deriving DecidableEq, Repr

def padded (width n : Nat) : String :=
  let digits := toString n
  String.ofList (List.replicate (width - digits.length) '0') ++ digits

def yearText (year : Int) : String :=
  if 0 ≤ year && year ≤ 9999 then padded 4 year.natAbs
  else (if year < 0 then "-" else "+") ++ padded 4 year.natAbs

def fractionText (nanos : Nat) : String :=
  if nanos == 0 then ""
  else if nanos % 1000000 == 0 then "." ++ padded 3 (nanos / 1000000)
  else if nanos % 1000 == 0 then "." ++ padded 6 (nanos / 1000)
  else "." ++ padded 9 nanos

namespace Instant

def billion : Nat := 1000000000

def compare (a b : Instant) : Ordering :=
  (Ord.compare a.seconds b.seconds).then (Ord.compare a.nanos b.nanos)

def ofFields? (date : Date) (hour minute second nanos : Nat) : Option Instant :=
  if date.isValid && hour ≤ 23 && minute ≤ 59 && second ≤ 60 then
    let start := date.dayNumber * 86400 + (hour * 3600 + minute * 60 : Nat)
    if second == 60 then some ⟨start + 59, nanos + billion⟩ else some ⟨start + second, nanos⟩
  else none

def toText (zone : String) (instant : Instant) : String :=
  let date := Date.ofDayNumber (instant.seconds / 86400)
  let time := (instant.seconds % 86400).toNat
  let leap := if billion ≤ instant.nanos then 1 else 0
  yearText date.year ++ "-" ++ padded 2 date.month ++ "-" ++ padded 2 date.day ++ "T" ++
    padded 2 (time / 3600) ++ ":" ++ padded 2 (time / 60 % 60) ++ ":" ++
    padded 2 (time % 60 + leap) ++ fractionText (instant.nanos % billion) ++ zone

def offsetZone : String := "+00:00"

def letterZone : String := "Z"

end Instant
end RuleFilter.Time

import RuleFilter.Decimal.Rounding
import RuleFilter.Decimal.Shortest

namespace RuleFilter.Decimal

structure Style where
  tie : Tie
  wholePoint : Bool
  positional : Option (Int × Int)

def Style.plain : Style := ⟨.up, false, none⟩

def Style.document : Style := ⟨.even, true, some (-5, 15)⟩

def digitChars (n : Nat) : List Char :=
  Nat.toDigits 10 n

def positionalChars (style : Style) (digits : List Char) (exponent : Int) : List Char :=
  if 0 ≤ exponent then
    digits ++ List.replicate exponent.toNat '0' ++ (if style.wholePoint then ['.', '0'] else [])
  else
    let places := (-exponent).toNat
    if places < digits.length then
      digits.take (digits.length - places) ++ '.' :: digits.drop (digits.length - places)
    else
      '0' :: '.' :: (List.replicate (places - digits.length) '0' ++ digits)

def exponentChars (digits : List Char) (power : Int) : List Char :=
  let exponent := 'e' :: (if power < 0 then '-' else '+') :: digitChars power.natAbs
  match digits with
  | [] => exponent
  | [d] => d :: exponent
  | d :: ds => d :: '.' :: ds ++ exponent

def layout (style : Style) (s : Scientific) : List Char :=
  let digits := digitChars s.digits
  let power := s.exponent + digits.length - 1
  match style.positional with
  | none => positionalChars style digits s.exponent
  | some (lowest, highest) =>
    if lowest ≤ power && power ≤ highest then positionalChars style digits s.exponent
    else exponentChars digits power

def toText (style : Style) : Decimal → String
  | .nan => "NaN"
  | .infinite negative => if negative then "-inf" else "inf"
  | .finite negative mantissa shift =>
    let digits :=
      if mantissa = 0 then layout style ⟨0, 0⟩
      else layout style (shortest style.tie mantissa shift)
    String.ofList (if negative then '-' :: digits else digits)

/-! ## Reading -/

def appendDigit (n : Nat) (c : Char) : Nat :=
  10 * n + (c.toNat - '0'.toNat)

def blockScale : Nat := tenTo 100

/-- The number that digits denote behind those of `total` and those of `block`, where `scale` is the
power of ten for the digits in the block. Digits are added to `total` a block at a time, which keeps
long numbers cheap. -/
def gather (total block scale : Nat) : List Char → Nat
  | [] => total * scale + block
  | c :: cs =>
    if blockScale ≤ scale then gather (total * scale + block) (appendDigit 0 c) 10 cs
    else gather total (appendDigit block c) (10 * scale) cs

def digitsValue (cs : List Char) : Nat :=
  gather 0 0 1 cs

theorem gather_eq_foldl (total block scale : Nat) (cs : List Char) :
    gather total block scale cs = cs.foldl appendDigit (total * scale + block) := by
  induction cs generalizing total block scale with
  | nil => rfl
  | cons c cs ih =>
    have shifted : total * (10 * scale) = 10 * (total * scale) := Nat.mul_left_comm total 10 scale
    rw [List.foldl_cons, gather]
    split
    · rw [ih]
      congr 1
      simp only [appendDigit]
      omega
    · rw [ih]
      congr 1
      simp only [appendDigit]
      omega

theorem digitsValue_eq_foldl (cs : List Char) : digitsValue cs = cs.foldl appendDigit 0 := by
  rw [digitsValue, gather_eq_foldl, Nat.zero_mul, Nat.zero_add]

def ofDigits (negative : Bool) (digits : List Char) (exponent : Int) : Decimal :=
  let significant := digits.dropWhile (· == '0')
  let size := (significant.length : Int) + exponent
  if significant.isEmpty || size < -330 then .finite negative 0 0
  else if 310 < size then .infinite negative
  else
    let digits := digitsValue significant
    nearest negative (digits * tenTo exponent.toNat) (tenTo (-exponent).toNat)

def splitSign : List Char → Bool × List Char
  | '-' :: cs => (true, cs)
  | '+' :: cs => (false, cs)
  | cs => (false, cs)

def exponentCap : Nat := 0x10000

def cappedValue (cs : List Char) : Nat :=
  cs.foldl (fun n c => if n < exponentCap then appendDigit n c else n) 0

def exponentOf? (magnitude : List Char → Nat) : List Char → Option Int
  | [] => some 0
  | e :: cs =>
    let (negative, digits) := splitSign cs
    if (e == 'e' || e == 'E') && !digits.isEmpty && digits.all Char.isDigit then
      some (if negative then -(magnitude digits : Int) else magnitude digits)
    else none

def unsigned? (magnitude : List Char → Nat) (negative : Bool) (cs : List Char) : Option Decimal :=
  let whole := cs.takeWhile Char.isDigit
  let rest := cs.dropWhile Char.isDigit
  let (fraction, rest) := match rest with
    | '.' :: rest => (rest.takeWhile Char.isDigit, rest.dropWhile Char.isDigit)
    | _ => ([], rest)
  if whole.isEmpty && fraction.isEmpty then none
  else (exponentOf? magnitude rest).map fun exponent =>
    ofDigits negative (whole ++ fraction) (exponent - fraction.length)

def ofText? (text : String) : Option Decimal :=
  let (negative, cs) := splitSign text.toList
  let word := cs.map Char.toLower
  if word == ['i', 'n', 'f'] || word == ['i', 'n', 'f', 'i', 'n', 'i', 't', 'y'] then
    some (.infinite negative)
  else if word == ['n', 'a', 'n'] then some .nan
  else unsigned? cappedValue negative cs

end RuleFilter.Decimal

import RuleFilter.Decimal.Notation
import RuleFilter.Json.Basic
import RuleFilter.Text.Hex

/-!
# Reading JSON

The grammar of RFC 8259. The fields of an object are put in the order of their keys, and of two
fields with one key the later one counts. A number beyond the range of binary64 is refused, and so
is half of a surrogate pair.

Every step gives the characters that are left. The recursion is bounded by a count that starts at
the number of characters, since each step takes one at least.
-/

namespace RuleFilter.Json

def skipBlanks (cs : List Char) : List Char :=
  cs.dropWhile fun c => c == ' ' || c == '\t' || c == '\n' || c == '\r'

def unitChar? (unit : Nat) (cs : List Char) : Option (Char × List Char) :=
  if 0xD800 ≤ unit && unit < 0xDC00 then
    match cs with
    | '\\' :: 'u' :: cs => do
      let (low, cs) ← Text.hexNumber? 4 0 cs
      if 0xDC00 ≤ low && low < 0xE000 then
        some (Char.ofNat (0x10000 + (unit - 0xD800) * 0x400 + (low - 0xDC00)), cs)
      else none
    | _ => none
  else if 0xDC00 ≤ unit && unit < 0xE000 then none
  else some (Char.ofNat unit, cs)

def escaped? : List Char → Option (Char × List Char)
  | [] => none
  | 'n' :: cs => some ('\n', cs)
  | 't' :: cs => some ('\t', cs)
  | 'r' :: cs => some ('\r', cs)
  | 'b' :: cs => some ('\x08', cs)
  | 'f' :: cs => some ('\x0c', cs)
  | 'u' :: cs => do
    let (unit, cs) ← Text.hexNumber? 4 0 cs
    unitChar? unit cs
  | c :: cs => if c == '\x22' || c == '\\' || c == '/' then some (c, cs) else none

def string? : (bound : Nat) → (taken cs : List Char) → Option (String × List Char)
  | 0, _, _ => none
  | _ + 1, _, [] => none
  | bound + 1, taken, c :: cs =>
    if c == '\x22' then some (String.ofList taken.reverse, cs)
    else if c == '\\' then
      match escaped? cs with
      | some (c, cs) => string? bound (c :: taken) cs
      | none => none
    else if c.toNat < 0x20 then none
    else string? bound (c :: taken) cs

def splitDigits (cs : List Char) : List Char × List Char :=
  (cs.takeWhile Char.isDigit, cs.dropWhile Char.isDigit)

def splitFraction? : List Char → Option (List Char × List Char)
  | '.' :: cs =>
    let (digits, rest) := splitDigits cs
    if digits.isEmpty then none else some ('.' :: digits, rest)
  | cs => some ([], cs)

def splitExponent? : List Char → Option (List Char × List Char)
  | [] => some ([], [])
  | e :: cs =>
    if e == 'e' || e == 'E' then
      let (sign, cs) := match cs with
        | '-' :: cs => (['-'], cs)
        | '+' :: cs => (['+'], cs)
        | _ => ([], cs)
      let (digits, rest) := splitDigits cs
      if digits.isEmpty then none else some (e :: sign ++ digits, rest)
    else some ([], e :: cs)

def integer? (negative : Bool) (digits : List Char) : Option Json :=
  let magnitude := Decimal.digitsValue digits
  if negative && magnitude != 0 && magnitude ≤ 0x8000000000000000 then
    some (.int (-(magnitude : Int)))
  else if !negative && magnitude ≤ 0xFFFFFFFFFFFFFFFF then some (.int magnitude)
  else
    let x := Decimal.ofDigits negative digits 0
    if x.isFinite then some (.float x) else none

def number? (cs : List Char) : Option (Json × List Char) := do
  let (negative, cs) := match cs with
    | '-' :: cs => (true, cs)
    | _ => (false, cs)
  let (digits, cs) := splitDigits cs
  if digits.isEmpty || (digits.head? == some '0' && digits.length != 1) then none
  else
    let (fraction, cs) ← splitFraction? cs
    let (exponent, cs) ← splitExponent? cs
    if fraction.isEmpty && exponent.isEmpty then
      (integer? negative digits).map (·, cs)
    else
      let x ← Decimal.unsigned? Decimal.digitsValue negative (digits ++ fraction ++ exponent)
      if x.isFinite then some (.float x, cs) else none

def word? : (word cs : List Char) → Option (List Char)
  | [], cs => some cs
  | _ :: _, [] => none
  | w :: ws, c :: cs => if w == c then word? ws cs else none

mutual

def value? : (bound : Nat) → List Char → Option (Json × List Char)
  | 0, _ => none
  | bound + 1, cs =>
    match skipBlanks cs with
    | '{' :: cs =>
      match skipBlanks cs with
      | '}' :: cs => some (.object [], cs)
      | cs => fields? bound [] cs
    | '[' :: cs =>
      match skipBlanks cs with
      | ']' :: cs => some (.array [], cs)
      | cs => items? bound [] cs
    | '\x22' :: cs => (string? (bound + 1) [] cs).map fun (s, cs) => (.text s, cs)
    | 't' :: cs => (word? ['r', 'u', 'e'] cs).map (Json.bool true, ·)
    | 'f' :: cs => (word? ['a', 'l', 's', 'e'] cs).map (Json.bool false, ·)
    | 'n' :: cs => (word? ['u', 'l', 'l'] cs).map (Json.null, ·)
    | cs => number? cs

def items? : (bound : Nat) → (items : List Json) → List Char → Option (Json × List Char)
  | 0, _, _ => none
  | bound + 1, items, cs =>
    match value? bound cs with
    | none => none
    | some (item, cs) =>
      match skipBlanks cs with
      | ',' :: cs => items? bound (item :: items) cs
      | ']' :: cs => some (.array (item :: items).reverse, cs)
      | _ => none

def fields? : (bound : Nat) → (fields : List (String × Json)) → List Char →
    Option (Json × List Char)
  | 0, _, _ => none
  | bound + 1, fields, cs =>
    match skipBlanks cs with
    | '\x22' :: cs =>
      match string? (bound + 1) [] cs with
      | none => none
      | some (key, cs) =>
        match skipBlanks cs with
        | ':' :: cs =>
          match value? bound cs with
          | none => none
          | some (value, cs) =>
            match skipBlanks cs with
            | ',' :: cs => fields? bound (insertField key value fields) cs
            | '}' :: cs => some (.object (insertField key value fields), cs)
            | _ => none
        | _ => none
    | _ => none

end

def parse? (text : String) : Option Json :=
  let cs := text.toList
  match value? (cs.length + 1) cs with
  | some (json, rest) => if (skipBlanks rest).isEmpty then some json else none
  | none => none

end RuleFilter.Json

import RuleFilter.Power
import RuleFilter.Text.Blank
import RuleFilter.Text.Count
import RuleFilter.Time.Instant

/-!
# Reading instants

Four forms are read, tried in this order: an RFC 3339 time with an offset, `YYYY-MM-DD HH:MM:SS`,
`YYYY-MM-DDTHH:MM:SS` and `YYYY-MM-DD`, the last three in universal time. RFC 3339 has fields of a
fixed number of digits; the other forms allow blanks in front of a field, fewer digits, and a year
with a sign and any number of digits. Nothing may follow.
-/

namespace RuleFilter.Time

def largestField : Nat := 0x7FFFFFFFFFFFFFFF

def digits? (least most : Nat) (cs : List Char) : Option (Nat × List Char) :=
  let digits := (cs.take most).takeWhile Char.isDigit
  if digits.length < least then none
  else (Text.countFrom largestField 0 digits).toOption.map (·, cs.drop digits.length)

def oneOf? (choices : List Char) : List Char → Option (List Char)
  | [] => none
  | c :: cs => if choices.contains c then some cs else none

/-! ## RFC 3339 -/

def fraction? (cs : List Char) : Option (Nat × List Char) := do
  let digits := cs.takeWhile Char.isDigit
  if digits.isEmpty then none
  else
    let (value, _) ← digits? 1 9 digits
    some (value * tenTo (9 - min 9 digits.length), cs.drop digits.length)

def offset? : List Char → Option (Int × List Char)
  | [] => none
  | sign :: cs =>
    if sign == 'Z' || sign == 'z' then some (0, cs)
    else if sign == '+' || sign == '-' || sign == '\u2212' then do
      let (hours, cs) ← digits? 2 2 cs
      let cs ← oneOf? [':'] cs
      let (minutes, cs) ← digits? 2 2 cs
      if 23 < hours || 59 < minutes then none
      else
        let seconds : Int := (hours * 3600 + minutes * 60 : Nat)
        some (if sign == '+' then seconds else -seconds, cs)
    else none

def internetTime? (cs : List Char) : Option Instant := do
  let (year, cs) ← digits? 4 4 cs
  let cs ← oneOf? ['-'] cs
  let (month, cs) ← digits? 2 2 cs
  let cs ← oneOf? ['-'] cs
  let (day, cs) ← digits? 2 2 cs
  let cs ← oneOf? ['T', 't', ' '] cs
  let (hour, cs) ← digits? 2 2 cs
  let cs ← oneOf? [':'] cs
  let (minute, cs) ← digits? 2 2 cs
  let cs ← oneOf? [':'] cs
  let (second, cs) ← digits? 2 2 cs
  let (nanos, cs) ← match cs with
    | '.' :: cs => fraction? cs
    | _ => some (0, cs)
  let (offset, cs) ← offset? cs
  if cs.isEmpty then
    let instant ← Instant.ofFields? ⟨year, month, day⟩ hour minute second nanos
    some { instant with seconds := instant.seconds - offset }
  else none

/-! ## Looser forms -/

def field? (most : Nat) (cs : List Char) : Option (Nat × List Char) :=
  digits? 1 most (Text.trimStart cs)

def year? (cs : List Char) : Option (Int × List Char) :=
  match Text.trimStart cs with
  | '-' :: cs => (digits? 1 cs.length cs).map fun (year, rest) => (-(year : Int), rest)
  | '+' :: cs => (digits? 1 cs.length cs).map fun (year, rest) => ((year : Int), rest)
  | cs => (digits? 1 4 cs).map fun (year, rest) => ((year : Int), rest)

def date? (cs : List Char) : Option (Date × List Char) := do
  let (year, cs) ← year? cs
  let cs ← oneOf? ['-'] cs
  let (month, cs) ← field? 2 cs
  let cs ← oneOf? ['-'] cs
  let (day, cs) ← field? 2 cs
  some (⟨year, month, day⟩, cs)

def dateTime? (separate : List Char → Option (List Char)) (cs : List Char) : Option Instant := do
  let (date, cs) ← date? cs
  let cs ← separate cs
  let (hour, cs) ← field? 2 cs
  let cs ← oneOf? [':'] cs
  let (minute, cs) ← field? 2 cs
  let cs ← oneOf? [':'] cs
  let (second, cs) ← field? 2 cs
  if cs.isEmpty then Instant.ofFields? date hour minute second 0 else none

def midnight? (cs : List Char) : Option Instant := do
  let (date, cs) ← date? cs
  if cs.isEmpty then Instant.ofFields? date 0 0 0 0 else none

def Instant.ofText? (text : String) : Option Instant :=
  let cs := text.toList
  internetTime? cs
    <|> dateTime? (some ∘ Text.trimStart) cs
    <|> dateTime? (oneOf? ['T']) cs
    <|> midnight? cs

end RuleFilter.Time

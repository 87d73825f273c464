import RuleFilter.Settings.Basic
import RuleFilter.Text.Hex

/-!
# Settings from a document

A document gives settings in TOML, as lines `key = value`. Every key must be that of a setting and
be given once, and its value must be a count or a truth value as the setting demands. Blank lines
and comments may stand anywhere. A table or a value of any other kind is no setting, so a document
that holds one is refused.

Each step of reading gives the characters that are left.
-/

namespace RuleFilter.Settings

inductive DocumentError where
  | unreadable
  | invalid (error : SettingsError)
  deriving DecidableEq, Repr

inductive Entry where
  | count (n : Nat)
  | switch (b : Bool)
  deriving DecidableEq, Repr

/-! ## Blanks and comments -/

def skipBlanks (cs : List Char) : List Char :=
  cs.dropWhile fun c => c == ' ' || c == '\t'

def isCommentChar (c : Char) : Bool :=
  c == '\t' || (0x20 ≤ c.toNat && c.toNat != 0x7F)

def endLine? (cs : List Char) : Option (List Char) :=
  let cs := match skipBlanks cs with
    | '#' :: cs => cs.dropWhile isCommentChar
    | cs => cs
  match cs with
  | [] => some []
  | '\n' :: cs => some cs
  | '\r' :: '\n' :: cs => some cs
  | _ => none

/-! ## Keys -/

def isKeyChar (c : Char) : Bool :=
  c.isAlphanum || c == '_' || c == '-'

def quotedKey? : (bound : Nat) → (taken cs : List Char) → Option (List Char × List Char)
  | 0, _, _ => none
  | bound + 1, taken, cs =>
    match cs with
    | [] => none
    | '\x22' :: cs => some (taken.reverse, cs)
    | '\\' :: 'u' :: cs =>
      match Text.hexNumber? 4 0 cs with
      | some (n, cs) => quotedKey? bound (Char.ofNat n :: taken) cs
      | none => none
    | '\\' :: 'U' :: cs =>
      match Text.hexNumber? 8 0 cs with
      | some (n, cs) => quotedKey? bound (Char.ofNat n :: taken) cs
      | none => none
    | '\\' :: _ => none
    | c :: cs => quotedKey? bound (c :: taken) cs

def key? (cs : List Char) : Option (String × List Char) :=
  match cs with
  | '\x22' :: cs => (quotedKey? (cs.length + 1) [] cs).map fun (key, cs) => (String.ofList key, cs)
  | '\x27' :: cs =>
    match cs.dropWhile (· != '\x27') with
    | [] => none
    | _ :: rest => some (String.ofList (cs.takeWhile (· != '\x27')), rest)
  | cs => some (String.ofList (cs.takeWhile isKeyChar), cs.dropWhile isKeyChar)

/-! ## Values -/

def numberFrom (base n : Nat) : List Char → Nat × List Char
  | [] => (n, [])
  | c :: cs =>
    match (Text.hexDigit? c).filter (· < base) with
    | some digit => numberFrom base (base * n + digit) cs
    | none =>
      if c == '_' then
        match cs with
        | d :: ds =>
          match (Text.hexDigit? d).filter (· < base) with
          | some digit => numberFrom base (base * n + digit) ds
          | none => (n, c :: cs)
        | [] => (n, c :: cs)
      else (n, c :: cs)

def number? (base : Nat) : List Char → Option (Nat × List Char)
  | [] => none
  | c :: cs =>
    ((Text.hexDigit? c).filter (· < base)).map fun digit => numberFrom base digit cs

def decimal? : List Char → Option (Nat × List Char)
  | '0' :: cs => some (0, cs)
  | cs => number? 10 cs

def integer? : List Char → Option (Int × List Char)
  | '0' :: 'x' :: cs => (number? 16 cs).map fun (n, cs) => (n, cs)
  | '0' :: 'o' :: cs => (number? 8 cs).map fun (n, cs) => (n, cs)
  | '0' :: 'b' :: cs => (number? 2 cs).map fun (n, cs) => (n, cs)
  | '-' :: cs => (decimal? cs).map fun (n, cs) => (-(n : Int), cs)
  | '+' :: cs => (decimal? cs).map fun (n, cs) => (n, cs)
  | cs => (decimal? cs).map fun (n, cs) => (n, cs)

def entry? : List Char → Option (Entry × List Char)
  | 't' :: 'r' :: 'u' :: 'e' :: cs => some (.switch true, cs)
  | 'f' :: 'a' :: 'l' :: 's' :: 'e' :: cs => some (.switch false, cs)
  | cs => (integer? cs).bind fun (n, cs) =>
    if 0 ≤ n && n ≤ 0x7FFFFFFFFFFFFFFF then some (.count n.toNat, cs) else none

/-! ## Documents -/

def assign? (settings : Settings) : (key : String) → Entry → Option Settings
  | "cache_capacity", .count n => some { settings with cacheCapacity := n }
  | "permissive_values", .switch b => some { settings with permissiveValues := b }
  | "allow_empty_expression", .switch b => some { settings with allowEmpty := b }
  | "indent_width", .count n => some { settings with indentWidth := n }
  | _, _ => none

def line? (cs : List Char) : Option ((String × Entry) × List Char) := do
  let (key, cs) ← key? cs
  match skipBlanks cs with
  | '=' :: cs =>
    let (entry, cs) ← entry? (skipBlanks cs)
    let cs ← endLine? cs
    some ((key, entry), cs)
  | _ => none

/-- The settings of a document whose lines before gave the keys `given`. Each line takes a character
at least, which bounds their number. -/
def linesFrom? : (bound : Nat) → (given : List String) → Settings → List Char → Option Settings
  | 0, _, _, _ => none
  | bound + 1, given, settings, cs =>
    match skipBlanks cs with
    | [] => some settings
    | cs =>
      match endLine? cs with
      | some cs => linesFrom? bound given settings cs
      | none =>
        match line? cs with
        | none => none
        | some ((key, entry), cs) =>
          if given.contains key then none
          else
            match assign? settings key entry with
            | some settings => linesFrom? bound (key :: given) settings cs
            | none => none

def ofDocument (text : String) : Except DocumentError Settings :=
  let cs := match text.toList with
    | '\ufeff' :: cs => cs
    | cs => cs
  match linesFrom? (cs.length + 1) [] {} cs with
  | none => .error .unreadable
  | some settings =>
    match settings.fault? with
    | some error => .error (.invalid error)
    | none => .ok settings

end RuleFilter.Settings

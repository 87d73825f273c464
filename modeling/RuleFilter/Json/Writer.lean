import RuleFilter.Decimal.Notation
import RuleFilter.Json.Basic
import RuleFilter.Text.Hex

namespace RuleFilter.Json

def escape (c : Char) : List Char :=
  if c == '\x22' || c == '\\' then ['\\', c]
  else if c == '\n' then ['\\', 'n']
  else if c == '\t' then ['\\', 't']
  else if c == '\r' then ['\\', 'r']
  else if c == '\x08' then ['\\', 'b']
  else if c == '\x0c' then ['\\', 'f']
  else if c.toNat < 0x20 then
    '\\' :: 'u' :: '0' :: '0' :: Text.hexChars c.toUInt8
  else [c]

def quote (s : String) : String :=
  let body := s.toList.foldl (fun out c => (escape c).foldl String.push out) ""
  "\x22" ++ body ++ "\x22"

def floatText (x : Decimal) : String :=
  if x.isFinite then x.toText .document else "null"

mutual

def compactOnto (out : String) : Json → String
  | .null => out ++ "null"
  | .bool b => out ++ (if b then "true" else "false")
  | .int n => out ++ toString n
  | .float x => out ++ floatText x
  | .text s => out ++ quote s
  | .array items => compactItems (out ++ "[") true items
  | .object fields => compactFields (out ++ "\x7b") true fields

def compactItems (out : String) (first : Bool) : List Json → String
  | [] => out ++ "]"
  | item :: items =>
    compactItems (compactOnto (if first then out else out ++ ",") item) false items

def compactFields (out : String) (first : Bool) : List (String × Json) → String
  | [] => out ++ "\x7d"
  | (key, value) :: fields =>
    let out := if first then out else out ++ ","
    compactFields (compactOnto (out ++ quote key ++ ":") value) false fields

end

def compact (json : Json) : String :=
  compactOnto "" json

def newline (level : Nat) : String :=
  "\n" ++ String.ofList (List.replicate (2 * level) ' ')

mutual

def indentedOnto (level : Nat) (out : String) : Json → String
  | .array [] => out ++ "[]"
  | .object [] => out ++ "\x7b\x7d"
  | .array items => indentedItems level (out ++ "[") true items
  | .object fields => indentedFields level (out ++ "\x7b") true fields
  | json => compactOnto out json

def indentedItems (level : Nat) (out : String) (first : Bool) : List Json → String
  | [] => out ++ newline (level - 1) ++ "]"
  | item :: items =>
    let out := (if first then out else out ++ ",") ++ newline level
    indentedItems level (indentedOnto (level + 1) out item) false items

def indentedFields (level : Nat) (out : String) (first : Bool) : List (String × Json) → String
  | [] => out ++ newline (level - 1) ++ "\x7d"
  | (key, value) :: fields =>
    let out := (if first then out else out ++ ",") ++ newline level ++ quote key ++ ": "
    indentedFields level (indentedOnto (level + 1) out value) false fields

end

def indented (json : Json) : String :=
  indentedOnto 1 "" json

end RuleFilter.Json

namespace RuleFilter.Text

inductive CountError where
  | empty
  | invalidDigit
  | tooLarge
  deriving DecidableEq, Repr

def CountError.message : CountError → String
  | empty => "cannot parse integer from empty string"
  | invalidDigit => "invalid digit found in string"
  | tooLarge => "number too large to fit in target type"

def largestCount : Nat := 0xFFFFFFFFFFFFFFFF

def countFrom (limit n : Nat) : List Char → Except CountError Nat
  | [] => .ok n
  | c :: cs =>
    if c.isDigit then
      let n := 10 * n + (c.toNat - '0'.toNat)
      if n ≤ limit then countFrom limit n cs else .error .tooLarge
    else .error .invalidDigit

def count (text : String) : Except CountError Nat :=
  match text.toList with
  | [] => .error .empty
  | ['+'] => .error .invalidDigit
  | '+' :: cs => countFrom largestCount 0 cs
  | cs => countFrom largestCount 0 cs

end RuleFilter.Text

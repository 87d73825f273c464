namespace RuleFilter.Text

def byteLength (cs : List Char) : Nat :=
  cs.foldl (fun bytes c => bytes + c.utf8Size) 0

def takeBytesFrom? (taken : List Char) : Nat → List Char → Option (List Char)
  | 0, _ => some taken.reverse
  | _ + 1, [] => none
  | bytes + 1, c :: cs =>
    if c.utf8Size ≤ bytes + 1 then takeBytesFrom? (c :: taken) (bytes + 1 - c.utf8Size) cs else none

def takeBytes? (text : String) (bytes : Nat) : Option String :=
  (takeBytesFrom? [] bytes text.toList).map String.ofList

end RuleFilter.Text

namespace RuleFilter.Text

def foldCase (text : String) : List Char :=
  text.toList.map Char.toLower

def sameLetters (a b : String) : Bool :=
  foldCase a == foldCase b

def upperCase (text : String) : String :=
  String.ofList (text.toList.map Char.toUpper)

def dropLetters? : (head cs : List Char) → Option (List Char)
  | [], cs => some cs
  | _ :: _, [] => none
  | h :: hs, c :: cs => if h.toLower == c.toLower then dropLetters? hs cs else none

def startsWithLetters (text head : String) : Bool :=
  (dropLetters? head.toList text.toList).isSome

@[simp] theorem sameLetters_refl (text : String) : sameLetters text text = true := by
  simp [sameLetters]

theorem sameLetters_iff {a b : String} : sameLetters a b = true ↔ foldCase a = foldCase b := by
  simp [sameLetters]

theorem sameLetters_comm (a b : String) : sameLetters a b = sameLetters b a := by
  rw [Bool.eq_iff_iff, sameLetters_iff, sameLetters_iff, eq_comm]

theorem length_of_dropLetters? {spelling cs rest : List Char}
    (h : dropLetters? spelling cs = some rest) :
    spelling.length + rest.length = cs.length := by
  induction spelling generalizing cs with
  | nil => cases h; simp
  | cons letter spelling ih =>
    cases cs with
    | nil => simp [dropLetters?] at h
    | cons c cs =>
      simp only [dropLetters?] at h
      split at h
      · have := ih h
        simp only [List.length_cons]
        omega
      · cases h

end RuleFilter.Text

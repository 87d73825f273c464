import RuleFilter.Text.Blank
import RuleFilter.Text.Casing
import RuleFilter.Text.Quoted
import RuleFilter.Text.Word

namespace RuleFilter.Text

/-! ## Letter case -/

def upperPoints : List Nat :=
  List.range' 65 26

def lowerPoints : List Nat :=
  List.range' 97 26

theorem mem_upperPoints {c : Char} (changes : c.toLower ≠ c) : c.toNat ∈ upperPoints := by
  unfold Char.toLower at changes
  split at changes
  · next between => exact List.mem_range'_1.2 ⟨between.1, Nat.lt_succ_of_le between.2⟩
  · exact absurd rfl changes

theorem mem_lowerPoints {c : Char} (changes : c.toUpper ≠ c) : c.toNat ∈ lowerPoints := by
  unfold Char.toUpper at changes
  split at changes
  · next between => exact List.mem_range'_1.2 ⟨between.1, Nat.lt_succ_of_le between.2⟩
  · exact absurd rfl changes

theorem eq_toLower_of_letters {α : Type} (p : Char → α)
    (letters : ∀ n ∈ upperPoints, p (Char.ofNat n).toLower = p (Char.ofNat n)) (c : Char) :
    p c.toLower = p c := by
  by_cases changes : c.toLower = c
  · rw [changes]
  · have letter := letters c.toNat (mem_upperPoints changes)
    rwa [Char.ofNat_toNat] at letter

theorem eq_toUpper_of_letters {α : Type} (p : Char → α)
    (letters : ∀ n ∈ lowerPoints, p (Char.ofNat n).toUpper = p (Char.ofNat n)) (c : Char) :
    p c.toUpper = p c := by
  by_cases changes : c.toUpper = c
  · rw [changes]
  · have letter := letters c.toNat (mem_lowerPoints changes)
    rwa [Char.ofNat_toNat] at letter

@[simp] theorem toLower_toLower (c : Char) : c.toLower.toLower = c.toLower :=
  eq_toLower_of_letters Char.toLower (by decide) c

@[simp] theorem toLower_toUpper (c : Char) : c.toUpper.toLower = c.toLower :=
  eq_toUpper_of_letters Char.toLower (by decide) c

@[simp] theorem toUpper_toUpper (c : Char) : c.toUpper.toUpper = c.toUpper :=
  eq_toUpper_of_letters Char.toUpper (by decide) c

def folded (text : String) : String :=
  String.ofList (foldCase text)

@[simp] theorem foldCase_folded (text : String) : foldCase (folded text) = foldCase text := by
  simp [folded, foldCase, Function.comp_def]

theorem folded_inj {a b : String} : folded a = folded b ↔ foldCase a = foldCase b := by
  constructor
  · intro same
    rw [← foldCase_folded a, same, foldCase_folded]
  · intro same
    rw [folded, same, folded]

@[simp] theorem isDigit_toLower (c : Char) : c.toLower.isDigit = c.isDigit :=
  eq_toLower_of_letters Char.isDigit (by decide) c

@[simp] theorem isAlpha_toLower (c : Char) : c.toLower.isAlpha = c.isAlpha :=
  eq_toLower_of_letters Char.isAlpha (by decide) c

@[simp] theorem isWordChar_toLower (c : Char) : isWordChar c.toLower = isWordChar c :=
  eq_toLower_of_letters isWordChar (by decide) c

@[simp] theorem isNameChar_toLower (c : Char) : isNameChar c.toLower = isNameChar c :=
  eq_toLower_of_letters isNameChar (by decide) c

@[simp] theorem isBlank_toLower (c : Char) : isBlank c.toLower = isBlank c :=
  eq_toLower_of_letters isBlank (by decide) c

@[simp] theorem isQuote_toLower (c : Char) : isQuote c.toLower = isQuote c :=
  eq_toLower_of_letters isQuote (by decide) c

theorem isName_congr {a b : String} (same : foldCase a = foldCase b) : isName a = isName b := by
  have blind (text : String) : isName (String.ofList (foldCase text)) = isName text := by
    rw [isName, isName, String.toList_ofList, foldCase]
    cases text.toList with
    | nil => rfl
    | cons c cs => simp [List.all_map, Function.comp_def]
  rw [← blind a, same, blind]

theorem isQuote_iff {c : Char} : isQuote c = true ↔ c = singleQuote ∨ c = doubleQuote := by
  rw [isQuote, Bool.or_eq_true, beq_iff_eq, beq_iff_eq]

theorem toLower_of_isQuote {c : Char} (h : isQuote c = true) : c.toLower = c := by
  rcases isQuote_iff.1 h with rfl | rfl <;> decide

theorem toLower_eq_iff {c mark : Char} (other : mark.isAlpha = false) :
    c.toLower = mark ↔ c = mark := by
  by_cases changes : c.toLower = c
  · rw [changes]
  · have letters : ∀ n ∈ upperPoints, (Char.ofNat n).isAlpha = true := by decide
    have letter := letters c.toNat (mem_upperPoints changes)
    rw [Char.ofNat_toNat] at letter
    constructor
    · rintro rfl
      rw [isAlpha_toLower, letter] at other
      cases other
    · rintro rfl
      rw [letter] at other
      cases other

theorem toLower_ne {c mark : Char} (other : mark.isAlpha = false) (h : c ≠ mark) :
    c.toLower ≠ mark :=
  mt (toLower_eq_iff other).1 h

/-! ## Classes -/

theorem isAlpha_of_isDigit {c : Char} (h : c.isDigit = true) : c.isAlpha = false := by
  unfold Char.isAlpha Char.isUpper Char.isLower
  simp only [Char.isDigit, Bool.and_eq_true,
    decide_eq_true_eq, Bool.or_eq_false_iff, Bool.and_eq_false_iff, decide_eq_false_iff_not,
    UInt32.le_iff_toNat_le, ge_iff_le] at h ⊢
  simp only [Char.reduceVal, UInt32.reduceToNat] at h ⊢
  omega

theorem isWordChar_of_isAlphanum {c : Char} (h : c.isAlphanum = true) : isWordChar c = true := by
  have ascii : c.toNat < 0x80 := by
    unfold Char.isAlphanum Char.isAlpha Char.isUpper Char.isLower at h
    simp only [Char.isDigit, Bool.or_eq_true, Bool.and_eq_true, decide_eq_true_eq,
      UInt32.le_iff_toNat_le, ge_iff_le] at h
    simp only [Char.reduceVal, UInt32.reduceToNat] at h
    rw [Char.toNat]
    omega
  rw [isWordChar, if_pos ascii, h, Bool.true_or]

/-! ## Quotes -/

theorem closes_toLower (c : Char) (cs : List Char) :
    (isQuote c.toLower && (cs.map Char.toLower).getLast? == some c.toLower) =
      (isQuote c && cs.getLast? == some c) := by
  rw [isQuote_toLower]
  cases quote : isQuote c with
  | false => rfl
  | true =>
    have mark : c.isAlpha = false := by
      rcases isQuote_iff.1 quote with rfl | rfl <;> rfl
    rw [toLower_of_isQuote quote, List.getLast?_map, Bool.true_and, Bool.true_and,
      Bool.eq_iff_iff, beq_iff_eq, beq_iff_eq, Option.map_eq_some_iff]
    constructor
    · rintro ⟨d, last, same⟩
      rw [last, (toLower_eq_iff mark).1 same]
    · exact fun last => ⟨c, last, toLower_of_isQuote quote⟩

theorem toList_unquote {text : String} {c : Char} {cs : List Char}
    (begins : text.toList = c :: cs) : (unquote text).toList =
      if isQuote c && cs.getLast? == some c then cs.dropLast else c :: cs := by
  unfold unquote
  rw [begins]
  simp only
  split
  · exact String.toList_ofList
  · exact begins

theorem foldCase_unquote {a b : String} (same : foldCase a = foldCase b) :
    foldCase (unquote a) = foldCase (unquote b) := by
  cases begins : a.toList with
  | nil =>
    rw [foldCase, foldCase, begins, List.map_nil] at same
    have empty := List.map_eq_nil_iff.1 same.symm
    rw [String.toList_inj.1 (begins.trans empty.symm)]
  | cons c cs =>
    rw [foldCase, foldCase, begins, List.map_cons] at same
    obtain ⟨d, ds, begins', first, others⟩ := List.map_eq_cons_iff.1 same.symm
    rw [foldCase, foldCase, toList_unquote begins, toList_unquote begins', ← closes_toLower c,
      ← closes_toLower d, first, others]
    split
    · rw [List.map_dropLast, List.map_dropLast, others]
    · rw [List.map_cons, List.map_cons, first, others]

/-! ## Digits -/

theorem toLower_of_isDigit {c : Char} (h : c.isDigit = true) : c.toLower = c := by
  have letters : ∀ n ∈ upperPoints, (Char.ofNat n).isDigit = false := by decide
  refine Decidable.byContradiction fun changes => ?_
  have letter := letters c.toNat (mem_upperPoints changes)
  rw [Char.ofNat_toNat, h] at letter
  cases letter

theorem map_toLower_of_isDigit {cs : List Char} (h : ∀ c ∈ cs, c.isDigit = true) :
    cs.map Char.toLower = cs :=
  (List.map_congr_left fun c member => toLower_of_isDigit (h c member)).trans (List.map_id' cs)

@[simp] theorem takeWhile_isDigit_toLower (cs : List Char) :
    (cs.map Char.toLower).takeWhile Char.isDigit = cs.takeWhile Char.isDigit := by
  rw [List.takeWhile_map]
  simp only [Function.comp_def, isDigit_toLower]
  exact map_toLower_of_isDigit (List.all_eq_true.1 List.all_takeWhile)

@[simp] theorem dropWhile_isDigit_toLower (cs : List Char) :
    (cs.map Char.toLower).dropWhile Char.isDigit =
      (cs.dropWhile Char.isDigit).map Char.toLower := by
  rw [List.dropWhile_map]
  simp only [Function.comp_def, isDigit_toLower]

/-! ## Blanks -/

def blankPoints : List Nat :=
  [0x9, 0xA, 0xB, 0xC, 0xD, 0x20, 0x85, 0xA0, 0x1680, 0x2000, 0x2001, 0x2002, 0x2003, 0x2004,
    0x2005, 0x2006, 0x2007, 0x2008, 0x2009, 0x200A, 0x2028, 0x2029, 0x202F, 0x205F, 0x3000]

theorem mem_blankPoints {c : Char} (h : isBlank c = true) : c.toNat ∈ blankPoints := by
  simp only [isBlank, Bool.or_eq_true, Bool.and_eq_true, decide_eq_true_eq, beq_iff_eq,
    UInt32.le_iff_toNat_le, ← UInt32.toNat_inj, UInt32.reduceToNat] at h
  simp only [blankPoints, List.mem_cons, List.not_mem_nil, or_false, Char.toNat]
  omega

theorem forall_isBlank {p : Char → Prop} (blanks : ∀ n ∈ blankPoints, p (Char.ofNat n)) {c : Char}
    (h : isBlank c = true) : p c := by
  have blank := blanks c.toNat (mem_blankPoints h)
  rwa [Char.ofNat_toNat] at blank

theorem isWordChar_of_isBlank {c : Char} (h : isBlank c = true) : isWordChar c = false :=
  @forall_isBlank (isWordChar · = false) (by decide +kernel) c h

theorem isDigit_of_isBlank {c : Char} (h : isBlank c = true) : c.isDigit = false :=
  @forall_isBlank (Char.isDigit · = false) (by decide) c h

end RuleFilter.Text

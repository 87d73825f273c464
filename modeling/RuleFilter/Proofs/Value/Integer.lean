import Mathlib.Data.Nat.Digits.Defs
import RuleFilter.Proofs.Value.LetterCase
import RuleFilter.Value.Order

namespace RuleFilter

namespace Text

def magnitude (digits : List Char) : Nat :=
  Nat.ofDigits 10 (digits.reverse.map fun c => c.toNat - '0'.toNat)

def numeral (negative : Bool) (digits : List Char) : Int :=
  if negative then -(magnitude digits : Int) else magnitude digits

def integerText (negative : Bool) (digits : List Char) : String :=
  String.ofList (if negative then '-' :: digits else digits)

theorem magnitude_eq_foldl (digits : List Char) :
    magnitude digits = digits.foldl Decimal.appendDigit 0 := by
  rw [magnitude, Nat.ofDigits_eq_foldr, List.foldr_map, List.foldr_reverse]
  congr 1
  funext n c
  exact Nat.add_comm _ _

theorem le_foldl_appendDigit (n : Nat) (digits : List Char) :
    n ≤ digits.foldl Decimal.appendDigit n := by
  induction digits generalizing n with
  | nil => exact le_rfl
  | cons c digits ih =>
    have larger : n ≤ Decimal.appendDigit n c := by
      unfold Decimal.appendDigit
      omega
    exact larger.trans (ih _)

/-- Digits are counted up to the limit. They need not be read to the end to see that they exceed it,
since more digits never make a number smaller. -/
theorem countFrom_digits {limit n : Nat} (within : n ≤ limit) {digits : List Char}
    (is : ∀ c ∈ digits, c.isDigit = true) :
    countFrom limit n digits =
      if digits.foldl Decimal.appendDigit n ≤ limit
      then .ok (digits.foldl Decimal.appendDigit n) else .error .tooLarge := by
  induction digits generalizing n with
  | nil => exact (if_pos within).symm
  | cons c digits ih =>
    rw [List.forall_mem_cons] at is
    rw [countFrom, if_pos is.1]
    change (if Decimal.appendDigit n c ≤ limit
      then countFrom limit (Decimal.appendDigit n c) digits else .error .tooLarge) = _
    split
    · next within => exact ih within is.2
    · next exceeds =>
      -- The digits left are not read, since they make no number smaller.
      have larger := le_foldl_appendDigit (Decimal.appendDigit n c) digits
      exact (if_neg fun within => exceeds (larger.trans within)).symm

theorem exists_digit {digits : List Char} (is : isDigits digits = true) :
    ∃ c cs, digits = c :: cs ∧ c.isDigit = true := by
  cases digits with
  | nil => cases is
  | cons c cs =>
    simp only [isDigits, List.all_cons, Bool.and_eq_true] at is
    exact ⟨c, cs, rfl, is.2.1⟩

theorem ne_of_isDigit {c mark : Char} (digit : c.isDigit = true) (other : mark.isDigit = false) :
    c ≠ mark := by
  rintro rfl
  rw [digit] at other
  cases other

theorem unquote_integerText {negative : Bool} {digits : List Char} (is : isDigits digits = true) :
    unquote (integerText negative digits) = integerText negative digits := by
  obtain ⟨c, cs, rfl, digit⟩ := exists_digit is
  have unquoted : isQuote c = false := by
    have single : c ≠ singleQuote := ne_of_isDigit digit rfl
    have double : c ≠ doubleQuote := ne_of_isDigit digit rfl
    simp [isQuote, single, double]
  cases negative <;> simp [unquote, integerText, unquoted, show isQuote '-' = false by decide]

end Text

namespace Value

theorem fitsInteger_iff {n : Int} : fitsInteger n = true ↔ -2 ^ 63 ≤ n ∧ n ≤ 2 ^ 63 - 1 := by
  simp only [fitsInteger, Bool.and_eq_true, decide_eq_true_eq]
  simp only [integerRange]
  omega

theorem fitsInteger_numeral (negative : Bool) (digits : List Char) :
    fitsInteger (Text.numeral negative digits) = true ↔
      Text.magnitude digits ≤
        if negative then integerRange.1.natAbs else integerRange.2.natAbs := by
  rw [fitsInteger_iff]
  cases negative <;>
    simp only [Text.numeral, integerRange, if_true, if_false, Bool.false_eq_true] <;> omega

theorem integerOfText?_integerText {negative : Bool} {digits : List Char}
    (is : Text.isDigits digits = true) :
    integerOfText? (Text.integerText negative digits) =
      if fitsInteger (Text.numeral negative digits)
      then some (Text.numeral negative digits) else none := by
  have split :
      Decimal.splitSign (Text.integerText negative digits).toList = (negative, digits) := by
    obtain ⟨c, cs, rfl, digit⟩ := Text.exists_digit is
    have minus : c ≠ '-' := Text.ne_of_isDigit digit rfl
    have plus : c ≠ '+' := Text.ne_of_isDigit digit rfl
    cases negative
    · simpa [Text.integerText] using Decimal.splitSign_of_ne minus plus cs
    · simp [Text.integerText, Decimal.splitSign]
  simp only [Text.isDigits, Bool.and_eq_true, Bool.not_eq_true', List.all_eq_true] at is
  have counted (limit : Nat) := Text.countFrom_digits (Nat.zero_le limit) is.2
  simp only [← Text.magnitude_eq_foldl] at counted
  simp only [integerOfText?, split, is.1, Bool.false_eq_true, if_false, counted,
    fitsInteger_numeral]
  generalize (if negative then integerRange.1.natAbs else integerRange.2.natAbs) = limit
  by_cases within : Text.magnitude digits ≤ limit
  · rw [if_pos within, if_pos within]
    cases negative <;> rfl
  · rw [if_neg within, if_neg within]
    rfl

theorem ofLiteral?_integerText {negative : Bool} {digits : List Char}
    (is : Text.isDigits digits = true) :
    ofLiteral? (Text.integerText negative digits) .integer =
      if fitsInteger (Text.numeral negative digits)
      then some (integer (Text.numeral negative digits)) else none := by
  rw [ofLiteral?_eq, Text.unquote_integerText is, ofText?, integerOfText?_integerText is]
  split <;> rfl

end Value

def Comparator.Relates (op : Comparator) (m n : Int) : Prop :=
  match op with
  | eq => m = n
  | ne => m ≠ n
  | gt => n < m
  | lt => m < n
  | ge => n ≤ m
  | le => m ≤ n
  | contains | startsWith | endsWith => False

theorem Comparator.holds_integer (op : Comparator) (m n : Int) :
    op.holds (.integer m) (.integer n) = true ↔ op.Relates m n := by
  unfold holds Relates
  cases op <;>
    simp only [Value.compare?, textTest, Value.text?, Bool.or_eq_true, beq_iff_eq,
      Option.some.injEq, compare_lt_iff_lt, compare_gt_iff_gt, compare_eq_iff_eq,
      Bool.false_eq_true] <;> omega

end RuleFilter

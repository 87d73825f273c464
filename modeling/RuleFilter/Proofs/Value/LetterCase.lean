import RuleFilter.Proofs.Time.LetterCase
import RuleFilter.Value.Literal

namespace RuleFilter

/-! ## Numbers -/

theorem Text.countFrom_toLower (limit n : Nat) (cs : List Char) :
    countFrom limit n (cs.map Char.toLower) = countFrom limit n cs := by
  induction cs generalizing n with
  | nil => rfl
  | cons c cs ih =>
    rw [List.map_cons, countFrom, countFrom, isDigit_toLower]
    split
    · next digit => simp only [toLower_of_isDigit digit, ih]
    · rfl

namespace Decimal

theorem splitSign_of_ne {c : Char} (minus : c ≠ '-') (plus : c ≠ '+') (cs : List Char) :
    splitSign (c :: cs) = (false, c :: cs) :=
  splitSign.eq_3 _ (fun _ is => minus (List.cons.inj is).1) fun _ is => plus (List.cons.inj is).1

theorem splitSign_toLower (cs : List Char) :
    splitSign (cs.map Char.toLower) = ((splitSign cs).1, (splitSign cs).2.map Char.toLower) := by
  cases cs with
  | nil => rfl
  | cons c cs =>
    by_cases minus : c = '-'
    · subst minus
      rfl
    by_cases plus : c = '+'
    · subst plus
      rfl
    have minus' : c.toLower ≠ '-' := Text.toLower_ne (by decide) minus
    have plus' : c.toLower ≠ '+' := Text.toLower_ne (by decide) plus
    rw [List.map_cons, splitSign_of_ne minus' plus', splitSign_of_ne minus plus, List.map_cons]

theorem exponentOf?_toLower (magnitude : List Char → Nat) (cs : List Char) :
    exponentOf? magnitude (cs.map Char.toLower) = exponentOf? magnitude cs := by
  cases cs with
  | nil => rfl
  | cons e cs =>
    have letter : (e.toLower == 'e' || e.toLower == 'E') = (e == 'e' || e == 'E') :=
      Text.eq_toLower_of_letters (fun c => c == 'e' || c == 'E') (by decide) e
    have digits : ((splitSign cs).2.map Char.toLower).all Char.isDigit =
        (splitSign cs).2.all Char.isDigit := by
      simp [List.all_map, Function.comp_def]
    simp only [List.map_cons, exponentOf?, splitSign_toLower, letter, List.isEmpty_map, digits]
    split
    · next number =>
      simp only [Bool.and_eq_true] at number
      rw [Text.map_toLower_of_isDigit (List.all_eq_true.1 number.2)]
    · rfl

def splitFraction : List Char → List Char × List Char
  | '.' :: cs => (cs.takeWhile Char.isDigit, cs.dropWhile Char.isDigit)
  | cs => ([], cs)

theorem splitFraction_of_ne {c : Char} (other : c ≠ '.') (cs : List Char) :
    splitFraction (c :: cs) = ([], c :: cs) :=
  splitFraction.eq_2 _ fun _ is => other (List.cons.inj is).1

theorem splitFraction_toLower (cs : List Char) :
    splitFraction (cs.map Char.toLower) =
      ((splitFraction cs).1, (splitFraction cs).2.map Char.toLower) := by
  cases cs with
  | nil => rfl
  | cons c cs =>
    by_cases point : c = '.'
    · subst point
      exact Prod.ext (Text.takeWhile_isDigit_toLower cs) (Text.dropWhile_isDigit_toLower cs)
    · have point' : c.toLower ≠ '.' := Text.toLower_ne (by decide) point
      rw [List.map_cons, splitFraction_of_ne point', splitFraction_of_ne point, List.map_cons]

theorem unsigned?_eq (magnitude : List Char → Nat) (negative : Bool) (cs : List Char) :
    unsigned? magnitude negative cs =
      let whole := cs.takeWhile Char.isDigit
      let (fraction, rest) := splitFraction (cs.dropWhile Char.isDigit)
      if whole.isEmpty && fraction.isEmpty then none
      else (exponentOf? magnitude rest).map fun exponent =>
        ofDigits negative (whole ++ fraction) (exponent - fraction.length) := by
  unfold unsigned?
  cases cs.dropWhile Char.isDigit with
  | nil => rfl
  | cons c rest =>
    by_cases point : c = '.'
    · subst point
      rfl
    · rw [splitFraction_of_ne point]
      dsimp only
      split
      · next is => exact absurd (List.cons.inj is).1 point
      · rfl

theorem unsigned?_toLower (magnitude : List Char → Nat) (negative : Bool) (cs : List Char) :
    unsigned? magnitude negative (cs.map Char.toLower) = unsigned? magnitude negative cs := by
  simp only [unsigned?_eq, Text.takeWhile_isDigit_toLower, Text.dropWhile_isDigit_toLower,
    splitFraction_toLower, exponentOf?_toLower]

theorem ofText?_congr {text text' : String} (same : Text.foldCase text = Text.foldCase text') :
    ofText? text = ofText? text' := by
  have blind (text : String) : ofText? (String.ofList (Text.foldCase text)) = ofText? text := by
    simp only [ofText?, String.toList_ofList, Text.foldCase, splitSign_toLower, List.map_map,
      Function.comp_def, Text.toLower_toLower, unsigned?_toLower]
  rw [← blind text, same, blind]

end Decimal

namespace Value

theorem integerOfText?_congr {text text' : String}
    (same : Text.foldCase text = Text.foldCase text') :
    integerOfText? text = integerOfText? text' := by
  have blind (text : String) :
      integerOfText? (String.ofList (Text.foldCase text)) = integerOfText? text := by
    simp only [integerOfText?, String.toList_ofList, Text.foldCase, Decimal.splitSign_toLower,
      List.isEmpty_map, Text.countFrom_toLower]
  rw [← blind text, same, blind]

theorem booleanOfText?_congr {text text' : String}
    (same : Text.foldCase text = Text.foldCase text') :
    booleanOfText? text = booleanOfText? text' := by
  rw [booleanOfText?, Text.sameLetters, Text.sameLetters, same]
  rfl

/-! ## Quotes -/

def ofText? (text : String) : PropertyType → Option Value
  | .string => some (string text)
  | .integer => (integerOfText? text).map integer
  | .decimal => (Decimal.ofText? text).bind fun x => if x.isFinite then some (decimal x) else none
  | .boolean => (booleanOfText? text).map boolean
  | .dateTime => (Time.Instant.ofText? text).map dateTime
  | .custom _ => some (hosted text)

theorem ofLiteral?_eq (literal : String) (type : PropertyType) :
    ofLiteral? literal type = ofText? (Text.unquote literal) type := by
  cases type <;> rfl

theorem ofText?_quoted {text : String} {quote : Char} {cs : List Char}
    (is : Text.isQuote quote = true) (begins : text.toList = quote :: cs) {type : PropertyType}
    (typed : type ≠ .string) (known : ∀ name, type ≠ .custom name) : ofText? text type = none := by
  have quotes := Text.isQuote_iff.1 is
  have minus : quote ≠ '-' := by rcases quotes with rfl | rfl <;> decide
  have plus : quote ≠ '+' := by rcases quotes with rfl | rfl <;> decide
  have digit : quote.isDigit = false := by rcases quotes with rfl | rfl <;> rfl
  have signless := Decimal.splitSign_of_ne minus plus cs
  cases type with
  | string => exact absurd rfl typed
  | custom name => exact absurd rfl (known name)
  | integer =>
    simp [ofText?, integerOfText?, begins, signless, Text.countFrom, digit, Except.toOption]
  | decimal =>
    have point : quote ≠ '.' := by rcases quotes with rfl | rfl <;> decide
    have none : Decimal.unsigned? Decimal.cappedValue false (quote :: cs) = none := by
      simp [Decimal.unsigned?_eq, digit, Decimal.splitFraction_of_ne point]
    have letters : quote.toLower ≠ 'i' ∧ quote.toLower ≠ 'n' := by
      rcases quotes with rfl | rfl <;> decide
    simp [ofText?, Decimal.ofText?, begins, signless, none, letters]
  | boolean =>
    have letters : 't' ≠ quote.toLower ∧ 'f' ≠ quote.toLower := by
      rcases quotes with rfl | rfl <;> decide
    simp [ofText?, booleanOfText?, Text.sameLetters, Text.foldCase, begins, letters]
  | dateTime =>
    have visible : Text.isBlank quote = false := by rcases quotes with rfl | rfl <;> rfl
    rw [ofText?, Time.Instant.ofText?_eq_none begins visible digit minus plus, Option.map_none]

theorem unquote_of_isSome {text text' : String} (same : Text.foldCase text = Text.foldCase text')
    {type : PropertyType} (reads : (ofText? text type).isSome = true) (typed : type ≠ .string)
    (known : ∀ name, type ≠ .custom name) : Text.unquote text' = text' := by
  unfold Text.unquote
  split
  · rfl
  next c cs begins =>
  split
  · next quoted =>
    rw [Bool.and_eq_true] at quoted
    rw [Text.foldCase, Text.foldCase, begins, List.map_cons, List.map_eq_cons_iff] at same
    obtain ⟨d, ds, begins', letters, -⟩ := same
    have quote : Text.isQuote d = true := by
      rw [← Text.isQuote_toLower, letters, Text.isQuote_toLower]
      exact quoted.1
    rw [ofText?_quoted quote begins' typed known] at reads
    cases reads
  · rfl

theorem isSome_ofLiteral?_iff {literal spelling : String}
    (same : Text.foldCase (Text.unquote literal) = Text.foldCase spelling) {type : PropertyType}
    (reads : (ofLiteral? literal type).isSome = true) :
    (ofLiteral? spelling type).isSome = true ↔
      ¬(type = .dateTime ∧ Time.isSmallMarked spelling.toList = true) := by
  rw [ofLiteral?_eq] at reads ⊢
  cases type with
  | string => exact iff_of_true rfl nofun
  | custom name => exact iff_of_true rfl nofun
  | integer =>
    rw [unquote_of_isSome same reads nofun nofun]
    rw [ofText?, integerOfText?_congr same] at reads
    exact iff_of_true reads nofun
  | decimal =>
    rw [unquote_of_isSome same reads nofun nofun]
    rw [ofText?, Decimal.ofText?_congr same] at reads
    exact iff_of_true reads nofun
  | boolean =>
    rw [unquote_of_isSome same reads nofun nofun]
    rw [ofText?, booleanOfText?_congr same] at reads
    exact iff_of_true reads nofun
  | dateTime =>
    rw [unquote_of_isSome same reads nofun nofun]
    rw [ofText?, Option.isSome_map] at reads ⊢
    rw [Time.Instant.isSome_ofText?_iff same reads]
    simp

end Value
end RuleFilter

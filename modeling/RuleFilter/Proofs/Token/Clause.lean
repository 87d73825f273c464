import RuleFilter.Proofs.Schema.Lookup
import RuleFilter.Proofs.Token.Passage

namespace RuleFilter

def clauseText (name symbol literal : String) : String :=
  name ++ " " ++ symbol ++ " " ++ literal

def clauseTokens (name symbol literal : String) : List Token :=
  let operator := Text.byteLength name.toList + 1
  let value := operator + Text.byteLength symbol.toList + 1
  [⟨.property, name, ⟨0, Text.byteLength name.toList⟩, none⟩,
    ⟨.operator, symbol, ⟨operator, operator + Text.byteLength symbol.toList⟩, none⟩,
    ⟨.value, literal, ⟨value, value + Text.byteLength literal.toList⟩, none⟩]

def truthWord : Bool → String
  | true => "true"
  | false => "false"

/-- Whether characters are a literal in both modes: a text between two quotes that is free of that
quote, an integer, a decimal number, or a truth value in any letter case. -/
inductive IsLiteral : List Char → Prop
  | quoted {quote : Char} {body : List Char} : Text.isQuote quote = true → quote ∉ body →
      IsLiteral (quote :: (body ++ [quote]))
  | integer {cs : List Char} : Text.isIntegerText cs = true → IsLiteral cs
  | decimal {whole fraction : List Char} : Text.isIntegerText whole = true →
      Text.isDigits fraction = true → IsLiteral (whole ++ '.' :: fraction)
  | truth {cs : List Char} (b : Bool) :
      Text.sameLetters (String.ofList cs) (truthWord b) = true → IsLiteral cs

/-! ## Words that are no operators -/

namespace Text

theorem isWordChar_of_isNameChar {c : Char} (h : isNameChar c = true) : isWordChar c = true := by
  simp only [isNameChar, Bool.or_eq_true, beq_iff_eq] at h
  rcases h with letter | rfl
  · exact isWordChar_of_isAlphanum letter
  · decide

theorem isBlank_of_isWordChar {c : Char} (h : isWordChar c = true) : isBlank c = false := by
  rw [Bool.eq_false_iff]
  intro blank
  rw [isWordChar_of_isBlank blank] at h
  cases h

theorem isWordChar_of_isDigit {c : Char} (h : c.isDigit = true) : isWordChar c = true :=
  isWordChar_of_isAlphanum (by rw [Char.isAlphanum, h, Bool.or_true])

theorem isName_ofList {c : Char} {cs : List Char} :
    isName (String.ofList (c :: cs)) = true ↔
      c.isDigit = false ∧ ∀ d ∈ c :: cs, isNameChar d = true := by
  rw [isName, String.toList_ofList]
  simp only [Bool.and_eq_true, Bool.not_eq_true', List.all_eq_true]

end Text

namespace Lexeme

theorem operator?_of_head {c : Char} {cs : List Char}
    (other : ∀ spelling ∈ operatorSpellings,
      spelling.1.toList.head?.map Char.toLower ≠ some c.toLower) :
    operator? (c :: cs) = none := by
  rw [Option.eq_none_iff_forall_ne_some]
  intro lexeme found
  obtain ⟨split, spelling, member, letters, -⟩ := operator?_eq_some found
  have some_letter : ∀ spelling ∈ operatorSpellings, spelling.1.toList ≠ [] := by decide
  obtain ⟨letter, tail, spelled⟩ := List.exists_cons_of_ne_nil (some_letter spelling member)
  rw [spelled, List.map_cons, List.map_eq_cons_iff] at letters
  obtain ⟨d, taken, text, first, -⟩ := letters
  rw [text, List.cons_append] at split
  refine other spelling member ?_
  rw [spelled, List.head?_cons, Option.map_some, (List.cons.inj split).1, first]

theorem operator?_of_isNumber {c : Char} (cs : List Char) (number : c = '-' ∨ c.isDigit = true) :
    operator? (c :: cs) = none := by
  refine operator?_of_head fun spelling member first => ?_
  have other : ∀ spelling ∈ operatorSpellings,
      (spelling.1.toList.head?.map Char.toLower).any (fun d => d == '-' || d.isDigit) = false := by
    decide
  have unlike := other spelling member
  rw [first, Option.any_some, Bool.or_eq_false_iff, Text.isDigit_toLower] at unlike
  rcases number with rfl | digit
  · cases unlike.1
  · rw [digit] at unlike
    cases unlike.2

theorem operator?_of_word {word more : List Char}
    (inside : ∀ c ∈ word, Text.isWordChar c = true)
    (other : ∀ spelling ∈ operatorSpellings, spelling.1.toList.head?.any Char.isAlpha = true →
      Text.foldCase spelling.1 ≠ word.map Char.toLower) (breaks : Breaks more) :
    operator? (word ++ more) = none := by
  rw [operator?_append word breaks, Option.map_eq_none_iff, Option.eq_none_iff_forall_ne_some]
  intro lexeme found
  obtain ⟨split, spelling, member, letters, -, ends⟩ := operator?_eq_some found
  -- A spelling is a sign, which no word contains, or a word, which ends with the word.
  have spellings : ∀ spelling ∈ operatorSpellings,
      spelling.1.toList.all Text.isWordChar = false ∨
        spelling.1.toList.head?.any Char.isAlpha = true := by decide
  rcases spellings spelling member with signs | alpha
  · obtain ⟨letter, listed, sign⟩ := List.all_eq_false.1 signs
    rw [Bool.not_eq_true] at sign
    have lower : letter.toLower ∈ lexeme.text.map Char.toLower := by
      rw [letters]
      exact List.mem_map_of_mem listed
    obtain ⟨c, taken, same⟩ := List.mem_map.1 lower
    have is := inside c (split ▸ List.mem_append_left _ taken)
    rw [← Text.isWordChar_toLower, same, Text.isWordChar_toLower, sign] at is
    cases is
  · have ended : lexeme.rest = [] := by
      cases behind : lexeme.rest with
      | nil => rfl
      | cons c rest =>
        have word := inside c (by simp [split, behind])
        simp [endsBefore, alpha, behind, word] at ends
    rw [ended, List.append_nil] at split
    exact other spelling member alpha (by rw [Text.foldCase, ← letters, split])

theorem operator?_of_isName {name more : List Char}
    (named : Text.isName (String.ofList name) = true)
    (unreserved : isReserved (String.ofList name) = false) (breaks : Breaks more) :
    operator? (name ++ more) = none := by
  have inside : ∀ c ∈ name, Text.isWordChar c = true := by
    cases name with
    | nil => nofun
    | cons c cs =>
      exact fun d member => Text.isWordChar_of_isNameChar ((Text.isName_ofList.1 named).2 d member)
  refine operator?_of_word inside (fun spelling member alpha same => ?_) breaks
  have reserved : ∀ spelling ∈ operatorSpellings,
      spelling.1.toList.head?.any Char.isAlpha = true → spelling.1 ∈ reservedWords := by decide
  rw [isReserved, List.any_eq_false] at unreserved
  refine unreserved spelling.1 (reserved spelling member alpha) ?_
  rw [Text.sameLetters_iff, same, Text.foldCase, String.toList_ofList]

theorem operator?_visible {c : Char} {cs : List Char} {lexeme : Lexeme}
    (found : operator? (c :: cs) = some lexeme) :
    Text.isBlank c = false ∧ Text.isQuote c = false ∧ c ≠ '(' ∧ c ≠ ')' := by
  have signs : ∀ spelling ∈ operatorSpellings, (spelling.1.toList.map Char.toLower).head?.any
      (fun d => !Text.isBlank d && !Text.isQuote d && d != '(' && d != ')') = true := by decide
  obtain ⟨split, spelling, member, letters, -⟩ := operator?_eq_some found
  have sign := signs spelling member
  rw [← letters] at sign
  cases first : lexeme.text with
  | nil =>
    rw [first] at sign
    cases sign
  | cons d tail =>
    rw [first, List.cons_append] at split
    obtain ⟨rfl, -⟩ := List.cons.inj split
    simp only [first, List.map_cons, List.head?_cons, Option.any_some, Bool.and_eq_true,
      Bool.not_eq_true', bne_iff_ne, Text.isBlank_toLower, Text.isQuote_toLower] at sign
    obtain ⟨⟨⟨visible, unquoted⟩, opening⟩, closing⟩ := sign
    exact ⟨visible, unquoted, mt (Text.toLower_eq_iff (by decide)).2 opening,
      mt (Text.toLower_eq_iff (by decide)).2 closing⟩

theorem operator?_symbol (op : Comparator) :
    operator? (op.symbol.toList.map Char.toLower) =
      some ⟨.operator, op.symbol.toList.map Char.toLower, []⟩ := by
  cases op <;> rfl

theorem operator?_of_symbol {op : Comparator} {symbol more : List Char}
    (spells : symbol.map Char.toLower = op.symbol.toList.map Char.toLower) (breaks : Breaks more) :
    operator? (symbol ++ more) = some ⟨.operator, symbol, more⟩ := by
  have found := operator?_toLower symbol
  rw [spells, operator?_symbol, eq_comm, Option.map_eq_some_iff] at found
  obtain ⟨lexeme, found, lower⟩ := found
  have split := (operator?_eq_some found).1
  obtain ⟨kind, text, rest⟩ := lexeme
  simp only [toLower, mk.injEq, List.map_eq_nil_iff] at lower
  obtain ⟨rfl, -, rfl⟩ := lower
  obtain rfl : symbol = text := by simpa using split
  rw [operator?_append symbol breaks, found]
  rfl

theorem splitWord_append {c : Char} {tail more : List Char}
    (word : ∀ d ∈ tail, Text.isWordChar d = true) (breaks : Breaks more) :
    splitWord c (tail ++ more) = (c :: tail, more) :=
  splitWord_plain word breaks.not_wordChar (by simp [breaks.not_point])

end Lexeme

/-! ## Words that are literals -/

namespace Text

theorem mem_isIntegerText {cs : List Char} (integer : isIntegerText cs = true) {c : Char}
    (member : c ∈ cs) : c = '-' ∨ c.isDigit = true := by
  unfold isIntegerText at integer
  split at integer
  · simp only [isDigits, Bool.and_eq_true, List.all_eq_true] at integer
    exact (List.mem_cons.1 member).imp_right (integer.2 c)
  · simp only [isDigits, Bool.and_eq_true, List.all_eq_true] at integer
    exact .inr (integer.2 c member)

theorem exists_cons_of_isIntegerText {cs : List Char} (integer : isIntegerText cs = true) :
    ∃ c tail, cs = c :: tail ∧ (∀ d ∈ tail, d.isDigit = true) ∧
      (c.isDigit = true ∨ c = '-' ∧ tail.head?.any Char.isDigit = true) := by
  unfold isIntegerText at integer
  split at integer
  · next tail =>
    simp only [isDigits, Bool.and_eq_true, List.all_eq_true, Bool.not_eq_true',
      List.isEmpty_eq_false_iff] at integer
    obtain ⟨d, rest, rfl⟩ := List.exists_cons_of_ne_nil integer.1
    exact ⟨'-', d :: rest, rfl, integer.2, .inr ⟨rfl, integer.2 d List.mem_cons_self⟩⟩
  · simp only [isDigits, Bool.and_eq_true, List.all_eq_true, Bool.not_eq_true',
      List.isEmpty_eq_false_iff] at integer
    obtain ⟨d, rest, rfl⟩ := List.exists_cons_of_ne_nil integer.1
    rw [List.forall_mem_cons] at integer
    exact ⟨d, rest, rfl, integer.2.2, .inl integer.2.1⟩

theorem ne_point_of_isIntegerText {cs : List Char} (integer : isIntegerText cs = true) :
    ∀ c ∈ cs, (c != '.') = true := by
  intro c member
  rw [bne_iff_ne]
  rintro rfl
  rcases mem_isIntegerText integer member with is | is <;> revert is <;> decide

theorem isNumberText_of_no_point {cs : List Char} (inside : ∀ c ∈ cs, (c != '.') = true) :
    isNumberText cs = isIntegerText cs := by
  have ended : cs.dropWhile (· != '.') = [] := by
    rw [← List.append_nil cs, List.dropWhile_append_of_pos inside]
    rfl
  rw [isNumberText, ended]

theorem isNumberText_of_decimal {whole fraction : List Char} (integer : isIntegerText whole = true)
    (digits : isDigits fraction = true) : isNumberText (whole ++ '.' :: fraction) = true := by
  have inside := ne_point_of_isIntegerText integer
  have ended : (whole ++ '.' :: fraction).dropWhile (· != '.') = '.' :: fraction := by
    rw [List.dropWhile_append_of_pos inside]
    rfl
  have taken : (whole ++ '.' :: fraction).takeWhile (· != '.') = whole := by
    rw [List.takeWhile_append_of_pos inside]
    exact List.append_nil whole
  rw [isNumberText, ended]
  simp only [taken, integer, digits, Bool.and_self]

theorem map_toLower_of_truth {b : Bool} {cs : List Char}
    (spells : sameLetters (String.ofList cs) (truthWord b) = true) :
    cs.map Char.toLower = (truthWord b).toList.map Char.toLower := by
  rwa [sameLetters_iff, foldCase, String.toList_ofList] at spells

theorem isWordChar_of_truth {b : Bool} {cs : List Char}
    (spells : sameLetters (String.ofList cs) (truthWord b) = true) :
    ∀ c ∈ cs, isWordChar c = true := by
  have letters : ∀ b, ((truthWord b).toList.map Char.toLower).all isWordChar = true := by decide
  intro c member
  rw [← isWordChar_toLower]
  exact List.all_eq_true.1 (letters b) _ (map_toLower_of_truth spells ▸ List.mem_map_of_mem member)

theorem isNumberText_of_isName {name : List Char} (named : isName (String.ofList name) = true) :
    isNumberText name = false := by
  cases name with
  | nil => cases named
  | cons c cs =>
    obtain ⟨digit, inside⟩ := isName_ofList.1 named
    have point : ∀ d ∈ c :: cs, (d != '.') = true := by
      intro d member
      rw [bne_iff_ne]
      rintro rfl
      exact absurd (inside _ member) (by decide)
    have minus : c ≠ '-' := by
      rintro rfl
      exact absurd (inside _ List.mem_cons_self) (by decide)
    rw [isNumberText_of_no_point point]
    simp only [Lexeme.isIntegerText_cons, beq_iff_eq, minus, if_false, isDigits, List.all_cons,
      digit, Bool.false_and, Bool.and_false]

end Text

theorem isReserved_congr {a b : String} (same : Text.foldCase a = Text.foldCase b) :
    isReserved a = isReserved b := by
  simp only [isReserved, Text.sameLetters, same]

theorem isLiteralWord_of_isName {name : List Char}
    (named : Text.isName (String.ofList name) = true)
    (unreserved : isReserved (String.ofList name) = false) :
    isLiteralWord (String.ofList name) = false := by
  rw [isReserved, List.any_eq_false] at unreserved
  have truth := unreserved "TRUE" (by decide)
  have falsity := unreserved "FALSE" (by decide)
  have lower : Text.foldCase "TRUE" = Text.foldCase "true" ∧
      Text.foldCase "FALSE" = Text.foldCase "false" := by decide
  rw [Bool.not_eq_true, Text.sameLetters_comm, Text.sameLetters] at truth falsity
  rw [lower.1] at truth
  rw [lower.2] at falsity
  rw [isLiteralWord, Text.sameLetters, Text.sameLetters, truth, falsity, String.toList_ofList,
    Text.isNumberText_of_isName named]
  rfl

namespace Lexicon

variable {lexicon : Lexicon} {previous : Option TokenKind}

/-! ## The three parts -/

theorem lexeme_word {c : Char} {tail more : List Char}
    (found : Lexeme.operator? (c :: (tail ++ more)) = none)
    (begins : Text.isWordChar c = true ∨ beginsNegative previous c (tail ++ more) = true)
    (split : Lexeme.splitWord c (tail ++ more) = (c :: tail, more)) :
    lexicon.lexeme previous c (tail ++ more) =
      ⟨lexicon.classify previous (String.ofList (c :: tail)), c :: tail, more⟩ := by
  have visible (mark : Char) (other : Text.isWordChar mark = false) (minus : mark ≠ '-') :
      c ≠ mark := by
    rintro rfl
    rcases begins with word | negative
    · rw [word] at other
      cases other
    · simp only [beginsNegative, Bool.and_eq_true, beq_iff_eq] at negative
      exact minus negative.1.1
  have opening := visible '(' (by decide) (by decide)
  have closing := visible ')' (by decide) (by decide)
  have single := visible Text.singleQuote (by decide) (by decide)
  have double := visible Text.doubleQuote (by decide) (by decide)
  simp only [lexeme, Text.isQuote, beq_iff_eq, opening, closing, single, double, if_false,
    Bool.or_eq_true, or_self, found, begins, if_true, split]

theorem whole_word {c : Char} {tail : List Char}
    (word : ∀ d ∈ c :: tail, Text.isWordChar d = true)
    (found : ∀ more, Lexeme.Breaks more → Lexeme.operator? (c :: (tail ++ more)) = none) :
    lexicon.Whole previous (lexicon.classify previous (String.ofList (c :: tail))) (c :: tail) := by
  rw [List.forall_mem_cons] at word
  refine ⟨c, tail, rfl, Text.isBlank_of_isWordChar word.1, fun more breaks => ?_⟩
  exact lexeme_word (found more breaks) (.inl word.1) (Lexeme.splitWord_append word.2 breaks)

theorem whole_name {property : Property} (member : property ∈ lexicon.schema.properties)
    {name : String} (named : Text.sameLetters name property.name = true) :
    lexicon.Whole previous .property name.toList := by
  have letters := Text.sameLetters_iff.1 named
  have isName := (Text.isName_congr letters).trans (Schema.isName_of_mem member)
  have unreserved := (isReserved_congr letters).trans (Schema.unreserved_of_mem member)
  have known : lexicon.schema.contains name = true :=
    Option.isSome_iff_exists.2 ⟨property, Schema.describe?_of_mem member named⟩
  rw [← String.ofList_toList (s := name)] at isName unreserved known
  generalize name.toList = cs at *
  cases cs with
  | nil => cases isName
  | cons c tail =>
    have inside := (Text.isName_ofList.1 isName).2
    have classified : lexicon.classify previous (String.ofList (c :: tail)) = .property := by
      rw [classify, isLiteralWord_of_isName isName unreserved, known]
      rfl
    rw [← classified]
    exact whole_word (fun d member => Text.isWordChar_of_isNameChar (inside d member))
      fun more breaks => Lexeme.operator?_of_isName isName unreserved breaks

theorem lexeme_operator {c : Char} {cs : List Char} {operator : Lexeme}
    (found : Lexeme.operator? (c :: cs) = some operator) :
    lexicon.lexeme previous c cs = operator := by
  obtain ⟨-, unquoted, opening, closing⟩ := Lexeme.operator?_visible found
  simp only [lexeme, beq_iff_eq, opening, closing, if_false, unquoted, Bool.false_eq_true, found]

theorem whole_operator {kind : TokenKind} {cs : List Char}
    (found : ∀ more, Lexeme.Breaks more → Lexeme.operator? (cs ++ more) = some ⟨kind, cs, more⟩) :
    lexicon.Whole previous kind cs := by
  cases cs with
  | nil => cases found [] nofun
  | cons c tail =>
    have visible := (Lexeme.operator?_visible (found [] nofun)).1
    exact ⟨c, tail, rfl, visible, fun more breaks => lexeme_operator (found more breaks)⟩

theorem whole_symbol {op : Comparator} {symbol : String}
    (spelled : Text.sameLetters symbol op.symbol = true) :
    lexicon.Whole previous .operator symbol.toList := by
  have letters : symbol.toList.map Char.toLower = op.symbol.toList.map Char.toLower :=
    Text.sameLetters_iff.1 spelled
  exact whole_operator fun more breaks => Lexeme.operator?_of_symbol letters breaks

theorem whole_connective (connective : Connective) :
    lexicon.Whole previous .logical connective.symbol.toList := by
  refine whole_operator fun more breaks => ?_
  have alone : Lexeme.operator? connective.symbol.toList =
      some ⟨.logical, connective.symbol.toList, []⟩ := by
    cases connective <;> rfl
  rw [Lexeme.operator?_append _ breaks, alone]
  rfl

theorem whole_number {c : Char} {tail : List Char}
    (number : c.isDigit = true ∨ c = '-' ∧ tail.head?.any Char.isDigit = true)
    (is : Text.isNumberText (c :: tail) = true)
    (split : ∀ more, Lexeme.Breaks more → Lexeme.splitWord c (tail ++ more) = (c :: tail, more)) :
    lexicon.Whole (some .operator) .value (c :: tail) := by
  have sign : c = '-' ∨ c.isDigit = true := number.symm.imp_left And.left
  have visible : Text.isBlank c = false := by
    rcases sign with rfl | digit
    · decide
    · exact Text.isBlank_of_isWordChar (Text.isWordChar_of_isDigit digit)
  refine ⟨c, tail, rfl, visible, fun more breaks => ?_⟩
  have begins : Text.isWordChar c = true ∨
      beginsNegative (some .operator) c (tail ++ more) = true := by
    rcases number with digit | ⟨rfl, digit⟩
    · exact .inl (Text.isWordChar_of_isDigit digit)
    · cases tail with
      | nil => cases digit
      | cons d tail => exact .inr (by simpa [beginsNegative] using digit)
  have literal : isLiteralWord (String.ofList (c :: tail)) = true := by
    rw [isLiteralWord, String.toList_ofList, is, Bool.or_true]
  rw [lexeme_word (Lexeme.operator?_of_isNumber _ sign) begins (split more breaks), classify,
    literal, if_pos rfl]

theorem whole_truth {b : Bool} {cs : List Char}
    (spells : Text.sameLetters (String.ofList cs) (truthWord b) = true) :
    lexicon.Whole previous .value cs := by
  have letters := Text.map_toLower_of_truth spells
  have word := Text.isWordChar_of_truth spells
  have literal : isLiteralWord (String.ofList cs) = true := by
    cases b <;> simp only [truthWord] at spells <;> simp only [isLiteralWord, spells, Bool.or_true,
      Bool.true_or]
  cases cs with
  | nil => cases b <;> cases spells
  | cons c tail =>
    have other : ∀ b : Bool, ∀ spelling ∈ operatorSpellings,
        spelling.1.toList.head?.map Char.toLower ≠
          ((truthWord b).toList.map Char.toLower).head? := by decide
    have unlike := other b
    rw [← letters, List.map_cons, List.head?_cons] at unlike
    have classified : lexicon.classify previous (String.ofList (c :: tail)) = .value := by
      rw [classify, literal, if_pos rfl]
    rw [← classified]
    exact whole_word word fun more breaks => Lexeme.operator?_of_head unlike

theorem whole_literal {cs : List Char} (literal : IsLiteral cs) :
    lexicon.Whole (some .operator) .value cs := by
  cases literal with
  | @quoted quote body is free =>
    have other : Text.isBlank quote = false ∧ quote ≠ '(' ∧ quote ≠ ')' := by
      rcases Text.isQuote_iff.1 is with rfl | rfl <;> decide
    refine ⟨quote, body ++ [quote], rfl, other.1, fun more _ => ?_⟩
    have inside (c : Char) (member : c ∈ body) (same : c = quote) : False := free (same ▸ member)
    have closed := Lexeme.quoted_closed inside more
    rw [List.append_assoc, List.singleton_append]
    simp only [lexeme, beq_iff_eq, other.2.1, other.2.2, if_false, is, if_true, closed]
  | integer integer =>
    obtain ⟨c, tail, rfl, digits, number⟩ := Text.exists_cons_of_isIntegerText integer
    have free := Text.ne_point_of_isIntegerText integer
    have is := (Text.isNumberText_of_no_point free).trans integer
    exact whole_number number is fun more breaks =>
      Lexeme.splitWord_append (fun d member => Text.isWordChar_of_isDigit (digits d member)) breaks
  | @decimal whole fraction integer fractional =>
    have is := Text.isNumberText_of_decimal integer fractional
    obtain ⟨c, tail, rfl, digits, number⟩ := Text.exists_cons_of_isIntegerText integer
    rw [List.cons_append] at is ⊢
    simp only [Text.isDigits, Bool.and_eq_true, List.all_eq_true, Bool.not_eq_true',
      List.isEmpty_eq_false_iff] at fractional
    have number' : c.isDigit = true ∨
        c = '-' ∧ (tail ++ '.' :: fraction).head?.any Char.isDigit = true := by
      refine number.imp_right (And.imp_right fun digit => ?_)
      cases tail with
      | nil => cases digit
      | cons d tail => exact digit
    refine whole_number number' is fun more breaks => ?_
    rw [List.append_assoc, List.cons_append]
    exact Lexeme.splitWord_fraction
      (fun d member => Text.isWordChar_of_isDigit (digits d member)) integer fractional.1
      fractional.2 breaks.not_digit
  | truth b spells => exact whole_truth spells

/-! ## The whole clause -/

theorem passage_clause {name symbol literal : String}
    (property : lexicon.Whole previous .property name.toList)
    (operator : lexicon.Whole (some .property) .operator symbol.toList)
    (value : lexicon.Whole (some .operator) .value literal.toList) (offset : Nat) :
    lexicon.Passage offset previous (clauseText name symbol literal).toList
      ((clauseTokens name symbol literal).map (Token.moved offset)) .value := by
  have chars : (clauseText name symbol literal).toList =
      name.toList ++ ' ' :: (symbol.toList ++ ' ' :: literal.toList) := by
    simp [clauseText]
  have parts := (property.passage offset).spaced ((operator.passage _).spaced (value.passage _))
  rw [← chars] at parts
  simpa only [clauseTokens, List.map_cons, List.map_nil, Token.moved, List.cons_append,
    List.nil_append, Nat.add_comm _ offset, ← Nat.add_assoc, Nat.add_zero] using parts

theorem tokens_clauseText {property : Property} (member : property ∈ lexicon.schema.properties)
    {name symbol literal : String} (named : Text.sameLetters name property.name = true)
    {op : Comparator} (spelled : Text.sameLetters symbol op.symbol = true)
    (is : IsLiteral literal.toList) :
    lexicon.tokens (clauseText name symbol literal) = clauseTokens name symbol literal :=
  (passage_clause (whole_name member named) (whole_symbol spelled) (whole_literal is) 0).tokens_eq

end Lexicon
end RuleFilter

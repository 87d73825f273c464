import RuleFilter.Proofs.Token.Word

namespace RuleFilter

/-! ## Classes of words -/

theorem Text.foldCase_ofList_toLower (cs : List Char) :
    foldCase (String.ofList (cs.map Char.toLower)) = foldCase (String.ofList cs) := by
  simp [foldCase, Function.comp_def]

theorem Text.find?_congr {α : Type} (name : α → String) (as : List α) {a b : String}
    (same : foldCase a = foldCase b) :
    (as.find? fun x => sameLetters (name x) a) = as.find? fun x => sameLetters (name x) b := by
  congr 1
  funext x
  rw [sameLetters, sameLetters, same]

theorem Schema.describe?_congr (schema : Schema) {a b : String}
    (same : Text.foldCase a = Text.foldCase b) : schema.describe? a = schema.describe? b :=
  Text.find?_congr Property.name schema.properties same

theorem Comparator.ofSymbol?_congr {a b : String} (same : Text.foldCase a = Text.foldCase b) :
    ofSymbol? a = ofSymbol? b :=
  Text.find?_congr symbol all same

theorem Connective.ofSymbol?_congr {a b : String} (same : Text.foldCase a = Text.foldCase b) :
    ofSymbol? a = ofSymbol? b :=
  Text.find?_congr symbol all same

theorem Token.isConnective_congr {a b : Token} (kind : a.kind = b.kind)
    (letters : Text.foldCase a.text = Text.foldCase b.text) (connective : Connective) :
    a.isConnective connective = b.isConnective connective := by
  rw [isConnective, isConnective, Text.sameLetters, Text.sameLetters, kind, letters]

theorem isNumberText_toLower (cs : List Char) :
    Text.isNumberText (cs.map Char.toLower) = Text.isNumberText cs := by
  have point (c : Char) : (c.toLower != '.') = (c != '.') :=
    congrArg not (Lexeme.toLower_beq_point c)
  unfold Text.isNumberText
  simp only [List.dropWhile_map, List.takeWhile_map, Function.comp_def, point]
  cases cs.dropWhile (· != '.') with
  | nil => exact Lexeme.isIntegerText_toLower cs
  | cons c fraction =>
    simp only [List.map_cons, Lexeme.isIntegerText_toLower, Lexeme.isDigits_toLower]

theorem isLiteralWord_toLower (cs : List Char) :
    isLiteralWord (String.ofList (cs.map Char.toLower)) = isLiteralWord (String.ofList cs) := by
  have same (word : String) : Text.sameLetters (String.ofList (cs.map Char.toLower)) word =
      Text.sameLetters (String.ofList cs) word := by
    rw [Text.sameLetters, Text.sameLetters, Text.foldCase_ofList_toLower]
  rw [isLiteralWord, isLiteralWord, same, same, String.toList_ofList, String.toList_ofList,
    isNumberText_toLower]

namespace Lexicon

theorem classify_toLower (lexicon : Lexicon) (previous : Option TokenKind) (cs : List Char) :
    lexicon.classify previous (String.ofList (cs.map Char.toLower)) =
      lexicon.classify previous (String.ofList cs) := by
  have contains : lexicon.schema.contains (String.ofList (cs.map Char.toLower)) =
      lexicon.schema.contains (String.ofList cs) :=
    congrArg Option.isSome (Schema.describe?_congr _ (Text.foldCase_ofList_toLower cs))
  rw [classify, classify, isLiteralWord_toLower, contains]

theorem classify_ne_openParen (lexicon : Lexicon) (previous : Option TokenKind) (word : String) :
    lexicon.classify previous word ≠ .openParen := by
  unfold classify
  repeat' split
  all_goals nofun

/-! ## Lexemes -/

theorem lexeme_split (lexicon : Lexicon) (previous : Option TokenKind) (c : Char) (cs : List Char) :
    (lexicon.lexeme previous c cs).text ++ (lexicon.lexeme previous c cs).rest = c :: cs := by
  unfold lexeme
  split
  · rfl
  split
  · rfl
  split
  · exact Lexeme.quoted_split c cs
  split
  · next found => exact (Lexeme.operator?_eq_some found).1.symm
  split
  · exact Lexeme.splitWord_split c cs
  · rfl

theorem beginsNegative_toLower (previous : Option TokenKind) (c : Char) (cs : List Char) :
    beginsNegative previous c.toLower (cs.map Char.toLower) = beginsNegative previous c cs := by
  cases cs <;> simp [beginsNegative, Lexeme.toLower_beq_minus]

theorem lexeme_toLower (lexicon : Lexicon) (previous : Option TokenKind) (c : Char)
    (cs : List Char) :
    lexicon.lexeme previous c.toLower (cs.map Char.toLower) =
      (lexicon.lexeme previous c cs).toLower := by
  have opening : (c.toLower == '(') = (c == '(') :=
    Text.eq_toLower_of_letters (· == '(') (by decide) c
  have closing : (c.toLower == ')') = (c == ')') :=
    Text.eq_toLower_of_letters (· == ')') (by decide) c
  have operator := Lexeme.operator?_toLower (c :: cs)
  rw [List.map_cons] at operator
  unfold lexeme
  rw [opening, closing, Text.isQuote_toLower, operator, Text.isWordChar_toLower,
    beginsNegative_toLower]
  split
  · rfl
  split
  · rfl
  split
  · next is => rw [Text.toLower_of_isQuote is, Lexeme.quoted_toLower is]
  cases Lexeme.operator? (c :: cs) with
  | some lexeme => rfl
  | none =>
    simp only [Option.map_none, Lexeme.splitWord_toLower, classify_toLower]
    split <;> rfl

theorem beginsNegative_reread {previous : Option TokenKind} {c : Char} {cs tail : List Char}
    (h : (Lexeme.splitWord c cs).1 = c :: tail) (begins : beginsNegative previous c cs = true)
    (more : List Char) : beginsNegative previous c (tail ++ more) = true := by
  simp only [beginsNegative, Bool.and_eq_true] at begins ⊢
  have digit := Lexeme.splitWord_digit h begins.1.2
  refine ⟨⟨begins.1.1, ?_⟩, begins.2⟩
  cases tail with
  | nil => cases digit
  | cons d tail => exact digit

theorem operator?_other {c : Char} {cs more : List Char} (found : Lexeme.operator? (c :: cs) = none)
    (other : Text.isWordChar c = false) (breaks : Lexeme.Breaks more) :
    Lexeme.operator? (c :: more) = none := by
  have not_alpha : c.isAlpha = false := by
    rw [Bool.eq_false_iff] at other ⊢
    intro alpha
    exact other (Text.isWordChar_of_isAlphanum (by rw [Char.isAlphanum, alpha, Bool.true_or]))
  have ends : Lexeme.endsBefore [c] cs = true := by simp [Lexeme.endsBefore, not_alpha]
  exact Lexeme.operator?_eq_none_reread ends found breaks

/-- What a token is does not depend on what stands behind it, as long as something separates the
two. Behind an opening parenthesis nothing need do that, and behind a text without a closing quote
nothing can. -/
theorem lexeme_reread {lexicon : Lexicon} {previous : Option TokenKind} {c : Char}
    {cs tail more : List Char} (h : (lexicon.lexeme previous c cs).text = c :: tail)
    (breaks : (lexicon.lexeme previous c cs).kind ≠ .openParen → Lexeme.Breaks more)
    (last : (lexicon.lexeme previous c cs).kind = .unknown → Text.isQuote c = true → more = []) :
    lexicon.lexeme previous c (tail ++ more) =
      ⟨(lexicon.lexeme previous c cs).kind, c :: tail, more⟩ := by
  revert h breaks last
  unfold lexeme
  -- The first tests see the first character only, so that they come out alike on both sides.
  split
  · rintro h - -
    cases h
    rfl
  split
  · rintro h - -
    cases h
    rfl
  split
  · next is =>
    intro h _ last
    exact Lexeme.quoted_reread h fun kind => last kind is
  cases found : Lexeme.operator? (c :: cs) with
  | some lexeme =>
    intro h breaks _
    have again := Lexeme.operator?_reread found (breaks (Lexeme.operator?_kind found))
    rw [h, List.cons_append] at again
    simp only [again]
  | none =>
    cases begins : Text.isWordChar c || beginsNegative previous c cs with
    | true =>
      simp only [if_true]
      intro h breaks _
      have breaks := breaks (classify_ne_openParen _ _ _)
      have whole := (Lexeme.splitWord_split c cs).symm
      have again := Lexeme.operator?_eq_none_reread (Lexeme.splitWord_endsBefore c cs)
        (whole ▸ found) breaks
      rw [h, List.cons_append] at again
      have begins' : (Text.isWordChar c || beginsNegative previous c (tail ++ more)) = true := by
        cases word : Text.isWordChar c with
        | true => rfl
        | false =>
          rw [word, Bool.false_or] at begins
          exact beginsNegative_reread h begins more
      simp only [again, begins', Lexeme.splitWord_reread h breaks, h, if_true]
    | false =>
      intro h breaks _
      have breaks := breaks nofun
      obtain rfl := (List.cons.inj h).2
      rw [Bool.or_eq_false_iff] at begins
      have again := operator?_other found begins.1 breaks
      have begins' : beginsNegative previous c more = false := by
        simp [beginsNegative, breaks.not_digit]
      simp [again, begins.1, begins']

end Lexicon
end RuleFilter

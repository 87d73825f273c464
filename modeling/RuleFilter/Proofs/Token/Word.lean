import RuleFilter.Proofs.Token.Spelling

namespace RuleFilter
namespace Lexeme

/-! ## Quoted texts -/

theorem quoted_closed {quote : Char} {body : List Char} (inside : ∀ c ∈ body, c ≠ quote)
    (rest : List Char) :
    quoted quote (body ++ quote :: rest) = ⟨.value, quote :: (body ++ [quote]), rest⟩ := by
  have all : ∀ c ∈ body, (c != quote) = true := fun c member => bne_iff_ne.2 (inside c member)
  simp [quoted, List.takeWhile_append_of_pos all, List.dropWhile_append_of_pos all]

theorem quoted_open {quote : Char} {cs : List Char} (inside : ∀ c ∈ cs, c ≠ quote) :
    quoted quote cs = ⟨.unknown, quote :: cs, []⟩ := by
  have ended : cs.dropWhile (· != quote) = [] := by
    have all : ∀ c ∈ cs, (c != quote) = true := fun c member => bne_iff_ne.2 (inside c member)
    rw [← List.append_nil cs, List.dropWhile_append_of_pos all, List.dropWhile_nil]
  rw [quoted, ended]

theorem closed_or_open (quote : Char) (cs : List Char) :
    (∃ body rest, cs = body ++ quote :: rest ∧ ∀ c ∈ body, c ≠ quote) ∨ ∀ c ∈ cs, c ≠ quote := by
  induction cs with
  | nil => exact .inr nofun
  | cons c cs ih =>
    by_cases closes : c = quote
    · exact .inl ⟨[], cs, by rw [closes, List.nil_append], nofun⟩
    · rcases ih with ⟨body, rest, rfl, inside⟩ | inside
      · refine .inl ⟨c :: body, rest, rfl, ?_⟩
        simpa [closes] using inside
      · apply Or.inr
        simpa [closes] using inside

theorem quoted_split (quote : Char) (cs : List Char) :
    (quoted quote cs).text ++ (quoted quote cs).rest = quote :: cs := by
  rcases closed_or_open quote cs with ⟨body, rest, rfl, inside⟩ | inside
  · simp [quoted_closed inside]
  · simp [quoted_open inside]

theorem quoted_toLower {quote : Char} (is : Text.isQuote quote = true) (cs : List Char) :
    quoted quote (cs.map Char.toLower) = (quoted quote cs).toLower := by
  have same := Text.toLower_of_isQuote is
  have inside (cs : List Char) (others : ∀ c ∈ cs, c ≠ quote) :
      ∀ c ∈ cs.map Char.toLower, c ≠ quote := by
    simp only [List.mem_map, forall_exists_index, and_imp, forall_apply_eq_imp_iff₂]
    intro c member lower
    have quotes : Text.isQuote c = true := by rw [← Text.isQuote_toLower, lower, is]
    exact others c member ((Text.toLower_of_isQuote quotes).symm.trans lower)
  rcases closed_or_open quote cs with ⟨body, rest, rfl, others⟩ | others
  · rw [List.map_append, List.map_cons, same, quoted_closed (inside _ others),
      quoted_closed others]
    simp [toLower, same]
  · rw [quoted_open (inside _ others), quoted_open others]
    simp [toLower, same]

theorem quoted_reread {quote : Char} {cs tail more : List Char}
    (h : (quoted quote cs).text = quote :: tail)
    (last : (quoted quote cs).kind = .unknown → more = []) :
    quoted quote (tail ++ more) = ⟨(quoted quote cs).kind, quote :: tail, more⟩ := by
  rcases closed_or_open quote cs with ⟨body, rest, rfl, inside⟩ | inside
  · rw [quoted_closed inside] at h ⊢
    obtain rfl := (List.cons.inj h).2
    rw [List.append_assoc, List.singleton_append, quoted_closed inside]
  · rw [quoted_open inside] at h last ⊢
    obtain rfl := (List.cons.inj h).2
    rw [last rfl, List.append_nil, quoted_open inside]

/-! ## Words -/

private theorem takeWhile_append_of_head {α : Type} {p : α → Bool} {as bs : List α}
    (inside : ∀ a ∈ as, p a = true) (stops : bs.head?.any p = false) :
    (as ++ bs).takeWhile p = as := by
  rw [List.takeWhile_append_of_pos inside]
  cases bs with
  | nil => simp
  | cons b bs =>
    rw [List.takeWhile_cons_of_neg (by simpa using stops), List.append_nil]

private theorem dropWhile_append_of_head {α : Type} {p : α → Bool} {as bs : List α}
    (inside : ∀ a ∈ as, p a = true) (stops : bs.head?.any p = false) :
    (as ++ bs).dropWhile p = bs := by
  rw [List.dropWhile_append_of_pos inside]
  cases bs with
  | nil => rfl
  | cons b bs => exact List.dropWhile_cons_of_neg (by simpa using stops)

theorem splitWord_eq (c : Char) (cs : List Char) :
    splitWord c cs =
      let word := c :: cs.takeWhile Text.isWordChar
      let rest := cs.dropWhile Text.isWordChar
      if Text.isIntegerText word && rest.head? == some '.' && rest.tail.head?.any Char.isDigit then
        (word ++ '.' :: rest.tail.takeWhile Char.isDigit, rest.tail.dropWhile Char.isDigit)
      else (word, rest) := by
  unfold splitWord
  simp only
  split
  · next digit more behind =>
    rw [behind]
    cases integer : Text.isIntegerText (c :: cs.takeWhile Text.isWordChar) <;>
      cases is : digit.isDigit <;> simp [is]
  · next rest other =>
    rw [if_neg]
    simp only [Bool.and_eq_true, beq_iff_eq]
    rintro ⟨⟨-, point⟩, digit⟩
    obtain ⟨more, behind⟩ := List.head?_eq_some_iff.1 point
    rw [behind, List.tail_cons] at digit
    cases more with
    | nil => cases digit
    | cons d more => exact other d more behind

theorem isIntegerText_cons (c : Char) (cs : List Char) :
    Text.isIntegerText (c :: cs) = Text.isDigits (if c == '-' then cs else c :: cs) := by
  by_cases sign : c = '-'
  · subst sign
    rfl
  · rw [Text.isIntegerText, if_neg (by simpa using sign)]
    rintro _ ⟨⟩
    exact sign rfl

theorem isDigits_toLower (cs : List Char) :
    Text.isDigits (cs.map Char.toLower) = Text.isDigits cs := by
  simp [Text.isDigits, List.all_map, Function.comp_def]

theorem toLower_beq_minus (c : Char) : (c.toLower == '-') = (c == '-') :=
  Text.eq_toLower_of_letters (· == '-') (by decide) c

theorem toLower_beq_point (c : Char) : (c.toLower == '.') = (c == '.') :=
  Text.eq_toLower_of_letters (· == '.') (by decide) c

theorem isIntegerText_toLower (cs : List Char) :
    Text.isIntegerText (cs.map Char.toLower) = Text.isIntegerText cs := by
  cases cs with
  | nil => rfl
  | cons c cs =>
    rw [List.map_cons, isIntegerText_cons, isIntegerText_cons, toLower_beq_minus,
      ← isDigits_toLower (if c == '-' then cs else c :: cs)]
    split <;> simp

theorem splitWord_toLower (c : Char) (cs : List Char) :
    splitWord c.toLower (cs.map Char.toLower) =
      ((splitWord c cs).1.map Char.toLower, (splitWord c cs).2.map Char.toLower) := by
  have point (cs : List Char) :
      ((cs.map Char.toLower).head? == some '.') = (cs.head? == some '.') := by
    cases cs <;> simp [toLower_beq_point]
  have integer : Text.isIntegerText (c.toLower :: (cs.takeWhile Text.isWordChar).map Char.toLower) =
      Text.isIntegerText (c :: cs.takeWhile Text.isWordChar) := isIntegerText_toLower (c :: _)
  have digit (cs : List Char) :
      (cs.map Char.toLower).head?.any Char.isDigit = cs.head?.any Char.isDigit := by
    cases cs <;> simp
  simp only [splitWord_eq, List.takeWhile_map, List.dropWhile_map, Function.comp_def,
    Text.isWordChar_toLower, Text.isDigit_toLower, integer, point, ← List.map_tail, digit]
  split <;> simp

theorem splitWord_plain {c : Char} {letters rest : List Char}
    (inside : ∀ d ∈ letters, Text.isWordChar d = true)
    (stops : rest.head?.any Text.isWordChar = false)
    (plain : (Text.isIntegerText (c :: letters) && rest.head? == some '.' &&
      rest.tail.head?.any Char.isDigit) = false) :
    splitWord c (letters ++ rest) = (c :: letters, rest) := by
  rw [splitWord_eq, takeWhile_append_of_head inside stops, dropWhile_append_of_head inside stops]
  exact if_neg (Bool.eq_false_iff.1 plain)

theorem splitWord_fraction {c : Char} {letters digits rest : List Char}
    (inside : ∀ d ∈ letters, Text.isWordChar d = true)
    (integer : Text.isIntegerText (c :: letters) = true) (some_digit : digits ≠ [])
    (only : ∀ d ∈ digits, d.isDigit = true) (stops : rest.head?.any Char.isDigit = false) :
    splitWord c (letters ++ '.' :: (digits ++ rest)) =
      (c :: (letters ++ '.' :: digits), rest) := by
  have point : ('.' :: (digits ++ rest)).head?.any Text.isWordChar = false :=
    (by decide : Text.isWordChar '.' = false)
  have first : (digits ++ rest).head?.any Char.isDigit = true := by
    obtain ⟨d, digits, rfl⟩ := List.exists_cons_of_ne_nil some_digit
    exact only d List.mem_cons_self
  rw [splitWord_eq, takeWhile_append_of_head inside point, dropWhile_append_of_head inside point]
  simp only [integer, List.head?_cons, beq_self_eq_true, List.tail_cons, first, Bool.and_self,
    if_true, takeWhile_append_of_head only stops, dropWhile_append_of_head only stops,
    List.cons_append]

theorem splitWord_cases (c : Char) (cs : List Char) :
    (∃ letters rest, cs = letters ++ rest ∧ (∀ d ∈ letters, Text.isWordChar d = true) ∧
        rest.head?.any Text.isWordChar = false ∧ splitWord c cs = (c :: letters, rest)) ∨
      ∃ letters digits rest, cs = letters ++ '.' :: (digits ++ rest) ∧
        (∀ d ∈ letters, Text.isWordChar d = true) ∧ Text.isIntegerText (c :: letters) = true ∧
        digits ≠ [] ∧ (∀ d ∈ digits, d.isDigit = true) ∧
        splitWord c cs = (c :: (letters ++ '.' :: digits), rest) := by
  have inside : ∀ d ∈ cs.takeWhile Text.isWordChar, Text.isWordChar d = true := fun _ member =>
    List.all_eq_true.1 List.all_takeWhile _ member
  have whole : cs = cs.takeWhile Text.isWordChar ++ cs.dropWhile Text.isWordChar :=
    List.takeWhile_append_dropWhile.symm
  have split := splitWord_eq c cs
  simp only at split
  split at split
  · next fraction =>
    simp only [Bool.and_eq_true, beq_iff_eq] at fraction
    obtain ⟨⟨integer, point⟩, digit⟩ := fraction
    obtain ⟨more, behind⟩ := List.head?_eq_some_iff.1 point
    rw [behind, List.tail_cons] at digit split
    refine .inr ⟨_, more.takeWhile Char.isDigit, more.dropWhile Char.isDigit, ?_, inside, integer,
      ?_, fun _ member => List.all_eq_true.1 List.all_takeWhile _ member, split⟩
    · rw [List.takeWhile_append_dropWhile, ← behind, ← whole]
    · cases more with
      | nil => cases digit
      | cons d more =>
        rw [List.takeWhile_cons_of_pos (by simpa using digit)]
        exact List.cons_ne_nil _ _
  · refine .inl ⟨_, _, whole, inside, ?_, split⟩
    have stops := List.head?_dropWhile_not Text.isWordChar cs
    cases behind : cs.dropWhile Text.isWordChar with
    | nil => rfl
    | cons d rest => simpa [behind] using stops

theorem splitWord_split (c : Char) (cs : List Char) :
    (splitWord c cs).1 ++ (splitWord c cs).2 = c :: cs := by
  rcases splitWord_cases c cs with
    ⟨letters, rest, rfl, -, -, split⟩ | ⟨letters, digits, rest, rfl, -, -, -, -, split⟩
  · simp [split]
  · simp [split]

theorem splitWord_reread {c : Char} {cs tail more : List Char}
    (h : (splitWord c cs).1 = c :: tail) (breaks : Breaks more) :
    splitWord c (tail ++ more) = (c :: tail, more) := by
  rcases splitWord_cases c cs with
    ⟨letters, rest, rfl, inside, -, split⟩ |
    ⟨letters, digits, rest, rfl, inside, integer, some_digit, only, split⟩
  · rw [split] at h
    obtain rfl := (List.cons.inj h).2
    exact splitWord_plain inside breaks.not_wordChar (by simp [breaks.not_point])
  · rw [split] at h
    obtain rfl := (List.cons.inj h).2
    rw [List.append_assoc, List.cons_append]
    exact splitWord_fraction inside integer some_digit only breaks.not_digit

theorem isAlpha_of_isIntegerText {c : Char} {cs : List Char}
    (h : Text.isIntegerText (c :: cs) = true) : c.isAlpha = false := by
  rw [isIntegerText_cons] at h
  split at h
  · next sign =>
    rw [beq_iff_eq.1 sign]
    decide
  · simp only [Text.isDigits, List.all_cons, Bool.and_eq_true] at h
    exact Text.isAlpha_of_isDigit h.2.1

theorem splitWord_endsBefore (c : Char) (cs : List Char) :
    endsBefore (splitWord c cs).1 (splitWord c cs).2 = true := by
  rcases splitWord_cases c cs with
    ⟨letters, rest, -, -, stops, split⟩ | ⟨letters, digits, rest, -, -, integer, -, -, split⟩
  · simp [split, endsBefore, stops]
  · simp [split, endsBefore, isAlpha_of_isIntegerText integer]

theorem splitWord_digit {c : Char} {cs tail : List Char} (h : (splitWord c cs).1 = c :: tail)
    (digit : cs.head?.any Char.isDigit = true) : tail.head?.any Char.isDigit = true := by
  rcases splitWord_cases c cs with
    ⟨letters, rest, rfl, -, stops, split⟩ | ⟨letters, digits, rest, rfl, -, -, -, -, split⟩
  · rw [split] at h
    obtain rfl := (List.cons.inj h).2
    cases letters with
    | nil =>
      cases rest with
      | nil => cases digit
      | cons d rest =>
        have word := Text.isWordChar_of_isAlphanum (c := d) (by simp_all [Char.isAlphanum])
        exact absurd (stops.symm.trans word) Bool.false_ne_true
    | cons d letters => exact digit
  · rw [split] at h
    obtain rfl := (List.cons.inj h).2
    cases letters with
    | nil => exact absurd digit (by simp)
    | cons d letters => exact digit

end Lexeme
end RuleFilter

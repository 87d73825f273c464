import RuleFilter.Proofs.Token.Coverage
import RuleFilter.Proofs.Token.Mode

namespace RuleFilter

def Text.IsDecimal (cs : List Char) : Prop :=
  ∃ whole fraction, cs = whole ++ '.' :: fraction ∧ isIntegerText whole = true ∧
    isDigits fraction = true

/-- Whether the last character of a token and the first one of the next are both word characters. -/
def SplitsWord (first second : Token) : Prop :=
  first.text.toList.getLast?.any Text.isWordChar = true ∧
    second.text.toList.head?.any Text.isWordChar = true

instance (first second : Token) : Decidable (SplitsWord first second) :=
  inferInstanceAs (Decidable (_ ∧ _))

namespace Lexeme

theorem splitWord_stops (c : Char) (cs : List Char) :
    (splitWord c cs).2.head?.any Char.isDigit = false := by
  have stops (p : Char → Bool) (digits : ∀ d, d.isDigit = true → p d = true) (cs : List Char) :
      (cs.dropWhile p).head?.any Char.isDigit = false := by
    have first := List.head?_dropWhile_not p cs
    cases behind : cs.dropWhile p with
    | nil => rfl
    | cons d rest =>
      rw [behind] at first
      rw [List.head?_cons, Option.any_some, Bool.eq_false_iff]
      intro digit
      simp [digits d digit] at first
  rw [splitWord_eq]
  simp only
  split
  · exact stops _ (fun _ digit => digit) _
  · exact stops _ (fun _ => Text.isWordChar_of_isDigit) _

theorem spelling_ends : ∀ spelling ∈ operatorSpellings,
    spelling.1.toList.head?.any Char.isAlpha = true ∨
      (spelling.1.toList.map Char.toLower).getLast?.any Text.isWordChar = false := by
  decide

theorem getLast?_any_toLower (cs : List Char) :
    (cs.map Char.toLower).getLast?.any Text.isWordChar = cs.getLast?.any Text.isWordChar := by
  rw [List.getLast?_map]
  cases cs.getLast? <;> simp

theorem operator?_ends {cs : List Char} {lexeme : Lexeme} (found : operator? cs = some lexeme)
    (last : lexeme.text.getLast?.any Text.isWordChar = true) :
    lexeme.rest.head?.any Text.isWordChar = false := by
  obtain ⟨-, spelling, member, letters, -, ends⟩ := operator?_eq_some found
  rcases spelling_ends spelling member with word | sign
  · simpa [endsBefore, word] using ends
  · rw [← letters, getLast?_any_toLower, last] at sign
    cases sign

end Lexeme

namespace Text

theorem getLast?_any_of_isQuote {quote : Char} (is : isQuote quote = true) (body : List Char) :
    (quote :: (body ++ [quote])).getLast?.any isWordChar = false := by
  rw [← List.cons_append, List.getLast?_append]
  rcases isQuote_iff.1 is with rfl | rfl <;> rfl

theorem IsDecimal.getLast? {cs : List Char} (decimal : IsDecimal cs) :
    cs.getLast?.any isWordChar = true := by
  obtain ⟨whole, fraction, rfl, -, digits⟩ := decimal
  simp only [isDigits, Bool.and_eq_true, Bool.not_eq_true', List.isEmpty_eq_false_iff,
    List.all_eq_true] at digits
  obtain ⟨front, last, rfl⟩ := List.eq_nil_or_concat fraction |>.resolve_left digits.1
  rw [List.concat_eq_append, ← List.cons_append, ← List.append_assoc, List.getLast?_concat]
  exact isWordChar_of_isDigit (digits.2 last (by simp))

end Text

namespace Lexicon

variable {lexicon : Lexicon} {offset : Nat} {previous : Option TokenKind}

/-! ## Tokens at their places -/

theorem Reads.lexeme_at {cs : List Char} {tokens : List Token}
    (reads : lexicon.Reads offset previous cs tokens) {index : Nat} {token : Token}
    (here : tokens[index]? = some token) :
    ∃ before c behind lexeme, cs = before ++ c :: behind ∧
      lexicon.lexeme (kindBefore previous tokens index) c behind = lexeme ∧
      token.kind = lexeme.kind ∧ token.text = String.ofList lexeme.text ∧
      token.span.start = offset + Text.byteLength before ∧
      token.span.stop = token.span.start + Text.byteLength lexeme.text ∧
      lexicon.Reads token.span.stop (some token.kind) lexeme.rest (tokens.drop (index + 1)) := by
  induction reads generalizing index with
  | done => cases here
  | @blank offset _ c cs tokens _ _ ih =>
    obtain ⟨before, d, behind, lexeme, rfl, taken, kind, text, start, stop, others⟩ := ih here
    refine ⟨c :: before, d, behind, lexeme, rfl, taken, kind, text, ?_, stop, others⟩
    rw [start, Text.byteLength_cons, Nat.add_assoc]
  | @token offset previous c cs lexeme tokens _ found behind ih =>
    cases index with
    | zero =>
      obtain rfl := Option.some.inj here
      exact ⟨[], c, cs, lexeme, rfl, found, rfl, rfl, rfl, rfl, behind⟩
    | succ index =>
      obtain ⟨before, d, more, lexeme', split, taken, kind, text, start, stop, others⟩ := ih here
      have whole := lexicon.lexeme_split previous c cs
      rw [found, split, ← List.append_assoc] at whole
      refine ⟨lexeme.text ++ before, d, more, lexeme', whole.symm, ?_, kind, text, ?_, stop, others⟩
      · rwa [kindBefore_cons]
      · rw [start, Text.byteLength_append, Nat.add_assoc]

theorem Placed.leads {cs : List Char} {token : Token} (placed : Placed offset cs token)
    (touching : offset = token.span.start) : ∃ after, cs = token.text.toList ++ after := by
  obtain ⟨before, after, c, tail, rfl, -, -, start, -⟩ := placed
  cases before with
  | nil => exact ⟨after, rfl⟩
  | cons d before =>
    have positive := Text.byteLength_pos (List.cons_ne_nil d before)
    omega

/-! ## What stands at the end of a token -/

theorem lexeme_ends (c : Char) (cs : List Char) {lexeme : Lexeme}
    (taken : lexicon.lexeme previous c cs = lexeme)
    (last : lexeme.text.getLast?.any Text.isWordChar = true)
    (next : lexeme.rest.head?.any Text.isWordChar = true) :
    Text.IsDecimal lexeme.text ∧ lexeme.rest.head?.any Char.isDigit = false := by
  subst taken
  revert last next
  refine @lexeme_elim _ _ _ _ (fun lexeme => lexeme.text.getLast?.any Text.isWordChar = true →
    lexeme.rest.head?.any Text.isWordChar = true →
    Text.IsDecimal lexeme.text ∧ lexeme.rest.head?.any Char.isDigit = false) ?_ ?_ ?_ ?_ ?_ ?_
  · intro last
    exact absurd last (by decide : Text.isWordChar '(' ≠ true)
  · intro last
    exact absurd last (by decide : Text.isWordChar ')' ≠ true)
  · intro is last next
    rcases Lexeme.closed_or_open c cs with ⟨body, rest, rfl, inside⟩ | inside
    · rw [Lexeme.quoted_closed inside, Text.getLast?_any_of_isQuote is] at last
      cases last
    · rw [Lexeme.quoted_open inside] at next
      cases next
  · intro lexeme found last next
    exact absurd ((Lexeme.operator?_ends found last).symm.trans next) Bool.false_ne_true
  -- Only a word ends with a word character, and only behind a fraction the word goes on.
  · intro _ _ text rest split _ next
    have stops := Lexeme.splitWord_stops c cs
    rcases Lexeme.splitWord_cases c cs with ⟨letters, _, -, -, ends, split'⟩ |
      ⟨letters, digits, _, -, -, integer, some_digit, only, split'⟩
    · obtain ⟨rfl, rfl⟩ := Prod.mk.inj (split.symm.trans split')
      exact absurd (ends.symm.trans next) Bool.false_ne_true
    · obtain ⟨rfl, rfl⟩ := Prod.mk.inj (split.symm.trans split')
      rw [split'] at stops
      refine ⟨⟨c :: letters, digits, rfl, integer, ?_⟩, stops⟩
      simpa [Text.isDigits, some_digit] using only
  · intro _ other last
    simp [other] at last

/-- Of two tokens that touch, the first ends in the middle of a word only if it is a number with a
fraction and the second begins with a word character that is no digit, and then it does. -/
theorem splitsWord_iff (lexicon : Lexicon) (text : String) {index : Nat} {first second : Token}
    (here : (lexicon.tokens text)[index]? = some first)
    (next : (lexicon.tokens text)[index + 1]? = some second)
    (touching : first.span.stop = second.span.start) :
    SplitsWord first second ↔
      Text.IsDecimal first.text.toList ∧
        ∃ c ∈ second.text.toList.head?, Text.isWordChar c = true ∧ c.isDigit = false := by
  obtain ⟨before, c, behind, lexeme, -, taken, -, spelled, -, -, others⟩ :=
    (lexicon.reads_tokens text).lexeme_at here
  have member : second ∈ (lexicon.tokens text).drop (index + 1) := by
    refine List.mem_iff_getElem?.2 ⟨0, ?_⟩
    rwa [List.getElem?_drop]
  obtain ⟨after, rest⟩ := (others.placed second member).leads touching
  obtain ⟨d, tail, begins⟩ : ∃ d tail, second.text.toList = d :: tail := by
    obtain ⟨_, _, d, tail, -, begins, -⟩ := others.placed second member
    exact ⟨d, tail, begins⟩
  rw [begins, List.cons_append] at rest
  simp only [SplitsWord, spelled, String.toList_ofList, begins, List.head?_cons, Option.any_some,
    Option.mem_def, Option.some.injEq, exists_eq_left']
  constructor
  · rintro ⟨last, word⟩
    have ends := lexeme_ends c behind taken last (by rw [rest]; exact word)
    rw [rest] at ends
    exact ⟨ends.1, word, ends.2⟩
  · rintro ⟨decimal, word, -⟩
    exact ⟨decimal.getLast?, word⟩

def ageLexicon : Lexicon := ⟨⟨[⟨"Age", .integer, none⟩], rfl⟩, true⟩

theorem tokens_fraction : ageLexicon.tokens "Age > 1.5abc" =
    [⟨.property, "Age", ⟨0, 3⟩, none⟩, ⟨.operator, ">", ⟨4, 5⟩, none⟩,
      ⟨.value, "1.5", ⟨6, 9⟩, none⟩, ⟨.unknown, "abc", ⟨9, 12⟩, none⟩] :=
  reads_iff.1 (.token rfl rfl (.blank rfl (.token rfl rfl (.blank rfl (.token rfl rfl
    (.token rfl rfl .done))))))

theorem splitsWord_iff_fraction :
    let tokens := ageLexicon.tokens "Age > 1.5abc"
    let first : Token := ⟨.value, "1.5", ⟨6, 9⟩, none⟩
    let second : Token := ⟨.unknown, "abc", ⟨9, 12⟩, none⟩
    tokens[2]? = some first ∧ tokens[2 + 1]? = some second ∧ first.span.stop = second.span.start ∧
      (SplitsWord first second ↔ Text.IsDecimal first.text.toList ∧
        ∃ c ∈ second.text.toList.head?, Text.isWordChar c = true ∧ c.isDigit = false) := by
  intro tokens first second
  have here : tokens[2]? = some first := by rw [show tokens = _ from tokens_fraction]; rfl
  have next : tokens[2 + 1]? = some second := by rw [show tokens = _ from tokens_fraction]; rfl
  exact ⟨here, next, rfl, splitsWord_iff ageLexicon "Age > 1.5abc" here next rfl⟩

theorem not_words_whole :
    ¬ ∀ (lexicon : Lexicon) (text : String) (index : Nat) (first second : Token),
      (lexicon.tokens text)[index]? = some first → (lexicon.tokens text)[index + 1]? = some second →
      first.span.stop = second.span.start → ¬ SplitsWord first second := by
  intro claimed
  have whole := claimed ageLexicon "Age > 1.5abc" 2
  rw [tokens_fraction] at whole
  exact whole _ _ rfl rfl rfl (by decide)

end Lexicon
end RuleFilter

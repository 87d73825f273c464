import RuleFilter.Proofs.Text.Casing
import RuleFilter.Token.Lexer

namespace RuleFilter

namespace Text

theorem dropLetters?_eq_some_iff {head cs rest : List Char} :
    dropLetters? head cs = some rest ↔
      ∃ taken, cs = taken ++ rest ∧ taken.map Char.toLower = head.map Char.toLower := by
  induction head generalizing cs with
  | nil => simp [dropLetters?, eq_comm]
  | cons letter head ih =>
    cases cs with
    | nil => simp [dropLetters?]
    | cons c cs =>
      simp only [dropLetters?, beq_iff_eq, List.map_cons]
      constructor
      · intro h
        split at h
        · next same =>
          obtain ⟨taken, rfl, letters⟩ := ih.1 h
          exact ⟨c :: taken, rfl, by rw [List.map_cons, same, letters]⟩
        · cases h
      · rintro ⟨taken, split, spells⟩
        obtain ⟨d, taken, rfl, same, letters⟩ := List.map_eq_cons_iff.1 spells
        cases split
        rw [if_pos same.symm]
        exact ih.2 ⟨taken, rfl, letters⟩

theorem startsWithLetters_iff {text head : String} : startsWithLetters text head = true ↔
    ∃ front rest, text = front ++ rest ∧ sameLetters front head = true := by
  rw [startsWithLetters, Option.isSome_iff_exists]
  simp only [dropLetters?_eq_some_iff, sameLetters_iff]
  constructor
  · rintro ⟨rest, taken, split, letters⟩
    refine ⟨String.ofList taken, String.ofList rest, ?_, by rwa [foldCase, String.toList_ofList]⟩
    rw [← String.ofList_append, ← split, String.ofList_toList]
  · rintro ⟨front, rest, rfl, letters⟩
    exact ⟨rest.toList, front.toList, String.toList_append, letters⟩

theorem dropLetters?_toLower (head cs : List Char) :
    dropLetters? head (cs.map Char.toLower) =
      (dropLetters? head cs).map (List.map Char.toLower) := by
  induction head generalizing cs with
  | nil => rfl
  | cons letter head ih =>
    cases cs with
    | nil => rfl
    | cons c cs =>
      simp only [List.map_cons, dropLetters?, toLower_toLower, ih]
      split <;> rfl

theorem dropLetters?_append {head : List Char} (cs : List Char) {rest : List Char}
    (other : ∀ c ∈ rest.head?, ∀ letter ∈ head, letter.toLower ≠ c.toLower) :
    dropLetters? head (cs ++ rest) = (dropLetters? head cs).map (· ++ rest) := by
  induction head generalizing cs with
  | nil => rfl
  | cons letter head ih =>
    cases cs with
    | nil =>
      cases rest with
      | nil => rfl
      | cons c rest => simp [dropLetters?, other c rfl letter List.mem_cons_self]
    | cons c cs =>
      simp only [List.cons_append, dropLetters?]
      rw [ih cs fun d member l listed => other d member l (List.mem_cons_of_mem _ listed)]
      split <;> rfl

end Text

namespace Lexeme

def toLower (lexeme : Lexeme) : Lexeme :=
  ⟨lexeme.kind, lexeme.text.map Char.toLower, lexeme.rest.map Char.toLower⟩

def append (lexeme : Lexeme) (more : List Char) : Lexeme :=
  { lexeme with rest := lexeme.rest ++ more }

/-- Whether characters begin, if at all, with a blank or a closing parenthesis. -/
def Breaks (rest : List Char) : Prop :=
  ∀ c ∈ rest.head?, Text.isBlank c = true ∨ c = ')'

theorem Breaks.head?_any {rest : List Char} (breaks : Breaks rest) {p : Char → Bool}
    (blank : ∀ c, Text.isBlank c = true → p c = false) (closing : p ')' = false) :
    rest.head?.any p = false := by
  cases rest with
  | nil => rfl
  | cons c rest =>
    rcases breaks c rfl with separates | rfl
    · exact blank c separates
    · exact closing

theorem Breaks.not_wordChar {rest : List Char} (breaks : Breaks rest) :
    rest.head?.any Text.isWordChar = false :=
  breaks.head?_any (fun _ blank => Text.isWordChar_of_isBlank blank) (by decide)

theorem Breaks.not_digit {rest : List Char} (breaks : Breaks rest) :
    rest.head?.any Char.isDigit = false :=
  breaks.head?_any (fun _ blank => Text.isDigit_of_isBlank blank) (by decide)

theorem Breaks.not_point {rest : List Char} (breaks : Breaks rest) :
    (rest.head? == some '.') = false := by
  have other (c : Char) (blank : Text.isBlank c = true) : (c == '.') = false := by
    rw [beq_eq_false_iff_ne]
    rintro rfl
    revert blank
    decide
  have point := breaks.head?_any other (by decide)
  cases rest with
  | nil => rfl
  | cons c rest => simpa using point

/-! ## Spellings -/

theorem spelled?_eq_some_iff {cs spelling : List Char} {kind : TokenKind} {lexeme : Lexeme} :
    spelled? cs spelling kind = some lexeme ↔
      cs = lexeme.text ++ lexeme.rest ∧
        lexeme.text.map Char.toLower = spelling.map Char.toLower ∧ lexeme.kind = kind ∧
        endsBefore spelling lexeme.rest = true := by
  simp only [spelled?, Option.bind_eq_some_iff, Option.ite_none_right_eq_some, Option.some.injEq]
  constructor
  · rintro ⟨rest, dropped, ends, rfl⟩
    obtain ⟨taken, rfl, letters⟩ := Text.dropLetters?_eq_some_iff.1 dropped
    have : spelling.length = taken.length := by
      simpa using (congrArg List.length letters).symm
    simp [this, letters, ends]
  · obtain ⟨_, text, rest⟩ := lexeme
    rintro ⟨rfl, letters, rfl, ends⟩
    have : spelling.length = text.length := by
      simpa using (congrArg List.length letters).symm
    exact ⟨rest, Text.dropLetters?_eq_some_iff.2 ⟨text, rfl, letters⟩, ends, by simp [this]⟩

theorem endsBefore_toLower (spelling rest : List Char) :
    endsBefore spelling (rest.map Char.toLower) = endsBefore spelling rest := by
  cases rest <;> simp [endsBefore]

theorem spelled?_toLower (cs spelling : List Char) (kind : TokenKind) :
    spelled? (cs.map Char.toLower) spelling kind = (spelled? cs spelling kind).map toLower := by
  unfold spelled?
  rw [Text.dropLetters?_toLower]
  cases Text.dropLetters? spelling cs with
  | none => rfl
  | some rest =>
    simp only [Option.map_some, Option.bind_some, endsBefore_toLower, List.map_take.symm]
    split <;> rfl

theorem operator?_toLower (cs : List Char) :
    operator? (cs.map Char.toLower) = (operator? cs).map toLower := by
  simp only [operator?, spelled?_toLower, List.map_findSome?]
  rfl

theorem spelling_inside : ∀ spelling ∈ operatorSpellings, spelling.1.toList.all fun letter =>
    !Text.isBlank letter && letter.toLower != ')' := by
  decide

theorem endsBefore_append (spelling rest : List Char) {more : List Char} (breaks : Breaks more) :
    endsBefore spelling (rest ++ more) = endsBefore spelling rest := by
  cases rest with
  | nil => simp [endsBefore, breaks.not_wordChar]
  | cons c rest => rfl

theorem spelled?_append {spelling : String × TokenKind} (member : spelling ∈ operatorSpellings)
    (cs : List Char) {more : List Char} (breaks : Breaks more) :
    spelled? (cs ++ more) spelling.1.toList spelling.2 =
      (spelled? cs spelling.1.toList spelling.2).map (·.append more) := by
  have other : ∀ c ∈ more.head?, ∀ letter ∈ spelling.1.toList, letter.toLower ≠ c.toLower := by
    intro c first letter listed same
    have within := List.all_eq_true.1 (spelling_inside spelling member) letter listed
    simp only [Bool.and_eq_true, Bool.not_eq_true', bne_iff_ne] at within
    obtain ⟨inside, not_close⟩ := within
    rcases breaks c first with blank | rfl
    · rw [← Text.isBlank_toLower, ← same, Text.isBlank_toLower, inside] at blank
      cases blank
    · exact not_close same
  unfold spelled?
  rw [Text.dropLetters?_append cs other]
  cases dropped : Text.dropLetters? spelling.1.toList cs with
  | none => rfl
  | some rest =>
    have within := Text.length_of_dropLetters? dropped
    simp only [Option.map_some, Option.bind_some, endsBefore_append _ _ breaks]
    rw [List.take_append_of_le_length (by omega)]
    split <;> rfl

private theorem findSome?_congr {α β : Type} {f g : α → Option β} {as : List α}
    (same : ∀ a ∈ as, f a = g a) : as.findSome? f = as.findSome? g := by
  induction as with
  | nil => rfl
  | cons a as ih =>
    rw [List.findSome?_cons, List.findSome?_cons, same a List.mem_cons_self,
      ih fun b member => same b (List.mem_cons_of_mem _ member)]

theorem operator?_append (cs : List Char) {more : List Char} (breaks : Breaks more) :
    operator? (cs ++ more) = (operator? cs).map (·.append more) := by
  rw [operator?, operator?, List.map_findSome?]
  exact findSome?_congr fun spelling member => spelled?_append member cs breaks

theorem operator?_eq_some {cs : List Char} {lexeme : Lexeme} (h : operator? cs = some lexeme) :
    cs = lexeme.text ++ lexeme.rest ∧ ∃ spelling ∈ operatorSpellings,
      lexeme.text.map Char.toLower = spelling.1.toList.map Char.toLower ∧
        lexeme.kind = spelling.2 ∧ endsBefore spelling.1.toList lexeme.rest = true := by
  obtain ⟨spelling, member, found⟩ := List.exists_of_findSome?_eq_some h
  obtain ⟨split, letters, kind, ends⟩ := spelled?_eq_some_iff.1 found
  exact ⟨split, spelling, member, letters, kind, ends⟩

theorem operator?_kind {cs : List Char} {lexeme : Lexeme} (h : operator? cs = some lexeme) :
    lexeme.kind ≠ .openParen := by
  obtain ⟨-, spelling, member, -, kind, -⟩ := operator?_eq_some h
  rw [kind]
  exact (by decide : ∀ spelling ∈ operatorSpellings, spelling.2 ≠ .openParen) spelling member

theorem endsBefore_congr {a b : List Char} (same : a.map Char.toLower = b.map Char.toLower)
    (rest : List Char) : endsBefore a rest = endsBefore b rest := by
  have alphas (cs : List Char) :
      cs.head?.any Char.isAlpha = (cs.map Char.toLower).head?.any Char.isAlpha := by
    cases cs <;> simp
  rw [endsBefore, endsBefore, alphas a, alphas b, same]

theorem spelled?_eq_none_alone {text rest spelling : List Char} {kind : TokenKind}
    (ends : endsBefore text rest = true) (h : spelled? (text ++ rest) spelling kind = none) :
    spelled? text spelling kind = none := by
  rw [Option.eq_none_iff_forall_ne_some] at h ⊢
  intro lexeme found
  obtain ⟨split, letters, same, ends'⟩ := spelled?_eq_some_iff.1 found
  refine h ⟨kind, lexeme.text, lexeme.rest ++ rest⟩ (spelled?_eq_some_iff.2 ⟨?_, letters, rfl, ?_⟩)
  · rw [split, List.append_assoc]
  · cases behind : lexeme.rest with
    | nil =>
      rw [behind, List.append_nil] at split
      rwa [List.nil_append, ← endsBefore_congr letters, ← split]
    | cons c more => rwa [behind] at ends'

theorem operator?_alone {lexeme : Lexeme}
    (h : operator? (lexeme.text ++ lexeme.rest) = some lexeme) :
    operator? lexeme.text = some ⟨lexeme.kind, lexeme.text, []⟩ := by
  obtain ⟨before, spelling, after, listed, found, earlier⟩ := List.findSome?_eq_some_iff.1 h
  obtain ⟨-, letters, kind, ends⟩ := spelled?_eq_some_iff.1 found
  rw [← endsBefore_congr letters] at ends
  refine List.findSome?_eq_some_iff.2 ⟨before, spelling, after, listed, ?_, ?_⟩
  · exact spelled?_eq_some_iff.2 ⟨(List.append_nil _).symm, letters, kind, by simp [endsBefore]⟩
  · exact fun other member => spelled?_eq_none_alone ends (earlier other member)

theorem operator?_eq_none_alone {text rest : List Char} (ends : endsBefore text rest = true)
    (h : operator? (text ++ rest) = none) : operator? text = none := by
  rw [operator?, List.findSome?_eq_none_iff] at h ⊢
  exact fun spelling member => spelled?_eq_none_alone ends (h spelling member)

theorem operator?_reread {cs more : List Char} {lexeme : Lexeme}
    (found : operator? cs = some lexeme) (breaks : Breaks more) :
    operator? (lexeme.text ++ more) = some ⟨lexeme.kind, lexeme.text, more⟩ := by
  have split := (operator?_eq_some found).1
  have alone := operator?_alone (split ▸ found)
  rw [operator?_append _ breaks, alone]
  rfl

theorem operator?_eq_none_reread {text rest more : List Char}
    (ends : endsBefore text rest = true) (h : operator? (text ++ rest) = none)
    (breaks : Breaks more) : operator? (text ++ more) = none := by
  rw [operator?_append _ breaks, operator?_eq_none_alone ends h]
  rfl

end Lexeme
end RuleFilter

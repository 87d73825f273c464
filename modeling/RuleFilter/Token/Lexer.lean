import RuleFilter.Schema.Basic
import RuleFilter.Text.Blank
import RuleFilter.Text.Bytes
import RuleFilter.Token.Basic

/-!
# Reading tokens

`Lexicon.tokens` reads the tokens of a rule from left to right. Blanks separate tokens and belong to
none; every other character belongs to exactly one, since a character that begins nothing else is an
unknown token by itself. `Lexicon.lexeme` takes one token off the characters, which are fewer
afterwards.

The class of a word depends on the schema, and on the class of the token before it: behind a
comparison a bare word can be a value, and a minus sign can begin a number.
-/

namespace RuleFilter

structure Lexeme where
  kind : TokenKind
  text : List Char
  rest : List Char

structure Lexicon where
  schema : Schema
  permissive : Bool

/-- The spellings of operators. A spelling stands in front of every other that it begins with. -/
def operatorSpellings : List (String × TokenKind) := [
  (Comparator.startsWith.symbol, .operator),
  (Comparator.contains.symbol, .operator),
  (Comparator.endsWith.symbol, .operator),
  (Connective.and.symbol, .logical),
  (Connective.not.symbol, .logical),
  (Comparator.eq.symbol, .operator),
  (Comparator.ne.symbol, .operator),
  (Comparator.ge.symbol, .operator),
  (Comparator.le.symbol, .operator),
  (Connective.or.symbol, .logical),
  (Comparator.gt.symbol, .operator),
  (Comparator.lt.symbol, .operator)]

namespace Lexeme

def endsBefore (spelling rest : List Char) : Bool :=
  !(spelling.head?.any Char.isAlpha && rest.head?.any Text.isWordChar)

def spelled? (cs : List Char) (spelling : List Char) (kind : TokenKind) : Option Lexeme :=
  (Text.dropLetters? spelling cs).bind fun rest =>
    if endsBefore spelling rest then some ⟨kind, cs.take spelling.length, rest⟩ else none

def operator? (cs : List Char) : Option Lexeme :=
  operatorSpellings.findSome? fun (spelling, kind) => spelled? cs spelling.toList kind

def quoted (quote : Char) (cs : List Char) : Lexeme :=
  match cs.dropWhile (· != quote) with
  | [] => ⟨.unknown, quote :: cs, []⟩
  | _ :: rest => ⟨.value, quote :: (cs.takeWhile (· != quote) ++ [quote]), rest⟩

def splitWord (c : Char) (cs : List Char) : List Char × List Char :=
  let word := c :: cs.takeWhile Text.isWordChar
  let rest := cs.dropWhile Text.isWordChar
  match rest with
  | '.' :: digit :: more =>
    if Text.isIntegerText word && digit.isDigit then
      (word ++ '.' :: digit :: more.takeWhile Char.isDigit, more.dropWhile Char.isDigit)
    else (word, rest)
  | _ => (word, rest)

end Lexeme

def isLiteralWord (word : String) : Bool :=
  Text.sameLetters word "true" || Text.sameLetters word "false" || Text.isNumberText word.toList

/-- Whether a minus sign here begins a number: it does behind a comparison if a digit follows. -/
def beginsNegative (previous : Option TokenKind) (c : Char) (cs : List Char) : Bool :=
  c == '-' && cs.head?.any Char.isDigit && previous == some .operator

namespace Lexicon

def classify (lexicon : Lexicon) (previous : Option TokenKind) (word : String) : TokenKind :=
  if isLiteralWord word then .value
  else if lexicon.schema.contains word then .property
  else if lexicon.permissive && previous == some .operator then .value
  else .unknown

def lexeme (lexicon : Lexicon) (previous : Option TokenKind) (c : Char) (cs : List Char) : Lexeme :=
  if c == '(' then ⟨.openParen, [c], cs⟩
  else if c == ')' then ⟨.closeParen, [c], cs⟩
  else if Text.isQuote c then Lexeme.quoted c cs
  else
    match Lexeme.operator? (c :: cs) with
    | some lexeme => lexeme
    | none =>
      if Text.isWordChar c || beginsNegative previous c cs then
        let (word, rest) := Lexeme.splitWord c cs
        ⟨lexicon.classify previous (String.ofList word), word, rest⟩
      else ⟨.unknown, [c], cs⟩

end Lexicon

/-! ## Every token takes characters -/

theorem length_dropWhile_le {α : Type} (p : α → Bool) (as : List α) :
    (as.dropWhile p).length ≤ as.length :=
  (List.dropWhile_suffix p).length_le

theorem Lexeme.operator?_rest_length {cs : List Char} {lexeme : Lexeme}
    (h : Lexeme.operator? cs = some lexeme) : lexeme.rest.length < cs.length := by
  obtain ⟨⟨spelling, kind⟩, member, h⟩ := List.exists_of_findSome?_eq_some h
  obtain ⟨rest, dropped, h⟩ := Option.bind_eq_some_iff.1 h
  split at h
  · cases h
    have positive : 0 < spelling.toList.length := by
      revert member
      simp only [operatorSpellings, List.mem_cons, Prod.mk.injEq, List.not_mem_nil, or_false]
      rintro (⟨rfl, _⟩ | ⟨rfl, _⟩ | ⟨rfl, _⟩ | ⟨rfl, _⟩ | ⟨rfl, _⟩ | ⟨rfl, _⟩ | ⟨rfl, _⟩ |
        ⟨rfl, _⟩ | ⟨rfl, _⟩ | ⟨rfl, _⟩ | ⟨rfl, _⟩ | ⟨rfl, _⟩) <;> decide
    have := Text.length_of_dropLetters? dropped
    simp only
    omega
  · cases h

theorem Lexeme.quoted_rest_length (quote : Char) (cs : List Char) :
    (Lexeme.quoted quote cs).rest.length ≤ cs.length := by
  have := length_dropWhile_le (· != quote) cs
  unfold Lexeme.quoted
  split
  · exact Nat.zero_le _
  · next behind =>
    rw [behind] at this
    simp only [List.length_cons] at this
    simp only
    omega

theorem Lexeme.splitWord_rest_length (c : Char) (cs : List Char) :
    (Lexeme.splitWord c cs).2.length ≤ cs.length := by
  have word := length_dropWhile_le Text.isWordChar cs
  unfold Lexeme.splitWord
  simp only
  split
  · next digit more behind =>
    rw [behind, List.length_cons, List.length_cons] at word
    have fraction := length_dropWhile_le Char.isDigit more
    split
    · exact Nat.le_trans fraction (by omega)
    · exact behind ▸ word
  · exact word

theorem Lexicon.lexeme_rest_length (lexicon : Lexicon) (previous : Option TokenKind) (c : Char)
    (cs : List Char) : (lexicon.lexeme previous c cs).rest.length ≤ cs.length := by
  unfold Lexicon.lexeme
  split
  · exact Nat.le_refl _
  split
  · exact Nat.le_refl _
  split
  · exact Lexeme.quoted_rest_length c cs
  split
  · next found => exact Nat.le_of_lt_succ (Lexeme.operator?_rest_length found)
  split
  · exact Lexeme.splitWord_rest_length c cs
  · exact Nat.le_refl _

/-! ## The tokens of a rule -/

namespace Lexicon

def tokensFrom (lexicon : Lexicon) (offset : Nat) (previous : Option TokenKind)
    (taken : List Token) : List Char → List Token
  | [] => taken.reverse
  | c :: cs =>
    if Text.isBlank c then lexicon.tokensFrom (offset + c.utf8Size) previous taken cs
    else
      let lexeme := lexicon.lexeme previous c cs
      let stop := offset + Text.byteLength lexeme.text
      let token := ⟨lexeme.kind, String.ofList lexeme.text, ⟨offset, stop⟩, none⟩
      lexicon.tokensFrom stop (some lexeme.kind) (token :: taken) lexeme.rest
termination_by cs => cs.length
decreasing_by
  · simp
  · exact Nat.lt_succ_of_le (lexicon.lexeme_rest_length previous c cs)

def tokens (lexicon : Lexicon) (text : String) : List Token :=
  lexicon.tokensFrom 0 none [] text.toList

end Lexicon
end RuleFilter

import RuleFilter.Proofs.Token.Coverage
import RuleFilter.Proofs.Token.Passage

namespace RuleFilter

section

variable {α : Type} {p : α → Bool} {more : List α} (stops : more.head?.any p = false)

include stops

private theorem takeWhile_extend (as : List α) : (as ++ more).takeWhile p = as.takeWhile p := by
  induction as with
  | nil =>
    cases more with
    | nil => rfl
    | cons a more => exact List.takeWhile_cons_of_neg (by simpa using stops)
  | cons a as ih => rw [List.cons_append, List.takeWhile_cons, List.takeWhile_cons, ih]

private theorem dropWhile_extend (as : List α) :
    (as ++ more).dropWhile p = as.dropWhile p ++ more := by
  induction as with
  | nil =>
    cases more with
    | nil => rfl
    | cons a more => exact List.dropWhile_cons_of_neg (by simpa using stops)
  | cons a as ih =>
    rw [List.cons_append, List.dropWhile_cons, List.dropWhile_cons, ih]
    split <;> rfl

private theorem head?_any_extend (as : List α) : (as ++ more).head?.any p = as.head?.any p := by
  cases as with
  | nil => exact stops
  | cons a as => rfl

end

namespace Lexeme

/-! ## Single tokens -/

theorem quoted_extend {quote : Char} {cs : List Char} (closed : quote ∈ cs) (more : List Char) :
    quoted quote (cs ++ more) = (quoted quote cs).append more := by
  rcases closed_or_open quote cs with ⟨body, rest, rfl, inside⟩ | inside
  · rw [List.append_assoc, List.cons_append, quoted_closed inside, quoted_closed inside]
    rfl
  · exact absurd rfl (inside quote closed)

theorem splitWord_extend (c : Char) (cs : List Char) {more : List Char} (breaks : Breaks more) :
    splitWord c (cs ++ more) = ((splitWord c cs).1, (splitWord c cs).2 ++ more) := by
  have digit := breaks.not_digit
  rw [splitWord_eq, splitWord_eq, takeWhile_extend breaks.not_wordChar,
    dropWhile_extend breaks.not_wordChar]
  cases cs.dropWhile Text.isWordChar with
  | nil => simp [breaks.not_point]
  | cons d rest =>
    have same : (Text.isIntegerText (c :: cs.takeWhile Text.isWordChar) &&
          (d :: rest ++ more).head? == some '.' &&
            (d :: rest ++ more).tail.head?.any Char.isDigit) =
        (Text.isIntegerText (c :: cs.takeWhile Text.isWordChar) && (d :: rest).head? == some '.' &&
          (d :: rest).tail.head?.any Char.isDigit) :=
      congrArg (_ && ·) (head?_any_extend digit rest)
    by_cases fraction : (Text.isIntegerText (c :: cs.takeWhile Text.isWordChar) &&
        (d :: rest).head? == some '.' && (d :: rest).tail.head?.any Char.isDigit) = true
    · have taken : (d :: rest ++ more).tail.takeWhile Char.isDigit =
          rest.takeWhile Char.isDigit := takeWhile_extend digit rest
      have dropped : (d :: rest ++ more).tail.dropWhile Char.isDigit =
          rest.dropWhile Char.isDigit ++ more := dropWhile_extend digit rest
      rw [if_pos fraction, if_pos (same.trans fraction), taken, dropped]
      rfl
    · rw [if_neg fraction, if_neg fun other => fraction (same.symm.trans other)]

end Lexeme

namespace Lexicon

variable {lexicon : Lexicon} {previous : Option TokenKind} {offset : Nat}

theorem lexeme_of_isQuote {c : Char} (is : Text.isQuote c = true) (cs : List Char) :
    lexicon.lexeme previous c cs = Lexeme.quoted c cs := by
  rcases Text.isQuote_iff.1 is with rfl | rfl <;> rfl

theorem lexeme_extend {c : Char} {cs more : List Char} (breaks : Lexeme.Breaks more)
    (closed : Text.isQuote c = true → c ∈ cs) :
    lexicon.lexeme previous c (cs ++ more) = (lexicon.lexeme previous c cs).append more := by
  cases is : Text.isQuote c with
  | true => rw [lexeme_of_isQuote is, lexeme_of_isQuote is, Lexeme.quoted_extend (closed is)]
  | false =>
    have operator := Lexeme.operator?_append (c :: cs) breaks
    have negative : beginsNegative previous c (cs ++ more) = beginsNegative previous c cs := by
      rw [beginsNegative, beginsNegative, head?_any_extend breaks.not_digit]
    rw [List.cons_append] at operator
    unfold lexeme
    simp only [is, Bool.false_eq_true, if_false, operator, negative,
      Lexeme.splitWord_extend c cs breaks]
    split
    · rfl
    split
    · rfl
    cases Lexeme.operator? (c :: cs) with
    | some lexeme => rfl
    | none =>
      simp only [Option.map_none]
      split <;> rfl

theorem lexeme_extend_of_blank {c b : Char} {cs : List Char} (blank : Text.isBlank b = true)
    (behind : b ∈ (lexicon.lexeme previous c cs).rest) (more : List Char) :
    lexicon.lexeme previous c (cs ++ more) = (lexicon.lexeme previous c cs).append more := by
  obtain ⟨front, back, rest⟩ := List.append_of_mem behind
  obtain ⟨tail, text⟩ := lexicon.lexeme_text previous c cs
  have split := lexicon.lexeme_split previous c cs
  rw [text, rest, List.cons_append, ← List.append_assoc] at split
  have chars := (List.cons.inj split).2
  have closed : Text.isQuote c = true → c ∈ tail ++ front := by
    intro is
    rw [lexeme_of_isQuote is] at text rest
    rcases Lexeme.closed_or_open c cs with ⟨body, others, rfl, inside⟩ | inside
    · rw [Lexeme.quoted_closed inside] at text
      simp [← (List.cons.inj text).2]
    · rw [Lexeme.quoted_open inside] at rest
      simp at rest
  have breaks (others : List Char) : Lexeme.Breaks (b :: others) := by
    rintro c ⟨⟩
    exact .inl blank
  have longer := @lexeme_extend lexicon previous c (tail ++ front) _ (breaks (back ++ more)) closed
  have same := @lexeme_extend lexicon previous c (tail ++ front) _ (breaks back) closed
  rw [chars] at same
  rw [← chars, List.append_assoc, List.cons_append, longer, chars, same]
  simp [Lexeme.append]

/-! ## Several tokens -/

theorem Reads.exists_blank {cs : List Char} {tokens : List Token}
    (reads : lexicon.Reads offset previous cs tokens) (some_char : cs ≠ [])
    (spaced : ∀ last ∈ tokens.getLast?, last.span.stop < offset + Text.byteLength cs) :
    ∃ b ∈ cs, Text.isBlank b = true := by
  induction reads with
  | done => exact absurd rfl some_char
  | blank blank _ _ => exact ⟨_, List.mem_cons_self, blank⟩
  | @token offset previous c cs lexeme tokens visible found behind ih =>
    subst found
    have split := lexicon.lexeme_split previous c cs
    have width := congrArg Text.byteLength split
    rw [Text.byteLength_append] at width
    rw [← width, ← Nat.add_assoc] at spaced
    have rest : (lexicon.lexeme previous c cs).rest ≠ [] := by
      intro ended
      rw [ended] at behind spaced
      obtain rfl := behind.eq_nil
      exact Nat.lt_irrefl _ (spaced _ rfl)
    obtain ⟨b, member, blank⟩ := ih rest fun last ends => spaced last (by
      rw [List.getLast?_cons, Option.mem_def.1 ends]
      rfl)
    exact ⟨b, split ▸ List.mem_append_right _ member, blank⟩

theorem Reads.extend {cs : List Char} {tokens : List Token} {last : Token}
    (reads : lexicon.Reads offset previous cs tokens) (ends : tokens.getLast? = some last)
    (spaced : last.span.stop < offset + Text.byteLength cs) {more : List Char} {rest : List Token}
    (behind : lexicon.Reads (offset + Text.byteLength cs) (some last.kind) more rest) :
    lexicon.Reads offset previous (cs ++ more) (tokens ++ rest) := by
  induction reads with
  | done => cases ends
  | blank blank _ ih =>
    rw [Text.byteLength_cons, ← Nat.add_assoc] at spaced behind
    exact .blank blank (ih ends spaced behind)
  | @token offset previous c cs lexeme tokens visible found behind' ih =>
    have split := lexicon.lexeme_split previous c cs
    have width := congrArg Text.byteLength split
    rw [found, Text.byteLength_append] at width
    rw [← width, ← Nat.add_assoc] at spaced behind
    -- The last token ends before the characters do, so that this one leaves some of them.
    have rest_ne : lexeme.rest ≠ [] := by
      intro ended
      rw [ended] at behind' spaced
      obtain rfl := behind'.eq_nil
      obtain rfl := Option.some.inj ends
      exact Nat.lt_irrefl _ spaced
    have inner : ∀ last ∈ tokens.getLast?,
        last.span.stop < offset + Text.byteLength lexeme.text + Text.byteLength lexeme.rest := by
      intro last' ends'
      rw [List.getLast?_cons, Option.mem_def.1 ends'] at ends
      obtain rfl := Option.some.inj ends
      exact spaced
    obtain ⟨b, member, blank⟩ := behind'.exists_blank rest_ne inner
    subst found
    have taken := lexeme_extend_of_blank blank member more
    have others : lexicon.Reads (offset + Text.byteLength (lexicon.lexeme previous c cs).text)
        (some (lexicon.lexeme previous c cs).kind)
        ((lexicon.lexeme previous c cs).rest ++ more) (tokens ++ rest) := by
      cases tokens with
      | nil =>
        obtain rfl := Option.some.inj ends
        exact Reads.behind_blanks behind'.blank_of_nil behind
      | cons token tokens => exact ih ends spaced behind
    exact @Reads.token lexicon offset previous c (cs ++ more)
      ((lexicon.lexeme previous c cs).append more) (tokens ++ rest) visible taken others

theorem tokens_extend {text more : String} {last : Token} {rest : List Token}
    (ends : (lexicon.tokens text).getLast? = some last)
    (spaced : last.span.stop < text.utf8ByteSize)
    (behind : lexicon.Reads text.utf8ByteSize (some last.kind) more.toList rest) :
    lexicon.tokens (text ++ more) = lexicon.tokens text ++ rest := by
  rw [← Text.byteLength_toList, ← Nat.zero_add (Text.byteLength _)] at spaced behind
  have reads := (lexicon.reads_tokens text).extend ends spaced behind
  rw [← String.toList_append] at reads
  exact reads_iff.1 reads

theorem tokens_extend_iff {text more : String} {last : Token} {rest : List Token}
    (ends : (lexicon.tokens text).getLast? = some last)
    (spaced : last.span.stop < text.utf8ByteSize) :
    lexicon.tokens (text ++ more) = lexicon.tokens text ++ rest ↔
      lexicon.Reads text.utf8ByteSize (some last.kind) more.toList rest := by
  constructor
  · intro read
    obtain ⟨tokens, behind⟩ :=
      lexicon.exists_reads text.utf8ByteSize (some last.kind) more.toList
    rw [tokens_extend ends spaced behind] at read
    rwa [← List.append_cancel_left read]
  · exact tokens_extend ends spaced

end Lexicon
end RuleFilter

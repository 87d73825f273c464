import RuleFilter.Proofs.Token.Boundary
import RuleFilter.Proofs.Token.Extension

namespace RuleFilter

def Text.IsUnclosed (cs : List Char) : Prop :=
  ∃ quote body, cs = quote :: body ∧ isQuote quote = true ∧ quote ∉ body

theorem kindBefore_length (previous : Option TokenKind) (tokens : List Token) :
    kindBefore previous tokens tokens.length = (tokens.getLast?.map Token.kind).or previous := by
  cases tokens with
  | nil => rfl
  | cons token tokens => simp [kindBefore, List.getLast?_eq_getElem?]

namespace Lexicon

variable {lexicon : Lexicon} {previous : Option TokenKind} {offset : Nat}

/-! ## What stands in front -/

theorem lexeme_congr {previous' : Option TokenKind}
    (behind : (previous == some .operator) = (previous' == some .operator)) (c : Char)
    (cs : List Char) : lexicon.lexeme previous c cs = lexicon.lexeme previous' c cs := by
  have classify (word : String) :
      lexicon.classify previous word = lexicon.classify previous' word := by
    rw [Lexicon.classify, Lexicon.classify, behind]
  simp only [lexeme, beginsNegative_congr behind, classify]

theorem Reads.behind {cs : List Char} {tokens : List Token}
    (reads : lexicon.Reads offset previous cs tokens) {previous' : Option TokenKind}
    (behind : (previous == some .operator) = (previous' == some .operator)) :
    lexicon.Reads offset previous' cs tokens := by
  induction reads with
  | done => exact .done
  | blank blank _ ih => exact .blank blank (ih behind)
  | token visible found others _ =>
    rw [lexeme_congr behind] at found
    exact .token visible found others

/-! ## Two texts -/

theorem mem_of_isQuote {c : Char} {cs : List Char} (is : Text.isQuote c = true)
    (closed : (lexicon.lexeme previous c cs).rest = [] →
      ¬ Text.IsUnclosed (lexicon.lexeme previous c cs).text) : c ∈ cs := by
  rw [lexeme_of_isQuote is] at closed
  rcases Lexeme.closed_or_open c cs with ⟨body, rest, rfl, -⟩ | inside
  · simp
  · rw [Lexeme.quoted_open inside] at closed
    exact absurd ⟨c, cs, rfl, is, fun member => inside c member rfl⟩ (closed rfl)

theorem Reads.append {cs more : List Char} {tokens rest : List Token}
    (reads : lexicon.Reads offset previous cs tokens)
    (closed : ∀ last ∈ tokens.getLast?, ¬ Text.IsUnclosed last.text.toList)
    (breaks : Lexeme.Breaks more)
    (behind : lexicon.Reads (offset + Text.byteLength cs)
      (kindBefore previous tokens tokens.length) more rest) :
    lexicon.Reads offset previous (cs ++ more) (tokens ++ rest) := by
  induction reads with
  | done => exact behind
  | blank blank _ ih =>
    rw [Text.byteLength_cons, ← Nat.add_assoc] at behind
    exact .blank blank (ih closed behind)
  | @token offset previous c cs lexeme tokens visible found others ih =>
    subst found
    have width := congrArg Text.byteLength (lexicon.lexeme_split previous c cs)
    rw [Text.byteLength_append] at width
    rw [← width, ← Nat.add_assoc, List.length_cons, kindBefore_cons] at behind
    have inner : ∀ last ∈ tokens.getLast?, ¬ Text.IsUnclosed last.text.toList := by
      intro last ends
      refine closed last ?_
      rw [List.getLast?_cons, Option.mem_def.1 ends]
      rfl
    -- Only the last token can be a quoted text without its end, and it would go on.
    have alone : (lexicon.lexeme previous c cs).rest = [] →
        ¬ Text.IsUnclosed (lexicon.lexeme previous c cs).text := by
      intro ended
      rw [ended] at others
      obtain rfl := others.eq_nil
      simpa using closed
    have taken : lexicon.lexeme previous c (cs ++ more) =
        (lexicon.lexeme previous c cs).append more :=
      lexeme_extend breaks fun is => mem_of_isQuote is alone
    exact @Reads.token lexicon offset previous c (cs ++ more)
      ((lexicon.lexeme previous c cs).append more) (tokens ++ rest) visible taken (ih inner behind)

/-- Where a text ends neither with an operator nor in a quoted text without its closing quote, and
blanks stand behind it, the tokens of what follows are those that it has alone, further on. -/
theorem tokens_append (lexicon : Lexicon) (text gap more : String) (some_blank : gap ≠ "")
    (blank : ∀ c ∈ gap.toList, Text.isBlank c = true)
    (ends : ∀ last ∈ (lexicon.tokens text).getLast?,
      last.kind ≠ .operator ∧ ¬ Text.IsUnclosed last.text.toList) :
    lexicon.tokens (text ++ gap ++ more) =
      lexicon.tokens text ++
        (lexicon.tokens more).map (Token.moved (text ++ gap).utf8ByteSize) := by
  have breaks : Lexeme.Breaks (gap.toList ++ more.toList) := by
    obtain ⟨c, cs, chars⟩ := List.exists_cons_of_ne_nil (mt String.toList_eq_nil_iff.1 some_blank)
    rw [chars] at blank ⊢
    rintro _ ⟨⟩
    exact .inl (blank c List.mem_cons_self)
  have plain : ((none : Option TokenKind) == some .operator) =
      (kindBefore none (lexicon.tokens text) (lexicon.tokens text).length == some .operator) := by
    rw [kindBefore_length]
    cases last : (lexicon.tokens text).getLast? with
    | none => rfl
    | some last' => simp [(ends last' last).1]
  have width : (text ++ gap).utf8ByteSize =
      0 + Text.byteLength text.toList + Text.byteLength gap.toList := by
    rw [String.utf8ByteSize_append, Text.byteLength_toList, Text.byteLength_toList, Nat.zero_add]
  have moved := ((lexicon.reads_tokens more).moved (text ++ gap).utf8ByteSize).behind plain
  rw [Nat.zero_add, width] at moved
  have read := (lexicon.reads_tokens text).append (fun last is => (ends last is).2) breaks
    (.behind_blanks blank moved)
  rw [← List.append_assoc, ← String.toList_append, ← String.toList_append, ← width] at read
  exact reads_iff.1 read

theorem tokens_append_fraction :
    let text := "Age > 1.5abc"
    let gap := " \n"
    let more := "-1 or 'x"
    gap ≠ "" ∧ (∀ c ∈ gap.toList, Text.isBlank c = true) ∧
      (∀ last ∈ (ageLexicon.tokens text).getLast?,
        last.kind ≠ .operator ∧ ¬ Text.IsUnclosed last.text.toList) ∧
      ageLexicon.tokens (text ++ gap ++ more) =
        ageLexicon.tokens text ++ (ageLexicon.tokens more).map (Token.moved 14) := by
  intro text gap more
  have some_blank : gap ≠ "" := by decide
  have blank : ∀ c ∈ gap.toList, Text.isBlank c = true := by
    have chars : gap.toList = [' ', '\n'] := by decide
    rw [chars]
    exact List.forall_mem_cons.2 ⟨rfl, List.forall_mem_singleton.2 rfl⟩
  have ends : ∀ last ∈ (ageLexicon.tokens text).getLast?,
      last.kind ≠ .operator ∧ ¬ Text.IsUnclosed last.text.toList := by
    rw [show ageLexicon.tokens text = _ from tokens_fraction]
    rintro _ ⟨⟩
    refine ⟨by decide, ?_⟩
    rintro ⟨quote, body, chars, is, -⟩
    obtain rfl : 'a' = quote := (List.cons.inj chars).1
    cases is
  exact ⟨some_blank, blank, ends, tokens_append ageLexicon text gap more some_blank blank ends⟩

end Lexicon
end RuleFilter

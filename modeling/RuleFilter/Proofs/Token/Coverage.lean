import RuleFilter.Proofs.Text.Bytes
import RuleFilter.Proofs.Token.Reading

namespace RuleFilter

def skippedFrom (tokens : List Token) (offset : Nat) (cs : List Char) : List (Nat × Char) :=
  (Text.placesFrom offset cs).filter fun place => !tokens.any (·.span.covers place.1)

def skipped (tokens : List Token) (text : String) : List (Nat × Char) :=
  skippedFrom tokens 0 text.toList

def sizeOfPlaces : List Token → Nat
  | [] => 0
  | token :: tokens => token.span.size + sizeOfPlaces tokens

theorem skippedFrom_cons {tokens : List Token} {offset : Nat}
    (behind : ∀ token ∈ tokens, offset < token.span.start) (c : Char) (cs : List Char) :
    skippedFrom tokens offset (c :: cs) =
      (offset, c) :: skippedFrom tokens (offset + c.utf8Size) cs := by
  have outside : (!tokens.any (·.span.covers offset)) = true := by
    simp only [Bool.not_eq_true', List.any_eq_false, Span.covers, Bool.and_eq_true,
      decide_eq_true_eq, not_and]
    intro token member
    have := behind token member
    omega
  simp only [skippedFrom, Text.placesFrom, List.filter_cons, outside, if_true]

theorem skippedFrom_token {token : Token} {tokens : List Token} {offset : Nat} {word : List Char}
    (start : token.span.start = offset) (stop : token.span.stop = offset + Text.byteLength word)
    (rest : List Char) :
    skippedFrom (token :: tokens) offset (word ++ rest) =
      skippedFrom tokens token.span.stop rest := by
  have inside : ∀ place ∈ Text.placesFrom offset word, token.span.covers place.1 = true := by
    intro place member
    have := Text.le_of_mem_placesFrom member
    simp only [Span.covers, start, stop, Bool.and_eq_true, decide_eq_true_eq]
    exact this
  have outside : ∀ place ∈ Text.placesFrom token.span.stop rest,
      token.span.covers place.1 = false := by
    intro place member
    have := Text.le_of_mem_placesFrom member
    simp only [Span.covers, Bool.and_eq_false_iff, decide_eq_false_iff_not]
    omega
  have none : (Text.placesFrom offset word).filter
      (fun place => !(token :: tokens).any (·.span.covers place.1)) = [] := by
    rw [List.filter_eq_nil_iff]
    intro place member
    simp [inside place member]
  rw [skippedFrom, Text.placesFrom_append, List.filter_append, none, List.nil_append, ← stop,
    skippedFrom]
  apply List.filter_congr
  intro place member
  simp [outside place member]

namespace Lexicon

/-! ## The places of tokens -/

/-- A token stands at its place among the characters from an offset on, and begins with a character
that is no blank. -/
def Placed (offset : Nat) (cs : List Char) (token : Token) : Prop :=
  ∃ before after c tail, cs = before ++ (token.text.toList ++ after) ∧
    token.text.toList = c :: tail ∧ Text.isBlank c = false ∧
    token.span.start = offset + Text.byteLength before ∧
    token.span.stop = token.span.start + Text.byteLength token.text.toList

theorem Placed.behind {offset : Nat} {front cs : List Char} {token : Token}
    (placed : Placed (offset + Text.byteLength front) cs token) :
    Placed offset (front ++ cs) token := by
  obtain ⟨before, after, c, tail, rfl, text, visible, start, stop⟩ := placed
  refine ⟨front ++ before, after, c, tail, (List.append_assoc ..).symm, text, visible, ?_, stop⟩
  rw [start, Text.byteLength_append, Nat.add_assoc]

theorem Placed.start_lt_stop {offset : Nat} {cs : List Char} {token : Token}
    (placed : Placed offset cs token) :
    offset ≤ token.span.start ∧ token.span.start < token.span.stop ∧
      token.span.stop ≤ offset + Text.byteLength cs := by
  obtain ⟨before, after, c, tail, rfl, text, -, start, stop⟩ := placed
  have positive := @Text.byteLength_pos token.text.toList (by simp [text])
  simp only [Text.byteLength_append]
  omega

theorem Placed.hasAt {text : String} {token : Token} (placed : Placed 0 text.toList token) :
    Text.HasAt text token.span token.text := by
  obtain ⟨before, after, c, tail, split, -, -, start, stop⟩ := placed
  refine ⟨String.ofList before, String.ofList after, ?_, ?_, ?_⟩
  · rw [← String.toList_inj, split]
    simp
  · rw [Text.utf8ByteSize_ofList, start, Nat.zero_add]
  · rw [String.utf8ByteSize_append, Text.utf8ByteSize_ofList, stop, start, Nat.zero_add,
      Text.byteLength_toList]

theorem Reads.placed {lexicon : Lexicon} {offset : Nat} {previous : Option TokenKind}
    {cs : List Char} {tokens : List Token} (reads : lexicon.Reads offset previous cs tokens) :
    ∀ token ∈ tokens, Placed offset cs token := by
  induction reads with
  | done => nofun
  | @blank offset _ c cs tokens _ _ ih =>
    intro token member
    have width : Text.byteLength [c] = c.utf8Size := Nat.zero_add _
    exact @Placed.behind _ [c] _ _ (by rw [width]; exact ih token member)
  | @token offset previous c cs lexeme tokens visible found _ ih =>
    subst found
    have split := lexicon.lexeme_split previous c cs
    obtain ⟨tail, text⟩ := lexicon.lexeme_text previous c cs
    rw [List.forall_mem_cons]
    constructor
    · exact ⟨[], (lexicon.lexeme previous c cs).rest, c, tail, by simp [split], by simp [text],
        visible, rfl, by simp⟩
    · intro token member
      rw [← split]
      exact (ih token member).behind

theorem Reads.pairwise {lexicon : Lexicon} {offset : Nat} {previous : Option TokenKind}
    {cs : List Char} {tokens : List Token} (reads : lexicon.Reads offset previous cs tokens) :
    tokens.Pairwise fun a b => a.span.stop ≤ b.span.start := by
  induction reads with
  | done => exact .nil
  | blank _ _ ih => exact ih
  | token _ _ behind ih =>
    exact .cons (fun token member => (behind.placed token member).start_lt_stop.1) ih

theorem Reads.pairwise_start {lexicon : Lexicon} {offset : Nat} {previous : Option TokenKind}
    {cs : List Char} {tokens : List Token} (reads : lexicon.Reads offset previous cs tokens) :
    tokens.Pairwise fun a b => a.span.start < b.span.start := by
  refine reads.pairwise.imp_of_mem ?_
  intro a b member _ apart
  have := (reads.placed a member).start_lt_stop
  omega

theorem Reads.eq_of_span {lexicon : Lexicon} {offset : Nat} {previous : Option TokenKind}
    {cs : List Char} {tokens : List Token} (reads : lexicon.Reads offset previous cs tokens)
    {i j : Nat} {a b : Token} (here : tokens[i]? = some a) (there : tokens[j]? = some b)
    (same : a.span = b.span) : i = j := by
  obtain ⟨within, rfl⟩ := List.getElem?_eq_some_iff.1 here
  obtain ⟨within', rfl⟩ := List.getElem?_eq_some_iff.1 there
  have ordered := List.pairwise_iff_getElem.1 reads.pairwise_start
  rcases Nat.lt_trichotomy i j with earlier | rfl | later
  · have := ordered i j within within' earlier
    rw [same] at this
    exact absurd this (Nat.lt_irrefl _)
  · rfl
  · have := ordered j i within' within later
    rw [same] at this
    exact absurd this (Nat.lt_irrefl _)

/-! ## What lies between them -/

theorem Reads.behind_blanks {lexicon : Lexicon} {gap cs : List Char} {offset : Nat}
    {previous : Option TokenKind} {tokens : List Token}
    (blank : ∀ c ∈ gap, Text.isBlank c = true)
    (reads : lexicon.Reads (offset + Text.byteLength gap) previous cs tokens) :
    lexicon.Reads offset previous (gap ++ cs) tokens := by
  induction gap generalizing offset with
  | nil => exact reads
  | cons c gap ih =>
    rw [List.forall_mem_cons] at blank
    rw [Text.byteLength_cons, ← Nat.add_assoc] at reads
    exact .blank blank.1 (ih blank.2 reads)

theorem Reads.blank_of_nil {lexicon : Lexicon} {cs : List Char} {offset : Nat}
    {previous : Option TokenKind} (reads : lexicon.Reads offset previous cs []) :
    ∀ c ∈ cs, Text.isBlank c = true := by
  generalize none : ([] : List Token) = tokens at reads
  induction reads with
  | done => nofun
  | blank blank _ ih => exact List.forall_mem_cons.2 ⟨blank, ih none⟩
  | token _ _ _ => cases none

theorem Reads.skipped {lexicon : Lexicon} {offset : Nat} {previous : Option TokenKind}
    {cs : List Char} {tokens : List Token} (reads : lexicon.Reads offset previous cs tokens) :
    (∀ place ∈ skippedFrom tokens offset cs, Text.isBlank place.2 = true) ∧
      sizeOfPlaces tokens + Text.byteLength ((skippedFrom tokens offset cs).map Prod.snd) =
        Text.byteLength cs := by
  induction reads with
  | done => exact ⟨nofun, rfl⟩
  | @blank offset _ c cs tokens blank behind ih =>
    have later : ∀ token ∈ tokens, offset < token.span.start := by
      intro token member
      have := (behind.placed token member).start_lt_stop.1
      have := c.utf8Size_pos
      omega
    rw [skippedFrom_cons later, List.forall_mem_cons, List.map_cons, Text.byteLength_cons,
      Text.byteLength_cons]
    refine ⟨⟨blank, ih.1⟩, ?_⟩
    have total := ih.2
    simp only
    omega
  | @token offset previous c cs lexeme tokens _ found _ ih =>
    subst found
    have split := lexicon.lexeme_split previous c cs
    rw [← split, skippedFrom_token rfl rfl, sizeOfPlaces, Text.byteLength_append]
    refine ⟨ih.1, ?_⟩
    have total := ih.2
    rw [Span.size_of_le (Nat.le_add_right ..)]
    simp only
    omega

/-- The tokens of a rule stand in it at their places, which are not empty, and one behind the other;
each begins with a character that is no blank, and all characters that belong to none are blank. So
the lengths of the tokens and of what is skipped add up to that of the rule. -/
theorem tokens_cover (lexicon : Lexicon) (text : String) :
    (∀ token ∈ lexicon.tokens text,
      token.span.start < token.span.stop ∧ token.span.stop ≤ text.utf8ByteSize ∧
        Text.HasAt text token.span token.text ∧
        ∃ c ∈ token.text.toList.head?, Text.isBlank c = false) ∧
    ((lexicon.tokens text).Pairwise fun a b =>
      a.span.start < b.span.start ∧ a.span.stop ≤ b.span.start) ∧
    (∀ place ∈ skipped (lexicon.tokens text) text, Text.isBlank place.2 = true) ∧
    sizeOfPlaces (lexicon.tokens text) +
      Text.byteLength ((skipped (lexicon.tokens text) text).map Prod.snd) =
        text.utf8ByteSize := by
  have reads := lexicon.reads_tokens text
  have inside := fun token member => (reads.placed token member).start_lt_stop
  refine ⟨?_, ?_, reads.skipped.1, ?_⟩
  · intro token member
    obtain ⟨before, after, c, tail, -, first, visible, -, -⟩ := reads.placed token member
    have bounds := inside token member
    rw [Text.byteLength_toList, Nat.zero_add] at bounds
    exact ⟨bounds.2.1, bounds.2.2, (reads.placed token member).hasAt, c, by simp [first], visible⟩
  · refine reads.pairwise.imp_of_mem ?_
    intro a b member _ apart
    have := inside a member
    exact ⟨by omega, apart⟩
  · rw [← Text.byteLength_toList]
    exact reads.skipped.2

end Lexicon
end RuleFilter

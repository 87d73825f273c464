import RuleFilter.Proofs.Token.Boundary

namespace RuleFilter

def Text.IsSpelling (text : String) : Prop :=
  (Comparator.ofSymbol? text).isSome = true ∨ (Connective.ofSymbol? text).isSome = true

structure Lexicon.Tells (lexicon : Lexicon) (text : String) (tokens : List Token) (index : Nat)
    (token : Token) : Prop where
  operator : token.kind = .operator → (Comparator.ofSymbol? token.text).isSome = true
  logical : token.kind = .logical → (Connective.ofSymbol? token.text).isSome = true
  longest : token.kind = .operator ∨ token.kind = .logical →
    ∀ stop written, Text.HasAt text ⟨token.span.start, stop⟩ written → Text.IsSpelling written →
      stop ≤ token.span.stop
  property : token.kind = .property → lexicon.schema.contains token.text = true
  value : token.kind = .value →
    IsLiteral token.text.toList ∨
      lexicon.permissive = true ∧ kindBefore none tokens index = some .operator ∧
        lexicon.schema.contains token.text = false ∧ Text.isWord token.text.toList = true
  openParen : token.kind = .openParen ↔ token.text = "("
  closeParen : token.kind = .closeParen ↔ token.text = ")"
  unterminated : token.kind = .unknown →
    ∀ quote ∈ token.text.toList.head?, Text.isQuote quote = true →
      index + 1 = tokens.length ∧ token.span.stop = text.utf8ByteSize ∧
        token.text.toList.count quote = 1

/-! ## Spellings -/

theorem operatorSpellings_pairwise :
    operatorSpellings.Pairwise fun earlier later =>
      ¬ Text.foldCase earlier.1 <+: Text.foldCase later.1 := by
  decide

theorem not_alpha_of_begins : ∀ spelling ∈ operatorSpellings, ∀ longer ∈ operatorSpellings,
    Text.foldCase spelling.1 <+: Text.foldCase longer.1 → spelling = longer ∨
      longer.1.toList.head?.any Char.isAlpha = false := by
  decide

theorem Text.IsSpelling.exists_spelling {written : String} (spells : IsSpelling written) :
    ∃ spelling ∈ operatorSpellings, foldCase spelling.1 = foldCase written := by
  have comparators : ∀ op ∈ Comparator.all, (op.symbol, .operator) ∈ operatorSpellings := by decide
  have connectives : ∀ op ∈ Connective.all, (op.symbol, .logical) ∈ operatorSpellings := by decide
  rcases spells with is | is
  · obtain ⟨op, found⟩ := Option.isSome_iff_exists.1 is
    have same := List.find?_some found
    exact ⟨_, comparators op (List.mem_of_find?_eq_some found), sameLetters_iff.1 same⟩
  · obtain ⟨op, found⟩ := Option.isSome_iff_exists.1 is
    have same := List.find?_some found
    exact ⟨_, connectives op (List.mem_of_find?_eq_some found), sameLetters_iff.1 same⟩

namespace Lexeme

theorem operator?_longest {cs : List Char} {lexeme : Lexeme} (found : operator? cs = some lexeme)
    {written after : List Char} (split : cs = written ++ after) {other : String × TokenKind}
    (member : other ∈ operatorSpellings)
    (spells : Text.foldCase other.1 = written.map Char.toLower) : written <+: lexeme.text := by
  obtain ⟨front, spelling, back, listed, taken, earlier⟩ := List.findSome?_eq_some_iff.1 found
  obtain ⟨split', spells', -, -⟩ := spelled?_eq_some_iff.1 taken
  refine List.prefix_of_prefix_length_le ⟨_, split.symm⟩ ⟨_, split'.symm⟩ ?_
  by_contra longer
  have begins : Text.foldCase spelling.1 <+: Text.foldCase other.1 := by
    rw [spells, Text.foldCase, ← spells']
    refine List.IsPrefix.map _ (List.prefix_of_prefix_length_le ⟨_, split'.symm⟩ ⟨_, split.symm⟩ ?_)
    omega
  have here : spelling ∈ operatorSpellings := by simp [listed]
  have different : spelling ≠ other := by
    rintro rfl
    have := congrArg List.length (spells'.trans spells)
    simp only [List.length_map] at this
    omega
  -- A longer spelling is no word, so that it is found wherever its letters are.
  have sign := (not_alpha_of_begins spelling here other member begins).resolve_left different
  have matched : spelled? cs other.1.toList other.2 = some ⟨other.2, written, after⟩ :=
    spelled?_eq_some_iff.2 ⟨split, spells.symm, rfl, by simp [endsBefore, sign]⟩
  rw [listed] at member
  rcases List.mem_append.1 member with before | behind
  · cases (earlier other before).symm.trans matched
  · have behind := (List.mem_cons.1 behind).resolve_left different.symm
    have ordered := operatorSpellings_pairwise
    rw [listed] at ordered
    exact List.rel_of_pairwise_cons (List.pairwise_append.1 ordered).2.1 behind begins

end Lexeme

/-! ## Values -/

theorem isLiteral_of_isLiteralWord {cs : List Char}
    (literal : isLiteralWord (String.ofList cs) = true) : IsLiteral cs := by
  simp only [isLiteralWord, Bool.or_eq_true, String.toList_ofList] at literal
  rcases literal with (truth | falsity) | number
  · exact .truth true truth
  · exact .truth false falsity
  · unfold Text.isNumberText at number
    split at number
    · exact .integer number
    · next point fraction behind =>
      have split := @List.takeWhile_append_dropWhile _ (· != '.') cs
      have mark := List.head?_dropWhile_not (· != '.') cs
      rw [behind] at split mark
      obtain rfl : point = '.' := by simpa using mark
      rw [Bool.and_eq_true] at number
      rw [← split]
      exact .decimal number.1 number.2

namespace Lexicon

variable {lexicon : Lexicon} {previous : Option TokenKind} {c : Char} {cs : List Char}

theorem classify_eq_value {word : String} (value : lexicon.classify previous word = .value) :
    isLiteralWord word = true ∨ lexicon.permissive = true ∧ previous = some .operator ∧
      lexicon.schema.contains word = false := by
  unfold classify at value
  split at value
  · next literal => exact .inl literal
  split at value
  · cases value
  split at value
  · next unknown bare =>
    simp only [Bool.and_eq_true, beq_iff_eq] at bare
    exact .inr ⟨bare.1, bare.2, Bool.eq_false_iff.2 unknown⟩
  · cases value

theorem lexeme_value (value : (lexicon.lexeme previous c cs).kind = .value) :
    IsLiteral (lexicon.lexeme previous c cs).text ∨
      lexicon.permissive = true ∧ previous = some .operator ∧
        lexicon.schema.contains (String.ofList (lexicon.lexeme previous c cs).text) = false ∧
        Text.isWord (lexicon.lexeme previous c cs).text = true := by
  revert value
  refine @lexeme_elim _ _ _ _ (fun lexeme => lexeme.kind = .value → IsLiteral lexeme.text ∨
    lexicon.permissive = true ∧ previous = some .operator ∧
      lexicon.schema.contains (String.ofList lexeme.text) = false ∧
      Text.isWord lexeme.text = true) nofun nofun ?_ ?_ ?_ ?_
  · intro is value
    rcases Lexeme.closed_or_open c cs with ⟨body, rest, rfl, inside⟩ | inside
    · rw [Lexeme.quoted_closed inside]
      exact .inl (.quoted is fun member => inside c member rfl)
    · rw [Lexeme.quoted_open inside] at value
      cases value
  · intro lexeme found value
    obtain ⟨-, spelling, member, -, kind, -⟩ := Lexeme.operator?_eq_some found
    have other : ∀ spelling ∈ operatorSpellings, spelling.2 ≠ .value := by decide
    exact absurd (kind.symm.trans value) (other spelling member)
  · intro _ begins text rest split value
    have word := @isWord_or_isLiteralWord previous c cs begins
    rw [split] at word
    rcases classify_eq_value value with literal | ⟨permissive, behind, unknown⟩
    · exact .inl (isLiteral_of_isLiteralWord literal)
    · refine word.symm.imp isLiteral_of_isLiteralWord fun word => ?_
      exact ⟨permissive, behind, unknown, word⟩
  · intro _ _ value
    cases value

/-! ## Parentheses -/

theorem lexeme_paren (lexicon : Lexicon) (previous : Option TokenKind) (c : Char) (cs : List Char) :
    ((lexicon.lexeme previous c cs).text = ['('] →
        (lexicon.lexeme previous c cs).kind = .openParen) ∧
      ((lexicon.lexeme previous c cs).text = [')'] →
        (lexicon.lexeme previous c cs).kind = .closeParen) := by
  obtain ⟨tail, begins⟩ := lexicon.lexeme_text previous c cs
  constructor <;>
  · intro text
    obtain ⟨rfl, -⟩ := List.cons.inj (begins.symm.trans text)
    rfl

/-! ## All tokens -/

theorem operator?_of_kind
    (kind : (lexicon.lexeme previous c cs).kind = .operator ∨
      (lexicon.lexeme previous c cs).kind = .logical) :
    Lexeme.operator? (c :: cs) = some (lexicon.lexeme previous c cs) := by
  revert kind
  refine @lexeme_elim _ _ _ _ (fun lexeme => lexeme.kind = .operator ∨ lexeme.kind = .logical →
    Lexeme.operator? (c :: cs) = some lexeme) (by simp) (by simp) ?_ ?_ ?_ (by simp)
  · intro _ kind
    rcases quoted_kind c cs with other | other <;> simp [other] at kind
  · exact fun lexeme found _ => found
  · intro _ _ text _ _ kind
    rcases lexicon.classify_cases previous (String.ofList text) with other | other | other <;>
      simp [other] at kind

section

variable {offset index : Nat} {tokens : List Token} {token : Token}
  (reads : lexicon.Reads offset previous cs tokens) (here : tokens[index]? = some token)

include reads here

theorem Reads.kind_of_paren :
    (token.text = "(" → token.kind = .openParen) ∧
      (token.text = ")" → token.kind = .closeParen) := by
  obtain ⟨before, c, behind, lexeme, -, rfl, kind, spelled, -⟩ := reads.lexeme_at here
  have paren := lexicon.lexeme_paren (kindBefore previous tokens index) c behind
  rw [kind, spelled]
  refine ⟨fun is => paren.1 ?_, fun is => paren.2 ?_⟩ <;>
  · rw [← String.toList_ofList (l := Lexeme.text _), is]
    rfl

theorem Reads.value_at (value : token.kind = .value) :
    IsLiteral token.text.toList ∨
      lexicon.permissive = true ∧ kindBefore previous tokens index = some .operator ∧
        lexicon.schema.contains token.text = false ∧ Text.isWord token.text.toList = true := by
  obtain ⟨before, c, behind, lexeme, -, rfl, kind, spelled, -⟩ := reads.lexeme_at here
  rw [spelled, String.toList_ofList]
  exact lexeme_value (kind.symm.trans value)

theorem Reads.unterminated_at (unknown : token.kind = .unknown) {quote : Char}
    (first : token.text.toList.head? = some quote) (is : Text.isQuote quote = true) :
    index + 1 = tokens.length ∧ token.span.stop = offset + Text.byteLength cs ∧
      token.text.toList.count quote = 1 := by
  obtain ⟨before, c, behind, lexeme, rfl, rfl, kind, spelled, start, stop, others⟩ :=
    reads.lexeme_at here
  obtain ⟨tail, begins⟩ := lexicon.lexeme_text (kindBefore previous tokens index) c behind
  rw [spelled, String.toList_ofList] at first ⊢
  obtain rfl : c = quote := by simpa [begins] using first
  obtain ⟨rest, alone⟩ := lexeme_open is (kind.symm.trans unknown)
  rw [rest] at stop others ⊢
  refine ⟨?_, ?_, ?_⟩
  · have ended := List.drop_eq_nil_iff.1 others.eq_nil
    obtain ⟨inside, -⟩ := List.getElem?_eq_some_iff.1 here
    omega
  · rw [stop, start, Text.byteLength_append, Nat.add_assoc]
  · rw [List.count_cons_self, List.count_eq_zero.2 alone]

end

theorem Reads.longest_at {text : String} {tokens : List Token}
    (reads : lexicon.Reads 0 previous text.toList tokens) {index : Nat} {token : Token}
    (here : tokens[index]? = some token) (is : token.kind = .operator ∨ token.kind = .logical)
    {stop : Nat} {written : String} (stands : Text.HasAt text ⟨token.span.start, stop⟩ written)
    (spells : Text.IsSpelling written) : stop ≤ token.span.stop := by
  obtain ⟨before, c, behind, lexeme, chars, rfl, kind, -, start, ends, -⟩ := reads.lexeme_at here
  rw [start, Nat.zero_add] at stands
  obtain ⟨after, split, rfl⟩ := stands.split chars
  obtain ⟨other, member, same⟩ := spells.exists_spelling
  rw [kind] at is
  obtain ⟨more, whole⟩ := Lexeme.operator?_longest (operator?_of_kind is) split member same
  rw [ends, ← whole, Text.byteLength_append]
  omega

/-- The tokens of a rule are as their classes tell. -/
theorem tokens_tell (lexicon : Lexicon) (text : String) {index : Nat} {token : Token}
    (here : (lexicon.tokens text)[index]? = some token) :
    lexicon.Tells text (lexicon.tokens text) index token := by
  have reads := lexicon.reads_tokens text
  have genuine := reads.genuine token (List.mem_of_getElem? here)
  have paren := reads.kind_of_paren here
  refine ⟨genuine.operator, genuine.logical, ?_, genuine.property, reads.value_at here,
    ⟨genuine.openParen, paren.1⟩, ⟨genuine.closeParen, paren.2⟩, ?_⟩
  · intro is stop written stands spells
    exact reads.longest_at here is stands spells
  · intro unknown quote first is
    have ended := reads.unterminated_at here unknown first is
    rwa [Nat.zero_add, Text.byteLength_toList] at ended

theorem tokens_tell_operator :
    let tokens := ageLexicon.tokens "Age > 1.5abc"
    tokens[1]? = some ⟨.operator, ">", ⟨4, 5⟩, none⟩ ∧
      ageLexicon.Tells "Age > 1.5abc" tokens 1 ⟨.operator, ">", ⟨4, 5⟩, none⟩ := by
  intro tokens
  have here : tokens[1]? = some ⟨.operator, ">", ⟨4, 5⟩, none⟩ := by
    rw [show tokens = _ from tokens_fraction]
    rfl
  exact ⟨here, tokens_tell ageLexicon "Age > 1.5abc" here⟩

end Lexicon
end RuleFilter

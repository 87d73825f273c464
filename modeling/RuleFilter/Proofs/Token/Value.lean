import RuleFilter.Proofs.Token.Classes

namespace RuleFilter

def Text.Pads (cs word : List Char) : Prop :=
  ∃ front back, cs = front ++ (word ++ back) ∧ (∀ c ∈ front, isBlank c = true) ∧
    ∀ c ∈ back, isBlank c = true

def Lexicon.IsValue (lexicon : Lexicon) (word : String) : Prop :=
  IsLiteral word.toList ∨ lexicon.permissive = true ∧ Text.isWord word.toList = true ∧
    ¬ Text.IsSpelling word ∧ lexicon.schema.contains word = false

theorem Text.IsSpelling.of_foldCase {written : String} {spelling : String × TokenKind}
    (member : spelling ∈ operatorSpellings) (same : foldCase spelling.1 = foldCase written) :
    IsSpelling written := by
  rw [IsSpelling, ← Comparator.ofSymbol?_congr same, ← Connective.ofSymbol?_congr same]
  exact (Lexicon.genuine_spelling spelling member).imp And.right And.right

namespace Lexicon

variable {lexicon : Lexicon} {previous : Option TokenKind} {offset : Nat}

/-! ## The value alone -/

theorem whole_bare {word : String} (permissive : lexicon.permissive = true)
    (bare : Text.isWord word.toList = true) (other : ¬ Text.IsSpelling word)
    (unknown : lexicon.schema.contains word = false) :
    lexicon.Whole (some .operator) .value word.toList := by
  rw [← String.ofList_toList (s := word)] at other unknown
  generalize word.toList = cs at *
  cases cs with
  | nil => cases bare
  | cons c tail =>
    simp only [Text.isWord, Bool.and_eq_true, Bool.or_eq_true, beq_iff_eq,
      List.all_eq_true] at bare
    obtain ⟨first, inside⟩ := bare
    have visible : Text.isBlank c = false := by
      rcases first with letter | ⟨rfl, -⟩
      · exact Text.isBlank_of_isWordChar letter
      · decide
    have classified : lexicon.classify (some .operator) (String.ofList (c :: tail)) = .value := by
      rw [classify, unknown, permissive]
      split <;> rfl
    refine ⟨c, tail, rfl, visible, fun more breaks => ?_⟩
    have none : Lexeme.operator? (c :: (tail ++ more)) = none := by
      rcases first with letter | ⟨minus, -⟩
      · refine Lexeme.operator?_of_word (List.forall_mem_cons.2 ⟨letter, inside⟩) ?_ breaks
        intro spelling member _ same
        refine other (.of_foldCase member ?_)
        rw [same, Text.foldCase, String.toList_ofList]
      · exact Lexeme.operator?_of_isNumber _ (.inl minus)
    have begins : Text.isWordChar c = true ∨
        beginsNegative (some .operator) c (tail ++ more) = true := by
      refine first.imp_right fun negative => ?_
      cases tail with
      | nil => cases negative.2
      | cons d tail => simpa [beginsNegative] using negative
    rw [lexeme_word none begins (Lexeme.splitWord_append inside breaks), classified]

theorem whole_value_iff {word : String} :
    lexicon.Whole (some .operator) .value word.toList ↔ lexicon.IsValue word := by
  constructor
  · intro ⟨c, tail, chars, _, taken⟩
    have found := taken [] nofun
    rw [List.append_nil] at found
    have value := @lexeme_value lexicon (some .operator) c tail (by rw [found])
    simp only [found, String.ofList_toList] at value
    refine value.imp_right fun ⟨permissive, _, unknown, bare⟩ => ⟨permissive, bare, ?_, unknown⟩
    intro spells
    obtain ⟨spelling, member, same⟩ := spells.exists_spelling
    have matched : Lexeme.spelled? word.toList spelling.1.toList spelling.2 =
        some ⟨spelling.2, word.toList, []⟩ :=
      Lexeme.spelled?_eq_some_iff.2
        ⟨(List.append_nil _).symm, same.symm, rfl, by simp [Lexeme.endsBefore]⟩
    cases operator : Lexeme.operator? word.toList with
    | none =>
      rw [Lexeme.operator?, List.findSome?_eq_none_iff] at operator
      cases (operator spelling member).symm.trans matched
    | some lexeme =>
      rw [chars] at operator
      have other : ∀ spelling ∈ operatorSpellings, spelling.2 ≠ .value := by decide
      obtain ⟨-, spelling', member', -, kind, -⟩ := Lexeme.operator?_eq_some operator
      rw [← lexeme_operator operator, found] at kind
      exact other spelling' member' kind.symm
  · rintro (literal | ⟨permissive, bare, other, unknown⟩)
    · exact whole_literal literal
    · exact whole_bare permissive bare other unknown

/-! ## Blanks around it -/

theorem Reads.pads {cs : List Char} {token : Token}
    (reads : lexicon.Reads offset previous cs [token]) : Text.Pads cs token.text.toList := by
  generalize single : [token] = tokens at reads
  induction reads with
  | done => cases single
  | @blank _ _ c _ _ blank _ ih =>
    obtain ⟨front, back, rfl, before, behind⟩ := ih single
    exact ⟨c :: front, back, rfl, List.forall_mem_cons.2 ⟨blank, before⟩, behind⟩
  | @token _ previous c cs lexeme tokens _ found behind _ =>
    obtain ⟨rfl, rfl⟩ := List.cons.inj single
    subst found
    refine ⟨[], (lexicon.lexeme previous c cs).rest, ?_, nofun, behind.blank_of_nil⟩
    rw [String.toList_ofList, List.nil_append, lexeme_split]

theorem Whole.reads_padded {word : String} {kind : TokenKind}
    (whole : lexicon.Whole previous kind word.toList) {cs : List Char}
    (pads : Text.Pads cs word.toList) (offset : Nat) :
    ∃ span, lexicon.Reads offset previous cs [⟨kind, word, span, none⟩] := by
  obtain ⟨front, back, rfl, before, behind⟩ := pads
  have breaks : Lexeme.Breaks back := fun c first => .inl (behind c (List.mem_of_mem_head? first))
  have ended (offset : Nat) : lexicon.Reads offset (some kind) back [] := by
    rw [← List.append_nil back]
    exact Reads.behind_blanks behind .done
  exact ⟨_, Reads.behind_blanks before (whole.passage _ back [] breaks (ended _))⟩

theorem reads_value_iff {cs : List Char} {word : String} :
    (∃ token, lexicon.Reads offset (some .operator) cs [token] ∧ token.kind = .value ∧
        token.text = word) ↔
      Text.Pads cs word.toList ∧ lexicon.IsValue word := by
  rw [← whole_value_iff]
  constructor
  · rintro ⟨token, reads, value, rfl⟩
    exact ⟨reads.pads, value ▸ reads.whole_head (by simp [value])⟩
  · intro ⟨pads, whole⟩
    obtain ⟨span, reads⟩ := whole.reads_padded pads offset
    exact ⟨_, reads, rfl, rfl⟩

end Lexicon
end RuleFilter

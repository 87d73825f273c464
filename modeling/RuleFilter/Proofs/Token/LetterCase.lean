import Mathlib.Data.List.Forall2
import RuleFilter.Proofs.Text.Bytes
import RuleFilter.Proofs.Token.Reading

namespace RuleFilter

namespace Text

theorem utf8Size_toLower (c : Char) : c.toLower.utf8Size = c.utf8Size :=
  eq_toLower_of_letters Char.utf8Size (by decide) c

theorem byteLength_map_toLower (cs : List Char) :
    byteLength (cs.map Char.toLower) = byteLength cs := by
  induction cs with
  | nil => rfl
  | cons c cs ih => rw [List.map_cons, byteLength_cons, byteLength_cons, ih, utf8Size_toLower]

theorem byteLength_congr {cs cs' : List Char} (same : cs.map Char.toLower = cs'.map Char.toLower) :
    byteLength cs = byteLength cs' := by
  rw [← byteLength_map_toLower cs, same, byteLength_map_toLower]

end Text

structure Token.Recased (token again : Token) : Prop where
  kind : again.kind = token.kind
  span : again.span = token.span
  letters : Text.foldCase again.text = Text.foldCase token.text

namespace Lexicon

theorem Reads.recased {lexicon : Lexicon} {offset : Nat} {previous : Option TokenKind}
    {cs cs' : List Char} {tokens : List Token} (reads : lexicon.Reads offset previous cs tokens)
    (letters : cs'.map Char.toLower = cs.map Char.toLower) :
    ∃ tokens', lexicon.Reads offset previous cs' tokens' ∧
      List.Forall₂ Token.Recased tokens tokens' := by
  induction reads generalizing cs' with
  | done =>
    obtain rfl := List.map_eq_nil_iff.1 letters
    exact ⟨[], .done, .nil⟩
  | @blank offset _ c cs tokens blank _ ih =>
    obtain ⟨c', cs', rfl, first, others⟩ := List.map_eq_cons_iff.1 letters
    obtain ⟨tokens', reads, same⟩ := ih others
    have width : c'.utf8Size = c.utf8Size := by
      rw [← Text.utf8Size_toLower, first, Text.utf8Size_toLower]
    refine ⟨tokens', .blank ?_ (width ▸ reads), same⟩
    rw [← Text.isBlank_toLower, first, Text.isBlank_toLower, blank]
  | @token offset previous c cs lexeme tokens visible found _ ih =>
    subst found
    obtain ⟨c', cs', rfl, first, others⟩ := List.map_eq_cons_iff.1 letters
    have lower : (lexicon.lexeme previous c' cs').toLower =
        (lexicon.lexeme previous c cs).toLower := by
      rw [← lexeme_toLower, ← lexeme_toLower, first, others]
    simp only [Lexeme.toLower, Lexeme.mk.injEq] at lower
    obtain ⟨kind, text, rest⟩ := lower
    obtain ⟨tokens', reads, same⟩ := ih rest
    have width := Text.byteLength_congr text
    have visible' : Text.isBlank c' = false := by
      rw [← Text.isBlank_toLower, first, Text.isBlank_toLower, visible]
    rw [← kind, ← width] at reads
    refine ⟨_, .token visible' rfl reads, .cons ⟨kind, by rw [width], ?_⟩ same⟩
    simpa [Text.foldCase] using text

theorem tokens_foldCase (lexicon : Lexicon) {text text' : String}
    (letters : Text.foldCase text' = Text.foldCase text) :
    List.Forall₂ Token.Recased (lexicon.tokens text) (lexicon.tokens text') := by
  obtain ⟨tokens, reads, same⟩ := (lexicon.reads_tokens text).recased letters
  rwa [show lexicon.tokens text' = tokens from reads_iff.1 reads]

end Lexicon
end RuleFilter

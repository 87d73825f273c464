import RuleFilter.Proofs.Text.Bytes
import RuleFilter.Proofs.Token.Reading

namespace RuleFilter
namespace Lexicon

variable {lexicon : Lexicon} {previous : Option TokenKind} {offset : Nat}

/-! ## Single tokens -/

def Whole (lexicon : Lexicon) (previous : Option TokenKind) (kind : TokenKind) (cs : List Char) :
    Prop :=
  ∃ c tail, cs = c :: tail ∧ Text.isBlank c = false ∧
    ∀ more, Lexeme.Breaks more → lexicon.lexeme previous c (tail ++ more) = ⟨kind, cs, more⟩

theorem Reads.whole_head {cs : List Char} {token : Token} {tokens : List Token}
    (reads : lexicon.Reads offset previous cs (token :: tokens)) (known : token.kind ≠ .unknown) :
    lexicon.Whole previous token.kind token.text.toList := by
  generalize read : token :: tokens = all at reads
  induction reads with
  | done => cases read
  | blank _ _ ih => exact ih read
  | @token offset previous c cs lexeme tokens visible found _ _ =>
    obtain ⟨rfl, rfl⟩ := List.cons.inj read
    subst found
    obtain ⟨tail, text⟩ := lexicon.lexeme_text previous c cs
    rw [String.toList_ofList]
    refine ⟨c, tail, text, visible, fun more breaks => ?_⟩
    rw [lexeme_reread text (fun _ => breaks) fun unknown _ => absurd unknown known, text]

theorem Reads.whole {cs : List Char} {tokens : List Token} {first second : Token}
    (reads : lexicon.Reads offset previous cs tokens) (adjacent : [first, second] <:+: tokens)
    (known : second.kind ≠ .unknown) :
    lexicon.Whole (some first.kind) second.kind second.text.toList := by
  induction reads with
  | done => cases List.infix_nil.1 adjacent
  | blank _ _ ih => exact ih adjacent
  | token _ _ behind ih =>
    rcases List.infix_cons_iff.1 adjacent with ⟨rest, here⟩ | later
    · obtain ⟨rfl, rfl⟩ := List.cons.inj here
      exact behind.whole_head known
    · exact ih later

/-! ## Several tokens -/

/-- Whether characters behind a token of class `previous` are read as certain tokens, the last one
of class `last`, wherever a token may end behind them. -/
def Passage (lexicon : Lexicon) (offset : Nat) (previous : Option TokenKind) (cs : List Char)
    (tokens : List Token) (last : TokenKind) : Prop :=
  ∀ more rest, Lexeme.Breaks more →
    lexicon.Reads (offset + Text.byteLength cs) (some last) more rest →
    lexicon.Reads offset previous (cs ++ more) (tokens ++ rest)

theorem Whole.passage {text : String} {kind : TokenKind}
    (whole : lexicon.Whole previous kind text.toList) (offset : Nat) :
    lexicon.Passage offset previous text.toList
      [⟨kind, text, ⟨offset, offset + Text.byteLength text.toList⟩, none⟩] kind := by
  intro more rest breaks reads
  obtain ⟨c, tail, chars, visible, taken⟩ := whole
  have held : String.ofList (c :: tail) = text := by rw [← chars, String.ofList_toList]
  have found := taken more breaks
  rw [chars] at found reads ⊢
  simpa only [held, List.cons_append, List.nil_append] using Reads.token visible found reads

namespace Passage

variable {cs cs' : List Char} {tokens tokens' : List Token} {last last' : TokenKind}

theorem spaced (first : lexicon.Passage offset previous cs tokens last)
    (second : lexicon.Passage (offset + Text.byteLength cs + 1) (some last) cs' tokens' last') :
    lexicon.Passage offset previous (cs ++ ' ' :: cs') (tokens ++ tokens') last' := by
  intro more rest breaks reads
  have blank : Text.isBlank ' ' = true := by decide
  have between : Lexeme.Breaks (' ' :: (cs' ++ more)) := by
    rintro c ⟨⟩
    exact .inl blank
  have width : ' '.utf8Size = 1 := rfl
  rw [Text.byteLength_append, Text.byteLength_cons, width, ← Nat.add_assoc,
    ← Nat.add_assoc] at reads
  rw [List.append_assoc, List.append_assoc, List.cons_append]
  exact first _ _ between (.blank blank (second more rest breaks reads))

theorem group (inner : lexicon.Passage (offset + 1) (some .openParen) cs tokens last) :
    lexicon.Passage offset previous ('(' :: (cs ++ [')']))
      (⟨.openParen, "(", ⟨offset, offset + 1⟩, none⟩ :: (tokens ++
        [⟨.closeParen, ")", ⟨offset + 1 + Text.byteLength cs, offset + 1 + Text.byteLength cs + 1⟩,
          none⟩])) .closeParen := by
  intro more rest breaks reads
  have widths : offset + Text.byteLength ('(' :: (cs ++ [')'])) =
      offset + 1 + Text.byteLength cs + 1 := by
    rw [Text.byteLength_cons, Text.byteLength_append, ← Nat.add_assoc, ← Nat.add_assoc]
    rfl
  rw [widths] at reads
  have closes : lexicon.lexeme (some last) ')' more = ⟨.closeParen, [')'], more⟩ := rfl
  have before : Lexeme.Breaks (')' :: more) := by
    rintro c ⟨⟩
    exact .inr rfl
  have inside := inner _ _ before (.token (by decide) closes reads)
  rw [List.cons_append, List.append_assoc, List.singleton_append, List.cons_append,
    List.append_assoc, List.singleton_append]
  have opens : lexicon.lexeme previous '(' (cs ++ ')' :: more) =
      ⟨.openParen, ['('], cs ++ ')' :: more⟩ := rfl
  exact .token (by decide) opens inside

theorem tokens_eq {text : String} (passage : lexicon.Passage 0 none text.toList tokens last) :
    lexicon.tokens text = tokens := by
  have reads := passage [] [] nofun .done
  rw [List.append_nil, List.append_nil] at reads
  exact reads_iff.1 reads

end Passage
end Lexicon
end RuleFilter

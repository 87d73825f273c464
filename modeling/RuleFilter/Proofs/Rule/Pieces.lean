import RuleFilter.Proofs.Rule.Balance

namespace RuleFilter

def Token.depthBehind (depth : Nat) (token : Token) : Nat :=
  (token.openAfter? depth).getD 0

/-- The tokens between the given connectives that stand in no parentheses, where `depth` are open in
front of the first token. -/
def pieces (connective : Connective) : (depth : Nat) → List Token → List (List Token)
  | _, [] => [[]]
  | depth, token :: tokens =>
    if depth = 0 ∧ token.isConnective connective = true then [] :: pieces connective 0 tokens
    else (pieces connective (token.depthBehind depth) tokens).modifyHead (token :: ·)

theorem length_of_mem_pieces {connective : Connective} {depth : Nat} {tokens piece : List Token}
    (h : piece ∈ pieces connective depth tokens) : piece.length ≤ tokens.length := by
  induction tokens generalizing depth piece with
  | nil =>
    obtain rfl := List.mem_singleton.1 h
    exact Nat.le_refl _
  | cons token tokens ih =>
    rw [pieces] at h
    split at h
    · rcases List.mem_cons.1 h with rfl | h
      · exact Nat.zero_le _
      · exact Nat.le_succ_of_le (ih h)
    · cases cut : pieces connective (token.depthBehind depth) tokens with
      | nil =>
        rw [cut] at h
        cases h
      | cons first others =>
        rw [cut, List.modifyHead_cons, List.mem_cons] at h
        rcases h with rfl | h
        · exact Nat.succ_le_succ (ih (cut ▸ List.mem_cons_self))
        · exact Nat.le_succ_of_le (ih (cut ▸ List.mem_cons_of_mem _ h))

def Whole (connective : Connective) (depth : Nat) (tokens : List Token) : Prop :=
  ∀ rest, pieces connective depth (tokens ++ rest) =
    (pieces connective depth rest).modifyHead (tokens ++ ·)

namespace Whole

variable {connective : Connective} {depth : Nat} {token : Token} {tokens : List Token}

theorem append {rest : List Token} (h : Whole connective depth tokens)
    (h' : Whole connective depth rest) : Whole connective depth (tokens ++ rest) := by
  intro more
  rw [List.append_assoc, h, h', List.modifyHead_modifyHead]
  congr 1
  funext piece
  exact (List.append_assoc tokens rest piece).symm

theorem single (flat : token.openAfter? depth = some depth)
    (uncut : depth = 0 → token.isConnective connective = false) :
    Whole connective depth [token] := by
  intro rest
  have goes_on : ¬(depth = 0 ∧ token.isConnective connective = true) :=
    fun ⟨outside, is⟩ => Bool.false_ne_true ((uncut outside).symm.trans is)
  rw [List.singleton_append, pieces, if_neg goes_on, Token.depthBehind, flat, Option.getD_some]
  rfl

theorem cons (flat : token.openAfter? depth = some depth)
    (uncut : depth = 0 → token.isConnective connective = false)
    (h : Whole connective depth tokens) : Whole connective depth (token :: tokens) :=
  (single flat uncut).append h

theorem group {opening closing : Token} (opens : opening.kind = .openParen)
    (closes : closing.kind = .closeParen) (h : Whole connective (depth + 1) tokens) :
    Whole connective depth (opening :: (tokens ++ [closing])) := by
  intro rest
  have other : opening.isConnective connective = false :=
    Token.isConnective_false_of_kind (by simp [opens])
  have other' : closing.isConnective connective = false :=
    Token.isConnective_false_of_kind (by simp [closes])
  rw [List.cons_append, List.append_assoc, pieces, if_neg (by simp [other]), Token.depthBehind,
    Token.openAfter?_open opens, Option.getD_some, h, List.singleton_append, pieces,
    if_neg (by simp [other']), Token.depthBehind, Token.openAfter?_close closes, Option.getD_some,
    List.modifyHead_modifyHead, List.modifyHead_modifyHead]
  congr 1
  funext piece
  simp

theorem pieces_eq (h : Whole connective 0 tokens) : pieces connective 0 tokens = [tokens] := by
  have cut := h []
  rwa [List.append_nil, pieces, List.modifyHead_cons, List.append_nil] at cut

theorem pieces_append {rest : List Token} (h : Whole connective 0 tokens)
    (is : token.isConnective connective = true) :
    pieces connective 0 (tokens ++ token :: rest) = tokens :: pieces connective 0 rest := by
  rw [h, pieces, if_pos ⟨rfl, is⟩, List.modifyHead_cons, List.append_nil]

end Whole

/-! ## What the grammar keeps whole -/

namespace Grammar

theorem Disjunction.whole {connective : Connective} {depth : Nat} {unary : Phrase}
    (inside : 0 < depth) (parts : ∀ tokens rule, unary tokens rule → Whole connective depth tokens)
    {tokens : List Token} {rule : Rule} (h : Disjunction unary tokens rule) :
    Whole connective depth tokens := by
  refine h.tokens_induction parts fun other token tokens rest _ is left right => ?_
  exact left.append (right.cons (Token.openAfter?_connective is depth) fun outside => by omega)

theorem Unary.whole {connective : Connective} (binary : connective ≠ .not) {levels : Nat}
    {tokens : List Token} {rule : Rule} (h : Unary levels tokens rule) (depth : Nat) :
    Whole connective depth tokens := by
  have clause {property operator value : Token} (hp : property.kind = .property)
      (ho : operator.kind = .operator) (hv : value.kind = .value) (depth : Nat) :
      Whole connective depth [property, operator, value] := by
    have flat {token : Token} (kind : token.kind.isParen = false) (other : token.kind ≠ .logical) :
        Whole connective depth [token] :=
      .single (Token.openAfter?_other kind depth) fun _ => Token.isConnective_false_of_kind other
    exact (flat (by simp [hp, TokenKind.isParen]) (by simp [hp])).append
      ((flat (by simp [ho, TokenKind.isParen]) (by simp [ho])).append
        (flat (by simp [hv, TokenKind.isParen]) (by simp [hv])))
  induction levels generalizing tokens rule depth with
  | zero =>
    cases h with
    | clause hp ho _ hv => exact clause hp ho hv depth
    | negation _ inner => exact inner.elim
    | group _ inner _ => exact (not_disjunction_false inner).elim
  | succ levels ih =>
    cases h with
    | clause hp ho _ hv => exact clause hp ho hv depth
    | negation is inner =>
      have other := Bool.eq_false_iff.2 fun is' => binary (Token.eq_of_isConnective is' is)
      exact (ih inner depth).cons (Token.openAfter?_connective is depth) fun _ => other
    | group opens inner closes =>
      exact .group opens closes
        (inner.whole (Nat.succ_pos depth) fun _ _ part => ih part (depth + 1))

theorem Conjunction.whole {levels : Nat} {tokens : List Token} {rule : Rule}
    (h : Conjunction (Unary levels) tokens rule) : Whole .or 0 tokens := by
  refine h.tokens_induction (fun _ _ part => part.whole (by decide) 0) ?_
  intro token tokens rest is left right
  have other : token.isConnective .or = false :=
    Bool.eq_false_iff.2 fun is' => nomatch Token.eq_of_isConnective is' is
  exact left.append (right.cons (Token.openAfter?_connective is 0) fun _ => other)

theorem Run.pieces_map {ε α β : Type} {connective : Connective} {part : Phrase}
    (whole : ∀ tokens rule, part tokens rule → Whole connective 0 tokens) {f : List Token → β}
    {g : Rule → Except ε α} {k : α → β}
    (same : ∀ tokens rule a, part tokens rule → g rule = .ok a → f tokens = k a)
    {tokens : List Token} {rules : List Rule} (run : Run connective part tokens rules)
    {as : List α} (found : rules.map g = as.map .ok) :
    (pieces connective 0 tokens).map f = as.map k := by
  induction run generalizing as with
  | @last tokens rule derived =>
    obtain ⟨a, others, rfl, first, rest⟩ := List.map_eq_cons_iff.1 found.symm
    obtain rfl := List.map_eq_nil_iff.1 rest
    rw [(whole tokens rule derived).pieces_eq, List.map_singleton, List.map_singleton,
      same tokens rule a derived first.symm]
  | @more tokens rest token rule rules derived is _ ih =>
    obtain ⟨a, as, rfl, first, others⟩ := List.map_eq_cons_iff.1 found.symm
    rw [(whole tokens rule derived).pieces_append is, List.map_cons, List.map_cons,
      same tokens rule a derived first.symm, ih others.symm]

end Grammar
end RuleFilter

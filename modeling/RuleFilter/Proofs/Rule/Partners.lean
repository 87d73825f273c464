import Mathlib.Data.List.Induction
import RuleFilter.Proofs.Rule.Balance

/-!
# Partners among parentheses

`pairs` matches the parentheses of any tokens with a stack: one that closes is the partner of the
last one that is open. `mem_pairs_iff` says the same without a stack: what stands between partners
is balanced. A parenthesis without a partner is `Lone`.

* `balance_cases`: tokens are balanced, or behind a balanced part of them stands a parenthesis that
  nothing opens or nothing closes. That parenthesis is the first lone one
  (`lone_of_unopened`, `lone_of_unclosed`, `le_of_lone`).
* `imbalance?_of_unopened`, `imbalance?_of_unclosed`: which parenthesis parsing blames.
-/

namespace RuleFilter

/-! ## Matching with a stack -/

def pairsFrom (opened : List Nat) (index : Nat) : List Token → List (Nat × Nat)
  | [] => []
  | token :: tokens =>
    match token.kind with
    | .openParen => pairsFrom (index :: opened) (index + 1) tokens
    | .closeParen =>
      match opened with
      | [] => pairsFrom [] (index + 1) tokens
      | opening :: opened => (opening, index) :: pairsFrom opened (index + 1) tokens
    | _ => pairsFrom opened (index + 1) tokens

def pairs (tokens : List Token) : List (Nat × Nat) :=
  pairsFrom [] 0 tokens

/-- Whether the token at an index is a parenthesis without a partner. -/
def Lone (tokens : List Token) (index : Nat) : Prop :=
  (∃ token ∈ tokens[index]?, token.kind.isParen = true) ∧
    ∀ pair ∈ pairs tokens, pair.1 ≠ index ∧ pair.2 ≠ index

def ClosesAt (depth : Nat) (tokens : List Token) (index : Nat) : Prop :=
  ∃ inside closing after, tokens = inside ++ closing :: after ∧ inside.length = index ∧
    openAfter? depth inside = some 0 ∧ closing.kind = .closeParen

theorem closesAt_cons {depth depth' : Nat} {token : Token} {tokens : List Token} {index : Nat}
    (counted : token.openAfter? depth = some depth') :
    ClosesAt depth (token :: tokens) (index + 1) ↔ ClosesAt depth' tokens index := by
  constructor
  · rintro ⟨inside, closing, after, split, length, balanced, closes⟩
    obtain ⟨first, inside, rfl⟩ := List.exists_cons_of_length_eq_add_one length
    obtain ⟨rfl, rfl⟩ := List.cons.inj split
    rw [openAfter?_cons, counted, Option.bind_some] at balanced
    exact ⟨inside, closing, after, rfl, Nat.succ.inj length, balanced, closes⟩
  · rintro ⟨inside, closing, after, rfl, rfl, balanced, closes⟩
    refine ⟨token :: inside, closing, after, rfl, rfl, ?_, closes⟩
    rw [openAfter?_cons, counted, Option.bind_some, balanced]

theorem not_closesAt_nil {depth index : Nat} : ¬ ClosesAt depth [] index := by
  rintro ⟨inside, closing, after, split, -⟩
  exact absurd split (by simp)

theorem not_closesAt_of_none {depth index : Nat} {token : Token} {tokens : List Token}
    (stray : token.openAfter? depth = none) : ¬ ClosesAt depth (token :: tokens) (index + 1) := by
  rintro ⟨inside, closing, after, split, length, balanced, -⟩
  obtain ⟨first, inside, rfl⟩ := List.exists_cons_of_length_eq_add_one length
  obtain ⟨rfl, -⟩ := List.cons.inj split
  rw [openAfter?_cons, stray] at balanced
  cases balanced

theorem closesAt_zero {depth : Nat} {token : Token} {tokens : List Token} :
    ClosesAt depth (token :: tokens) 0 ↔ depth = 0 ∧ token.kind = .closeParen := by
  constructor
  · rintro ⟨inside, closing, after, split, length, balanced, closes⟩
    obtain rfl := List.length_eq_zero_iff.1 length
    obtain ⟨rfl, rfl⟩ := List.cons.inj split
    exact ⟨Option.some.inj balanced, closes⟩
  · rintro ⟨rfl, closes⟩
    exact ⟨[], token, tokens, rfl, rfl, rfl, closes⟩

/-- Whether tokens at two indices are an opening and a closing parenthesis, with balanced tokens
between them. -/
def Partners (tokens : List Token) (i j : Nat) : Prop :=
  ∃ before opening rest n, tokens = before ++ opening :: rest ∧ opening.kind = .openParen ∧
    ClosesAt 0 rest n ∧ i = before.length ∧ j = before.length + (n + 1)

theorem partners_cons {token : Token} {tokens : List Token} {i j : Nat} :
    Partners (token :: tokens) i j ↔
      (token.kind = .openParen ∧ i = 0 ∧ ∃ n, ClosesAt 0 tokens n ∧ j = n + 1) ∨
        ∃ i' j', Partners tokens i' j' ∧ i = i' + 1 ∧ j = j' + 1 := by
  constructor
  · rintro ⟨before, opening, rest, n, split, opens, closes, rfl, rfl⟩
    rcases before with - | ⟨first, before⟩
    · obtain ⟨rfl, rfl⟩ := List.cons.inj split
      exact .inl ⟨opens, rfl, n, closes, Nat.zero_add _⟩
    · obtain ⟨rfl, rfl⟩ := List.cons.inj split
      refine .inr ⟨_, _, ⟨before, opening, rest, n, rfl, opens, closes, rfl, rfl⟩, rfl, ?_⟩
      rw [List.length_cons, Nat.add_right_comm]
  · rintro (⟨opens, rfl, n, closes, rfl⟩ |
      ⟨_, _, ⟨before, opening, rest, n, rfl, opens, closes, rfl, rfl⟩, rfl, rfl⟩)
    · exact ⟨[], token, tokens, n, rfl, opens, closes, rfl, (Nat.zero_add _).symm⟩
    · refine ⟨token :: before, opening, rest, n, rfl, opens, closes, rfl, ?_⟩
      rw [List.length_cons, Nat.add_right_comm]

theorem mem_pairsFrom_of_closesAt {opened : List Nat} {index depth n i : Nat} {tokens : List Token}
    (held : opened[depth]? = some i) (closes : ClosesAt depth tokens n) :
    (i, index + n) ∈ pairsFrom opened index tokens := by
  induction tokens generalizing opened index depth n with
  | nil => exact absurd closes not_closesAt_nil
  | cons token tokens ih =>
    cases n with
    | zero =>
      obtain ⟨rfl, kind⟩ := closesAt_zero.1 closes
      obtain ⟨opened, rfl⟩ : ∃ rest, opened = i :: rest := by
        cases opened <;> simp_all
      simp [pairsFrom, kind]
    | succ n =>
      rw [Nat.add_comm n, ← Nat.add_assoc]
      cases kind : token.kind with
      | openParen =>
        rw [closesAt_cons (Token.openAfter?_open kind depth)] at closes
        simp only [pairsFrom, kind]
        exact @ih (index :: opened) (index + 1) (depth + 1) n held closes
      | closeParen =>
        cases depth with
        | zero => exact absurd closes (not_closesAt_of_none (by simp [Token.openAfter?, kind]))
        | succ depth =>
          rw [closesAt_cons (Token.openAfter?_close kind depth)] at closes
          cases opened with
          | nil => cases held
          | cons opening opened =>
            simp only [pairsFrom, kind]
            exact List.mem_cons_of_mem _ (ih held closes)
      | _ =>
        rw [closesAt_cons (Token.openAfter?_other (by rw [kind]; rfl) depth)] at closes
        simp only [pairsFrom, kind]
        exact ih held closes

theorem mem_pairsFrom_of_partners {opened : List Nat} {index i j : Nat} {tokens : List Token}
    (partners : Partners tokens i j) : (index + i, index + j) ∈ pairsFrom opened index tokens := by
  induction tokens generalizing opened index i j with
  | nil =>
    obtain ⟨before, opening, rest, n, split, -⟩ := partners
    exact absurd split (by simp)
  | cons token tokens ih =>
    rcases partners_cons.1 partners with ⟨kind, rfl, n, closes, rfl⟩ | ⟨i, j, later, rfl, rfl⟩
    · simp only [pairsFrom, kind]
      rw [Nat.add_zero, Nat.add_comm n, ← Nat.add_assoc]
      exact mem_pairsFrom_of_closesAt (List.getElem?_cons_zero ..) closes
    · have later := fun opened => @ih opened (index + 1) i j later
      simp only [Nat.add_assoc, Nat.add_comm 1] at later
      unfold pairsFrom
      split
      · exact later _
      · split
        · exact later _
        · exact List.mem_cons_of_mem _ (later _)
      · exact later _

theorem closesAt_or_partners {opened : List Nat} {index i j : Nat} {tokens : List Token}
    (found : (i, j) ∈ pairsFrom opened index tokens) :
    (∃ depth n, opened[depth]? = some i ∧ ClosesAt depth tokens n ∧ j = index + n) ∨
      ∃ i' j', Partners tokens i' j' ∧ i = index + i' ∧ j = index + j' := by
  induction tokens generalizing opened index with
  | nil => cases found
  | cons token tokens ih =>
    -- A pair is one with a parenthesis on the stack, or both of it stand among the tokens.
    have later : (∃ i' j', Partners tokens i' j' ∧ i = index + 1 + i' ∧ j = index + 1 + j') →
        ∃ i' j', Partners (token :: tokens) i' j' ∧ i = index + i' ∧ j = index + j' := by
      rintro ⟨i, j, partners, rfl, rfl⟩
      exact ⟨i + 1, j + 1, partners_cons.2 (.inr ⟨i, j, partners, rfl, rfl⟩), by omega, by omega⟩
    unfold pairsFrom at found
    split at found
    · next kind =>
      rcases ih found with ⟨depth, n, held, closes, rfl⟩ | partners
      · cases depth with
        | zero =>
          obtain rfl := Option.some.inj held
          exact .inr ⟨0, n + 1, partners_cons.2 (.inl ⟨kind, rfl, n, closes, rfl⟩), rfl, by omega⟩
        | succ depth =>
          rw [← closesAt_cons (Token.openAfter?_open kind depth)] at closes
          exact .inl ⟨depth, n + 1, held, closes, by omega⟩
      · exact .inr (later partners)
    · next kind =>
      split at found
      · rcases ih found with ⟨depth, n, held, -⟩ | partners
        · cases held
        · exact .inr (later partners)
      · rcases List.mem_cons.1 found with head | found
        · cases head
          exact .inl ⟨0, 0, rfl, closesAt_zero.2 ⟨rfl, kind⟩, rfl⟩
        rcases ih found with ⟨depth, n, held, closes, rfl⟩ | partners
        · rw [← closesAt_cons (Token.openAfter?_close kind depth)] at closes
          exact .inl ⟨depth + 1, n + 1, held, closes, by omega⟩
        · exact .inr (later partners)
    · next opens closes =>
      have other : token.kind.isParen = false := by
        cases kind : token.kind <;> simp_all [TokenKind.isParen]
      rcases ih found with ⟨depth, n, held, closes, rfl⟩ | partners
      · rw [← closesAt_cons (Token.openAfter?_other other depth)] at closes
        exact .inl ⟨depth, n + 1, held, closes, by omega⟩
      · exact .inr (later partners)

theorem mem_pairs_iff {tokens : List Token} {i j : Nat} :
    (i, j) ∈ pairs tokens ↔ Partners tokens i j := by
  constructor
  · intro found
    rcases closesAt_or_partners found with ⟨depth, n, held, -⟩ | ⟨i, j, partners, rfl, rfl⟩
    · cases held
    · simpa using partners
  · intro partners
    have found := @mem_pairsFrom_of_partners [] 0 i j tokens partners
    rwa [Nat.zero_add, Nat.zero_add] at found

/-! ## Balanced tokens -/

def Balanced (tokens : List Token) : Prop :=
  openAfter? 0 tokens = some 0

instance (tokens : List Token) : Decidable (Balanced tokens) :=
  inferInstanceAs (Decidable (_ = _))

theorem openAfter?_add {depth behind : Nat} {tokens : List Token}
    (counted : openAfter? depth tokens = some behind) (more : Nat) :
    openAfter? (depth + more) tokens = some (behind + more) := by
  induction tokens generalizing depth with
  | nil =>
    obtain rfl := Option.some.inj counted
    rfl
  | cons token tokens ih =>
    obtain ⟨next, first, rest⟩ := Option.bind_eq_some_iff.1 counted
    have shifted : token.openAfter? (depth + more) = some (next + more) := by
      rcases Token.openAfter?_cases first with ⟨kind, rfl⟩ | ⟨kind, rfl⟩ | ⟨other, rfl⟩
      · rw [Token.openAfter?_open kind, Nat.add_right_comm]
      · rw [Nat.add_right_comm, Token.openAfter?_close kind]
      · rw [Token.openAfter?_other other]
    rw [openAfter?_cons, shifted, Option.bind_some, ih rest]

theorem balance_cases (tokens : List Token) :
    Balanced tokens ∨
      (∃ before closing after, tokens = before ++ closing :: after ∧ Balanced before ∧
        closing.kind = .closeParen) ∨
      ∃ before opening after left, tokens = before ++ opening :: after ∧ Balanced before ∧
        opening.kind = .openParen ∧ openAfter? 0 after = some left := by
  induction tokens using List.reverseRecOn with
  | nil => exact .inl rfl
  | append_singleton tokens token ih =>
    rcases ih with balanced | ⟨before, closing, after, rfl, balanced, closes⟩ |
      ⟨before, opening, after, left, rfl, balanced, opens, counted⟩
    · cases kind : token.kind with
      | openParen => exact .inr (.inr ⟨tokens, token, [], 0, rfl, balanced, kind, rfl⟩)
      | closeParen => exact .inr (.inl ⟨tokens, token, [], rfl, balanced, kind⟩)
      | _ =>
        refine .inl ?_
        have kept := @Token.openAfter?_other token (by rw [kind]; rfl) 0
        simp only [Balanced, openAfter?_append] at balanced ⊢
        simp [balanced, kept]
    · exact .inr (.inl ⟨before, closing, after ++ [token], by simp, balanced, closes⟩)
    · have unclosed (left' : Nat) (last : token.openAfter? left = some left') :
          ∃ before' opening' after' left', before ++ opening :: after ++ [token] =
            before' ++ opening' :: after' ∧ Balanced before' ∧ opening'.kind = .openParen ∧
            openAfter? 0 after' = some left' := by
        refine ⟨before, opening, after ++ [token], left', by simp, balanced, opens, ?_⟩
        simp [openAfter?_append, counted, last]
      cases kind : token.kind with
      -- The opening parenthesis stays without a partner until as many are closed as were opened.
      | openParen => exact .inr (.inr (unclosed _ (Token.openAfter?_open kind _)))
      | closeParen =>
        cases left with
        | zero =>
          refine .inl ?_
          have inside := openAfter?_add counted 1
          simp only [Balanced] at balanced ⊢
          simp [openAfter?_append, balanced, Token.openAfter?_open opens, inside,
            Token.openAfter?_close kind]
        | succ left => exact .inr (.inr (unclosed _ (Token.openAfter?_close kind _)))
      | _ => exact .inr (.inr (unclosed _ (Token.openAfter?_other (by rw [kind]; rfl) _)))

theorem openAfter?_of_unclosed {before after : List Token} {opening : Token} {left : Nat}
    (balanced : Balanced before) (opens : opening.kind = .openParen)
    (counted : openAfter? 0 after = some left) :
    openAfter? 0 (before ++ opening :: after) = some (left + 1) := by
  rw [openAfter?_append, balanced, Option.bind_some, openAfter?_cons, Token.openAfter?_open opens,
    Option.bind_some, openAfter?_add counted 1]

/-! ## Parentheses without a partner -/

theorem ClosesAt.append {depth index : Nat} {tokens : List Token}
    (closes : ClosesAt depth tokens index) (rest : List Token) :
    ClosesAt depth (tokens ++ rest) index := by
  obtain ⟨inside, closing, after, rfl, length, balanced, kind⟩ := closes
  exact ⟨inside, closing, after ++ rest, by simp, length, balanced, kind⟩

theorem exists_closesAt {depth more left : Nat} {tokens : List Token}
    (counted : openAfter? (depth + 1 + more) tokens = some left) (few : left ≤ more) :
    ∃ index, ClosesAt depth tokens index := by
  induction tokens generalizing depth with
  | nil =>
    have := Option.some.inj counted
    omega
  | cons token tokens ih =>
    obtain ⟨next, first, rest⟩ := Option.bind_eq_some_iff.1 counted
    rcases Token.openAfter?_cases first with ⟨kind, rfl⟩ | ⟨kind, closed⟩ | ⟨other, rfl⟩
    · obtain ⟨index, closes⟩ := @ih (depth + 1) (by rwa [Nat.add_right_comm _ 1 more])
      exact ⟨index + 1, (closesAt_cons (Token.openAfter?_open kind depth)).2 closes⟩
    · cases depth with
      | zero => exact ⟨0, closesAt_zero.2 ⟨rfl, kind⟩⟩
      | succ depth =>
        obtain rfl : next = depth + 1 + more := by omega
        obtain ⟨index, closes⟩ := ih rest
        exact ⟨index + 1, (closesAt_cons (Token.openAfter?_close kind depth)).2 closes⟩
    · obtain ⟨index, closes⟩ := ih rest
      exact ⟨index + 1, (closesAt_cons (Token.openAfter?_other other depth)).2 closes⟩

theorem exists_last_opened {depth : Nat} {tokens : List Token}
    (counted : openAfter? 0 tokens = some (depth + 1)) :
    ∃ before opening inside, tokens = before ++ opening :: inside ∧ opening.kind = .openParen ∧
      Balanced inside := by
  induction length : tokens.length using Nat.strongRecOn generalizing tokens depth with
  | _ _ ih =>
    subst length
    rcases balance_cases tokens with balanced | ⟨before, closing, after, rfl, balanced, closes⟩ |
      ⟨before, opening, after, left, rfl, balanced, opens, counted'⟩
    · cases balanced.symm.trans counted
    · rw [openAfter?_append, balanced] at counted
      simp [Token.openAfter?, closes] at counted
    · cases left with
      | zero => exact ⟨before, opening, after, rfl, opens, counted'⟩
      | succ left =>
        obtain ⟨before', opening', inside, rfl, opens', balanced'⟩ :=
          ih after.length (by simp; omega) counted' rfl
        exact ⟨before ++ opening :: before', opening', inside, by simp, opens', balanced'⟩

namespace Partners

theorem kinds {tokens : List Token} {i j : Nat} (partners : Partners tokens i j) :
    (∃ token ∈ tokens[i]?, token.kind = .openParen) ∧
      ∃ token ∈ tokens[j]?, token.kind = .closeParen := by
  obtain ⟨before, opening, _, _, rfl, opens, ⟨inside, closing, after, rfl, rfl, -, closes⟩, rfl,
    rfl⟩ := partners
  refine ⟨⟨opening, by simp, opens⟩, closing, ?_, closes⟩
  simp

theorem inside {before after : List Token} {token : Token} {i j : Nat}
    (partners : Partners (before ++ token :: after) i j) :
    (i = before.length → ∃ n, ClosesAt 0 after n) ∧
      (j = before.length → ∃ front opening inside, before = front ++ opening :: inside ∧
        opening.kind = .openParen ∧ Balanced inside) := by
  obtain ⟨front, opening, rest, n, split, opens, closes, rfl, rfl⟩ := partners
  constructor
  · intro length
    obtain ⟨-, same⟩ := List.append_inj split length.symm
    obtain ⟨-, rfl⟩ := List.cons.inj same
    exact ⟨n, closes⟩
  · intro length
    obtain ⟨inside, closing, after', rfl, rfl, balanced, -⟩ := closes
    rw [← List.cons_append, ← List.append_assoc] at split
    obtain ⟨rfl, -⟩ := List.append_inj split (by simp [← length])
    exact ⟨front, opening, inside, rfl, opens, balanced⟩

end Partners

section

variable {before after : List Token} {token : Token}

theorem lone_iff : Lone (before ++ token :: after) before.length ↔
    token.kind = .openParen ∧ (∀ n, ¬ ClosesAt 0 after n) ∨
      token.kind = .closeParen ∧ ∀ front opening inside, before = front ++ opening :: inside →
        opening.kind = .openParen → ¬ Balanced inside := by
  have here : (before ++ token :: after)[before.length]? = some token := by simp
  constructor
  · rintro ⟨⟨_, found, paren⟩, alone⟩
    obtain rfl := Option.some.inj (here.symm.trans found)
    cases kind : token.kind with
    | openParen =>
      refine .inl ⟨rfl, fun n closes => ?_⟩
      have partners : Partners (before ++ token :: after) _ _ :=
        ⟨before, token, after, n, rfl, kind, closes, rfl, rfl⟩
      exact (alone _ (mem_pairs_iff.2 partners)).1 rfl
    | closeParen =>
      refine .inr ⟨rfl, ?_⟩
      rintro front opening inside rfl opens balanced
      have closes : ClosesAt 0 (inside ++ token :: after) inside.length :=
        ⟨inside, token, after, rfl, rfl, balanced, kind⟩
      have partners : Partners (front ++ opening :: inside ++ token :: after) _ _ :=
        ⟨front, opening, _, _, by simp, opens, closes, rfl, rfl⟩
      exact (alone _ (mem_pairs_iff.2 partners)).2 (by simp)
    | _ => simp [TokenKind.isParen, kind] at paren
  · intro alone
    have paren : token.kind.isParen = true := by
      rcases alone with ⟨kind, -⟩ | ⟨kind, -⟩ <;> rw [kind] <;> rfl
    refine ⟨⟨token, here, paren⟩, ?_⟩
    rintro ⟨i, j⟩ found
    have partners := mem_pairs_iff.1 found
    obtain ⟨⟨opening, first, opens⟩, closing, second, closes⟩ := partners.kinds
    rcases alone with ⟨kind, unclosed⟩ | ⟨kind, unopened⟩
    · refine ⟨fun at_open => ?_, fun at_close => ?_⟩
      · obtain ⟨n, closed⟩ := partners.inside.1 at_open
        exact unclosed n closed
      · obtain rfl : j = before.length := at_close
        obtain rfl := Option.some.inj (here.symm.trans second)
        cases kind.symm.trans closes
    · refine ⟨fun at_open => ?_, fun at_close => ?_⟩
      · obtain rfl : i = before.length := at_open
        obtain rfl := Option.some.inj (here.symm.trans first)
        cases kind.symm.trans opens
      · obtain ⟨front, opening, inside, split, opens, balanced⟩ := partners.inside.2 at_close
        exact unopened front opening inside split opens balanced

theorem lone_of_unopened (balanced : Balanced before) (closes : token.kind = .closeParen) :
    Lone (before ++ token :: after) before.length := by
  refine lone_iff.2 (.inr ⟨closes, ?_⟩)
  rintro front opening inside rfl opens balanced'
  obtain ⟨depth, -, counted⟩ := Option.bind_eq_some_iff.1
    ((openAfter?_append 0 front (opening :: inside)).symm.trans balanced)
  have kept := openAfter?_add balanced' (depth + 1)
  rw [Nat.zero_add] at kept
  rw [openAfter?_cons, Token.openAfter?_open opens, Option.bind_some, kept] at counted
  cases counted

theorem lone_of_unclosed {left : Nat} (opens : token.kind = .openParen)
    (counted : openAfter? 0 after = some left) :
    Lone (before ++ token :: after) before.length := by
  refine lone_iff.2 (.inl ⟨opens, ?_⟩)
  rintro _ ⟨inside, closing, rest, rfl, -, balanced, closes⟩
  rw [openAfter?_append, balanced] at counted
  simp [Token.openAfter?, closes] at counted

theorem not_lone_of_opened {depth : Nat} (counted : openAfter? 0 before = some (depth + 1))
    (closes : token.kind = .closeParen) : ¬ Lone (before ++ token :: after) before.length := by
  intro lone
  obtain ⟨front, opening, inside, split, opens, balanced⟩ := exists_last_opened counted
  rcases lone_iff.1 lone with ⟨opens', -⟩ | ⟨-, unopened⟩
  · cases opens'.symm.trans closes
  · exact unopened front opening inside split opens balanced

theorem split_of_getElem? {tokens : List Token} {index : Nat} (here : tokens[index]? = some token) :
    tokens = tokens.take index ++ token :: tokens.drop (index + 1) ∧
      (tokens.take index).length = index := by
  obtain ⟨within, rfl⟩ := List.getElem?_eq_some_iff.1 here
  rw [List.getElem_cons_drop, List.take_append_drop]
  exact ⟨rfl, List.length_take_of_le (Nat.le_of_lt within)⟩

theorem le_of_lone {rest : List Token} {index : Nat} (balanced : Balanced before)
    (lone : Lone (before ++ rest) index) : before.length ≤ index := by
  by_contra inside
  obtain ⟨front, token, back, rfl, rfl⟩ : ∃ front token back, before = front ++ token :: back ∧
      front.length = index :=
    have within : index < before.length := by omega
    ⟨_, _, _, split_of_getElem? (List.getElem?_eq_getElem within)⟩
  obtain ⟨depth, counted, counted'⟩ := Option.bind_eq_some_iff.1
    ((openAfter?_append 0 front (token :: back)).symm.trans balanced)
  obtain ⟨next, first, rest'⟩ := Option.bind_eq_some_iff.1 counted'
  rw [List.append_assoc, List.cons_append] at lone
  rcases lone_iff.1 lone with ⟨opens, unclosed⟩ | ⟨closes, -⟩
  · obtain rfl := Option.some.inj ((Token.openAfter?_open opens depth).symm.trans first)
    obtain ⟨n, closes⟩ := @exists_closesAt 0 depth 0 back (by rwa [Nat.zero_add, Nat.add_comm])
      (Nat.zero_le _)
    exact unclosed n (closes.append rest)
  · cases depth with
    | zero => simp [Token.openAfter?, closes] at first
    | succ depth => exact not_lone_of_opened counted closes lone

end

theorem Balanced.of_no_paren {tokens : List Token}
    (plain : ∀ token ∈ tokens, token.kind.isParen = false) : Balanced tokens := by
  induction tokens with
  | nil => rfl
  | cons token tokens ih =>
    rw [List.forall_mem_cons] at plain
    rw [Balanced, openAfter?_cons, Token.openAfter?_other plain.1, Option.bind_some]
    exact ih plain.2

theorem lone_last_iff {before after : List Token} {token : Token} (opens : token.kind = .openParen)
    (last : ∀ token ∈ after, token.kind ≠ .openParen) :
    Lone (before ++ token :: after) before.length ↔ ∀ token ∈ after, token.kind ≠ .closeParen := by
  have alone : Lone (before ++ token :: after) before.length ↔ ∀ n, ¬ ClosesAt 0 after n := by
    simp [lone_iff, opens]
  rw [alone]
  constructor
  · intro unclosed
    cases found : after.find? (·.kind == .closeParen) with
    | none => simpa using found
    | some closing =>
      obtain ⟨closes, inside, rest, rfl, none⟩ := List.find?_eq_some_iff_append.1 found
      have balanced : Balanced inside := by
        refine .of_no_paren fun token member => ?_
        have opens := last token (List.mem_append_left _ member)
        have closes := none token member
        cases kind : token.kind <;> simp_all [TokenKind.isParen]
      exact absurd ⟨inside, closing, rest, rfl, rfl, balanced, beq_iff_eq.1 closes⟩ (unclosed _)
  · rintro none _ ⟨inside, closing, rest, rfl, -, -, closes⟩
    exact none closing (by simp) closes

/-! ## What parsing blames -/

theorem imbalanceFrom?_cons {depth next : Nat} {token : Token}
    (counted : token.openAfter? depth = some next) (lastOpen : Span) (tokens : List Token) :
    imbalanceFrom? depth lastOpen (token :: tokens) =
      imbalanceFrom? next (if token.kind = .openParen then token.span else lastOpen) tokens := by
  rcases Token.openAfter?_cases counted with ⟨kind, rfl⟩ | ⟨kind, rfl⟩ | ⟨other, rfl⟩
  · simp [imbalanceFrom?, kind]
  · simp [imbalanceFrom?, kind]
  · cases kind : token.kind <;> simp_all [imbalanceFrom?, TokenKind.isParen]

theorem imbalanceFrom?_append {depth left : Nat} {before : List Token}
    (counted : openAfter? depth before = some left) (lastOpen : Span) (rest : List Token) :
    ∃ lastOpen', imbalanceFrom? depth lastOpen (before ++ rest) =
      imbalanceFrom? left lastOpen' rest := by
  induction before generalizing depth lastOpen with
  | nil =>
    obtain rfl := Option.some.inj counted
    exact ⟨lastOpen, rfl⟩
  | cons token tokens ih =>
    obtain ⟨next, first, others⟩ := Option.bind_eq_some_iff.1 counted
    rw [List.cons_append, imbalanceFrom?_cons first]
    exact ih others _

theorem imbalanceFrom?_of_no_open {depth left : Nat} {lastOpen : Span} {tokens : List Token}
    (none : ∀ token ∈ tokens, token.kind ≠ .openParen)
    (counted : openAfter? depth tokens = some (left + 1)) :
    imbalanceFrom? depth lastOpen tokens = some ⟨.unmatchedOpen, lastOpen⟩ := by
  induction tokens generalizing depth with
  | nil =>
    obtain rfl := Option.some.inj counted
    simp [imbalanceFrom?]
  | cons token tokens ih =>
    rw [List.forall_mem_cons] at none
    obtain ⟨next, first, others⟩ := Option.bind_eq_some_iff.1 counted
    rw [imbalanceFrom?_cons first, if_neg none.1]
    exact ih none.2 others

theorem imbalance?_of_unopened {before after : List Token} {token : Token}
    (balanced : Balanced before) (closes : token.kind = .closeParen) :
    imbalance? (before ++ token :: after) = some ⟨.unmatchedClose, token.span⟩ := by
  obtain ⟨lastOpen, reached⟩ := imbalanceFrom?_append balanced .zero (token :: after)
  rw [imbalance?, reached]
  simp [imbalanceFrom?, closes]

theorem imbalance?_of_unclosed {before after : List Token} {token : Token} {left : Nat}
    (counted : openAfter? 0 (before ++ token :: after) = some (left + 1))
    (opens : token.kind = .openParen) (last : ∀ token ∈ after, token.kind ≠ .openParen) :
    imbalance? (before ++ token :: after) = some ⟨.unmatchedOpen, token.span⟩ := by
  rw [openAfter?_append] at counted
  obtain ⟨depth, front, counted⟩ := Option.bind_eq_some_iff.1 counted
  obtain ⟨lastOpen, reached⟩ := imbalanceFrom?_append front .zero (token :: after)
  rw [openAfter?_cons, Token.openAfter?_open opens, Option.bind_some] at counted
  rw [imbalance?, reached, imbalanceFrom?_cons (Token.openAfter?_open opens depth), if_pos opens]
  exact imbalanceFrom?_of_no_open last counted

end RuleFilter

import RuleFilter.Proofs.Validation.Flags

namespace RuleFilter

/-! ## Counting -/

def Token.opening (token : Token) : Int :=
  match token.kind with
  | .openParen => 1
  | .closeParen => -1
  | _ => 0

def openCount : List Token → Int
  | [] => 0
  | token :: tokens => token.opening + openCount tokens

/-- Whether the number of open parentheses goes below zero, or does not end with it. -/
def Miscounted (tokens : List Token) : Prop :=
  (∃ n, openCount (tokens.take n) < 0) ∨ openCount tokens ≠ 0

theorem Token.openAfter?_eq_some_iff {token : Token} {depth next : Nat} :
    token.openAfter? depth = some next ↔ (next : Int) = depth + token.opening := by
  cases kind : token.kind with
  | closeParen =>
    cases depth with
    | zero => simp [openAfter?, opening, kind]
    | succ depth => simp [openAfter?, opening, kind]; omega
  | _ => simp [openAfter?, opening, kind]; omega

theorem openAfter?_eq_some_iff {depth left : Nat} {tokens : List Token} :
    openAfter? depth tokens = some left ↔
      (∀ n, 0 ≤ depth + openCount (tokens.take n)) ∧ (left : Int) = depth + openCount tokens := by
  induction tokens generalizing depth with
  | nil => simp [openCount]; omega
  | cons token tokens ih =>
    simp only [openAfter?_cons, Option.bind_eq_some_iff, Token.openAfter?_eq_some_iff, ih,
      openCount]
    constructor
    · rintro ⟨next, first, counts, ends⟩
      refine ⟨fun n => ?_, by omega⟩
      cases n with
      | zero => simp [openCount]
      | succ n =>
        have := counts n
        simp only [List.take_succ_cons, openCount]
        omega
    · rintro ⟨counts, ends⟩
      have first : 0 ≤ depth + token.opening := by simpa [openCount] using counts 1
      obtain ⟨next, reached⟩ := Int.eq_ofNat_of_zero_le first
      refine ⟨next, reached.symm, fun n => ?_, by omega⟩
      have := counts (n + 1)
      simp only [List.take_succ_cons, openCount] at this
      omega

theorem miscounted_iff {tokens : List Token} : Miscounted tokens ↔ ¬ Balanced tokens := by
  have counted := @openAfter?_eq_some_iff 0 0 tokens
  simp only [Int.natCast_zero, Int.zero_add] at counted
  rw [Balanced, counted, Classical.not_and_iff_not_or_not, Classical.not_forall, Miscounted,
    eq_comm]
  simp only [Int.not_le, ne_eq]

/-! ## What is told -/

def FirstLone (tokens : List Token) (kind : TokenKind) (index : Nat) (token : Token) : Prop :=
  tokens[index]? = some token ∧ token.kind = kind ∧ Lone tokens index ∧
    ∀ (earlier : Nat) (other : Token), earlier < index → tokens[earlier]? = some other →
      other.kind = kind → ¬ Lone tokens earlier

theorem FirstLone.of_balanced {before after : List Token} {token : Token}
    (balanced : Balanced before) (lone : Lone (before ++ token :: after) before.length) :
    FirstLone (before ++ token :: after) token.kind before.length token := by
  refine ⟨by simp, rfl, lone, fun earlier _ lt _ _ other => ?_⟩
  exact Nat.not_lt.2 (le_of_lone balanced other) lt

theorem not_lone_of_openAfter? {tokens : List Token} {left : Nat}
    (counted : openAfter? 0 tokens = some left) {index : Nat} {closing : Token}
    (here : tokens[index]? = some closing) (closes : closing.kind = .closeParen) :
    ¬ Lone tokens index := by
  obtain ⟨split, length⟩ := split_of_getElem? here
  rw [split, openAfter?_append, Option.bind_eq_some_iff] at counted
  obtain ⟨depth, front, rest⟩ := counted
  cases depth with
  | zero => simp [Token.openAfter?, closes] at rest
  | succ depth =>
    have paired := @not_lone_of_opened _ (tokens.drop (index + 1)) _ _ front closes
    rwa [← split, length] at paired

open Validation

theorem flagged_of_unmatched? {schema : Schema} {tokens : List Token} {diagnostic : Diagnostic}
    (found : unmatched? tokens = some diagnostic) {index : Nat} {paren : Token}
    (here : tokens[index]? = some paren) (is : paren.kind.isParen = true) :
    ∃ message, (schema.validate tokens).tokens[index]? =
      some { paren with flag := some message } := by
  have some_token : tokens ≠ [] := by
    rintro rfl
    cases here
  have told : (Findings.of schema tokens).FoundAt tokens.length index paren diagnostic.problem :=
    .inr (.inr (.inl ⟨is, diagnostic, found, rfl⟩))
  obtain ⟨problem, first⟩ := Option.ne_none_iff_exists'.1 (Findings.told?_ne_none told)
  refine ⟨problem.message, ?_⟩
  rw [getElem?_validate schema some_token, here, Option.map_some, first]
  rfl

/-- Where the number of open parentheses never goes below zero and ends with it, validation tells no
parenthesis. Otherwise it tells one, which is the first that closes without a partner, or where
there is no such one the first that opens without a partner, and flags them all. -/
theorem validate_parentheses (schema : Schema) (tokens : List Token) :
    (¬ Miscounted tokens → (schema.validate tokens).report.ofKind .parenthesis = []) ∧
      (Miscounted tokens → ∃ problem index token,
        (schema.validate tokens).report.ofKind .parenthesis = [⟨problem, token.span⟩] ∧
        (problem = .unmatchedClose ∧ FirstLone tokens .closeParen index token ∨
          problem = .unmatchedOpen ∧ FirstLone tokens .openParen index token ∧
            ∀ (index : Nat) (closing : Token), tokens[index]? = some closing →
              closing.kind = .closeParen → ¬ Lone tokens index) ∧
        ∀ (index : Nat) (paren : Token), tokens[index]? = some paren → paren.kind.isParen = true →
          ∃ message, (schema.validate tokens).tokens[index]? =
            some { paren with flag := some message }) := by
  rw [ofKind_parenthesis, miscounted_iff]
  constructor
  · intro balanced
    rw [unmatched?_eq_none_iff.2 (Classical.not_not.1 balanced), Option.toList_none]
  · intro unbalanced
    rcases balance_cases tokens with balanced | ⟨before, closing, after, rfl, balanced, kind⟩ |
      ⟨before, opening, after, left, rfl, balanced, kind, counted⟩
    · exact absurd balanced unbalanced
    · have found := @unmatched?_of_unopened before after closing balanced kind
      have first := FirstLone.of_balanced balanced (@lone_of_unopened _ after _ balanced kind)
      rw [kind] at first
      refine ⟨.unmatchedClose, before.length, closing, by rw [found]; rfl, .inl ⟨rfl, first⟩, ?_⟩
      exact fun index paren here => flagged_of_unmatched? found here
    · have found := @unmatched?_of_unclosed before after opening balanced left kind counted
      have first := FirstLone.of_balanced balanced (@lone_of_unclosed before _ _ _ kind counted)
      rw [kind] at first
      have whole := openAfter?_of_unclosed balanced kind counted
      refine ⟨.unmatchedOpen, before.length, opening, by rw [found]; rfl,
        .inr ⟨rfl, first, fun index closing here => not_lone_of_openAfter? whole here⟩, ?_⟩
      exact fun index paren here => flagged_of_unmatched? found here

end RuleFilter

import RuleFilter.Proofs.Rule.Partners
import RuleFilter.Proofs.Validation.Reports

namespace RuleFilter
namespace Validation

/-! ## The stack of the matching -/

theorem step_of_other {token : Token} (other : token.kind.isParen = false) (matching : Matching) :
    matching.step token = matching := by
  cases kind : token.kind <;> simp_all [Matching.step, TokenKind.isParen]

theorem foldl_step_of_openAfter? {depth left : Nat} {tokens : List Token}
    (counted : openAfter? depth tokens = some left) {front : List Span}
    (length : front.length = depth) (opened : List Span) (stray : Option Span) :
    ∃ front' : List Span, front'.length = left ∧
      tokens.foldl Matching.step ⟨front ++ opened, stray⟩ = ⟨front' ++ opened, stray⟩ := by
  induction tokens generalizing depth front with
  | nil =>
    obtain rfl := Option.some.inj counted
    exact ⟨front, length, rfl⟩
  | cons token tokens ih =>
    obtain ⟨next, first, rest⟩ := Option.bind_eq_some_iff.1 counted
    rw [List.foldl_cons]
    rcases Token.openAfter?_cases first with ⟨kind, rfl⟩ | ⟨kind, rfl⟩ | ⟨other, rfl⟩
    · have pushed : Matching.step ⟨front ++ opened, stray⟩ token =
          ⟨token.span :: front ++ opened, stray⟩ := by
        simp [Matching.step, kind]
      rw [pushed]
      exact ih rest (by rw [List.length_cons, length])
    · obtain ⟨span, front, rfl⟩ := List.exists_cons_of_length_eq_add_one length
      have popped : Matching.step ⟨span :: front ++ opened, stray⟩ token =
          ⟨front ++ opened, stray⟩ := by
        simp [Matching.step, kind]
      rw [popped]
      exact ih rest (Nat.succ.inj length)
    · rw [step_of_other other]
      exact ih rest length

theorem foldl_step_stray {tokens : List Token} {matching : Matching} {span : Span}
    (found : matching.stray = some span) :
    (tokens.foldl Matching.step matching).stray = some span := by
  induction tokens generalizing matching with
  | nil => exact found
  | cons token tokens ih =>
    apply ih
    unfold Matching.step
    repeat' split
    all_goals simp [found]

section

variable {before after : List Token} {token : Token} (balanced : Balanced before)

include balanced

theorem foldl_step_of_balanced : before.foldl Matching.step .start = .start := by
  obtain ⟨front, length, reached⟩ := @foldl_step_of_openAfter? 0 0 before balanced [] rfl [] none
  obtain rfl := List.length_eq_zero_iff.1 length
  exact reached

theorem unmatched?_of_unopened (closes : token.kind = .closeParen) :
    unmatched? (before ++ token :: after) = some ⟨.unmatchedClose, token.span⟩ := by
  have strays : (Matching.start.step token).stray = some token.span := by
    simp [Matching.step, Matching.start, closes]
  simp only [unmatched?, List.foldl_append, foldl_step_of_balanced balanced, List.foldl_cons,
    foldl_step_stray strays]

theorem unmatched?_of_unclosed {left : Nat} (opens : token.kind = .openParen)
    (counted : openAfter? 0 after = some left) :
    unmatched? (before ++ token :: after) = some ⟨.unmatchedOpen, token.span⟩ := by
  have opened : Matching.start.step token = ⟨[token.span], none⟩ := by
    simp [Matching.step, Matching.start, opens]
  obtain ⟨front, -, reached⟩ :=
    @foldl_step_of_openAfter? 0 left after counted [] rfl [token.span] none
  rw [List.nil_append] at reached
  simp [unmatched?, List.foldl_append, foldl_step_of_balanced balanced, opened, reached]

end

theorem exists_paren_of_unmatched? {tokens : List Token} {diagnostic : Diagnostic}
    (found : unmatched? tokens = some diagnostic) :
    ∃ token ∈ tokens, token.kind.isParen = true ∧ token.span = diagnostic.span := by
  rcases balance_cases tokens with balanced | ⟨before, token, after, rfl, balanced, kind⟩ |
    ⟨before, token, after, left, rfl, balanced, kind, counted⟩
  · cases (unmatched?_eq_none_iff.2 balanced).symm.trans found
  · obtain rfl := Option.some.inj ((unmatched?_of_unopened balanced kind).symm.trans found)
    exact ⟨token, by simp, by rw [kind]; rfl, rfl⟩
  · obtain rfl := Option.some.inj ((unmatched?_of_unclosed balanced kind counted).symm.trans found)
    exact ⟨token, by simp, by rw [kind]; rfl, rfl⟩

end Validation

open Validation

/-! ## What parsing and validation tell -/

theorem Rule.parse_of_imbalance {tokens : List Token} {error : ParseError}
    (found : imbalance? tokens = some error) : parse tokens = .error error := by
  have some_token : tokens.isEmpty = false := by
    cases tokens with
    | nil => cases found
    | cons => rfl
  simp only [parse, some_token, Bool.false_eq_true, if_false, found]

theorem exists_last_open {tokens : List Token} {token : Token} (member : token ∈ tokens)
    (opens : token.kind = .openParen) :
    ∃ before opening after, tokens = before ++ opening :: after ∧ opening.kind = .openParen ∧
      ∀ later ∈ after, later.kind ≠ .openParen := by
  induction tokens using List.reverseRecOn with
  | nil => cases member
  | append_singleton tokens last ih =>
    by_cases kind : last.kind = .openParen
    · exact ⟨tokens, last, [], rfl, kind, nofun⟩
    · have earlier : token ∈ tokens := by
        rcases List.mem_append.1 member with member | member
        · exact member
        · obtain rfl := List.mem_singleton.1 member
          exact absurd opens kind
      obtain ⟨before, opening, after, rfl, opens', none⟩ := ih earlier
      refine ⟨before, opening, after ++ [last], by simp, opens', ?_⟩
      rw [List.forall_mem_append]
      exact ⟨none, by simpa using kind⟩

theorem exists_paren_of_imbalance? {tokens : List Token} {error : ParseError}
    (found : imbalance? tokens = some error) :
    ∃ token ∈ tokens, token.kind.isParen = true ∧ error.span = token.span := by
  rcases balance_cases tokens with balanced | ⟨before, closing, after, rfl, balanced, kind⟩ |
    ⟨before, opening, after, left, rfl, balanced, kind, counted⟩
  · cases (imbalance?_eq_none_iff.2 balanced).symm.trans found
  · obtain rfl := Option.some.inj ((imbalance?_of_unopened balanced kind).symm.trans found)
    exact ⟨closing, by simp, by rw [kind]; rfl, rfl⟩
  · have whole := openAfter?_of_unclosed balanced kind counted
    obtain ⟨front, last, back, split, opens, none⟩ :=
      exists_last_open (List.mem_append_right before List.mem_cons_self) kind
    rw [split] at whole found
    obtain rfl := Option.some.inj ((imbalance?_of_unclosed whole opens none).symm.trans found)
    exact ⟨last, by simp [split], by rw [opens]; rfl, rfl⟩

theorem eq_of_lone {before after : List Token} {token : Token} {index : Nat}
    (balanced : Balanced before) (plain : ∀ later ∈ after, later.kind.isParen = false)
    (lone : Lone (before ++ token :: after) index) : index = before.length := by
  have behind := le_of_lone balanced lone
  obtain ⟨⟨paren, found, is⟩, -⟩ := lone
  rw [Option.mem_def, List.getElem?_append_right behind] at found
  cases further : index - before.length with
  | zero => omega
  | succ n =>
    rw [further, List.getElem?_cons_succ] at found
    cases (plain paren (List.mem_of_getElem? found)).symm.trans is

/-- Where parentheses are out of balance, validation tells the first one without a partner. Parsing
blames the same one if it closes. If it opens, parsing blames the last parenthesis that opens, which
has its partner if any parenthesis closes behind it, and which is the one that validation tells just
if no other is without a partner. -/
theorem blamed_parentheses (schema : Schema) {tokens : List Token}
    (unbalanced : ¬ Balanced tokens) :
    ∃ before first after, tokens = before ++ first :: after ∧ Lone tokens before.length ∧
      (∀ index, Lone tokens index → before.length ≤ index) ∧
      (first.kind = .closeParen ∧
          (schema.validate tokens).report.ofKind .parenthesis = [⟨.unmatchedClose, first.span⟩] ∧
          Rule.parse tokens = .error ⟨.unmatchedClose, first.span⟩ ∨
        first.kind = .openParen ∧
          (schema.validate tokens).report.ofKind .parenthesis = [⟨.unmatchedOpen, first.span⟩] ∧
          ∃ front last back, tokens = front ++ last :: back ∧ last.kind = .openParen ∧
            (∀ later ∈ back, later.kind ≠ .openParen) ∧
            Rule.parse tokens = .error ⟨.unmatchedOpen, last.span⟩ ∧
            (Lone tokens front.length ↔ ∀ later ∈ back, later.kind ≠ .closeParen) ∧
            (front.length = before.length ↔
              ∀ index, Lone tokens index → index = front.length)) := by
  rcases balance_cases tokens with balanced | ⟨before, first, after, rfl, balanced, kind⟩ |
    ⟨before, first, after, left, rfl, balanced, kind, counted⟩
  · exact absurd balanced unbalanced
  · refine ⟨before, first, after, rfl, lone_of_unopened balanced kind,
      fun index => le_of_lone balanced, .inl ⟨kind, ?_, ?_⟩⟩
    · rw [ofKind_parenthesis, unmatched?_of_unopened balanced kind, Option.toList_some]
    · exact Rule.parse_of_imbalance (imbalance?_of_unopened balanced kind)
  · have lone := @lone_of_unclosed before after first left kind counted
    refine ⟨before, first, after, rfl, lone, fun index => le_of_lone balanced,
      .inr ⟨kind, ?_, ?_⟩⟩
    · rw [ofKind_parenthesis, unmatched?_of_unclosed balanced kind counted, Option.toList_some]
    · have whole : openAfter? 0 (before ++ first :: after) = some (left + 1) := by
        rw [openAfter?_append, balanced, Option.bind_some, openAfter?_cons,
          Token.openAfter?_open kind, Option.bind_some, openAfter?_add counted 1]
      obtain ⟨front, last, back, split, opens, none⟩ :=
        exists_last_open (List.mem_append_right before List.mem_cons_self) kind
      refine ⟨front, last, back, split, opens, none, ?_, ?_, ?_⟩
      · rw [split] at whole ⊢
        exact Rule.parse_of_imbalance (imbalance?_of_unclosed whole opens none)
      · rw [split]
        exact lone_last_iff opens none
      · refine ⟨fun same index other => ?_, fun only => (only _ lone).symm⟩
        obtain ⟨rfl, rest⟩ := List.append_inj split same.symm
        obtain ⟨rfl, rfl⟩ := List.cons.inj rest
        -- Behind the last opening parenthesis none closes either, so that
        -- no parenthesis is left there.
        have unclosed := (lone_last_iff kind none).1 lone
        refine eq_of_lone balanced (fun later member => ?_) other
        have opens := none later member
        have closes := unclosed later member
        cases kind : later.kind <;> simp_all [TokenKind.isParen]

def openedTwice : List Token :=
  [⟨.openParen, "(", ⟨0, 1⟩, none⟩, ⟨.property, "Age", ⟨1, 4⟩, none⟩,
    ⟨.operator, ">", ⟨5, 6⟩, none⟩, ⟨.value, "1", ⟨7, 8⟩, none⟩, ⟨.logical, "AND", ⟨9, 12⟩, none⟩,
    ⟨.openParen, "(", ⟨13, 14⟩, none⟩, ⟨.property, "Age", ⟨14, 17⟩, none⟩,
    ⟨.operator, "<", ⟨18, 19⟩, none⟩, ⟨.value, "2", ⟨20, 21⟩, none⟩,
    ⟨.closeParen, ")", ⟨21, 22⟩, none⟩]

theorem blamed_parentheses_openedTwice :
    let schema : Schema := ⟨[⟨"Age", .integer, none⟩], by decide⟩
    ¬ Balanced openedTwice ∧
      ∃ before first after, openedTwice = before ++ first :: after ∧
        Lone openedTwice before.length ∧
        (∀ index, Lone openedTwice index → before.length ≤ index) ∧
        (first.kind = .closeParen ∧
            (schema.validate openedTwice).report.ofKind .parenthesis =
              [⟨.unmatchedClose, first.span⟩] ∧
            Rule.parse openedTwice = .error ⟨.unmatchedClose, first.span⟩ ∨
          first.kind = .openParen ∧
            (schema.validate openedTwice).report.ofKind .parenthesis =
              [⟨.unmatchedOpen, first.span⟩] ∧
            ∃ front last back, openedTwice = front ++ last :: back ∧ last.kind = .openParen ∧
              (∀ later ∈ back, later.kind ≠ .openParen) ∧
              Rule.parse openedTwice = .error ⟨.unmatchedOpen, last.span⟩ ∧
              (Lone openedTwice front.length ↔ ∀ later ∈ back, later.kind ≠ .closeParen) ∧
              (front.length = before.length ↔
                ∀ index, Lone openedTwice index → index = front.length)) :=
  ⟨by decide, blamed_parentheses _ (by decide)⟩

/-- Parsing does not always blame a parenthesis without a partner, nor the one that validation
tells: behind the first one of `openedTwice`, which nothing closes, it blames the second one. -/
theorem not_blamed_parentheses :
    ¬ ∀ (schema : Schema) (tokens : List Token), ¬ Balanced tokens →
      ∃ error, Rule.parse tokens = .error error ∧
        (error.fault = .unmatchedOpen ∨ error.fault = .unmatchedClose) ∧
        (∃ index, ∃ token ∈ tokens[index]?, Lone tokens index ∧ token.span = error.span) ∧
        ((schema.validate tokens).report.ofKind .parenthesis).map Diagnostic.span =
          [error.span] := by
  intro claimed
  obtain ⟨error, parsed, -, -, told⟩ :=
    claimed ⟨[⟨"Age", .integer, none⟩], by decide⟩ openedTwice (by decide)
  have blamed : Rule.parse openedTwice = .error ⟨.unmatchedOpen, ⟨13, 14⟩⟩ := rfl
  obtain rfl := Except.error.inj (blamed.symm.trans parsed)
  have first : unmatched? openedTwice = some ⟨.unmatchedOpen, ⟨0, 1⟩⟩ := rfl
  rw [ofKind_parenthesis, first] at told
  exact absurd told (by decide)

end RuleFilter

import RuleFilter.Proofs.Rule.Parsing
import RuleFilter.Proofs.Token.Reading
import RuleFilter.Validation.Nesting
import RuleFilter.Validation.Sequence

/-!
# The passes of a validation as one machine

The passes are run side by side, and the state of the machine is a `Progress`.

* `accepts_of_derives`: the machine accepts tokens that form a rule, since it passes over them and
  then looks for what joins the rule to the rest, with the same parentheses and levels open as
  before.
* `derives_of_accepts`: what the machine accepts forms a rule, since where an operand may begin it
  does begin with one.
-/

namespace RuleFilter

def Expectation.allows : Expectation → Role → Bool
  | operand, next => next.beginsOperand
  | operator, next => next == .operator
  | value, next => next == .value
  | joint, next => next == .connective || next == .closeParen
  | anything, _ => true

theorem Token.kind_of_role {token : Token} :
    (token.role = .operator → token.kind = .operator) ∧
      (token.role = .value → token.kind = .value) := by
  unfold role
  cases token.kind with
  | logical => cases token.isConnective .not <;> simp
  | _ => simp

namespace Validation

/-! ## The machine -/

structure Progress where
  expected : Expectation
  opened : Nat
  levels : Levels

namespace Progress

def start : Progress := ⟨.operand, 0, .start⟩

def step? (progress : Progress) (token : Token) : Option Progress :=
  if token.role ≠ .unknown ∧ progress.expected.allows token.role = true ∧
      ∀ reached ∈ progress.levels.reached? token, reached ≤ nestingLimit then
    (token.openAfter? progress.opened).map fun opened =>
      ⟨.after (some token.role), opened, progress.levels.step token⟩
  else none

def Accepts (progress : Progress) : List Token → Prop
  | [] => progress.expected = .joint ∧ progress.opened = 0
  | token :: tokens => ∃ next, progress.step? token = some next ∧ next.Accepts tokens

theorem accepts_cons_iff {progress next : Progress} {token : Token}
    (h : progress.step? token = some next) (tokens : List Token) :
    progress.Accepts (token :: tokens) ↔ next.Accepts tokens := by
  simp [Accepts, h]

/-! What the machine does with a token of each class. -/

section

variable {token : Token} {opened depth waiting : Nat} {groups : List Nat}

theorem step?_property (h : token.kind = .property) :
    step? ⟨.operand, opened, ⟨depth, waiting, groups⟩⟩ token =
      some ⟨.operator, opened, ⟨depth, 0, groups⟩⟩ := by
  simp [step?, Token.role, h, Expectation.allows, Role.beginsOperand, Levels.reached?,
    Token.openAfter?, Expectation.after, Levels.step]

theorem step?_operator (h : token.kind = .operator) (levels : Levels) :
    step? ⟨.operator, opened, levels⟩ token = some ⟨.value, opened, levels⟩ := by
  simp [step?, Token.role, h, Expectation.allows, Levels.reached?, Token.openAfter?,
    Expectation.after, Levels.step]

theorem step?_value (h : token.kind = .value) (levels : Levels) :
    step? ⟨.value, opened, levels⟩ token = some ⟨.joint, opened, levels⟩ := by
  simp [step?, Token.role, h, Expectation.allows, Levels.reached?, Token.openAfter?,
    Expectation.after, Levels.step]

theorem step?_connective {connective : Connective} (binary : connective ≠ .not)
    (is : token.isConnective connective = true) (levels : Levels) :
    step? ⟨.joint, opened, levels⟩ token = some ⟨.operand, opened, levels⟩ := by
  have positive := Token.isConnective_not_of_binary binary is
  simp [step?, Token.role, Token.kind_of_isConnective is, positive, Expectation.allows,
    Levels.reached?, Token.openAfter?, Expectation.after, Levels.step]

theorem step?_negation (is : token.isConnective .not = true)
    (room : depth + waiting < nestingLimit) :
    step? ⟨.operand, opened, ⟨depth, waiting, groups⟩⟩ token =
      some ⟨.operand, opened, ⟨depth, waiting + 1, groups⟩⟩ := by
  simp [step?, Token.role, Token.kind_of_isConnective is, is, Expectation.allows,
    Role.beginsOperand, Levels.reached?, Token.openAfter?, Expectation.after, Levels.step]
  omega

theorem step?_open (h : token.kind = .openParen) (room : depth + waiting < nestingLimit) :
    step? ⟨.operand, opened, ⟨depth, waiting, groups⟩⟩ token =
      some ⟨.operand, opened + 1, ⟨depth + (waiting + 1), 0, (waiting + 1) :: groups⟩⟩ := by
  simp [step?, Token.role, h, Expectation.allows, Role.beginsOperand, Levels.reached?,
    Token.openAfter?, Expectation.after, Levels.step]
  omega

theorem step?_close (h : token.kind = .closeParen) (brought : Nat) :
    step? ⟨.joint, opened + 1, ⟨depth + brought, waiting, brought :: groups⟩⟩ token =
      some ⟨.joint, opened, ⟨depth, waiting, groups⟩⟩ := by
  simp [step?, Token.role, h, Expectation.allows, Levels.reached?, Token.openAfter?,
    Expectation.after, Levels.step]

end

/-! What the machine has seen where it did not stop. -/

theorem step?_eq_some_iff {progress next : Progress} {token : Token} :
    progress.step? token = some next ↔
      (token.role ≠ .unknown ∧ progress.expected.allows token.role = true) ∧
        (∀ reached ∈ progress.levels.reached? token, reached ≤ nestingLimit) ∧
        ∃ opened, token.openAfter? progress.opened = some opened ∧
          next = ⟨.after (some token.role), opened, progress.levels.step token⟩ := by
  unfold step?
  split
  · next passed =>
    simp only [Option.map_eq_some_iff, passed.1, passed.2.1, ne_eq, not_false_eq_true, and_self,
      true_and, @eq_comm _ next]
    exact (and_iff_right passed.2.2).symm
  · next stuck =>
    simp only [reduceCtorEq, false_iff]
    exact fun passed => stuck ⟨passed.1.1, passed.1.2, passed.2.1⟩

theorem role_of_step? {progress next : Progress} {token : Token}
    (h : progress.step? token = some next) :
    progress.expected.allows token.role = true ∧
      ∀ reached ∈ progress.levels.reached? token, reached ≤ nestingLimit := by
  obtain ⟨⟨-, allowed⟩, within, -⟩ := step?_eq_some_iff.1 h
  exact ⟨allowed, within⟩

theorem kind_of_operator_step? {opened : Nat} {levels : Levels} {next : Progress} {token : Token}
    (h : step? ⟨.operator, opened, levels⟩ token = some next) : token.kind = .operator := by
  have allowed := (role_of_step? h).1
  exact Token.kind_of_role.1 (beq_iff_eq.1 allowed)

theorem kind_of_value_step? {opened : Nat} {levels : Levels} {next : Progress} {token : Token}
    (h : step? ⟨.value, opened, levels⟩ token = some next) : token.kind = .value := by
  have allowed := (role_of_step? h).1
  exact Token.kind_of_role.2 (beq_iff_eq.1 allowed)

theorem operand_step?_cases {opened depth waiting : Nat} {groups : List Nat} {next : Progress}
    {token : Token} (h : step? ⟨.operand, opened, ⟨depth, waiting, groups⟩⟩ token = some next) :
    token.kind = .property ∨
      token.isConnective .not = true ∧ depth + waiting < nestingLimit ∨
      token.kind = .openParen ∧ depth + waiting < nestingLimit := by
  obtain ⟨allowed, within⟩ := role_of_step? h
  cases kind : token.kind with
  | property => exact .inl rfl
  | openParen =>
    simp only [Levels.reached?, kind, Option.mem_def, Option.some.injEq, forall_eq'] at within
    exact .inr (.inr ⟨rfl, by omega⟩)
  | logical =>
    cases negative : token.isConnective .not with
    | false => simp [Token.role, kind, negative, Expectation.allows, Role.beginsOperand] at allowed
    | true =>
      simp only [Levels.reached?, kind, negative, if_true, Option.mem_def, Option.some.injEq,
        forall_eq'] at within
      exact .inr (.inl ⟨rfl, by omega⟩)
  | _ => simp [Token.role, kind, Expectation.allows, Role.beginsOperand] at allowed

theorem joint_step?_cases {opened : Nat} {levels : Levels} {next : Progress} {token : Token}
    (h : step? ⟨.joint, opened, levels⟩ token = some next) :
    token.kind = .logical ∧ token.isConnective .not = false ∨ token.kind = .closeParen := by
  have allowed := (role_of_step? h).1
  cases kind : token.kind with
  | closeParen => exact .inr rfl
  | logical =>
    cases negative : token.isConnective .not with
    | false => exact .inl ⟨rfl, rfl⟩
    | true => simp [Token.role, kind, negative, Expectation.allows] at allowed
  | _ => simp [Token.role, kind, Expectation.allows] at allowed

end Progress

/-! ## From the grammar to the machine -/

open Grammar

/-- The machine passes over tokens that form a rule, with as many levels to spare as they open. -/
def PassesOver (levels : Nat) (tokens : List Token) : Prop :=
  ∀ opened depth waiting groups rest, depth + waiting + levels ≤ nestingLimit →
    ((⟨.operand, opened, ⟨depth, waiting, groups⟩⟩ : Progress).Accepts (tokens ++ rest) ↔
      (⟨.joint, opened, ⟨depth, 0, groups⟩⟩ : Progress).Accepts rest)

theorem passesOver_clause (levels : Nat) {property operator value : Token}
    (hp : property.kind = .property) (ho : operator.kind = .operator) (hv : value.kind = .value) :
    PassesOver levels [property, operator, value] := by
  intro opened depth waiting groups rest _
  rw [List.cons_append, Progress.accepts_cons_iff (Progress.step?_property hp),
    List.cons_append, Progress.accepts_cons_iff (Progress.step?_operator ho _),
    List.cons_append, Progress.accepts_cons_iff (Progress.step?_value hv _), List.nil_append]

theorem passesOver_negation {levels : Nat} {sign : Token} {tokens : List Token}
    (is : sign.isConnective .not = true) (h : PassesOver levels tokens) :
    PassesOver (levels + 1) (sign :: tokens) := by
  intro opened depth waiting groups rest room
  rw [List.cons_append, Progress.accepts_cons_iff (Progress.step?_negation is (by omega)),
    h opened depth (waiting + 1) groups rest (by omega)]

theorem passesOver_group {levels : Nat} {opening closing : Token} {tokens : List Token}
    (ho : opening.kind = .openParen) (hc : closing.kind = .closeParen)
    (h : PassesOver levels tokens) :
    PassesOver (levels + 1) (opening :: (tokens ++ [closing])) := by
  intro opened depth waiting groups rest room
  rw [List.cons_append, Progress.accepts_cons_iff (Progress.step?_open ho (by omega)),
    List.append_assoc, h _ _ _ _ _ (by omega), List.singleton_append,
    Progress.accepts_cons_iff (Progress.step?_close hc _)]

theorem passesOver_joined {levels : Nat} {connective : Connective} {token : Token}
    {tokens rest : List Token} (binary : connective ≠ .not)
    (is : token.isConnective connective = true) (h : PassesOver levels tokens)
    (h' : PassesOver levels rest) : PassesOver levels (tokens ++ token :: rest) := by
  intro opened depth waiting groups more room
  rw [List.append_assoc, h _ _ _ _ _ room, List.cons_append,
    Progress.accepts_cons_iff (Progress.step?_connective binary is _), h' _ _ _ _ _ (by omega)]

theorem passesOver_of_derives {levels : Nat} {tokens : List Token} {rule : Rule}
    (h : Derives levels tokens rule) : PassesOver levels tokens :=
  h.tokens_induction (fun levels _ _ _ hp ho hv => passesOver_clause levels hp ho hv)
    (fun _ _ _ is ih => passesOver_negation is ih)
    (fun _ _ _ _ ho hc ih => passesOver_group ho hc ih)
    (fun _ _ _ _ _ binary is ih ih' => passesOver_joined binary is ih ih')

theorem accepts_of_derives {tokens : List Token} {rule : Rule}
    (h : Derives nestingLimit tokens rule) : Progress.start.Accepts tokens := by
  have passes := passesOver_of_derives h 0 0 0 [] [] (by omega)
  rw [List.append_nil] at passes
  exact passes.2 ⟨rfl, rfl⟩

/-! ## From the machine to the grammar -/

/-- In all tokens that the machine accepts where a rule may begin, with `levels` more to open, it
finds the part, and accepts what follows. -/
def Finds (levels : Nat) (part : Phrase) (follow : List Token → Prop) : Prop :=
  ∀ tokens opened depth groups, Spelled tokens → depth + levels = nestingLimit →
    (⟨.operand, opened, ⟨depth, 0, groups⟩⟩ : Progress).Accepts tokens →
    ∃ taken rest rule, tokens = taken ++ rest ∧ part taken rule ∧ follow rest ∧
      (⟨.joint, opened, ⟨depth, 0, groups⟩⟩ : Progress).Accepts rest

theorem finds_run {levels : Nat} {part : Phrase} {follow : List Token → Prop}
    (finds : Finds levels part follow) {connective : Connective}
    (binary : connective ≠ .not) {tokens : List Token} {opened depth : Nat} {groups : List Nat}
    (spelled : Spelled tokens) (room : depth + levels = nestingLimit)
    (accepts : (⟨.operand, opened, ⟨depth, 0, groups⟩⟩ : Progress).Accepts tokens) :
    ∃ taken rest rules, tokens = taken ++ rest ∧ Run connective part taken rules ∧
      (follow rest ∧ Reading.StopsAt connective rest) ∧
      (⟨.joint, opened, ⟨depth, 0, groups⟩⟩ : Progress).Accepts rest := by
  -- The tokens left become fewer, since a connective stands behind each part but the last one.
  induction length : tokens.length using Nat.strongRecOn generalizing tokens with
  | _ _ ih =>
    subst length
    obtain ⟨taken, rest, rule, rfl, derived, follows, accepts'⟩ :=
      finds tokens opened depth groups spelled room accepts
    by_cases stops : Reading.StopsAt connective rest
    · exact ⟨taken, rest, [rule], rfl, .last derived, ⟨follows, stops⟩, accepts'⟩
    · cases rest with
      | nil => exact absurd rfl stops
      | cons token more =>
        have is : token.isConnective connective = true := by
          simpa [Reading.StopsAt] using stops
        rw [Progress.accepts_cons_iff (Progress.step?_connective binary is _)] at accepts'
        have shorter : more.length < (taken ++ token :: more).length := by
          rw [List.length_append, List.length_cons]
          omega
        obtain ⟨taken', rest, rules, rfl, run, ends, accepts''⟩ :=
          ih more.length shorter spelled.of_append.tail accepts' rfl
        exact ⟨taken ++ token :: taken', rest, rule :: rules, by simp, .more derived is run, ends,
          accepts''⟩

theorem finds_joined {levels : Nat} {part : Phrase} {follow : List Token → Prop}
    (finds : Finds levels part follow) {connective : Connective}
    (binary : connective ≠ .not) (node : List Rule → Rule) :
    Finds levels (Joined connective node part)
      fun rest => follow rest ∧ Reading.StopsAt connective rest := by
  intro tokens opened depth groups spelled room accepts
  obtain ⟨taken, rest, rules, split, run, ends, accepts'⟩ :=
    finds_run finds binary spelled room accepts
  exact ⟨taken, rest, Rule.join node rules, split, joined_iff.2 ⟨rules, run, rfl⟩, ends, accepts'⟩

theorem finds_disjunction {levels : Nat} {unary : Phrase}
    (finds : Finds levels unary fun _ => True) :
    Finds levels (Disjunction unary)
      fun rest => (True ∧ Reading.StopsAt .and rest) ∧ Reading.StopsAt .or rest :=
  finds_joined (finds_joined finds (by decide) .all) (by decide) .any

theorem ends_or_closes {opened : Nat} {levels : Levels} {rest : List Token}
    (spelled : Spelled rest) (stops : Reading.StopsAt .and rest) (stops' : Reading.StopsAt .or rest)
    (accepts : (⟨.joint, opened, levels⟩ : Progress).Accepts rest) :
    rest = [] ∧ opened = 0 ∨
      opened ≠ 0 ∧ ∃ closing more, rest = closing :: more ∧ closing.kind = .closeParen := by
  cases rest with
  | nil => exact .inl ⟨rfl, accepts.2⟩
  | cons closing more =>
    obtain ⟨next, stepped, -⟩ := accepts
    rcases Progress.joint_step?_cases stepped with ⟨kind, positive⟩ | kind
    · obtain ⟨connective, is⟩ := spelled.isConnective kind
      cases connective with
      | and => exact absurd (stops.symm.trans is) Bool.false_ne_true
      | or => exact absurd (stops'.symm.trans is) Bool.false_ne_true
      | not => exact absurd (positive.symm.trans is) Bool.false_ne_true
    · refine .inr ⟨?_, closing, more, rfl, kind⟩
      rintro rfl
      simp [Progress.step?, Token.openAfter?, kind] at stepped

theorem find_clause {levels : Nat} {property : Token} {tokens : List Token} {opened : Nat}
    {state : Levels} (spelled : Spelled (property :: tokens)) (kind : property.kind = .property)
    (accepts : (⟨.operator, opened, state⟩ : Progress).Accepts tokens) :
    ∃ taken rest rule, property :: tokens = taken ++ rest ∧ Unary levels taken rule ∧
      (⟨.joint, opened, state⟩ : Progress).Accepts rest := by
  rcases tokens with - | ⟨operator, tokens⟩
  · exact absurd accepts.1 nofun
  obtain ⟨_, stepped, -⟩ := id accepts
  have kind₂ := Progress.kind_of_operator_step? stepped
  rw [Progress.accepts_cons_iff (Progress.step?_operator kind₂ _)] at accepts
  rcases tokens with - | ⟨value, rest⟩
  · exact absurd accepts.1 nofun
  obtain ⟨_, stepped, -⟩ := id accepts
  have kind₃ := Progress.kind_of_value_step? stepped
  rw [Progress.accepts_cons_iff (Progress.step?_value kind₃ _)] at accepts
  have symbol := (spelled.tail operator List.mem_cons_self).1 kind₂
  obtain ⟨op, spells⟩ := Option.isSome_iff_exists.1 symbol
  exact ⟨[property, operator, value], rest, _, rfl, .clause levels kind kind₂ spells kind₃, accepts⟩

theorem find_unary {levels : Nat} {tokens : List Token} {opened depth waiting : Nat}
    {groups : List Nat} (spelled : Spelled tokens) (room : depth + waiting + levels = nestingLimit)
    (accepts : (⟨.operand, opened, ⟨depth, waiting, groups⟩⟩ : Progress).Accepts tokens) :
    ∃ taken rest rule, tokens = taken ++ rest ∧ Unary levels taken rule ∧
      (⟨.joint, opened, ⟨depth, 0, groups⟩⟩ : Progress).Accepts rest := by
  induction levels generalizing tokens opened depth waiting groups with
  | zero =>
    rcases tokens with - | ⟨token, tokens⟩
    · exact absurd accepts.1 nofun
    obtain ⟨_, stepped, -⟩ := id accepts
    -- No level is left to open, so that the operand is a clause.
    rcases Progress.operand_step?_cases stepped with kind | ⟨-, below⟩ | ⟨-, below⟩
    · rw [Progress.accepts_cons_iff (Progress.step?_property kind)] at accepts
      exact find_clause spelled kind accepts
    · omega
    · omega
  | succ levels ih =>
    rcases tokens with - | ⟨token, tokens⟩
    · exact absurd accepts.1 nofun
    obtain ⟨_, stepped, -⟩ := id accepts
    rcases Progress.operand_step?_cases stepped with kind | ⟨is, below⟩ | ⟨kind, below⟩
    · rw [Progress.accepts_cons_iff (Progress.step?_property kind)] at accepts
      exact find_clause spelled kind accepts
    · rw [Progress.accepts_cons_iff (Progress.step?_negation is below)] at accepts
      obtain ⟨taken, rest, rule, rfl, derived, accepts'⟩ := ih spelled.tail (by omega) accepts
      exact ⟨token :: taken, rest, .negation rule, rfl, .negation is derived, accepts'⟩
    · rw [Progress.accepts_cons_iff (Progress.step?_open kind below)] at accepts
      have finds : Finds levels (Unary levels) fun _ => True := by
        intro tokens opened depth groups spelled room accepts
        obtain ⟨taken, rest, rule, split, derived, accepts'⟩ := ih spelled room accepts
        exact ⟨taken, rest, rule, split, derived, trivial, accepts'⟩
      obtain ⟨taken, rest, rule, rfl, derived, ⟨⟨-, stops⟩, stops'⟩, accepts'⟩ :=
        finds_disjunction finds tokens _ _ _ spelled.tail (by omega) accepts
      rcases ends_or_closes spelled.tail.of_append stops stops' accepts' with
        ⟨-, unopened⟩ | ⟨-, closing, more, rfl, closes⟩
      · exact absurd unopened (Nat.succ_ne_zero _)
      rw [Progress.accepts_cons_iff (Progress.step?_close closes _)] at accepts'
      exact ⟨token :: (taken ++ [closing]), more, rule, by simp, .group kind derived closes,
        accepts'⟩

theorem derives_of_accepts {tokens : List Token} (spelled : Spelled tokens)
    (accepts : Progress.start.Accepts tokens) : ∃ rule, Derives nestingLimit tokens rule := by
  have finds : Finds nestingLimit (Unary nestingLimit) fun _ => True := by
    intro tokens opened depth groups spelled room accepts
    obtain ⟨taken, rest, rule, split, derived, accepts'⟩ := find_unary spelled room accepts
    exact ⟨taken, rest, rule, split, derived, trivial, accepts'⟩
  obtain ⟨taken, rest, rule, rfl, derived, ⟨⟨-, stops⟩, stops'⟩, accepts'⟩ :=
    finds_disjunction finds tokens 0 0 [] spelled (Nat.zero_add _) accepts
  rcases ends_or_closes spelled.of_append stops stops' accepts' with ⟨rfl, -⟩ | ⟨opened, -⟩
  · exact ⟨rule, by rwa [List.append_nil]⟩
  · exact absurd rfl opened

end Validation
end RuleFilter

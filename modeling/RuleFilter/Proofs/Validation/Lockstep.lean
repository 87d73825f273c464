import RuleFilter.Proofs.Rule.Partners
import RuleFilter.Proofs.Validation.Acceptance

/-!
# Parsing in step with the machine of the passes

While a rule is parsed, the machine moves over the tokens that are taken (`Moves`). A reading that
succeeds leaves the machine where the rule may end, and a reading that fails leaves it at a place
from which it cannot move on either, which is where the error stands (`Keeps`, `Stuck`).

* `Reading.operand_keeps`, `Reading.disjunction_keeps`: this holds of every reading, at any depth.
* `Rule.stuck_of_parse`: where parsing fails on balanced tokens, the machine is stuck.
-/

namespace RuleFilter
namespace Validation

namespace Progress

def run? (progress : Progress) (tokens : List Token) : Option Progress :=
  tokens.foldlM step? progress

theorem run?_cons {progress next : Progress} {token : Token}
    (stepped : progress.step? token = some next) (tokens : List Token) :
    progress.run? (token :: tokens) = next.run? tokens := by
  rw [run?, List.foldlM_cons, stepped]
  rfl

theorem run?_append {progress next : Progress} {tokens : List Token}
    (moved : progress.run? tokens = some next) (rest : List Token) :
    progress.run? (tokens ++ rest) = next.run? rest := by
  rw [run?, List.foldlM_append]
  exact congrArg (· >>= _) moved

theorem of_run? (schema : Schema) {earlier tokens : List Token} {opened : Nat} {levels : Levels}
    {progress : Progress}
    (moved : run? ⟨.after (earlier.head?.map Token.role), opened, levels⟩ tokens = some progress) :
    (progress.expected = .after ((tokens.reverse ++ earlier).head?.map Token.role) ∧
        ∀ problem, some problem ∈ problemsBehind schema earlier tokens → problem.kind = .type) ∧
      openAfter? opened tokens = some progress.opened ∧
      progress.levels = tokens.foldl Levels.step levels ∧ WithinLimit levels tokens := by
  induction tokens generalizing earlier opened levels with
  | nil =>
    obtain rfl := Option.some.inj moved
    exact ⟨⟨rfl, nofun⟩, rfl, rfl, trivial⟩
  | cons token tokens ih =>
    obtain ⟨next, stepped, moved⟩ := Option.bind_eq_some_iff.1 moved
    obtain ⟨fits, within, opened', counted, rfl⟩ := step?_eq_some_iff.1 stepped
    obtain ⟨⟨expected, quiet⟩, counted', levels', within'⟩ := @ih (token :: earlier) _ _ moved
    refine ⟨⟨by simpa using expected, ?_⟩, ?_, levels', within, within'⟩
    · intro problem member
      rcases List.mem_cons.1 member with found | member
      · exact tokenProblem?_kind_iff.2 fits problem found.symm
      · exact quiet problem member
    · rw [openAfter?_cons, counted, Option.bind_some, counted']

end Progress

theorem tooDeepFrom?_append {levels : Levels} {taken : List Token}
    (within : WithinLimit levels taken) {token : Token} {reached : Nat}
    (opens : (taken.foldl Levels.step levels).reached? token = some reached)
    (beyond : nestingLimit < reached) (index : Nat) (rest : List Token) :
    tooDeepFrom? levels index (taken ++ token :: rest) = some (index + taken.length, token) := by
  induction taken generalizing levels index with
  | nil =>
    have opens : levels.reached? token = some reached := opens
    simp [tooDeepFrom?, opens, beyond]
  | cons first taken ih =>
    have shallow : (levels.reached? first).any (nestingLimit < ·) = false := by
      cases reached : levels.reached? first with
      | none => rfl
      | some reached' => simpa using within.1 reached' reached
    rw [List.cons_append, tooDeepFrom?, shallow]
    simp only [Bool.false_eq_true, if_false]
    rw [ih within.2 opens, List.length_cons, Nat.add_right_comm, Nat.add_assoc]

namespace Levels

theorem reached?_negation {token : Token} (is : token.isConnective .not = true) (levels : Levels) :
    levels.reached? token = some (levels.depth + (levels.waiting + 1)) := by
  simp [reached?, Token.kind_of_isConnective is, is]

theorem reached?_open {token : Token} (kind : token.kind = .openParen) (levels : Levels) :
    levels.reached? token = some (levels.depth + (levels.waiting + 1)) := by
  simp [reached?, kind]

end Levels

/-! ## Moves -/

def stopBehind (stop : Nat) (tokens : List Token) : Nat :=
  tokens.foldl (fun _ token => token.span.stop) stop

def Moves (cursor : Cursor) (progress : Progress) (after : Cursor) (next : Progress) : Prop :=
  ∃ taken, cursor.rest = taken ++ after.rest ∧ progress.run? taken = some next ∧
    after.lastStop = stopBehind cursor.lastStop taken

namespace Moves

variable {cursor after last : Cursor} {progress next final : Progress}

theorem refl (cursor : Cursor) (progress : Progress) : Moves cursor progress cursor progress :=
  ⟨[], rfl, rfl, rfl⟩

theorem trans (first : Moves cursor progress after next) (second : Moves after next last final) :
    Moves cursor progress last final := by
  obtain ⟨taken, split, moved, stop⟩ := first
  obtain ⟨taken', split', moved', stop'⟩ := second
  refine ⟨taken ++ taken', by rw [split, split', List.append_assoc], ?_, ?_⟩
  · rw [Progress.run?_append moved, moved']
  · rw [stop', stop, stopBehind, stopBehind, stopBehind, List.foldl_append]

theorem step {token : Token} {rest : List Token} {stop depth depth' : Nat}
    (stepped : progress.step? token = some next) :
    Moves ⟨token :: rest, stop, depth⟩ progress ⟨rest, token.span.stop, depth'⟩ next :=
  ⟨[token], rfl, Progress.run?_cons stepped [], rfl⟩

theorem spelled (moves : Moves cursor progress after next) (spelled : Spelled cursor.rest) :
    Spelled after.rest := by
  obtain ⟨taken, split, -⟩ := moves
  rw [split] at spelled
  exact spelled.of_append

theorem length_le (moves : Moves cursor progress after next) :
    after.rest.length ≤ cursor.rest.length := by
  obtain ⟨taken, split, -⟩ := moves
  rw [split, List.length_append]
  exact Nat.le_add_left ..

end Moves

/-! ## Places without a way on -/

def Blames (expected : Expectation) (token : Token) (fault : ParseFault) : Prop :=
  match expected with
  | .operand =>
    fault =
      if token.isUnknownName then .unknownProperty token.text else .unexpected .property token.text
  | .operator => fault = .unexpected .operator token.text
  | .value => fault = .unexpected .value token.text
  | .joint => fault = .unexpected .closeParen token.text ∨ fault = .leftOver token.text
  | .anything => False

theorem Blames.ne_ended {expected : Expectation} {token : Token} {fault : ParseFault}
    (blames : Blames expected token fault) (wanted : Wanted) : fault ≠ .ended wanted := by
  rintro rfl
  cases expected with
  | operand =>
    have other := Eq.symm blames
    split at other <;> cases other
  | joint => rcases blames with other | other <;> cases other
  | _ => cases blames

/-- Whether the machine cannot move on from a place at which parsing fails with an error: the tokens
end too early, or a pass finds something wrong with the next one. -/
inductive Stuck (progress : Progress) (cursor : Cursor) : ParseError → Prop
  | ended (wanted : Wanted) : cursor.rest = [] →
      (progress.expected = .joint → progress.opened ≠ 0) →
      Stuck progress cursor ⟨.ended wanted, ⟨cursor.lastStop, cursor.lastStop⟩⟩
  | misplaced {token : Token} {rest : List Token} {fault : ParseFault} :
      cursor.rest = token :: rest →
      ¬ (token.role ≠ .unknown ∧ progress.expected.allows token.role = true) →
      Blames progress.expected token fault → Stuck progress cursor ⟨fault, token.span⟩
  | unopened {token : Token} {rest : List Token} {fault : ParseFault} :
      cursor.rest = token :: rest → token.kind = .closeParen → progress.opened = 0 →
      Stuck progress cursor ⟨fault, token.span⟩
  | tooDeep {token : Token} {rest : List Token} {reached : Nat} :
      cursor.rest = token :: rest → progress.levels.reached? token = some reached →
      nestingLimit < reached → Stuck progress cursor ⟨.tooDeep, token.span⟩

/-- Whether what a reading gives keeps in step with the machine: behind what it took the machine is
at `next` and the tokens are as in `follow`, and where it failed the machine is stuck. -/
def Keeps {α : Type} (depth : Nat) (cursor : Cursor) (progress next : Progress)
    (follow : List Token → Prop) : Except ParseError (α × Cursor) → Prop
  | .ok (_, after) => after.depth = depth ∧ Moves cursor progress after next ∧ follow after.rest
  | .error error => ∃ place stuck, Moves cursor progress place stuck ∧ Stuck stuck place error

namespace Keeps

variable {α β : Type} {depth depth' : Nat} {cursor after : Cursor}
  {progress next last : Progress} {follow follow' : List Token → Prop}

theorem behind {result : Except ParseError (α × Cursor)}
    (moves : Moves cursor progress after next) (keeps : Keeps depth after next last follow result) :
    Keeps depth cursor progress last follow result := by
  cases result with
  | ok result => exact ⟨keeps.1, moves.trans keeps.2.1, keeps.2.2⟩
  | error error =>
    obtain ⟨place, stuck, moves', isStuck⟩ := keeps
    exact ⟨place, stuck, moves.trans moves', isStuck⟩

theorem bind {first : Except ParseError (α × Cursor)}
    {second : α × Cursor → Except ParseError (β × Cursor)}
    (keeps : Keeps depth cursor progress next follow first)
    (goes_on : ∀ a after, first = .ok (a, after) → after.depth = depth →
      Moves cursor progress after next → follow after.rest →
      Keeps depth' after next last follow' (second (a, after))) :
    Keeps depth' cursor progress last follow' (first >>= second) := by
  cases first with
  | ok result =>
    obtain ⟨a, after⟩ := result
    obtain ⟨back, moves, follows⟩ := keeps
    exact (goes_on a after rfl back moves follows).behind moves
  | error error => exact keeps

end Keeps

end Validation

open Validation

/-! ## Single tokens -/

theorem Spelled.closes_of_joint {token : Token} {rest : List Token}
    (spelled : Spelled (token :: rest)) (stops : Reading.StopsAt .and (token :: rest))
    (stops' : Reading.StopsAt .or (token :: rest))
    (allowed : Expectation.joint.allows token.role = true) : token.kind = .closeParen := by
  cases kind : token.kind with
  | closeParen => rfl
  | logical =>
    obtain ⟨connective, is⟩ := spelled.isConnective kind
    cases connective with
    | and => exact absurd (stops.symm.trans is) Bool.false_ne_true
    | or => exact absurd (stops'.symm.trans is) Bool.false_ne_true
    | not => simp [Token.role, kind, is, Expectation.allows] at allowed
  | _ => simp [Token.role, kind, Expectation.allows] at allowed

namespace Cursor

variable {cursor : Cursor} {opened depth waiting : Nat} {groups : List Nat} {levels : Levels}

theorem expect_error {kind : TokenKind} (wanted : Wanted) {token : Token}
    (other : token.kind ≠ kind) (rest : List Token) (stop depth : Nat) :
    expect kind wanted ⟨token :: rest, stop, depth⟩ =
      .error ⟨.unexpected wanted token.text, token.span⟩ :=
  if_neg other

theorem expect_keeps {kind : TokenKind} (wanted : Wanted) {progress next : Progress}
    (passes : ∀ token, token.kind = kind → progress.step? token = some next)
    (others : ∀ token ∈ cursor.rest.head?, token.kind ≠ kind →
      ¬ (token.role ≠ .unknown ∧ progress.expected.allows token.role = true))
    (blames : ∀ token ∈ cursor.rest.head?,
      Blames progress.expected token (.unexpected wanted token.text))
    (goes_on : progress.expected = .joint → progress.opened ≠ 0) :
    Keeps cursor.depth cursor progress next (fun _ => True) (cursor.expect kind wanted) := by
  obtain ⟨rest, stop, depth⟩ := cursor
  cases rest with
  | nil => exact ⟨_, _, .refl _ _, .ended wanted rfl goes_on⟩
  | cons token rest =>
    by_cases is : token.kind = kind
    · rw [expect_cons wanted is]
      exact ⟨rfl, .step (passes token is), trivial⟩
    · rw [expect_error wanted is]
      exact ⟨_, _, .refl _ _, .misplaced rfl (others token rfl is) (blames token rfl)⟩

theorem expect_operator_keeps :
    Keeps cursor.depth cursor ⟨.operator, opened, levels⟩ ⟨.value, opened, levels⟩ (fun _ => True)
      (cursor.expect .operator .operator) := by
  refine expect_keeps .operator (fun token kind => Progress.step?_operator kind levels) ?_
    (fun _ _ => rfl) nofun
  rintro token - other ⟨-, allowed⟩
  exact other (Token.kind_of_role.1 (beq_iff_eq.1 allowed))

theorem expect_value_keeps :
    Keeps cursor.depth cursor ⟨.value, opened, levels⟩ ⟨.joint, opened, levels⟩ (fun _ => True)
      (cursor.expect .value .value) := by
  refine expect_keeps .value (fun token kind => Progress.step?_value kind levels) ?_
    (fun _ _ => rfl) nofun
  rintro token - other ⟨-, allowed⟩
  exact other (Token.kind_of_role.2 (beq_iff_eq.1 allowed))

theorem expect_close_keeps (brought : Nat) (spelled : Spelled cursor.rest)
    (stops : Reading.StopsAt .and cursor.rest) (stops' : Reading.StopsAt .or cursor.rest) :
    Keeps cursor.depth cursor ⟨.joint, opened + 1, ⟨depth + brought, waiting, brought :: groups⟩⟩
      ⟨.joint, opened, ⟨depth, waiting, groups⟩⟩ (fun _ => True)
      (cursor.expect .closeParen .closeParen) := by
  refine expect_keeps .closeParen (fun token kind => Progress.step?_close kind brought) ?_
    (fun _ _ => .inl rfl) fun _ => Nat.succ_ne_zero opened
  obtain ⟨- | ⟨token, rest⟩, stop, depth⟩ := cursor
  · nofun
  · rintro _ ⟨⟩ other ⟨-, allowed⟩
    exact other (Spelled.closes_of_joint spelled stops stops' allowed)

theorem expectProperty_keeps (positive : Reading.StopsAt .not cursor.rest)
    (not_open : cursor.rest.head?.any (·.kind == .openParen) = false) :
    Keeps cursor.depth cursor ⟨.operand, opened, ⟨depth, waiting, groups⟩⟩
      ⟨.operator, opened, ⟨depth, 0, groups⟩⟩ (fun _ => True) cursor.expectProperty := by
  obtain ⟨- | ⟨token, rest⟩, stop, depth⟩ := cursor
  · exact ⟨_, _, .refl _ _, .ended .property rfl nofun⟩
  · have unfolded : expectProperty ⟨token :: rest, stop, depth⟩ =
        if token.isUnknownName then .error ⟨.unknownProperty token.text, token.span⟩
        else expect .property .property ⟨token :: rest, stop, depth⟩ := rfl
    rw [unfolded]
    split
    · next unknown =>
      refine ⟨_, _, .refl _ _, .misplaced rfl ?_ (if_pos unknown).symm⟩
      simp only [Token.isUnknownName, Bool.and_eq_true, beq_iff_eq] at unknown
      simp [Token.role, unknown.1]
    · next known =>
      refine expect_keeps .property (fun token kind => Progress.step?_property kind) ?_ ?_ nofun
      · rintro _ ⟨⟩ other ⟨-, allowed⟩
        have positive : token.isConnective .not = false := positive
        cases kind : token.kind <;>
          simp_all [Token.role, Expectation.allows, Role.beginsOperand]
      · rintro _ ⟨⟩
        exact (if_neg known).symm

theorem atOpen_iff : cursor.rest.head?.any (·.kind == .openParen) = true ↔
    ∃ token rest, cursor.rest = token :: rest ∧ token.kind = .openParen := by
  cases cursor.rest <;> simp

theorem enter_error {token : Token} {depth : Nat} (full : nestingLimit < depth + 1)
    (rest : List Token) (stop : Nat) :
    enter ⟨token :: rest, stop, depth⟩ = .error ⟨.tooDeep, token.span⟩ :=
  if_pos full

end Cursor

/-! ## Readings -/

namespace Reading

def Steady (reading : Reading) (depth : Nat) (follow : List Token → Prop) : Prop :=
  ∀ cursor opened groups, cursor.depth = depth → Spelled cursor.rest →
    Keeps depth cursor ⟨.operand, opened, ⟨depth, 0, groups⟩⟩ ⟨.joint, opened, ⟨depth, 0, groups⟩⟩
      follow (reading cursor)

theorem clause_keeps {cursor : Cursor} {opened depth waiting : Nat} {groups : List Nat}
    (spelled : Spelled cursor.rest) (positive : StopsAt .not cursor.rest)
    (not_open : cursor.rest.head?.any (·.kind == .openParen) = false) :
    Keeps cursor.depth cursor ⟨.operand, opened, ⟨depth, waiting, groups⟩⟩
      ⟨.joint, opened, ⟨depth, 0, groups⟩⟩ (fun _ => True) (clause cursor) := by
  refine (Cursor.expectProperty_keeps positive not_open).bind ?_
  rintro property c₁ - depth₁ moves₁ -
  rw [← depth₁]
  refine Cursor.expect_operator_keeps.bind ?_
  rintro operator c₂ found depth₂ - -
  obtain ⟨next, kind, -⟩ := Cursor.expect_ok found
  have member : operator ∈ c₁.rest := next ▸ List.mem_cons_self
  have symbol := (moves₁.spelled spelled operator member).1 kind
  obtain ⟨op, spells⟩ := Option.isSome_iff_exists.1 symbol
  simp only [spells]
  rw [← depth₂]
  refine Cursor.expect_value_keeps.bind ?_
  rintro value c₃ - depth₃ - -
  exact ⟨depth₃, .refl _ _, trivial⟩

theorem operandsFrom_keeps {connective : Connective} (binary : connective ≠ .not)
    {operand : Reading} {depth : Nat} {follow : List Token → Prop}
    (steady : Steady operand depth follow) {bound : Nat} (taken : List Rule) {cursor : Cursor}
    (enough : cursor.rest.length < bound) (at_depth : cursor.depth = depth)
    (spelled : Spelled cursor.rest) (opened : Nat) (groups : List Nat) :
    Keeps depth cursor ⟨.operand, opened, ⟨depth, 0, groups⟩⟩ ⟨.joint, opened, ⟨depth, 0, groups⟩⟩
      (fun rest => follow rest ∧ StopsAt connective rest)
      (operandsFrom connective operand bound taken cursor) := by
  -- Every connective takes a token, so the bound is not reached before the tokens end.
  induction bound generalizing taken cursor with
  | zero => omega
  | succ bound ih =>
    have first := steady cursor opened groups at_depth spelled
    rw [operandsFrom]
    cases found : operand cursor with
    | error error =>
      rw [found] at first
      exact first
    | ok result =>
      obtain ⟨rule, behind⟩ := result
      rw [found] at first
      obtain ⟨back, moves, follows⟩ := first
      have fewer := moves.length_le
      have spelled := moves.spelled spelled
      simp only
      split
      · next goes_on =>
        obtain ⟨token, rest, next, is⟩ := Cursor.isAt_iff.1 goes_on
        obtain ⟨rest', stop, depth'⟩ := behind
        obtain rfl : rest' = token :: rest := next
        have joins : Moves ⟨token :: rest, stop, depth'⟩ ⟨.joint, opened, ⟨depth, 0, groups⟩⟩
            (Cursor.advance ⟨token :: rest, stop, depth'⟩)
            ⟨.operand, opened, ⟨depth, 0, groups⟩⟩ :=
          .step (Progress.step?_connective binary is _)
        rw [List.length_cons] at fewer
        exact (@ih (rule :: taken) ⟨rest, token.span.stop, depth'⟩ (by simp only; omega) back
          spelled.tail).behind (moves.trans joins)
      · next stops => exact ⟨back, moves, follows, Bool.eq_false_iff.2 stops⟩

theorem joined_keeps {connective : Connective} (binary : connective ≠ .not)
    (node : List Rule → Rule) {operand : Reading} {depth : Nat} {follow : List Token → Prop}
    (steady : Steady operand depth follow) :
    Steady (joined connective node operand) depth
      fun rest => follow rest ∧ StopsAt connective rest := by
  intro cursor opened groups at_depth spelled
  refine (operandsFrom_keeps binary steady [] (Nat.lt_succ_self _) at_depth spelled opened
    groups).bind ?_
  rintro rules after - back - follows
  exact ⟨back, .refl _ _, follows⟩

theorem disjunction_keeps {operand : Reading} {depth : Nat}
    (steady : Steady operand depth fun _ => True) :
    Steady (disjunction operand) depth
      fun rest => (True ∧ StopsAt .and rest) ∧ StopsAt .or rest :=
  joined_keeps (by decide) .any (joined_keeps (by decide) .all steady)

theorem operand_keeps_of_full {depth waiting : Nat} (full : depth + waiting = nestingLimit)
    (levels : Nat) {opened : Nat} {groups : List Nat} {cursor : Cursor}
    (at_depth : cursor.depth = depth + waiting) (spelled : Spelled cursor.rest) :
    Keeps (depth + waiting) cursor ⟨.operand, opened, ⟨depth, waiting, groups⟩⟩
      ⟨.joint, opened, ⟨depth, 0, groups⟩⟩ (fun _ => True) (operand (levels + 1) cursor) := by
  unfold operand
  split
  · next negated =>
    obtain ⟨sign, rest, next, is⟩ := Cursor.isAt_iff.1 negated
    obtain ⟨_, stop, _⟩ := cursor
    subst next at_depth
    rw [Cursor.enter_error (by omega)]
    exact ⟨_, _, .refl _ _, .tooDeep rfl (Levels.reached?_negation is _) (by simp only; omega)⟩
  · next positive =>
    split
    · next opens =>
      obtain ⟨opening, rest, next, kind⟩ := Cursor.atOpen_iff.1 opens
      obtain ⟨_, stop, _⟩ := cursor
      subst next at_depth
      rw [Cursor.enter_error (by omega)]
      exact ⟨_, _, .refl _ _, .tooDeep rfl (Levels.reached?_open kind _) (by simp only; omega)⟩
    · next not_open =>
      exact at_depth ▸ clause_keeps spelled (Bool.eq_false_iff.2 positive)
        (Bool.eq_false_iff.2 not_open)

theorem operand_keeps {levels depth waiting opened : Nat} {groups : List Nat} {cursor : Cursor}
    (room : depth + waiting + levels = nestingLimit) (at_depth : cursor.depth = depth + waiting)
    (spelled : Spelled cursor.rest) :
    Keeps (depth + waiting) cursor ⟨.operand, opened, ⟨depth, waiting, groups⟩⟩
      ⟨.joint, opened, ⟨depth, 0, groups⟩⟩ (fun _ => True) (operand (levels + 1) cursor) := by
  induction levels generalizing depth waiting opened groups cursor with
  | zero => exact @operand_keeps_of_full depth waiting room 0 _ _ _ at_depth spelled
  | succ levels ih =>
    unfold operand
    split
    · next negated =>
      obtain ⟨sign, rest, next, is⟩ := Cursor.isAt_iff.1 negated
      obtain ⟨_, stop, _⟩ := cursor
      subst next at_depth
      rw [Cursor.enter_cons (by omega)]
      have entered : Moves ⟨sign :: rest, stop, depth + waiting⟩
          ⟨.operand, opened, ⟨depth, waiting, groups⟩⟩
          ⟨rest, sign.span.stop, depth + (waiting + 1)⟩
          ⟨.operand, opened, ⟨depth, waiting + 1, groups⟩⟩ :=
        .step (Progress.step?_negation is (by omega))
      -- A NOT stays among those that wait, and the operand behind it closes them all.
      refine Keeps.behind entered ((ih (by omega) rfl spelled.tail).bind ?_)
      rintro rule after - back - -
      exact ⟨by simp [Cursor.leave, back], .refl _ _, trivial⟩
    · next positive =>
      split
      · next opens =>
        obtain ⟨opening, rest, next, kind⟩ := Cursor.atOpen_iff.1 opens
        obtain ⟨_, stop, _⟩ := cursor
        subst next at_depth
        rw [Cursor.enter_cons (by omega)]
        have entered : Moves ⟨opening :: rest, stop, depth + waiting⟩
            ⟨.operand, opened, ⟨depth, waiting, groups⟩⟩
            ⟨rest, opening.span.stop, depth + (waiting + 1)⟩
            ⟨.operand, opened + 1, ⟨depth + (waiting + 1), 0, (waiting + 1) :: groups⟩⟩ :=
          .step (Progress.step?_open kind (by omega))
        have below : Steady (operand (levels + 1)) (depth + (waiting + 1)) fun _ => True :=
          fun cursor opened groups at_depth spelled =>
            @ih (depth + (waiting + 1)) 0 opened groups cursor (by omega) at_depth spelled
        refine Keeps.behind entered ((disjunction_keeps below _ _ _ rfl spelled.tail).bind ?_)
        rintro rule c₁ - depth₁ moves₁ ⟨⟨-, stops⟩, stops'⟩
        refine (Cursor.expect_close_keeps _ (moves₁.spelled spelled.tail) stops stops').bind ?_
        rintro closing c₂ - depth₂ - -
        exact ⟨by simp [Cursor.leave, depth₂, depth₁], .refl _ _, trivial⟩
      · next not_open =>
        exact at_depth ▸ clause_keeps spelled (Bool.eq_false_iff.2 positive)
          (Bool.eq_false_iff.2 not_open)

theorem rule_keeps : Steady rule 0 fun rest => (True ∧ StopsAt .and rest) ∧ StopsAt .or rest :=
  disjunction_keeps fun cursor opened groups at_depth spelled =>
    @operand_keeps nestingLimit 0 0 opened groups cursor (Nat.zero_add _) at_depth spelled

end Reading

/-! ## The whole list -/

theorem Rule.stuck_of_parse {tokens : List Token} (some_token : tokens ≠ [])
    (spelled : Spelled tokens) (balanced : Balanced tokens) {error : ParseError}
    (failed : parse tokens = .error error) :
    ∃ place progress, Moves (.start tokens) .start place progress ∧ Stuck progress place error := by
  have keeps := Reading.rule_keeps (.start tokens) 0 [] rfl spelled
  have none : tokens.isEmpty = false := by simpa using some_token
  simp only [parse, none, Bool.false_eq_true, if_false, imbalance?_eq_none_iff.2 balanced] at failed
  cases found : Reading.rule (.start tokens) with
  | error error' =>
    rw [found] at keeps
    simp only [found, Except.error.injEq] at failed
    exact failed ▸ keeps
  | ok result =>
    obtain ⟨rule, rest, stop, depth⟩ := result
    rw [found] at keeps
    obtain ⟨back, moves, ⟨-, stops⟩, stops'⟩ := keeps
    simp only [found] at failed
    cases rest with
    | nil => cases failed
    | cons token rest =>
      obtain rfl := Except.error.inj failed
      refine ⟨_, _, moves, ?_⟩
      by_cases kind : token.kind = .closeParen
      · exact .unopened rfl kind rfl
      · refine .misplaced rfl ?_ (.inr rfl)
        rintro ⟨-, allowed⟩
        exact kind ((moves.spelled spelled).closes_of_joint stops stops' allowed)

end RuleFilter

import Mathlib.Algebra.Ring.Nat
import Mathlib.Logic.ExistsUnique
import RuleFilter.Proofs.Rule.Parsing
import RuleFilter.Validation.Nesting

/-!
# The descent and its levels

`Descends` says what the functions of the parser find, as they call one another: nothing in it
bounds how long they go on, and a level is left only where one is open. Every call of them ends, in
front of fewer tokens and with as many levels open as there were (`exists_descends`,
`Descends.passes`), and the readings find the same (`Descends.eq_reading`). So the levels in
`Reading.operand` decide nothing that the limit of nesting does not, and `Cursor.leave` never takes
a level from none.

The pass that counts levels keeps the sum of those of the open parentheses (`Levels.Accounted`), so
that it never closes more than are open either.
-/

namespace RuleFilter

/-! ## Calls -/

inductive Layer where
  | disjunction
  | conjunction

/-- What a function of the descent is to read: the rest of a run behind the operands `taken`, which
are held in reverse, or one operand of AND. -/
inductive Task where
  | run (layer : Layer) (taken : List Rule)
  | operand

namespace Layer

def connective : Layer → Connective
  | disjunction => .or
  | conjunction => .and

def node : Layer → List Rule → Rule
  | disjunction => .any
  | conjunction => .all

def part : Layer → Task
  | disjunction => .run conjunction []
  | conjunction => .operand

end Layer

inductive Opening where
  | negation
  | group

namespace Opening

def inside : Opening → Task
  | negation => .operand
  | group => .run .disjunction []

def close : Opening → Rule → Cursor → Except ParseError (Rule × Cursor)
  | negation, rule, cursor => .ok (.negation rule, cursor)
  | group, rule, cursor => do
    let (_, cursor) ← cursor.expect .closeParen .closeParen
    .ok (rule, cursor)

end Opening

def Cursor.opening? (cursor : Cursor) : Option Opening :=
  if cursor.isAt .not then some .negation
  else if cursor.rest.head?.any (·.kind == .openParen) then some .group
  else none

inductive Descends : Task → Cursor → Except ParseError (Rule × Cursor) → Prop
  | failed {layer : Layer} {taken : List Rule} {cursor : Cursor} {error : ParseError} :
      Descends layer.part cursor (.error error) →
      Descends (.run layer taken) cursor (.error error)
  | last {layer : Layer} {taken : List Rule} {cursor after : Cursor} {rule : Rule} :
      Descends layer.part cursor (.ok (rule, after)) → after.isAt layer.connective = false →
      Descends (.run layer taken) cursor
        (.ok (Rule.join layer.node (rule :: taken).reverse, after))
  | more {layer : Layer} {taken : List Rule} {cursor behind : Cursor} {rule : Rule}
      {outcome : Except ParseError (Rule × Cursor)} :
      Descends layer.part cursor (.ok (rule, behind)) → behind.isAt layer.connective = true →
      Descends (.run layer (rule :: taken)) behind.advance outcome →
      Descends (.run layer taken) cursor outcome
  | clause {cursor : Cursor} : cursor.opening? = none →
      Descends .operand cursor (Reading.clause cursor)
  | tooDeep {cursor : Cursor} {opening : Opening} {error : ParseError} :
      cursor.opening? = some opening → cursor.enter = .error error →
      Descends .operand cursor (.error error)
  | inside {cursor inner : Cursor} {opening : Opening} {error : ParseError} :
      cursor.opening? = some opening → cursor.enter = .ok inner →
      Descends opening.inside inner (.error error) → Descends .operand cursor (.error error)
  | unclosed {cursor inner behind : Cursor} {opening : Opening} {rule : Rule} {error : ParseError} :
      cursor.opening? = some opening → cursor.enter = .ok inner →
      Descends opening.inside inner (.ok (rule, behind)) →
      opening.close rule behind = .error error → Descends .operand cursor (.error error)
  -- Without an open level there is nothing to leave, and no rule for it.
  | closed {cursor inner behind last : Cursor} {opening : Opening} {rule found : Rule}
      {left : Nat} : cursor.opening? = some opening → cursor.enter = .ok inner →
      Descends opening.inside inner (.ok (rule, behind)) →
      opening.close rule behind = .ok (found, last) → last.depth = left + 1 →
      Descends .operand cursor (.ok (found, { last with depth := left }))

/-! ## Progress -/

def Cursor.Passes (cursor after : Cursor) : Prop :=
  after.depth = cursor.depth ∧ ∃ taken, taken ≠ [] ∧ cursor.rest = taken ++ after.rest

namespace Cursor

variable {cursor inner behind after : Cursor}

theorem Passes.trans (first : cursor.Passes behind) (next : behind.Passes after) :
    cursor.Passes after := by
  obtain ⟨depth, taken, some_token, split⟩ := first
  obtain ⟨depth', taken', -, split'⟩ := next
  exact ⟨depth'.trans depth, taken ++ taken', by simp [some_token],
    by rw [split, split', List.append_assoc]⟩

theorem Passes.length_lt (passes : cursor.Passes after) :
    after.rest.length < cursor.rest.length := by
  obtain ⟨-, taken, some_token, split⟩ := passes
  have := List.length_pos_iff.2 some_token
  rw [split, List.length_append]
  omega

theorem passes_advance {connective : Connective} (at_it : cursor.isAt connective = true) :
    cursor.Passes cursor.advance := by
  obtain ⟨token, rest, next, -⟩ := isAt_iff.1 at_it
  exact ⟨by simp [advance, next], [token], by simp, by simp [advance, next]⟩

theorem ne_nil_of_opening? {opening : Opening} (opens : cursor.opening? = some opening) :
    cursor.rest ≠ [] := by
  intro none
  simp [opening?, isAt, none] at opens

theorem enter_rest {opening : Opening} (opens : cursor.opening? = some opening)
    (entered : cursor.enter = .ok inner) :
    ∃ token, cursor.rest = token :: inner.rest := by
  obtain ⟨token, rest, next⟩ := List.exists_cons_of_ne_nil (ne_nil_of_opening? opens)
  obtain ⟨-, tail, -⟩ := enter_ok entered
  exact ⟨token, by rw [tail, next, List.tail_cons]⟩

end Cursor

theorem Opening.close_ok {opening : Opening} {rule found : Rule} {behind last : Cursor}
    (closed : opening.close rule behind = .ok (found, last)) :
    last.depth = behind.depth ∧ ∃ taken, behind.rest = taken ++ last.rest := by
  cases opening with
  | negation =>
    cases closed
    exact ⟨rfl, [], rfl⟩
  | group =>
    obtain ⟨⟨token, after⟩, expected, closed⟩ := Reading.bind_eq_ok.1 closed
    cases closed
    obtain ⟨split, -, depth⟩ := Cursor.expect_ok expected
    exact ⟨depth, [token], split⟩

theorem Reading.clause_passes {cursor after : Cursor} {rule : Rule}
    (found : Reading.clause cursor = .ok (rule, after)) : cursor.Passes after := by
  obtain ⟨tokens, split, derived, depth⟩ :=
    Reading.clause_takes (fun _ _ => False) cursor.depth cursor rule after rfl found
  exact ⟨depth, tokens, by cases derived <;> simp, split⟩

theorem Descends.passes {task : Task} {cursor : Cursor}
    {outcome : Except ParseError (Rule × Cursor)} (descends : Descends task cursor outcome) :
    ∀ rule after, outcome = .ok (rule, after) → cursor.Passes after := by
  induction descends with
  | failed | tooDeep | inside | unclosed => nofun
  | last _ _ ih =>
    rintro _ _ ⟨⟩
    exact ih _ _ rfl
  | more _ at_it _ ih ih' =>
    intro rule after is
    exact ((ih _ _ rfl).trans (Cursor.passes_advance at_it)).trans (ih' rule after is)
  | clause _ => exact fun _ _ found => Reading.clause_passes found
  | closed opens entered _ closes open_level ih =>
    rintro _ _ ⟨⟩
    obtain ⟨token, next⟩ := Cursor.enter_rest opens entered
    obtain ⟨-, -, deeper⟩ := Cursor.enter_ok entered
    obtain ⟨depth, taken, -, split⟩ := ih _ _ rfl
    obtain ⟨depth', taken', split'⟩ := Opening.close_ok closes
    refine ⟨?_, token :: (taken ++ taken'), by simp, ?_⟩
    · simp only
      omega
    · simp [next, split, split']

/-! ## Termination -/

def Task.rank : Task → Nat
  | operand => 0
  | run .conjunction _ => 1
  | run .disjunction _ => 2

theorem Layer.rank_part_lt (layer : Layer) (taken : List Rule) :
    layer.part.rank < (Task.run layer taken).rank := by
  cases layer <;> exact Nat.lt_add_one _

/-- The descent ends from every place: each call is in front of fewer tokens, or is one for the
first part of what is read there. -/
theorem exists_descends (task : Task) (cursor : Cursor) :
    ∃ outcome, Descends task cursor outcome := by
  cases task with
  | run layer taken =>
    obtain ⟨outcome, first⟩ := exists_descends layer.part cursor
    cases outcome with
    | error error => exact ⟨_, .failed first⟩
    | ok found =>
      obtain ⟨rule, behind⟩ := found
      cases goes_on : behind.isAt layer.connective with
      | false => exact ⟨_, .last first goes_on⟩
      | true =>
        have shorter : behind.advance.rest.length < cursor.rest.length :=
          ((first.passes _ _ rfl).trans (Cursor.passes_advance goes_on)).length_lt
        obtain ⟨outcome, others⟩ := exists_descends (.run layer (rule :: taken)) behind.advance
        exact ⟨outcome, .more first goes_on others⟩
  | operand =>
    cases opens : cursor.opening? with
    | none => exact ⟨_, .clause opens⟩
    | some opening =>
      cases entered : cursor.enter with
      | error error => exact ⟨_, .tooDeep opens entered⟩
      | ok inner =>
        have shorter : inner.rest.length < cursor.rest.length := by
          obtain ⟨token, next⟩ := Cursor.enter_rest opens entered
          simp [next]
        obtain ⟨outcome, found⟩ := exists_descends opening.inside inner
        cases outcome with
        | error error => exact ⟨_, .inside opens entered found⟩
        | ok found' =>
          obtain ⟨rule, behind⟩ := found'
          cases closes : opening.close rule behind with
          | error error => exact ⟨_, .unclosed opens entered found closes⟩
          | ok closed =>
            obtain ⟨rule', last⟩ := closed
            have open_level : last.depth = cursor.depth + 1 :=
              (Opening.close_ok closes).1.trans
                ((found.passes _ _ rfl).1.trans (Cursor.enter_ok entered).2.2)
            exact ⟨_, .closed opens entered found closes open_level⟩
-- A call is in front of fewer tokens, but for the first part of a run, which is of lower rank.
termination_by (cursor.rest.length, task.rank)
decreasing_by
  · exact Prod.Lex.right _ (layer.rank_part_lt taken)
  · exact Prod.Lex.left _ _ shorter
  · exact Prod.Lex.left _ _ shorter

/-! ## The readings -/

def Layer.operand (levels : Nat) : Layer → Reading
  | disjunction => Reading.conjunction (Reading.operand levels)
  | conjunction => Reading.operand levels

def Task.reading (levels bound : Nat) : Task → Reading
  | run layer taken => fun cursor => do
    let (rules, cursor) ←
      Reading.operandsFrom layer.connective (layer.operand levels) bound taken cursor
    .ok (Rule.join layer.node rules, cursor)
  | operand => Reading.operand levels

theorem Layer.operand_eq (layer : Layer) (levels : Nat) (cursor : Cursor) :
    layer.operand levels cursor = layer.part.reading levels (cursor.rest.length + 1) cursor := by
  cases layer <;> rfl

theorem Task.reading_run (layer : Layer) (taken : List Rule) (levels bound : Nat)
    (cursor : Cursor) :
    (run layer taken).reading levels (bound + 1) cursor =
      match layer.part.reading levels (cursor.rest.length + 1) cursor with
      | .error error => .error error
      | .ok (rule, behind) =>
        if behind.isAt layer.connective then
          (run layer (rule :: taken)).reading levels bound behind.advance
        else .ok (Rule.join layer.node (rule :: taken).reverse, behind) := by
  rw [← Layer.operand_eq]
  simp only [reading, Reading.operandsFrom]
  cases layer.operand levels cursor with
  | error error => rfl
  | ok found =>
    obtain ⟨rule, behind⟩ := found
    cases goes_on : behind.isAt layer.connective <;> simp [goes_on, bind, Except.bind]

theorem Cursor.opening?_eq_none {cursor : Cursor} (plain : cursor.opening? = none) :
    Reading.StopsAt .not cursor.rest ∧
      cursor.rest.head?.any (·.kind == .openParen) = false := by
  unfold opening? at plain
  split at plain
  · cases plain
  · next positive =>
    split at plain
    · cases plain
    · next not_open =>
      exact ⟨Bool.eq_false_iff.2 positive, Bool.eq_false_iff.2 not_open⟩

theorem Opening.operand_eq {cursor : Cursor} {opening : Opening}
    (opens : cursor.opening? = some opening) (levels : Nat) :
    Reading.operand (levels + 1) cursor = (do
      let inner ← cursor.enter
      let (rule, behind) ← opening.inside.reading levels (inner.rest.length + 1) inner
      let (found, last) ← opening.close rule behind
      .ok (found, last.leave)) := by
  unfold Cursor.opening? at opens
  unfold Reading.operand
  split at opens
  · next negated =>
    cases opens
    rw [if_pos negated]
    rfl
  · next positive =>
    split at opens
    · next grouped =>
      cases opens
      rw [if_neg positive, if_pos grouped]
      simp only [close, bind_assoc]
      rfl
    · cases opens

theorem Cursor.room_of_enter {cursor inner : Cursor} (entered : cursor.enter = .ok inner)
    {levels : Nat} (room : nestingLimit ≤ cursor.depth + levels) :
    ∃ below, levels = below + 1 ∧ nestingLimit ≤ inner.depth + below := by
  obtain ⟨shallow, -, deeper⟩ := enter_ok entered
  exact ⟨levels - 1, by omega, by omega⟩

/-- The readings find what the descent finds, with room for the levels that may still be opened and
for the tokens that are left. -/
theorem Descends.eq_reading {task : Task} {cursor : Cursor}
    {outcome : Except ParseError (Rule × Cursor)} (descends : Descends task cursor outcome)
    {levels bound : Nat} (room : nestingLimit ≤ cursor.depth + levels)
    (enough : cursor.rest.length < bound) :
    task.reading (levels + 1) bound cursor = outcome := by
  -- A level that is entered takes one of the levels left, and an operand takes a token at least, so
  -- that neither bound is met before the descent itself ends.
  induction descends generalizing levels bound with
  | failed first ih =>
    obtain ⟨bound, rfl⟩ := Nat.exists_eq_add_of_lt enough
    rw [Task.reading_run, ih room (Nat.lt_succ_self _)]
  | last first ends ih =>
    obtain ⟨bound, rfl⟩ := Nat.exists_eq_add_of_lt enough
    rw [Task.reading_run, ih room (Nat.lt_succ_self _)]
    simp [ends]
  | more first goes_on others ih ih' =>
    obtain ⟨bound, rfl⟩ := Nat.exists_eq_add_of_lt enough
    have passes := (first.passes _ _ rfl).trans (Cursor.passes_advance goes_on)
    have shorter := passes.length_lt
    rw [Task.reading_run, ih room (Nat.lt_succ_self _)]
    simp only [goes_on, if_true]
    exact ih' (by rw [passes.1]; exact room) (by omega)
  | clause plain =>
    obtain ⟨stops, not_open⟩ := Cursor.opening?_eq_none plain
    exact Reading.operand_eq_clause levels stops not_open
  | tooDeep opens beyond =>
    rw [Task.reading, Opening.operand_eq opens, beyond]
    rfl
  | inside opens entered found ih =>
    obtain ⟨below, rfl, room'⟩ := Cursor.room_of_enter entered room
    rw [Task.reading, Opening.operand_eq opens, entered]
    simp only [bind, Except.bind, ih room' (Nat.lt_succ_self _)]
  | unclosed opens entered found closes ih =>
    obtain ⟨below, rfl, room'⟩ := Cursor.room_of_enter entered room
    rw [Task.reading, Opening.operand_eq opens, entered]
    simp only [bind, Except.bind, ih room' (Nat.lt_succ_self _), closes]
  | closed opens entered found closes open_level ih =>
    obtain ⟨below, rfl, room'⟩ := Cursor.room_of_enter entered room
    rw [Task.reading, Opening.operand_eq opens, entered]
    simp only [bind, Except.bind, ih room' (Nat.lt_succ_self _), closes, Cursor.leave, open_level,
      Nat.add_sub_cancel]

theorem descends_iff {task : Task} {cursor : Cursor}
    {outcome : Except ParseError (Rule × Cursor)} :
    Descends task cursor outcome ↔
      task.reading (nestingLimit + 1) (cursor.rest.length + 1) cursor = outcome := by
  have same {outcome : Except ParseError (Rule × Cursor)}
      (descends : Descends task cursor outcome) :
      task.reading (nestingLimit + 1) (cursor.rest.length + 1) cursor = outcome :=
    descends.eq_reading (Nat.le_add_left _ _) (Nat.lt_succ_self _)
  refine ⟨same, ?_⟩
  rintro rfl
  obtain ⟨outcome, descends⟩ := exists_descends task cursor
  rwa [same descends]

/-! ## Counting levels -/

namespace Validation

namespace Levels

variable {levels : Levels}

/-- Whether the open levels, but for those of waiting NOTs, are those that the open parentheses
brought with them. -/
def Accounted (levels : Levels) : Prop :=
  levels.depth = levels.groups.sum

theorem Accounted.brought_le (accounted : levels.Accounted) :
    ∀ brought ∈ levels.groups.head?, brought ≤ levels.depth := by
  intro brought last
  obtain ⟨others, groups⟩ := List.head?_eq_some_iff.1 last
  rw [accounted, groups, List.sum_cons]
  exact Nat.le_add_right brought others.sum

theorem Accounted.step (accounted : levels.Accounted) (token : Token) :
    (levels.step token).Accounted := by
  unfold Accounted at accounted ⊢
  unfold Levels.step
  split
  · split <;> exact accounted
  · simp only [List.sum_cons]
    omega
  · split
    · exact accounted
    · next groups =>
      simp only [groups, List.sum_cons] at accounted ⊢
      omega
  · exact accounted
  · exact accounted

theorem Accounted.foldl (accounted : levels.Accounted) (tokens : List Token) :
    (tokens.foldl Levels.step levels).Accounted := by
  induction tokens generalizing levels with
  | nil => exact accounted
  | cons token tokens ih => exact ih (accounted.step token)

end Levels

theorem tooDeepFrom?_append_eq_or (levels : Levels) (index : Nat) (before rest : List Token) :
    tooDeepFrom? levels index (before ++ rest) = (tooDeepFrom? levels index before).or
      (tooDeepFrom? (before.foldl Levels.step levels) (index + before.length) rest) := by
  induction before generalizing levels index with
  | nil => rfl
  | cons token before ih =>
    rw [List.cons_append, tooDeepFrom?, tooDeepFrom?]
    split
    · rfl
    · rw [ih, List.foldl_cons, List.length_cons, Nat.add_assoc, Nat.add_comm 1]

end Validation

/-- No level is closed that is not open. Behind any tokens, the pass that counts levels has the sum
of those that the open parentheses brought. The descent ends from any place; what it finds stands
behind one token or more, with as many levels open as before; and it is what the parser finds. -/
theorem levels_never_below_zero :
    (∀ before rest : List Token, let levels := before.foldl Validation.Levels.step .start
      levels.depth = levels.groups.sum ∧
      (∀ brought ∈ levels.groups.head?, brought ≤ levels.depth) ∧
      Validation.tooDeep? (before ++ rest) =
        (Validation.tooDeep? before).or (Validation.tooDeepFrom? levels before.length rest)) ∧
    (∀ task cursor, ∃! outcome, Descends task cursor outcome) ∧
    (∀ task cursor rule after, Descends task cursor (.ok (rule, after)) → cursor.Passes after) ∧
    ∀ cursor : Cursor, let operand := Reading.operand (nestingLimit + 1)
      Descends .operand cursor (operand cursor) ∧
      Descends (.run .conjunction []) cursor (Reading.conjunction operand cursor) ∧
      Descends (.run .disjunction []) cursor (Reading.disjunction operand cursor) := by
  refine ⟨?pass, ?ends, ?passes, ?parser⟩
  case pass =>
    intro before rest levels
    have started : Validation.Levels.start.Accounted := rfl
    have accounted : levels.Accounted := started.foldl before
    refine ⟨accounted, accounted.brought_le, ?_⟩
    have goes_on := Validation.tooDeepFrom?_append_eq_or .start 0 before rest
    rwa [Nat.zero_add] at goes_on
  case ends =>
    exact fun _ _ => ⟨_, descends_iff.2 rfl, fun _ descends => (descends_iff.1 descends).symm⟩
  case passes => exact fun _ _ rule after descends => descends.passes rule after rfl
  case parser => exact fun cursor => ⟨descends_iff.2 rfl, descends_iff.2 rfl, descends_iff.2 rfl⟩

theorem levels_never_below_zero_stray :
    let stray : List Token := [⟨.closeParen, ")", ⟨0, 1⟩, none⟩]
    let tokens : List Token := [⟨.logical, "NOT", ⟨2, 5⟩, none⟩, ⟨.openParen, "(", ⟨6, 7⟩, none⟩,
      ⟨.property, "Age", ⟨7, 10⟩, none⟩, ⟨.operator, ">", ⟨11, 12⟩, none⟩,
      ⟨.value, "1", ⟨13, 14⟩, none⟩, ⟨.closeParen, ")", ⟨14, 15⟩, none⟩]
    let levels := (stray ++ tokens.take 2).foldl Validation.Levels.step .start
    let cursor : Cursor := ⟨tokens ++ stray, 1, 5⟩
    let after : Cursor := ⟨stray, 15, 5⟩
    (levels.groups = [2] ∧ 2 ≤ levels.depth) ∧
      Reading.operand (nestingLimit + 1) cursor =
        .ok (.negation (.clause ⟨"Age", .gt, "1", ⟨7, 14⟩⟩), after) ∧
      cursor.Passes after := by
  intro stray tokens levels cursor after
  obtain ⟨pass, -, passes, parser⟩ := levels_never_below_zero
  have found : Reading.operand (nestingLimit + 1) cursor =
      .ok (.negation (.clause ⟨"Age", .gt, "1", ⟨7, 14⟩⟩), after) := rfl
  obtain ⟨-, enough, -⟩ := pass (stray ++ tokens.take 2) (tokens.drop 2)
  have descends : Descends .operand cursor (Reading.operand (nestingLimit + 1) cursor) :=
    (parser cursor).1
  rw [found] at descends
  exact ⟨⟨by decide, enough 2 rfl⟩, found, passes _ _ _ _ descends⟩

end RuleFilter

import RuleFilter.Proofs.Rule.Clauses
import RuleFilter.Proofs.Validation.Lockstep
import RuleFilter.Proofs.Validation.Reports

/-!
# Levels

`Grammar.Openers` gives the NOTs and opening parentheses of a rule with the numbers of parentheses
and NOTs around them, as the grammar has them. The pass that counts levels finds the same numbers
(`openersFrom_eq`), and so does the descent of the parser. Hence both tell the same token of a rule
that goes too deep (`nesting_agrees`).
-/

namespace RuleFilter

/-! ## Levels of the grammar -/

namespace Grammar

inductive Part where
  | unary
  | whole

/-- The NOTs and opening parentheses of a part of a rule that stands under `outer` of them. In their
order, each comes with the number of those that are around it, itself included. -/
inductive Openers : Part → Nat → List Token → List (Token × Nat) → Prop
  | clause {outer : Nat} {property operator value : Token} :
      property.kind = .property → operator.kind = .operator → value.kind = .value →
      Openers .unary outer [property, operator, value] []
  | negation {outer : Nat} {sign : Token} {tokens : List Token} {openers : List (Token × Nat)} :
      sign.isConnective .not = true → Openers .unary (outer + 1) tokens openers →
      Openers .unary outer (sign :: tokens) ((sign, outer + 1) :: openers)
  | group {outer : Nat} {opening closing : Token} {tokens : List Token}
      {openers : List (Token × Nat)} :
      opening.kind = .openParen → Openers .whole (outer + 1) tokens openers →
      closing.kind = .closeParen →
      Openers .unary outer (opening :: (tokens ++ [closing])) ((opening, outer + 1) :: openers)
  | single {outer : Nat} {tokens : List Token} {openers : List (Token × Nat)} :
      Openers .unary outer tokens openers → Openers .whole outer tokens openers
  | joined {outer : Nat} {connective : Connective} {token : Token} {tokens rest : List Token}
      {openers others : List (Token × Nat)} :
      connective ≠ .not → token.isConnective connective = true →
      Openers .whole outer tokens openers → Openers .whole outer rest others →
      Openers .whole outer (tokens ++ token :: rest) (openers ++ others)

def Opened (part : Part) (outer : Nat) (phrase : Nat → Phrase) : Phrase :=
  fun tokens rule => ∃ openers, Openers part outer tokens openers ∧
    ∀ levels, (∀ opener ∈ openers, opener.2 ≤ outer + levels) → phrase levels tokens rule

theorem Run.opened {connective : Connective} (binary : connective ≠ .not) {outer : Nat}
    {phrase : Nat → Phrase} {tokens : List Token} {rules : List Rule}
    (run : Run connective (Opened .whole outer phrase) tokens rules) :
    ∃ openers, Openers .whole outer tokens openers ∧
      ∀ levels, (∀ opener ∈ openers, opener.2 ≤ outer + levels) →
        Run connective (phrase levels) tokens rules := by
  induction run with
  | last part =>
    obtain ⟨openers, opens, within⟩ := part
    exact ⟨openers, opens, fun levels bound => .last (within levels bound)⟩
  | more part is _ ih =>
    obtain ⟨openers, opens, within⟩ := part
    obtain ⟨others, opens', within'⟩ := ih
    refine ⟨openers ++ others, .joined binary is opens opens', fun levels bound => ?_⟩
    rw [List.forall_mem_append] at bound
    exact .more (within levels bound.1) is (within' levels bound.2)

theorem Joined.opened {connective : Connective} (binary : connective ≠ .not)
    (node : List Rule → Rule) {outer : Nat} {part : Phrase} {phrase : Nat → Phrase}
    (parts : ∀ tokens rule, part tokens rule → Opened .whole outer phrase tokens rule)
    {tokens : List Token} {rule : Rule} (derived : Joined connective node part tokens rule) :
    Opened .whole outer (fun levels => Joined connective node (phrase levels)) tokens rule := by
  obtain ⟨rules, run, rfl⟩ := joined_iff.1 derived
  obtain ⟨openers, opens, within⟩ := (run.imp parts).opened binary
  exact ⟨openers, opens, fun levels bound => joined_iff.2 ⟨rules, within levels bound, rfl⟩⟩

theorem Disjunction.opened {unary : Phrase} {phrase : Nat → Phrase} {outer : Nat}
    (parts : ∀ tokens rule, unary tokens rule → Opened .unary outer phrase tokens rule)
    {tokens : List Token} {rule : Rule} (derived : Disjunction unary tokens rule) :
    Opened .whole outer (fun levels => Disjunction (phrase levels)) tokens rule := by
  refine @Joined.opened .or (by decide) .any _ _ _ (fun _ _ part => ?_) _ _ derived
  refine @Joined.opened .and (by decide) .all _ _ _ (fun tokens rule part => ?_) _ _ part
  obtain ⟨openers, opens, within⟩ := parts tokens rule part
  exact ⟨openers, .single opens, within⟩

theorem Unary.opened {levels outer : Nat} {tokens : List Token} {rule : Rule}
    (derived : Unary levels tokens rule) : Opened .unary outer Unary tokens rule := by
  have clause (outer : Nat) {property operator value : Token} {op : Comparator}
      (kind₁ : property.kind = .property) (kind₂ : operator.kind = .operator)
      (spelled : Comparator.ofSymbol? operator.text = some op) (kind₃ : value.kind = .value) :
      Opened .unary outer Unary [property, operator, value]
        (.clause ⟨property.text, op, value.text, ⟨property.span.start, value.span.stop⟩⟩) :=
    ⟨[], .clause kind₁ kind₂ kind₃, fun levels _ => .clause levels kind₁ kind₂ spelled kind₃⟩
  induction levels generalizing outer tokens rule with
  | zero =>
    cases derived with
    | clause kind₁ kind₂ spelled kind₃ => exact clause outer kind₁ kind₂ spelled kind₃
    | negation _ inner => exact inner.elim
    | group _ inner _ => exact (not_disjunction_false inner).elim
  | succ levels ih =>
    -- The opener itself stands one level above `outer`, so that there is a level below.
    have below (bound : Nat) (room : outer + 1 ≤ outer + bound) :
        ∃ inner, bound = inner + 1 ∧ outer + bound = outer + 1 + inner :=
      ⟨bound - 1, by omega, by omega⟩
    cases derived with
    | clause kind₁ kind₂ spelled kind₃ => exact clause outer kind₁ kind₂ spelled kind₃
    | negation is inner =>
      obtain ⟨openers, opens, within⟩ := @ih (outer + 1) _ _ inner
      refine ⟨_, .negation is opens, fun bound fits => ?_⟩
      rw [List.forall_mem_cons] at fits
      obtain ⟨inner, rfl, same⟩ := below bound fits.1
      rw [same] at fits
      exact .negation is (within inner fits.2)
    | group opening inner closing =>
      obtain ⟨openers, opens, within⟩ := Disjunction.opened (fun _ _ part => ih part) inner
      refine ⟨_, .group opening opens closing, fun bound fits => ?_⟩
      rw [List.forall_mem_cons] at fits
      obtain ⟨inner, rfl, same⟩ := below bound fits.1
      rw [same] at fits
      exact .group opening (within inner fits.2) closing

theorem Derives.opened {levels : Nat} {tokens : List Token} {rule : Rule}
    (derived : Derives levels tokens rule) (outer : Nat) :
    Opened .whole outer Derives tokens rule :=
  Disjunction.opened (fun _ _ => Unary.opened) derived

theorem Derives.exists_openers {levels : Nat} {tokens : List Token} {rule : Rule}
    (derived : Derives levels tokens rule) (outer : Nat) :
    ∃ openers, Openers .whole outer tokens openers :=
  (derived.opened outer).imp fun _ opened => opened.1

end Grammar

/-! ## The count of the pass -/

namespace Validation

namespace Levels

variable {token : Token}

theorem step_of_kind (other : token.kind = .operator ∨ token.kind = .value) (levels : Levels) :
    levels.step token = levels ∧ levels.reached? token = none := by
  rcases other with kind | kind <;> simp [step, reached?, kind]

theorem step_connective {connective : Connective} (binary : connective ≠ .not)
    (is : token.isConnective connective = true) (levels : Levels) :
    levels.step token = levels ∧ levels.reached? token = none := by
  have positive := Token.isConnective_not_of_binary binary is
  simp [step, reached?, Token.kind_of_isConnective is, positive]

theorem step_property (kind : token.kind = .property) (levels : Levels) :
    levels.step token = { levels with waiting := 0 } ∧ levels.reached? token = none := by
  simp [step, reached?, kind]

theorem step_negation (is : token.isConnective .not = true) (levels : Levels) :
    levels.step token = { levels with waiting := levels.waiting + 1 } := by
  simp [step, Token.kind_of_isConnective is, is]

theorem step_open (kind : token.kind = .openParen) (levels : Levels) :
    levels.step token = ⟨levels.depth + (levels.waiting + 1), 0,
      (levels.waiting + 1) :: levels.groups⟩ := by
  simp [step, kind]

theorem step_close (kind : token.kind = .closeParen) (depth waiting brought : Nat)
    (groups : List Nat) :
    step ⟨depth + brought, waiting, brought :: groups⟩ token = ⟨depth, waiting, groups⟩ ∧
      reached? ⟨depth + brought, waiting, brought :: groups⟩ token = none := by
  simp [step, reached?, kind]

end Levels

def openersFrom (levels : Levels) : List Token → List (Token × Nat)
  | [] => []
  | token :: tokens =>
    ((levels.reached? token).map (token, ·)).toList ++ openersFrom (levels.step token) tokens

theorem openersFrom_cons_of_none {levels next : Levels} {token : Token}
    (stepped : levels.step token = next ∧ levels.reached? token = none) (tokens : List Token) :
    openersFrom levels (token :: tokens) = openersFrom next tokens := by
  rw [openersFrom, stepped.1, stepped.2]
  rfl

theorem openersFrom_cons_of_some {levels next : Levels} {token : Token} {reached : Nat}
    (stepped : levels.step token = next) (opens : levels.reached? token = some reached)
    (tokens : List Token) :
    openersFrom levels (token :: tokens) = (token, reached) :: openersFrom next tokens := by
  rw [openersFrom, stepped, opens]
  rfl

theorem openersFrom_append {part : Grammar.Part} {outer : Nat} {tokens : List Token}
    {openers : List (Token × Nat)} (opens : Grammar.Openers part outer tokens openers)
    {depth waiting : Nat} (at_depth : depth + waiting = outer)
    (fresh : part = .whole → waiting = 0) (groups : List Nat) (rest : List Token) :
    openersFrom ⟨depth, waiting, groups⟩ (tokens ++ rest) =
      openers ++ openersFrom ⟨depth, 0, groups⟩ rest := by
  induction opens generalizing depth waiting groups rest with
  | clause property operator value =>
    simp only [List.cons_append, List.nil_append]
    rw [openersFrom_cons_of_none (Levels.step_property property _),
      openersFrom_cons_of_none (Levels.step_of_kind (.inl operator) _),
      openersFrom_cons_of_none (Levels.step_of_kind (.inr value) _)]
  | negation is inner ih =>
    subst at_depth
    rw [List.cons_append, openersFrom_cons_of_some (Levels.step_negation is _)
      (Levels.reached?_negation is _), ih (Nat.add_assoc ..).symm nofun]
    rfl
  | group opening inner closing ih =>
    subst at_depth
    rw [List.cons_append, openersFrom_cons_of_some (Levels.step_open opening _)
      (Levels.reached?_open opening _), List.append_assoc, List.singleton_append,
      @ih (depth + (waiting + 1)) 0 rfl fun _ => rfl,
      openersFrom_cons_of_none (Levels.step_close closing _ _ _ _)]
    rfl
  | single inner ih => exact ih at_depth nofun groups rest
  | joined binary is left right ih ih' =>
    obtain rfl := fresh rfl
    rw [List.append_assoc, ih at_depth fresh, List.cons_append,
      openersFrom_cons_of_none (Levels.step_connective binary is _), ih' at_depth fresh,
      List.append_assoc]

theorem openers_iff {levels : Nat} {tokens : List Token} {rule : Rule}
    (derived : Grammar.Derives levels tokens rule) (openers : List (Token × Nat)) :
    Grammar.Openers .whole 0 tokens openers ↔ openers = openersFrom .start tokens := by
  have unique (openers : List (Token × Nat)) (opens : Grammar.Openers .whole 0 tokens openers) :
      openers = openersFrom .start tokens := by
    have counted := openersFrom_append opens (Nat.zero_add 0) (fun _ => rfl) [] []
    rw [List.append_nil] at counted
    rw [Levels.start, counted, openersFrom, List.append_nil]
  refine ⟨unique openers, ?_⟩
  rintro rfl
  obtain ⟨openers, opens⟩ := derived.exists_openers 0
  exact unique openers opens ▸ opens

def firstTooDeep? (openers : List (Token × Nat)) : Option Token :=
  (openers.find? fun opener => nestingLimit < opener.2).map Prod.fst

theorem map_tooDeepFrom? (levels : Levels) (index : Nat) (tokens : List Token) :
    (tooDeepFrom? levels index tokens).map Prod.snd =
      firstTooDeep? (openersFrom levels tokens) := by
  induction tokens generalizing levels index with
  | nil => rfl
  | cons token tokens ih =>
    rw [tooDeepFrom?]
    cases opens : levels.reached? token with
    | none =>
      rw [openersFrom_cons_of_none ⟨rfl, opens⟩, ← ih _ (index + 1)]
      rfl
    | some reached =>
      rw [openersFrom_cons_of_some rfl opens]
      by_cases beyond : nestingLimit < reached
      · simp [firstTooDeep?, beyond]
      · simp [firstTooDeep?, beyond, ih]

/-! ## Tokens of a rule in their places -/

end Validation

def Expectation.step? (expected : Expectation) (token : Token) : Option Expectation :=
  if token.role ≠ .unknown ∧ expected.allows token.role = true then some (.after (some token.role))
  else none

namespace Spelled

variable {token : Token} {tokens rest : List Token}

theorem append (left : Spelled tokens) (right : Spelled rest) : Spelled (tokens ++ rest) :=
  fun token member => (List.mem_append.1 member).elim (left token) (right token)

theorem cons_of_kind (other : token.kind ≠ .operator ∧ token.kind ≠ .logical)
    (spelled : Spelled tokens) : Spelled (token :: tokens) :=
  List.forall_mem_cons.2 ⟨⟨fun kind => absurd kind other.1, fun kind => absurd kind other.2⟩,
    spelled⟩

theorem cons_connective {connective : Connective} (is : token.isConnective connective = true)
    (spelled : Spelled tokens) : Spelled (token :: tokens) := by
  have kind := Token.kind_of_isConnective is
  simp only [Token.isConnective, Bool.and_eq_true, Text.sameLetters_iff] at is
  refine List.forall_mem_cons.2 ⟨⟨by simp [kind], fun _ => ?_⟩, spelled⟩
  rw [Connective.ofSymbol?_congr is.2]
  cases connective <;> rfl

end Spelled

namespace Grammar

theorem Derives.in_place {levels : Nat} {tokens : List Token} {rule : Rule}
    (derived : Derives levels tokens rule) :
    tokens.foldlM Expectation.step? .operand = some .joint := by
  refine derived.tokens_induction
    (P := fun _ tokens => tokens.foldlM Expectation.step? .operand = some .joint) ?_ ?_ ?_ ?_
  · intro _ property operator value kind₁ kind₂ kind₃
    simp [Expectation.step?, Token.role, kind₁, kind₂, kind₃, Expectation.allows,
      Role.beginsOperand, Expectation.after]
  · intro _ sign tokens is inner
    simp [Expectation.step?, Token.role, Token.kind_of_isConnective is, is, Expectation.allows,
      Role.beginsOperand, Expectation.after, inner]
  · intro _ opening closing tokens kind kind' inner
    simp [Expectation.step?, Token.role, kind, kind', Expectation.allows, Role.beginsOperand,
      Expectation.after, inner]
  · intro _ connective token tokens rest binary is left right
    have positive := Token.isConnective_not_of_binary binary is
    simp [Expectation.step?, Token.role, Token.kind_of_isConnective is, positive,
      Expectation.allows, Expectation.after, left, right]

theorem Derives.spelled {levels : Nat} {tokens : List Token} {rule : Rule}
    (derived : Derives levels tokens rule) : Spelled tokens := by
  refine derived.clauses_induction (P := fun tokens _ => Spelled tokens) ?_ ?_ ?_ ?_
  · intro property operator value op kind₁ kind₂ spells kind₃
    simp [Spelled, kind₁, kind₂, kind₃, spells]
  · intro sign tokens _ is inside
    exact .cons_connective is inside
  · intro opening closing tokens _ kind kind' inside
    refine .cons_of_kind (by simp [kind]) (.append inside (.cons_of_kind (by simp [kind']) nofun))
  · intro connective token tokens rest _ _ _ is left right
    exact left.append (.cons_connective is right)

end Grammar

namespace Validation

theorem Progress.expected_of_run? {progress next : Progress} {tokens : List Token}
    (moved : progress.run? tokens = some next) :
    tokens.foldlM Expectation.step? progress.expected = some next.expected := by
  induction tokens generalizing progress with
  | nil =>
    obtain rfl := Option.some.inj moved
    rfl
  | cons token tokens ih =>
    obtain ⟨behind, stepped, moved⟩ := Option.bind_eq_some_iff.1 moved
    obtain ⟨fits, -, opened, -, rfl⟩ := Progress.step?_eq_some_iff.1 stepped
    rw [List.foldlM_cons, Expectation.step?, if_pos fits]
    exact ih moved

/-! ## Rules that go too deep -/

section

variable {levels : Nat} {tokens : List Token} {rule : Rule}
  (derived : Grammar.Derives levels tokens rule)

include derived

theorem tooDeep?_of_error {error : ParseError} (failed : Rule.parse tokens = .error error) :
    ∃ index token, tooDeep? tokens = some (index, token) ∧ error = ⟨.tooDeep, token.span⟩ := by
  have balanced : Balanced tokens := derived.openAfter?_eq 0
  obtain ⟨place, progress, ⟨taken, split, moved, -⟩, stuck⟩ :=
    Rule.stuck_of_parse derived.ne_nil derived.spelled balanced failed
  have inPlace := derived.in_place
  obtain rfl : tokens = taken ++ place.rest := split
  obtain ⟨-, counted, levels_eq, within⟩ := @Progress.of_run? ⟨[], rfl⟩ [] _ _ _ _ moved
  rw [Balanced, openAfter?_append, counted, Option.bind_some] at balanced
  rw [List.foldlM_append, show taken.foldlM Expectation.step? .operand = some progress.expected from
    Progress.expected_of_run? moved, Option.bind_eq_bind, Option.bind_some] at inPlace
  cases stuck with
  | ended wanted none goes_on =>
    rw [none] at balanced inPlace
    exact absurd (Option.some.inj balanced) (goes_on (Option.some.inj inPlace))
  | misplaced next wrong =>
    rw [next, List.foldlM_cons, Expectation.step?, if_neg wrong] at inPlace
    cases inPlace
  | unopened next closes none =>
    rw [next, none] at balanced
    simp [Token.openAfter?, closes] at balanced
  | @tooDeep token rest reached next opens beyond =>
    rw [levels_eq] at opens
    rw [next]
    exact ⟨_, token, tooDeepFrom?_append within opens beyond 0 rest, rfl⟩

theorem parse_of_tooDeep? :
    (tooDeep? tokens = none → ∃ rule, Rule.parse tokens = .ok rule) ∧
      ∀ index token, tooDeep? tokens = some (index, token) →
        Rule.parse tokens = .error ⟨.tooDeep, token.span⟩ := by
  cases parsed : Rule.parse tokens with
  | ok rule =>
    refine ⟨fun _ => ⟨rule, rfl⟩, fun index token deep => ?_⟩
    have accepts := accepts_of_derives (Rule.derives_of_parse parsed)
    have within := ((@accepts_iff ⟨[], rfl⟩ [] tokens 0 .start nofun).1 accepts).2.2.2
    cases (tooDeepFrom?_eq_none_iff.2 within).symm.trans deep
  | error error =>
    obtain ⟨index, token, deep, rfl⟩ := tooDeep?_of_error derived parsed
    refine ⟨fun shallow => ?_, fun index' token' deep' => ?_⟩
    · cases shallow.symm.trans deep
    · cases deep.symm.trans deep'
      rfl

end

end Validation

open Validation

/-- On the tokens of a rule, of any depth, validation finds a level too many if and only if parsing
does, and both tell the first NOT or parenthesis that stands under more of them than the limit
allows, itself included. -/
theorem nesting_agrees (schema : Schema) {levels : Nat} {tokens : List Token} {rule : Rule}
    (derived : Grammar.Derives levels tokens rule) :
    ((schema.validate tokens).report.ofKind .nesting ≠ [] ↔
        ∃ error, Rule.parse tokens = .error error ∧ error.fault = .tooDeep) ∧
      ∃ openers, (∀ others, Grammar.Openers .whole 0 tokens others ↔ others = openers) ∧
        match firstTooDeep? openers with
        | none => (schema.validate tokens).report.ofKind .nesting = [] ∧
            ∃ rule, Rule.parse tokens = .ok rule
        | some opener =>
            (schema.validate tokens).report.ofKind .nesting = [⟨.tooDeep, opener.span⟩] ∧
              Rule.parse tokens = .error ⟨.tooDeep, opener.span⟩ := by
  have unique := openers_iff derived
  have first := map_tooDeepFrom? .start 0 tokens
  obtain ⟨shallow, deep⟩ := parse_of_tooDeep? derived
  rw [ofKind_nesting]
  cases found : tooDeep? tokens with
  | none =>
    obtain ⟨rule, parsed⟩ := shallow found
    rw [← tooDeep?, found, Option.map_none] at first
    refine ⟨by simp [parsed], _, unique, ?_⟩
    rw [← first]
    exact ⟨rfl, rule, parsed⟩
  | some opener =>
    obtain ⟨index, token⟩ := opener
    have failed := deep index token found
    rw [← tooDeep?, found, Option.map_some] at first
    refine ⟨by simp [failed], _, unique, ?_⟩
    rw [← first]
    exact ⟨rfl, failed⟩

def negated (offset : Nat) : Nat → List Token
  | 0 => [⟨.property, "Age", ⟨offset, offset + 3⟩, none⟩,
      ⟨.operator, ">", ⟨offset + 4, offset + 5⟩, none⟩,
      ⟨.value, "1", ⟨offset + 6, offset + 7⟩, none⟩]
  | count + 1 => ⟨.logical, "NOT", ⟨offset, offset + 3⟩, none⟩ :: negated (offset + 4) count

theorem derives_negated (offset count : Nat) :
    ∃ rule, Grammar.Derives count (negated offset count) rule := by
  have unary : ∃ rule, Grammar.Unary count (negated offset count) rule := by
    induction count generalizing offset with
    | zero =>
      have spelled : Comparator.ofSymbol? ">" = some .gt := rfl
      exact ⟨_, Grammar.Unary.clause 0 rfl rfl spelled rfl⟩
    | succ count ih =>
      obtain ⟨rule, inner⟩ := ih (offset + 4)
      exact ⟨.negation rule, .negation (Token.isConnective_of_symbol rfl rfl) inner⟩
  obtain ⟨rule, derived⟩ := unary
  exact ⟨rule, .single (.single derived)⟩

theorem nesting_agrees_negated :
    let schema : Schema := ⟨[⟨"Age", .integer, none⟩], by decide⟩
    let tokens := negated 0 129
    (∃ rule, Grammar.Derives 129 tokens rule) ∧
      ((schema.validate tokens).report.ofKind .nesting ≠ [] ↔
        ∃ error, Rule.parse tokens = .error error ∧ error.fault = .tooDeep) ∧
      ∃ openers, (∀ others, Grammar.Openers .whole 0 tokens others ↔ others = openers) ∧
        match firstTooDeep? openers with
        | none => (schema.validate tokens).report.ofKind .nesting = [] ∧
            ∃ rule, Rule.parse tokens = .ok rule
        | some opener =>
            (schema.validate tokens).report.ofKind .nesting = [⟨.tooDeep, opener.span⟩] ∧
              Rule.parse tokens = .error ⟨.tooDeep, opener.span⟩ := by
  intro schema tokens
  obtain ⟨rule, derived⟩ := derives_negated 0 129
  exact ⟨⟨rule, derived⟩, nesting_agrees schema derived⟩

end RuleFilter

import RuleFilter.Proofs.Validation.Findings
import RuleFilter.Proofs.Validation.Machine

namespace RuleFilter
namespace Validation

theorem mayFollow_eq_allows (previous : Option Role) (next : Role) :
    Role.mayFollow previous next = (Expectation.after previous).allows next := by
  cases previous with
  | none => rfl
  | some role => cases role <;> rfl

theorem mayEnd_iff {role : Role} (known : role ≠ .unknown) :
    role.mayEnd = true ↔ Expectation.after (some role) = .joint := by
  cases role <;> simp_all [Role.mayEnd, Expectation.after]

/-! ## From the passes to the machine -/

theorem literalProblem?_kind {property : Property} {literal : String} {problem : Problem}
    (h : literalProblem? property literal = some problem) : problem.kind = .type := by
  unfold literalProblem? at h
  split at h
  · cases h
    rfl
  · split at h <;> cases h
    rfl

theorem typeProblem?_kind {schema : Schema} {earlier : List Token} {token : Token}
    {problem : Problem} (h : typeProblem? schema earlier token = some problem) :
    problem.kind = .type := by
  unfold typeProblem? at h
  split at h
  · obtain ⟨property, -, h⟩ := Option.bind_eq_some_iff.1 h
    obtain ⟨op, -, h⟩ := Option.bind_eq_some_iff.1 h
    split at h <;> cases h
    rfl
  · obtain ⟨property, -, h⟩ := Option.bind_eq_some_iff.1 h
    exact literalProblem?_kind h
  · cases h

theorem unknownProblem_kind (earlier : List Token) (token : Token) :
    (unknownProblem earlier token).kind ≠ .type := by
  unfold unknownProblem
  repeat' split
  all_goals simp [Problem.kind]

theorem tokenProblem?_kind_iff {schema : Schema} {earlier : List Token} {token : Token} :
    (∀ problem ∈ tokenProblem? schema earlier token, problem.kind = .type) ↔
      token.role ≠ .unknown ∧
        (Expectation.after (earlier.head?.map Token.role)).allows token.role = true := by
  rw [← mayFollow_eq_allows]
  unfold tokenProblem?
  simp only
  split
  · next unknown =>
    simp only [Option.mem_def, Option.some.injEq, forall_eq', unknown, ne_eq, not_true_eq_false,
      false_and, iff_false]
    exact unknownProblem_kind earlier token
  · next known =>
    split
    · next follows =>
      simp only [ne_eq, known, not_false_eq_true, follows, and_self, iff_true]
      exact fun _ h => typeProblem?_kind h
    · next misplaced => simp [known, misplaced, Problem.kind]

theorem accepts_iff (schema : Schema) {earlier tokens : List Token} {opened : Nat}
    {levels : Levels} (known : ∀ token ∈ earlier.head?, token.role ≠ .unknown) :
    (⟨.after (earlier.head?.map Token.role), opened, levels⟩ : Progress).Accepts tokens ↔
      (∀ problem, some problem ∈ problemsBehind schema earlier tokens → problem.kind = .type) ∧
        (∃ last ∈ (tokens.reverse ++ earlier).head?, last.role.mayEnd = true) ∧
        openAfter? opened tokens = some 0 ∧ WithinLimit levels tokens := by
  -- The machine makes each of the tests at a token, which the passes make one after the other.
  induction tokens generalizing earlier opened levels with
  | nil =>
    cases earlier with
    | nil => simp [Progress.Accepts, Expectation.after]
    | cons last earlier =>
      have := mayEnd_iff (known last rfl)
      simp [Progress.Accepts, problemsBehind, WithinLimit, this]
  | cons token tokens ih =>
    have problems : (∀ problem, some problem ∈ problemsBehind schema earlier (token :: tokens) →
          problem.kind = .type) ↔
        (token.role ≠ .unknown ∧
          (Expectation.after (earlier.head?.map Token.role)).allows token.role = true) ∧
        ∀ problem, some problem ∈ problemsBehind schema (token :: earlier) tokens →
          problem.kind = .type := by
      rw [← @tokenProblem?_kind_iff schema earlier token]
      simp [problemsBehind, or_imp, forall_and, eq_comm]
    rw [problems, openAfter?_cons, WithinLimit, List.reverse_cons, List.append_assoc,
      List.singleton_append]
    constructor
    · rintro ⟨next, step, accepts⟩
      obtain ⟨fits, within, opened', counted, rfl⟩ := Progress.step?_eq_some_iff.1 step
      obtain ⟨right, ends, balanced, within'⟩ :=
        (@ih (token :: earlier) opened' (levels.step token) (by simpa using fits.1)).1 accepts
      exact ⟨⟨fits, right⟩, ends, by rw [counted]; exact balanced, within, within'⟩
    · rintro ⟨⟨fits, right⟩, ends, balanced, within, within'⟩
      obtain ⟨opened', counted, balanced'⟩ := Option.bind_eq_some_iff.1 balanced
      exact ⟨_, Progress.step?_eq_some_iff.2 ⟨fits, within, opened', counted, rfl⟩,
        (@ih (token :: earlier) opened' (levels.step token) (by simpa using fits.1)).2
          ⟨right, ends, balanced', within'⟩⟩

/-! ## Reports -/

theorem forall_inColumn_iff {p : DiagnosticKind → Prop} {tokens : List Token}
    {problems : List (Option Problem)} (length : problems.length = tokens.length) :
    (∀ diagnostic ∈ Findings.inColumn tokens problems, p diagnostic.kind) ↔
      ∀ problem, some problem ∈ problems → p problem.kind := by
  constructor
  · intro quiet problem member
    rw [← List.map_snd_zip (Nat.le_of_eq length), List.mem_map] at member
    obtain ⟨⟨token, _⟩, member, rfl⟩ := member
    exact quiet ⟨problem, token.span⟩ (Findings.mem_inColumn.2 ⟨token, member, rfl⟩)
  · intro quiet diagnostic member
    obtain ⟨token, member, -⟩ := Findings.mem_inColumn.1 member
    exact quiet diagnostic.problem (List.of_mem_zip member).2

theorem kinds_inColumn_iff {tokens : List Token} {problems : List (Option Problem)}
    (length : problems.length = tokens.length) :
    (∀ diagnostic ∈ Findings.inColumn tokens problems, diagnostic.kind = .type) ↔
      ∀ problem, some problem ∈ problems → problem.kind = .type :=
  forall_inColumn_iff (p := (· = .type)) length

theorem unmatched?_kind {tokens : List Token} {diagnostic : Diagnostic}
    (h : unmatched? tokens = some diagnostic) : diagnostic.kind = .parenthesis := by
  unfold unmatched? at h
  simp only at h
  split at h
  · cases h
    rfl
  · obtain ⟨span, -, rfl⟩ := Option.map_eq_some_iff.1 h
    rfl

theorem endProblem?_kind {tokens : List Token} {problem : Problem}
    (h : endProblem? tokens = some problem) : problem.kind = .grammar := by
  obtain ⟨last, -, h⟩ := Option.bind_eq_some_iff.1 h
  split at h <;> cases h
  rfl

theorem end_kinds_iff {tokens : List Token} (some_token : tokens ≠ []) :
    (∀ diagnostic ∈ Findings.inColumn tokens.getLast?.toList [endProblem? tokens],
        diagnostic.kind = .type) ↔
      ∃ last ∈ tokens.getLast?, last.role.mayEnd = true := by
  have ends := List.getLast?_eq_some_getLast some_token
  rw [ends, kinds_inColumn_iff (by simp)]
  cases mayEnd : (tokens.getLast some_token).role.mayEnd <;>
    simp [endProblem?, ends, mayEnd, Problem.kind]

theorem validate_silent_iff {schema : Schema} {tokens : List Token} (some_token : tokens ≠ []) :
    (∀ diagnostic ∈ (schema.validate tokens).report.diagnostics, diagnostic.kind = .type) ↔
      Progress.start.Accepts tokens := by
  have accepts := @accepts_iff schema [] tokens 0 .start (by simp)
  rw [List.append_nil, List.head?_reverse] at accepts
  rw [show Progress.start = ⟨.after ([].head?.map Token.role), 0, .start⟩ from rfl, accepts,
    ← unmatched?_eq_none_iff, ← end_kinds_iff some_token,
    ← kinds_inColumn_iff (length_problemsBehind schema [] tokens),
    ← @tooDeepFrom?_eq_none_iff _ 0]
  simp only [mem_diagnostics some_token, or_imp, forall_and]
  refine and_congr_right fun _ => and_congr_right fun _ => and_congr ?_ ?_
  · constructor
    · refine fun quiet => Option.eq_none_iff_forall_ne_some.2 fun diagnostic found => ?_
      exact absurd ((unmatched?_kind found).symm.trans (quiet diagnostic found)) nofun
    · rintro balanced diagnostic found
      cases balanced.symm.trans found
  · constructor
    · refine fun quiet => Option.eq_none_iff_forall_ne_some.2 fun ⟨index, token⟩ found => ?_
      exact absurd (quiet _ ⟨index, token, found, rfl⟩) nofun
    · rintro within diagnostic ⟨index, token, found, -⟩
      cases within.symm.trans found

end Validation

open Validation

theorem DiagnosticKind.ne_type_iff {kind : DiagnosticKind} :
    kind ∈ [.empty, .grammar, .parenthesis, .unknownProperty, .nesting] ↔ kind ≠ .type := by
  cases kind <;> decide

theorem Report.silent_iff {report : Report} :
    (∀ kind ∈ [.empty, .grammar, .parenthesis, .unknownProperty, .nesting],
        report.ofKind kind = []) ↔
      ∀ diagnostic ∈ report.diagnostics, diagnostic.kind = .type := by
  simp only [DiagnosticKind.ne_type_iff, Report.ofKind, List.filter_eq_nil_iff, beq_iff_eq]
  constructor
  · intro silent diagnostic member
    exact Decidable.byContradiction fun other => silent diagnostic.kind other diagnostic member rfl
  · rintro quiet kind other diagnostic member rfl
    exact other (quiet diagnostic member)

/-- On tokens whose operators are spelled as such, validation finds nothing wrong but types exactly
where the tokens form a rule. -/
theorem validate_silent_iff_parse (schema : Schema) {tokens : List Token}
    (spelled : Spelled tokens) :
    (∀ kind ∈ [.empty, .grammar, .parenthesis, .unknownProperty, .nesting],
        (schema.validate tokens).report.ofKind kind = []) ↔
      ∃ rule, Rule.parse tokens = .ok rule := by
  rw [Report.silent_iff]
  by_cases some_token : tokens = []
  · subst some_token
    simp [Schema.validate, Diagnostic.kind, Problem.kind, Rule.parse]
  · rw [validate_silent_iff some_token]
    constructor
    · intro accepts
      obtain ⟨rule, derived⟩ := derives_of_accepts spelled accepts
      exact ⟨rule, Rule.parse_of_derives derived⟩
    · rintro ⟨rule, parsed⟩
      exact accepts_of_derives (Rule.derives_of_parse parsed)

theorem validate_silent_iff_parse_negation :
    let schema : Schema := ⟨[⟨"Age", .integer, none⟩], by decide⟩
    let tokens : List Token := [⟨.logical, "not", ⟨0, 3⟩, none⟩, ⟨.openParen, "(", ⟨4, 5⟩, none⟩,
      ⟨.property, "age", ⟨5, 8⟩, none⟩, ⟨.operator, "==", ⟨9, 11⟩, none⟩,
      ⟨.value, "old", ⟨12, 15⟩, none⟩, ⟨.closeParen, ")", ⟨15, 16⟩, none⟩]
    Spelled tokens ∧
      ((∀ kind ∈ [.empty, .grammar, .parenthesis, .unknownProperty, .nesting],
          (schema.validate tokens).report.ofKind kind = []) ↔
        ∃ rule, Rule.parse tokens = .ok rule) :=
  ⟨by decide, validate_silent_iff_parse _ (by decide)⟩

end RuleFilter

import Mathlib.Data.List.Nodup
import RuleFilter.Proofs.Validation.Acceptance

namespace RuleFilter
namespace Validation

/-! ## Kinds -/

theorem unknownProblem_kind_cases (earlier : List Token) (token : Token) :
    (unknownProblem earlier token).kind = .grammar ∨
      (unknownProblem earlier token).kind = .unknownProperty := by
  unfold unknownProblem
  repeat' split
  all_goals simp [Problem.kind]

theorem tokenProblem?_kind {schema : Schema} {earlier : List Token} {token : Token}
    {problem : Problem} (found : tokenProblem? schema earlier token = some problem) :
    problem.kind = .grammar ∨ problem.kind = .unknownProperty ∨ problem.kind = .type := by
  unfold tokenProblem? at found
  simp only at found
  split at found
  · cases found
    rcases unknownProblem_kind_cases earlier token with kind | kind
    · exact .inl kind
    · exact .inr (.inl kind)
  · split at found
    · exact .inr (.inr (typeProblem?_kind found))
    · cases found
      exact .inl rfl

theorem exists_tokenProblem? {schema : Schema} {earlier tokens : List Token} {problem : Problem}
    (member : some problem ∈ problemsBehind schema earlier tokens) :
    ∃ earlier token, tokenProblem? schema earlier token = some problem := by
  induction tokens generalizing earlier with
  | nil => cases member
  | cons token tokens ih =>
    rcases List.mem_cons.1 member with found | member
    · exact ⟨earlier, token, found.symm⟩
    · exact ih member

theorem inPlace_kind {schema : Schema} {tokens : List Token} {diagnostic : Diagnostic}
    (member : diagnostic ∈ Findings.inColumn tokens (problemsBehind schema [] tokens)) :
    diagnostic.kind = .grammar ∨ diagnostic.kind = .unknownProperty ∨ diagnostic.kind = .type := by
  obtain ⟨token, member, -⟩ := Findings.mem_inColumn.1 member
  obtain ⟨earlier, token, found⟩ := exists_tokenProblem? (List.of_mem_zip member).2
  exact tokenProblem?_kind found

theorem atEnd_kind {tokens : List Token} {diagnostic : Diagnostic}
    (member : diagnostic ∈ Findings.inColumn tokens.getLast?.toList [endProblem? tokens]) :
    diagnostic.kind = .grammar := by
  obtain ⟨token, member, -⟩ := Findings.mem_inColumn.1 member
  exact endProblem?_kind (List.mem_singleton.1 (List.of_mem_zip member).2).symm

end Validation

open Validation

/-! ## Reports -/

theorem pairwise_mergeSort (diagnostics : List Diagnostic) :
    (diagnostics.mergeSort fun a b => a.span.start ≤ b.span.start).Pairwise fun a b =>
      a.span.start ≤ b.span.start := by
  have trans (a b c : Diagnostic) : decide (a.span.start ≤ b.span.start) = true →
      decide (b.span.start ≤ c.span.start) = true →
      decide (a.span.start ≤ c.span.start) = true := by
    simp only [decide_eq_true_eq]
    exact Nat.le_trans
  have total (a b : Diagnostic) : (decide (a.span.start ≤ b.span.start) ||
      decide (b.span.start ≤ a.span.start)) = true := by
    simpa using Nat.le_total ..
  simpa using List.pairwise_mergeSort trans total diagnostics

theorem pairwise_diagnostics (schema : Schema) (tokens : List Token) :
    (schema.validate tokens).report.diagnostics.Pairwise fun a b =>
      a.span.start ≤ b.span.start := by
  unfold Schema.validate
  split
  · exact List.pairwise_singleton ..
  · exact pairwise_mergeSort _

theorem ofKind_perm (schema : Schema) {tokens : List Token} (some_token : tokens ≠ [])
    (kind : DiagnosticKind) :
    ((schema.validate tokens).report.ofKind kind).Perm
      (((Findings.of schema tokens).diagnostics tokens).filter (·.kind == kind)) := by
  have none : tokens.isEmpty = false := by simpa using some_token
  simp only [Schema.validate, none, Bool.false_eq_true, if_false, Report.ofKind]
  exact (List.mergeSort_perm _ _).filter _

theorem filter_kind_eq_nil {diagnostics : List Diagnostic} {kind : DiagnosticKind}
    (other : ∀ diagnostic ∈ diagnostics, diagnostic.kind ≠ kind) :
    diagnostics.filter (·.kind == kind) = [] := by
  simpa [List.filter_eq_nil_iff] using other

theorem filter_kind_eq_self {diagnostics : List Diagnostic} {kind : DiagnosticKind}
    (own : ∀ diagnostic ∈ diagnostics, diagnostic.kind = kind) :
    diagnostics.filter (·.kind == kind) = diagnostics := by
  simpa [List.filter_eq_self] using own

theorem column_kind_ne {schema : Schema} {tokens : List Token} {diagnostic : Diagnostic}
    (member : diagnostic ∈ Findings.inColumn tokens (problemsBehind schema [] tokens) ∨
      diagnostic ∈ Findings.inColumn tokens.getLast?.toList [endProblem? tokens]) :
    diagnostic.kind ≠ .parenthesis ∧ diagnostic.kind ≠ .nesting := by
  rcases member with member | member
  · rcases inPlace_kind member with kind | kind | kind <;> simp [kind]
  · simp [atEnd_kind member]

theorem filter_diagnostics (schema : Schema) (tokens : List Token) :
    ((Findings.of schema tokens).diagnostics tokens).filter (·.kind == .parenthesis) =
        (unmatched? tokens).toList ∧
      ((Findings.of schema tokens).diagnostics tokens).filter (·.kind == .nesting) =
        ((tooDeep? tokens).map fun (_, token) => ⟨.tooDeep, token.span⟩).toList := by
  have columns (kind : DiagnosticKind) (other : kind = .parenthesis ∨ kind = .nesting) :
      (Findings.inColumn tokens (problemsBehind schema [] tokens)).filter (·.kind == kind) = [] ∧
        (Findings.inColumn tokens.getLast?.toList [endProblem? tokens]).filter
          (·.kind == kind) = [] := by
    constructor <;> refine filter_kind_eq_nil fun diagnostic member => ?_
    · have := column_kind_ne (.inl member)
      rcases other with rfl | rfl <;> simp [this]
    · have := @column_kind_ne schema _ _ (.inr member)
      rcases other with rfl | rfl <;> simp [this]
  have parentheses (diagnostic : Diagnostic) (member : diagnostic ∈ (unmatched? tokens).toList) :
      diagnostic.kind = .parenthesis :=
    unmatched?_kind (Option.mem_toList.1 member)
  have levels (diagnostic : Diagnostic)
      (member : diagnostic ∈ ((tooDeep? tokens).map fun (_, token) =>
        (⟨.tooDeep, token.span⟩ : Diagnostic)).toList) : diagnostic.kind = .nesting := by
    obtain ⟨found, -, rfl⟩ := Option.map_eq_some_iff.1 (Option.mem_toList.1 member)
    rfl
  simp only [Findings.diagnostics, Findings.of, tokenProblems_eq, List.filter_append]
  constructor
  · rw [(columns .parenthesis (.inl rfl)).1, (columns .parenthesis (.inl rfl)).2,
      filter_kind_eq_self parentheses,
      filter_kind_eq_nil fun diagnostic member => by simp [levels diagnostic member]]
    simp
  · rw [(columns .nesting (.inr rfl)).1, (columns .nesting (.inr rfl)).2,
      filter_kind_eq_self levels,
      filter_kind_eq_nil fun diagnostic member => by simp [parentheses diagnostic member]]
    simp

theorem eq_toList_of_perm {α : Type} {found : List α} {one : Option α}
    (perm : found.Perm one.toList) : found = one.toList := by
  cases one with
  | none => exact perm.eq_nil
  | some a => exact List.perm_singleton.1 perm

theorem ofKind_parenthesis (schema : Schema) (tokens : List Token) :
    (schema.validate tokens).report.ofKind .parenthesis = (unmatched? tokens).toList := by
  by_cases some_token : tokens = []
  · subst some_token
    rfl
  · have perm := ofKind_perm schema some_token .parenthesis
    rw [(filter_diagnostics schema tokens).1] at perm
    exact eq_toList_of_perm perm

theorem ofKind_nesting (schema : Schema) (tokens : List Token) :
    (schema.validate tokens).report.ofKind .nesting =
      ((tooDeep? tokens).map fun (_, token) => ⟨.tooDeep, token.span⟩).toList := by
  by_cases some_token : tokens = []
  · subst some_token
    rfl
  · have perm := ofKind_perm schema some_token .nesting
    rw [(filter_diagnostics schema tokens).2] at perm
    exact eq_toList_of_perm perm

/-! ## In the order of the tokens -/

theorem Findings.pairwise_inColumn {tokens : List Token}
    (ordered : tokens.Pairwise fun a b => a.span.start < b.span.start)
    (problems : List (Option Problem)) :
    (inColumn tokens problems).Pairwise fun a b => a.span.start < b.span.start := by
  induction tokens generalizing problems with
  | nil => exact .nil
  | cons token tokens ih =>
    rcases problems with - | ⟨- | problem, problems⟩
    · exact .nil
    · exact ih ordered.tail problems
    · refine .cons ?_ (ih ordered.tail problems)
      intro diagnostic member
      obtain ⟨later, member, place⟩ := mem_inColumn.1 member
      rw [place]
      exact List.rel_of_pairwise_cons ordered (List.of_mem_zip member).1

theorem ofKind_inPlace (schema : Schema) {tokens : List Token}
    (ordered : tokens.Pairwise fun a b => a.span.start < b.span.start) {kind : DiagnosticKind}
    (own : kind = .unknownProperty ∨ kind = .type) :
    (schema.validate tokens).report.ofKind kind =
      (Findings.inColumn tokens (problemsBehind schema [] tokens)).filter (·.kind == kind) := by
  by_cases some_token : tokens = []
  · subst some_token
    rcases own with rfl | rfl <;> rfl
  -- The report is sorted, and a sorted list is the only one of its entries.
  have perm := ofKind_perm schema some_token kind
  have others : ((Findings.of schema tokens).diagnostics tokens).filter (·.kind == kind) =
      (Findings.inColumn tokens (problemsBehind schema [] tokens)).filter (·.kind == kind) := by
    have atEnd : (Findings.inColumn tokens.getLast?.toList [endProblem? tokens]).filter
        (·.kind == kind) = [] :=
      filter_kind_eq_nil fun diagnostic member => by
        rcases own with rfl | rfl <;> simp [atEnd_kind member]
    have unmatched : (unmatched? tokens).toList.filter (·.kind == kind) = [] :=
      filter_kind_eq_nil fun diagnostic member => by
        rcases own with rfl | rfl <;> simp [unmatched?_kind (Option.mem_toList.1 member)]
    have tooDeep : ((tooDeep? tokens).map fun (_, token) =>
        (⟨.tooDeep, token.span⟩ : Diagnostic)).toList.filter (·.kind == kind) = [] :=
      filter_kind_eq_nil fun diagnostic member => by
        obtain ⟨found, -, rfl⟩ := Option.map_eq_some_iff.1 (Option.mem_toList.1 member)
        rcases own with rfl | rfl <;> simp [Diagnostic.kind, Problem.kind]
    simp only [Findings.diagnostics, Findings.of, tokenProblems_eq, List.filter_append, atEnd,
      unmatched, tooDeep, List.append_nil]
  rw [others] at perm
  have column := (Findings.pairwise_inColumn ordered (problemsBehind schema [] tokens)).filter
    (·.kind == kind)
  refine perm.eq_of_pairwise ?_ ((pairwise_diagnostics schema tokens).filter _)
    (column.imp Nat.le_of_lt)
  intro a b member member' before behind
  have apart := List.pairwise_map.2 (column.imp Nat.ne_of_lt)
  exact List.inj_on_of_nodup_map apart (perm.subset member) member' (Nat.le_antisymm before behind)

end RuleFilter

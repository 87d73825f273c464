import RuleFilter.Proofs.Rule.Balance
import RuleFilter.Validation.Basic

namespace RuleFilter
namespace Validation

/-! ## Problems in place -/

def problemsBehind (schema : Schema) (earlier : List Token) : List Token → List (Option Problem)
  | [] => []
  | token :: tokens =>
    tokenProblem? schema earlier token :: problemsBehind schema (token :: earlier) tokens

theorem tokenProblemsFrom_eq (schema : Schema) (earlier tokens : List Token)
    (found : List (Option Problem)) :
    tokenProblemsFrom schema earlier found tokens =
      found.reverse ++ problemsBehind schema earlier tokens := by
  induction tokens generalizing earlier found with
  | nil => simp [tokenProblemsFrom, problemsBehind]
  | cons token tokens ih => simp [tokenProblemsFrom, problemsBehind, ih]

theorem tokenProblems_eq (schema : Schema) (tokens : List Token) :
    tokenProblems schema tokens = problemsBehind schema [] tokens := by
  rw [tokenProblems, tokenProblemsFrom_eq, List.reverse_nil, List.nil_append]

@[simp] theorem length_problemsBehind (schema : Schema) (earlier tokens : List Token) :
    (problemsBehind schema earlier tokens).length = tokens.length := by
  induction tokens generalizing earlier with
  | nil => rfl
  | cons token tokens ih => simp [problemsBehind, ih]

theorem problemsBehind_append (schema : Schema) (earlier tokens rest : List Token) :
    problemsBehind schema earlier (tokens ++ rest) =
      problemsBehind schema earlier tokens ++
        problemsBehind schema (tokens.reverse ++ earlier) rest := by
  induction tokens generalizing earlier with
  | nil => rfl
  | cons token tokens ih => simp [problemsBehind, ih]

/-! ## Parentheses -/

theorem matching_none_iff (matching : Matching) (tokens : List Token) :
    ((tokens.foldl Matching.step matching).stray = none ∧
        (tokens.foldl Matching.step matching).opened = []) ↔
      matching.stray = none ∧ openAfter? matching.opened.length tokens = some 0 := by
  induction tokens generalizing matching with
  | nil => simp
  | cons token tokens ih =>
    rw [List.foldl_cons, ih, openAfter?_cons]
    cases kind : token.kind with
    | openParen => simp [Matching.step, kind, Token.openAfter?_open kind]
    | closeParen =>
      cases opened : matching.opened with
      | nil =>
        have stray : (matching.step token).stray ≠ none := by
          cases known : matching.stray <;> simp [Matching.step, kind, opened, known]
        simp [stray, Token.openAfter?, kind]
      | cons span spans => simp [Matching.step, kind, opened, Token.openAfter?_close kind]
    | _ => simp [Matching.step, kind, Token.openAfter?]

theorem unmatched?_eq_none_iff {tokens : List Token} :
    unmatched? tokens = none ↔ openAfter? 0 tokens = some 0 := by
  have matched := matching_none_iff .start tokens
  simp only [Matching.start, true_and, List.length_nil] at matched
  rw [← matched]
  unfold unmatched?
  simp only
  split <;> simp_all [Matching.start]

/-! ## Levels -/

def WithinLimit (levels : Levels) : List Token → Prop
  | [] => True
  | token :: tokens =>
    (∀ reached ∈ levels.reached? token, reached ≤ nestingLimit) ∧
      WithinLimit (levels.step token) tokens

theorem tooDeepFrom?_eq_none_iff {levels : Levels} {index : Nat} {tokens : List Token} :
    tooDeepFrom? levels index tokens = none ↔ WithinLimit levels tokens := by
  induction tokens generalizing levels index with
  | nil => simp [tooDeepFrom?, WithinLimit]
  | cons token tokens ih =>
    unfold tooDeepFrom? WithinLimit
    cases levels.reached? token with
    | none => simp [ih]
    | some reached =>
      by_cases h : nestingLimit < reached
      · simp [h, Nat.not_le.2 h]
      · simp [h, ih, Nat.not_lt.1 h]

end Validation

/-! ## Reports -/

theorem Findings.mem_inColumn {tokens : List Token} {problems : List (Option Problem)}
    {diagnostic : Diagnostic} :
    diagnostic ∈ Findings.inColumn tokens problems ↔
      ∃ token, (token, some diagnostic.problem) ∈ tokens.zip problems ∧
        diagnostic.span = token.span := by
  simp only [inColumn, List.mem_filterMap, Prod.exists, Option.map_eq_some_iff]
  constructor
  · rintro ⟨token, _, member, problem, rfl, rfl⟩
    exact ⟨token, member, rfl⟩
  · rintro ⟨token, member, span⟩
    exact ⟨token, _, member, _, rfl, by rw [← span]⟩

theorem Findings.inColumn_cons (token : Token) (tokens : List Token) (problem : Option Problem)
    (problems : List (Option Problem)) :
    inColumn (token :: tokens) (problem :: problems) =
      (problem.map (⟨·, token.span⟩)).toList ++ inColumn tokens problems := by
  cases problem <;> rfl

theorem Findings.inColumn_append {tokens rest : List Token}
    {problems others : List (Option Problem)} (length : tokens.length = problems.length) :
    inColumn (tokens ++ rest) (problems ++ others) =
      inColumn tokens problems ++ inColumn rest others := by
  rw [inColumn, List.zip_append length, List.filterMap_append]
  rfl

open Validation

theorem mem_diagnostics {schema : Schema} {tokens : List Token} (some_token : tokens ≠ [])
    {diagnostic : Diagnostic} :
    diagnostic ∈ (schema.validate tokens).report.diagnostics ↔
      diagnostic ∈ Findings.inColumn tokens (problemsBehind schema [] tokens) ∨
        diagnostic ∈ Findings.inColumn tokens.getLast?.toList [endProblem? tokens] ∨
        unmatched? tokens = some diagnostic ∨
        ∃ index token, tooDeep? tokens = some (index, token) ∧
          diagnostic = ⟨.tooDeep, token.span⟩ := by
  have h : tokens.isEmpty = false := by simpa using some_token
  simp only [Schema.validate, h, Bool.false_eq_true, if_false, List.mem_mergeSort,
    Findings.diagnostics, Findings.of, List.mem_append, Option.mem_toList, tokenProblems_eq,
    Option.map_eq_some_iff, Prod.exists, or_assoc]
  grind

/-! ## Messages -/

theorem Findings.flagFrom_unflagged (findings : Findings) {tokens : List Token}
    {problems : List (Option Problem)} (length : problems.length = tokens.length) (index : Nat)
    (flagged : List Token) :
    (findings.flagFrom index flagged tokens problems).map Token.unflagged =
      (flagged.reverse ++ tokens).map Token.unflagged := by
  induction tokens generalizing problems index flagged with
  | nil => simp [flagFrom]
  | cons token tokens ih =>
    obtain ⟨problem, problems, rfl⟩ :=
      List.exists_cons_of_ne_nil (List.ne_nil_of_length_eq_add_one length)
    rw [flagFrom, ih (Nat.succ.inj length)]
    simp [Token.unflagged]

theorem validate_unflagged (schema : Schema) (tokens : List Token) :
    (schema.validate tokens).tokens.map Token.unflagged = tokens.map Token.unflagged := by
  unfold Schema.validate
  split
  · next none => rw [List.isEmpty_iff.1 none]
  · have length : (tokenProblems schema tokens).length = tokens.length := by
      rw [tokenProblems_eq, length_problemsBehind]
    exact (Findings.of schema tokens).flagFrom_unflagged length 0 []

end RuleFilter

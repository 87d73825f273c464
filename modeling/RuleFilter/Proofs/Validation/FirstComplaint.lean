import Mathlib.Data.List.Basic
import RuleFilter.Proofs.Token.Coverage
import RuleFilter.Proofs.Validation.Lockstep
import RuleFilter.Proofs.Validation.Reports

namespace RuleFilter

def Diagnostic.isComplaint (diagnostic : Diagnostic) : Bool :=
  diagnostic.kind == .grammar || diagnostic.kind == .unknownProperty

def Report.firstComplaint? (report : Report) : Option Diagnostic :=
  report.diagnostics.find? Diagnostic.isComplaint

theorem Diagnostic.isComplaint_iff {diagnostic : Diagnostic} :
    diagnostic.isComplaint = true ↔
      diagnostic.kind = .grammar ∨ diagnostic.kind = .unknownProperty := by
  simp [isComplaint]

namespace Validation

variable {schema : Schema} {tokens : List Token} {first : Diagnostic}

/-! ## The first complaint of a report -/

theorem start_le_of_firstComplaint?
    (found : (schema.validate tokens).report.firstComplaint? = some first) {diagnostic : Diagnostic}
    (member : diagnostic ∈ (schema.validate tokens).report.diagnostics)
    (complaint : diagnostic.isComplaint = true) : first.span.start ≤ diagnostic.span.start := by
  have ordered := pairwise_diagnostics schema tokens
  obtain ⟨-, before, behind, split, none⟩ := List.find?_eq_some_iff_append.1 found
  rw [split] at ordered member
  rcases List.mem_append.1 member with earlier | later
  · have quiet := none diagnostic earlier
    rw [complaint] at quiet
    cases quiet
  · rcases List.mem_cons.1 later with rfl | later
    · exact Nat.le_refl _
    · have ordered := (List.pairwise_append.1 ordered).2.1
      exact List.rel_of_pairwise_cons ordered later

theorem complaint_cases (some_token : tokens ≠ []) {diagnostic : Diagnostic}
    (member : diagnostic ∈ (schema.validate tokens).report.diagnostics)
    (complaint : diagnostic.isComplaint = true) :
    diagnostic ∈ Findings.inColumn tokens (problemsBehind schema [] tokens) ∨
      ∃ last ∈ tokens.getLast?, diagnostic.span = last.span ∧
        endProblem? tokens = some diagnostic.problem := by
  rw [Diagnostic.isComplaint_iff] at complaint
  rcases (mem_diagnostics some_token).1 member with inPlace | atEnd | unmatched | tooDeep
  · exact .inl inPlace
  · obtain ⟨last, member, place⟩ := Findings.mem_inColumn.1 atEnd
    obtain ⟨ends, problem⟩ := List.of_mem_zip member
    exact .inr ⟨last, Option.mem_toList.1 ends, place, (List.mem_singleton.1 problem).symm⟩
  · rw [unmatched?_kind unmatched] at complaint
    simp at complaint
  · obtain ⟨index, token, -, rfl⟩ := tooDeep
    simp [Diagnostic.kind, Problem.kind] at complaint

theorem complaint_behind {taken rest : List Token}
    (quiet : ∀ problem, some problem ∈ problemsBehind schema [] taken → problem.kind = .type)
    {diagnostic : Diagnostic}
    (member : diagnostic ∈ Findings.inColumn (taken ++ rest)
      (problemsBehind schema [] (taken ++ rest)))
    (complaint : diagnostic.isComplaint = true) : ∃ token ∈ rest, diagnostic.span = token.span := by
  rw [problemsBehind_append, Findings.inColumn_append (length_problemsBehind ..).symm] at member
  rcases List.mem_append.1 member with earlier | later
  · have kind := (kinds_inColumn_iff (length_problemsBehind ..)).2 quiet diagnostic earlier
    rw [Diagnostic.isComplaint_iff, kind] at complaint
    simp at complaint
  · obtain ⟨token, member, place⟩ := Findings.mem_inColumn.1 later
    exact ⟨token, (List.of_mem_zip member).1, place⟩

theorem exists_complaint {taken rest : List Token} {token : Token}
    (misplaced : ¬ (token.role ≠ .unknown ∧
      (Expectation.after (taken.reverse.head?.map Token.role)).allows token.role = true)) :
    ∃ diagnostic ∈ (schema.validate (taken ++ token :: rest)).report.diagnostics,
      diagnostic.isComplaint = true ∧ diagnostic.span = token.span := by
  rw [← @tokenProblem?_kind_iff schema] at misplaced
  obtain ⟨problem, found, other⟩ : ∃ problem ∈ tokenProblem? schema taken.reverse token,
      problem.kind ≠ .type := by
    simpa using misplaced
  refine ⟨⟨problem, token.span⟩, (mem_diagnostics (by simp)).2 (.inl ?_), ?_, rfl⟩
  · rw [problemsBehind_append, Findings.inColumn_append (length_problemsBehind ..).symm,
      List.append_nil, problemsBehind, Option.mem_def.1 found]
    refine List.mem_append_right _ (Findings.mem_inColumn.2 ⟨token, ?_, rfl⟩)
    exact List.mem_cons_self
  · rw [Diagnostic.isComplaint_iff]
    rcases tokenProblem?_kind found with kind | kind | kind
    · exact .inl kind
    · exact .inr kind
    · exact absurd kind other

/-! ## Where parsing stops -/

theorem stopBehind_of_getLast? {stop : Nat} {last : Token} (ends : tokens.getLast? = some last) :
    stopBehind stop tokens = last.span.stop := by
  obtain ⟨init, rfl⟩ := List.getLast?_eq_some_iff.1 ends
  rw [stopBehind, List.foldl_append]
  rfl

theorem exists_error_of_complaint (some_token : tokens ≠ [])
    (found : (schema.validate tokens).report.firstComplaint? = some first) :
    ∃ error, Rule.parse tokens = .error error := by
  cases parsed : Rule.parse tokens with
  | error error => exact ⟨error, rfl⟩
  | ok rule =>
    have quiet := (@validate_silent_iff schema _ some_token).2
      (accepts_of_derives (Rule.derives_of_parse parsed)) first (List.mem_of_find?_eq_some found)
    have complaint := Diagnostic.isComplaint_iff.1 (List.find?_some found)
    rw [quiet] at complaint
    simp at complaint

theorem span_of_stuck (ordered : tokens.Pairwise fun a b => a.span.start < b.span.start)
    (some_token : tokens ≠ []) (balanced : Balanced tokens)
    (shallow : (schema.validate tokens).report.ofKind .nesting = [])
    (found : (schema.validate tokens).report.firstComplaint? = some first) {place : Cursor}
    {progress : Progress} {error : ParseError} (moves : Moves (.start tokens) .start place progress)
    (stuck : Stuck progress place error) :
    ((∀ wanted, error.fault ≠ .ended wanted) ∧ error.span = first.span) ∨
      (∃ wanted, error.fault = .ended wanted) ∧
      ∃ last ∈ tokens.getLast?, error.span = ⟨last.span.stop, last.span.stop⟩ ∧
        first.span = last.span ∧ endProblem? tokens = some first.problem := by
  obtain ⟨taken, split, moved, stop⟩ := moves
  obtain rfl : tokens = taken ++ place.rest := split
  have complaint := List.find?_some found
  have told := complaint_cases some_token (List.mem_of_find?_eq_some found) complaint
  obtain ⟨⟨expected, quiet⟩, counted, levels, within⟩ := @Progress.of_run? schema [] _ _ _ _ moved
  have behind := fun member =>
    @complaint_behind schema taken place.rest quiet first member complaint
  cases stuck with
  | ended wanted none =>
    refine .inr ⟨⟨wanted, rfl⟩, ?_⟩
    rcases told with inPlace | ⟨last, ends, anchored⟩
    · obtain ⟨token, member, -⟩ := behind inPlace
      rw [none] at member
      cases member
    · refine ⟨last, ends, ?_, anchored⟩
      rw [none, List.append_nil] at ends
      rw [stop, stopBehind_of_getLast? ends]
  | @misplaced token rest fault next wrong blames =>
    refine .inl ⟨blames.ne_ended, ?_⟩
    rw [next] at found told ordered behind
    rw [expected, List.append_nil] at wrong
    obtain ⟨token', member, place⟩ : ∃ token' ∈ token :: rest, first.span = token'.span := by
      rcases told with inPlace | ⟨last, ends, place, -⟩
      · exact behind inPlace
      · rw [List.getLast?_append_cons] at ends
        exact ⟨last, List.mem_of_getLast? ends, place⟩
    obtain ⟨diagnostic, reported, complaint', here⟩ :=
      @exists_complaint schema taken rest token wrong
    -- A complaint at a later token would not be the first, since one is about this token.
    have earliest := start_le_of_firstComplaint? found reported complaint'
    rcases List.mem_cons.1 member with rfl | later
    · exact place.symm
    · have ordered := List.rel_of_pairwise_cons (List.pairwise_append.1 ordered).2.1 later
      rw [place, here] at earliest
      omega
  | @unopened token rest fault next closes none =>
    rw [Balanced, openAfter?_append, counted, none, next] at balanced
    simp [Token.openAfter?, closes] at balanced
  | @tooDeep token rest reached next opens beyond =>
    rw [levels] at opens
    have deep := tooDeepFrom?_append within opens beyond 0 rest
    rw [ofKind_nesting, next, tooDeep?, deep] at shallow
    cases shallow

end Validation

open Validation

/-- Where the parentheses of a rule are in balance and validation finds none nested too deep,
parsing fails if there is a complaint, at the place of the first one. If parsing runs out of tokens,
it fails behind the last one, and the first complaint is the one that the rule ends there. -/
theorem error_of_complaint (lexicon : Lexicon) (schema : Schema) (text : String)
    (some_token : lexicon.tokens text ≠ []) (balanced : Balanced (lexicon.tokens text))
    (shallow : (schema.validate (lexicon.tokens text)).report.ofKind .nesting = [])
    {first : Diagnostic}
    (found : (schema.validate (lexicon.tokens text)).report.firstComplaint? = some first) :
    ∃ error, Rule.parse (lexicon.tokens text) = .error error ∧
      ((∀ wanted, error.fault ≠ .ended wanted) → error.span = first.span) ∧
      ∀ wanted, error.fault = .ended wanted →
        ∃ last ∈ (lexicon.tokens text).getLast?,
          error.span = ⟨last.span.stop, last.span.stop⟩ ∧ first.span = last.span ∧
          endProblem? (lexicon.tokens text) = some first.problem := by
  have reads := lexicon.reads_tokens text
  have ordered : (lexicon.tokens text).Pairwise fun a b => a.span.start < b.span.start := by
    refine reads.pairwise.imp_of_mem ?_
    intro a b member _ apart
    have := (reads.placed a member).start_lt_stop
    omega
  obtain ⟨error, failed⟩ := exists_error_of_complaint some_token found
  obtain ⟨place, progress, moves, stuck⟩ :=
    Rule.stuck_of_parse some_token (lexicon.spelled_tokens text) balanced failed
  refine ⟨error, failed, ?_⟩
  rcases span_of_stuck ordered some_token balanced shallow found moves stuck with
    ⟨other, same⟩ | ⟨⟨wanted, ended⟩, anchored⟩
  · exact ⟨fun _ => same, fun wanted ended => absurd ended (other wanted)⟩
  · exact ⟨fun other => absurd ended (other wanted), fun _ _ => anchored⟩

theorem error_of_complaint_age :
    let lexicon : Lexicon := ⟨⟨[⟨"Age", .integer, none⟩], by decide⟩, true⟩
    let first : Diagnostic := ⟨.misplaced .operator (some "Age") "5", ⟨4, 5⟩⟩
    let tokens := lexicon.tokens "Age 5"
    tokens ≠ [] ∧ Balanced tokens ∧
      (lexicon.schema.validate tokens).report.ofKind .nesting = [] ∧
      (lexicon.schema.validate tokens).report.firstComplaint? = some first ∧
      ∃ error, Rule.parse tokens = .error error ∧
        ((∀ wanted, error.fault ≠ .ended wanted) → error.span = first.span) ∧
        ∀ wanted, error.fault = .ended wanted →
          ∃ last ∈ tokens.getLast?, error.span = ⟨last.span.stop, last.span.stop⟩ ∧
            first.span = last.span ∧ endProblem? tokens = some first.problem := by
  intro lexicon first tokens
  have read : tokens = [⟨.property, "Age", ⟨0, 3⟩, none⟩, ⟨.value, "5", ⟨4, 5⟩, none⟩] :=
    Lexicon.reads_iff.1 (.token rfl rfl (.blank rfl (.token rfl rfl .done)))
  have some_token : tokens ≠ [] := by simp [read]
  have balanced : Balanced tokens := by
    rw [read]
    decide
  have shallow : (lexicon.schema.validate tokens).report.ofKind .nesting = [] := by
    rw [ofKind_nesting, read]
    rfl
  have found : (lexicon.schema.validate tokens).report.firstComplaint? = some first := by
    rw [read]
    exact congrArg (List.find? Diagnostic.isComplaint) (List.mergeSort_singleton first)
  exact ⟨some_token, balanced, shallow, found,
    error_of_complaint lexicon lexicon.schema "Age 5" some_token balanced shallow found⟩

end RuleFilter

import RuleFilter.Proofs.Token.Extension
import RuleFilter.Proofs.Validation.UnknownNames
import RuleFilter.Suggestion

namespace RuleFilter

def Lexicon.Takes (lexicon : Lexicon) (text more : String) (unwanted : List DiagnosticKind)
    (token : Token) : Prop :=
  lexicon.tokens (text ++ more) = lexicon.tokens text ++ [token] ∧
    ∀ diagnostic ∈ (lexicon.schema.validate (lexicon.tokens (text ++ more))).report.diagnostics,
      diagnostic.span = token.span → diagnostic.kind ∉ unwanted

/-! ## Candidates -/

theorem eraseDups_of_nodup {α : Type} [DecidableEq α] {as : List α} (nodup : as.Nodup) :
    as.eraseDups = as := by
  induction as with
  | nil => rfl
  | cons a as ih =>
    obtain ⟨absent, nodup⟩ := List.nodup_cons.1 nodup
    have kept : as.filter (fun b => !b == a) = as := by
      rw [List.filter_eq_self]
      intro b member
      have other : b ≠ a := by
        rintro rfl
        exact absent member
      simpa using other
    rw [List.eraseDups_cons, kept, ih nodup]

theorem nodup_eraseDups {α : Type} [DecidableEq α] (as : List α) : as.eraseDups.Nodup := by
  cases as with
  | nil => exact .nil
  | cons a as =>
    rw [List.eraseDups_cons, List.nodup_cons]
    constructor
    · simp
    · exact nodup_eraseDups (as.filter fun b => !b == a)
termination_by as.length
decreasing_by simpa using Nat.lt_succ_of_le (List.length_filter_le ..)

theorem Schema.suggest_behind (schema : Schema) {tokens : List Token} {caret : Nat}
    (passed : ∀ token ∈ tokens, token.span.start < caret ∧ token.span.stop < caret) :
    schema.suggest tokens caret = (Candidates.behind schema tokens.reverse).items.eraseDups := by
  have unedited : ∀ token ∈ tokens, (!Suggestion.isEdited caret token) = true := by
    intro token member
    simp [Suggestion.isEdited, Span.touches, Nat.not_le.2 (passed token member).2]
  have edited : tokens.dropWhile (fun token => !Suggestion.isEdited caret token) = [] := by
    rw [← List.append_nil tokens, List.dropWhile_append_of_pos unedited]
    rfl
  have behind : tokens.reverse.dropWhile (fun token => caret < token.span.stop) =
      tokens.reverse := by
    cases reversed : tokens.reverse with
    | nil => rfl
    | cons last before =>
      have member : last ∈ tokens := List.mem_reverse.1 (reversed ▸ List.mem_cons_self)
      exact List.dropWhile_cons_of_neg (by simpa using Nat.le_of_lt (passed last member).2)
  have next : tokens.find? (fun token => caret ≤ token.span.start) = none := by
    simpa using fun token member => (passed token member).1
  have kept (items : List String) : Suggestion.distinct none items = items.eraseDups :=
    congrArg List.eraseDups (List.filter_eq_self.2 fun _ _ => rfl)
  simp only [suggest, edited, behind, next, kept]

namespace Lexicon

variable {lexicon : Lexicon} {text : String} {last : Token}

theorem Reads.stop_le_last {offset : Nat} {previous : Option TokenKind} {cs : List Char}
    {tokens : List Token} (reads : lexicon.Reads offset previous cs tokens)
    (ends : tokens.getLast? = some last) {token : Token} (member : token ∈ tokens) :
    token.span.stop ≤ last.span.stop := by
  obtain ⟨init, rfl⟩ := List.getLast?_eq_some_iff.1 ends
  rcases List.mem_append.1 member with earlier | is
  · have apart := (List.pairwise_append.1 reads.pairwise).2.2 token earlier last (by simp)
    have := (reads.placed last (by simp)).start_lt_stop
    omega
  · exact Nat.le_of_eq (congrArg (·.span.stop) (List.mem_singleton.1 is))

theorem suggest_spaced (ends : (lexicon.tokens text).getLast? = some last)
    (spaced : last.span.stop < text.utf8ByteSize) :
    lexicon.schema.suggest (lexicon.tokens text) text.utf8ByteSize =
      (Candidates.behind lexicon.schema (lexicon.tokens text).reverse).items.eraseDups := by
  have reads := lexicon.reads_tokens text
  refine lexicon.schema.suggest_behind fun token member => ?_
  have before := reads.stop_le_last ends member
  have := (reads.placed token member).start_lt_stop
  omega

end Lexicon

/-! ## Diagnostics -/

namespace Validation

variable {schema : Schema} {tokens : List Token} {last : Token}

theorem mem_inPlace_last (ordered : (tokens ++ [last]).Pairwise fun a b =>
      a.span.start < b.span.start) {diagnostic : Diagnostic} (place : diagnostic.span = last.span) :
    diagnostic ∈ Findings.inColumn (tokens ++ [last]) (problemsBehind schema [] (tokens ++ [last])) ↔
      tokenProblem? schema tokens.reverse last = some diagnostic.problem := by
  have width : tokens.length = (problemsBehind schema [] tokens).length := by simp
  rw [problemsBehind_append, Findings.inColumn_append width, List.mem_append, List.append_nil]
  have earlier : diagnostic ∉ Findings.inColumn tokens (problemsBehind schema [] tokens) := by
    intro member
    obtain ⟨token, inside, same⟩ := Findings.mem_inColumn.1 member
    have before := (List.pairwise_append.1 ordered).2.2 token (List.of_mem_zip inside).1 last
      List.mem_cons_self
    rw [← same, place] at before
    exact Nat.lt_irrefl _ before
  rw [or_iff_right earlier, Findings.mem_inColumn]
  simp [problemsBehind, place, eq_comm]

theorem mem_diagnostics_last (ordered : (tokens ++ [last]).Pairwise fun a b =>
      a.span.start < b.span.start) {diagnostic : Diagnostic} (place : diagnostic.span = last.span)
    (kind : diagnostic.kind ∈ [.grammar, .unknownProperty, .type]) :
    diagnostic ∈ (schema.validate (tokens ++ [last])).report.diagnostics ↔
      tokenProblem? schema tokens.reverse last = some diagnostic.problem ∨
        endProblem? (tokens ++ [last]) = some diagnostic.problem := by
  rw [mem_diagnostics (by simp), mem_inPlace_last ordered place]
  refine or_congr_right ?_
  have unmatched : unmatched? (tokens ++ [last]) ≠ some diagnostic := by
    intro found
    rw [unmatched?_kind found] at kind
    simp at kind
  have shallow : ¬ ∃ index token, tooDeep? (tokens ++ [last]) = some (index, token) ∧
      diagnostic = ⟨.tooDeep, token.span⟩ := by
    rintro ⟨index, token, -, rfl⟩
    simp [Diagnostic.kind, Problem.kind] at kind
  rw [or_iff_left (not_or.2 ⟨unmatched, shallow⟩), Findings.mem_inColumn]
  simp [place, eq_comm]

end Validation

open Validation

theorem Lexicon.takes_iff {lexicon : Lexicon} {text more : String} {token : Token}
    {unwanted : List DiagnosticKind}
    (some_kind : ∀ kind ∈ unwanted, kind ∈ [.grammar, .unknownProperty, .type]) :
    lexicon.Takes text more unwanted token ↔
      lexicon.tokens (text ++ more) = lexicon.tokens text ++ [token] ∧
        ∀ problem, tokenProblem? lexicon.schema (lexicon.tokens text).reverse token = some problem ∨
            endProblem? (lexicon.tokens text ++ [token]) = some problem →
          problem.kind ∉ unwanted := by
  refine and_congr_right fun read => ?_
  have ordered := (lexicon.reads_tokens (text ++ more)).pairwise_start
  rw [read] at ordered ⊢
  constructor
  · intro quiet problem found kind
    have member := (@mem_diagnostics_last lexicon.schema _ _ ordered ⟨problem, token.span⟩ rfl
      (some_kind _ kind)).2 found
    exact quiet _ member rfl kind
  · intro quiet diagnostic member place kind
    exact quiet _ ((mem_diagnostics_last ordered place (some_kind _ kind)).1 member) kind

end RuleFilter

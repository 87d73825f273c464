import RuleFilter.Proofs.Token.Coverage
import RuleFilter.Proofs.Validation.Unmatched

namespace RuleFilter
namespace Validation

/-! ## The passes do not read flags -/

section

variable (schema : Schema)

theorem tokenProblem?_unflagged (earlier : List Token) (token : Token) :
    tokenProblem? schema (earlier.map Token.unflagged) token.unflagged =
      tokenProblem? schema earlier token := by
  rcases earlier with - | ⟨first, - | ⟨second, earlier⟩⟩ <;> rfl

theorem problemsBehind_unflagged (earlier tokens : List Token) :
    problemsBehind schema (earlier.map Token.unflagged) (tokens.map Token.unflagged) =
      problemsBehind schema earlier tokens := by
  induction tokens generalizing earlier with
  | nil => rfl
  | cons token tokens ih =>
    rw [List.map_cons, problemsBehind, problemsBehind, tokenProblem?_unflagged, ← List.map_cons, ih]

theorem endProblem?_unflagged (tokens : List Token) :
    endProblem? (tokens.map Token.unflagged) = endProblem? tokens := by
  unfold endProblem?
  rw [List.getLast?_map, Option.bind_map]
  rfl

theorem unmatched?_unflagged (tokens : List Token) :
    unmatched? (tokens.map Token.unflagged) = unmatched? tokens := by
  unfold unmatched?
  rw [List.foldl_map]
  rfl

theorem tooDeepFrom?_unflagged (levels : Levels) (index : Nat) (tokens : List Token) :
    tooDeepFrom? levels index (tokens.map Token.unflagged) =
      (tooDeepFrom? levels index tokens).map fun (index, token) => (index, token.unflagged) := by
  induction tokens generalizing levels index with
  | nil => rfl
  | cons token tokens ih =>
    have reached : levels.reached? token.unflagged = levels.reached? token := rfl
    have stepped : levels.step token.unflagged = levels.step token := rfl
    rw [List.map_cons, tooDeepFrom?, tooDeepFrom?, reached, stepped, ih]
    split <;> rfl

theorem unknownNamesFrom_unflagged (previous : Option Role) (names : List String)
    (tokens : List Token) :
    unknownNamesFrom schema previous names (tokens.map Token.unflagged) =
      unknownNamesFrom schema previous names tokens := by
  induction tokens generalizing previous names with
  | nil => rfl
  | cons token tokens ih => exact ih ..

theorem inColumn_unflagged (tokens : List Token) (problems : List (Option Problem)) :
    Findings.inColumn (tokens.map Token.unflagged) problems =
      Findings.inColumn tokens problems := by
  unfold Findings.inColumn
  rw [List.zip_map_left, List.filterMap_map]
  rfl

end

theorem of_unflagged (schema : Schema) (tokens : List Token) :
    Findings.of schema (tokens.map Token.unflagged) =
      { Findings.of schema tokens with
        tooDeep := (tooDeep? tokens).map fun (index, token) => (index, token.unflagged) } := by
  have inPlace := problemsBehind_unflagged schema [] tokens
  rw [List.map_nil] at inPlace
  simp only [Findings.of, tokenProblems_eq, inPlace, endProblem?_unflagged, unmatched?_unflagged,
    tooDeep?, tooDeepFrom?_unflagged]

end Validation

namespace Findings

open Validation

theorem diagnostics_unflagged (schema : Schema) (tokens : List Token) :
    (Findings.of schema (tokens.map Token.unflagged)).diagnostics (tokens.map Token.unflagged) =
      (Findings.of schema tokens).diagnostics tokens := by
  have last : (tokens.map Token.unflagged).getLast?.toList =
      tokens.getLast?.toList.map Token.unflagged := by
    cases ends : tokens.getLast? <;> simp [ends]
  rw [of_unflagged]
  simp only [diagnostics, last, inColumn_unflagged, Findings.of, Option.map_map]
  rfl

theorem flagFrom_of_unflagged (findings : Findings) (tooDeep : Option (Nat × Token))
    (same : tooDeep.map Prod.fst = findings.tooDeep.map Prod.fst) (index : Nat)
    (flagged tokens : List Token) (problems : List (Option Problem)) :
    flagFrom { findings with tooDeep } index flagged (tokens.map Token.unflagged) problems =
      findings.flagFrom index flagged tokens problems := by
  have anywhere (index : Nat) : (tooDeep.any fun found => found.1 == index) =
      findings.tooDeep.any fun found => found.1 == index := by
    have := congrArg (Option.any (· == index)) same
    simpa [Option.any_map, Function.comp_def] using this
  induction tokens generalizing index flagged problems with
  | nil => rfl
  | cons token tokens ih =>
    cases problems with
    | nil => rfl
    | cons inPlace problems =>
      have told : problemAt? { findings with tooDeep } (tokens.map Token.unflagged).isEmpty index
          token.unflagged inPlace = findings.problemAt? tokens.isEmpty index token inPlace := by
        simp only [problemAt?, anywhere, List.isEmpty_map]
        rfl
      rw [List.map_cons, flagFrom, flagFrom, told, ih]
      rfl

end Findings

open Validation

theorem validate_map_unflagged (schema : Schema) (tokens : List Token) :
    schema.validate (tokens.map Token.unflagged) = schema.validate tokens := by
  unfold Schema.validate
  rw [List.isEmpty_map]
  split
  · rfl
  · have names : unknownNames schema (tokens.map Token.unflagged) = unknownNames schema tokens :=
      unknownNamesFrom_unflagged schema none [] tokens
    have flags : (Findings.of schema (tokens.map Token.unflagged)).flag
        (tokens.map Token.unflagged) = (Findings.of schema tokens).flag tokens := by
      unfold Findings.flag
      rw [of_unflagged]
      refine Findings.flagFrom_of_unflagged _ _ ?_ 0 [] tokens _
      rw [Option.map_map]
      rfl
    simp only [names, flags, Findings.diagnostics_unflagged]

/-! ## What is found at a token -/

def Token.withProblem (problem : Option Problem) (token : Token) : Token :=
  { token with flag := problem.map Problem.message }

namespace Findings

def FoundAt (findings : Findings) (count index : Nat) (token : Token) (problem : Problem) : Prop :=
  findings.inPlace[index]? = some (some problem) ∨
    (index + 1 = count ∧ findings.atEnd = some problem) ∨
    (token.kind.isParen = true ∧ ∃ diagnostic ∈ findings.unmatched, diagnostic.problem = problem) ∨
    (problem = .tooDeep ∧ ∃ found ∈ findings.tooDeep, found.1 = index)

def told? (findings : Findings) (count index : Nat) (token : Token) : Option Problem :=
  findings.problemAt? (index + 1 == count) index token (findings.inPlace[index]?.getD none)

variable {findings : Findings} {count index : Nat} {token : Token}

theorem foundAt_of_told? {problem : Problem}
    (told : findings.told? count index token = some problem) :
    findings.FoundAt count index token problem := by
  simp only [told?, problemAt?, Option.orElse_eq_orElse, Option.orElse_eq_or,
    Option.or_eq_some_iff] at told
  rcases told with inPlace | ⟨-, atEnd | ⟨-, unmatched | ⟨-, tooDeep⟩⟩⟩
  · refine .inl ?_
    cases here : findings.inPlace[index]? <;> simp_all
  · split at atEnd
    · next last => exact .inr (.inl ⟨beq_iff_eq.1 last, atEnd⟩)
    · cases atEnd
  · split at unmatched
    · next paren =>
      obtain ⟨diagnostic, found, rfl⟩ := Option.map_eq_some_iff.1 unmatched
      exact .inr (.inr (.inl ⟨paren, diagnostic, found, rfl⟩))
    · cases unmatched
  · split at tooDeep
    · next here =>
      cases tooDeep
      cases deep : findings.tooDeep with
      | none => simp [deep] at here
      | some found => exact .inr (.inr (.inr ⟨rfl, found, deep, by simpa [deep] using here⟩))
    · cases tooDeep

theorem told?_ne_none {problem : Problem} (found : findings.FoundAt count index token problem) :
    findings.told? count index token ≠ none := by
  intro none
  simp only [told?, problemAt?, Option.orElse_eq_orElse, Option.orElse_eq_or,
    Option.or_eq_none_iff] at none
  obtain ⟨inPlace, atEnd, unmatched, tooDeep⟩ := none
  rcases found with here | ⟨rfl, last⟩ | ⟨paren, diagnostic, here, -⟩ | ⟨-, deep, here, rfl⟩
  · simp [here] at inPlace
  · simp [last] at atEnd
  · simp [paren, Option.mem_def.1 here] at unmatched
  · simp [Option.mem_def.1 here] at tooDeep

theorem flagFrom_eq (findings : Findings) (index : Nat) (flagged tokens : List Token)
    (problems : List (Option Problem)) :
    findings.flagFrom index flagged tokens problems =
      flagged.reverse ++ findings.flagFrom index [] tokens problems := by
  induction tokens generalizing index flagged problems with
  | nil => simp [flagFrom]
  | cons token tokens ih =>
    cases problems with
    | nil => simp [flagFrom]
    | cons inPlace problems =>
      rw [flagFrom, flagFrom, ih, ih _ [_]]
      simp

theorem getElem?_flagFrom {tokens : List Token} {problems : List (Option Problem)}
    (length : problems.length = tokens.length) (index i : Nat) :
    (findings.flagFrom index [] tokens problems)[i]? = tokens[i]?.map fun token =>
      token.withProblem (findings.problemAt? (i + 1 == tokens.length) (index + i) token
        (problems[i]?.getD none)) := by
  induction tokens generalizing problems index i with
  | nil => rfl
  | cons token tokens ih =>
    obtain ⟨inPlace, problems, rfl⟩ :=
      List.exists_cons_of_ne_nil (List.ne_nil_of_length_eq_add_one length)
    rw [flagFrom, flagFrom_eq]
    cases i with
    | zero =>
      have last : tokens.isEmpty = (0 + 1 == (token :: tokens).length) := by
        cases tokens <;> rfl
      simp [last, Token.withProblem]
    | succ i =>
      have later := ih (Nat.succ.inj length) (index + 1) i
      simpa [Nat.add_right_comm, Nat.add_assoc] using later

end Findings

theorem getElem?_validate (schema : Schema) {tokens : List Token} (some_token : tokens ≠ [])
    (index : Nat) :
    (schema.validate tokens).tokens[index]? = tokens[index]?.map fun token =>
      token.withProblem ((Findings.of schema tokens).told? tokens.length index token) := by
  have none : tokens.isEmpty = false := by simpa using some_token
  have length : (Findings.of schema tokens).inPlace.length = tokens.length := by
    simp [Findings.of, tokenProblems_eq]
  simp only [Schema.validate, none, Bool.false_eq_true, if_false, Findings.flag,
    Findings.getElem?_flagFrom length, Nat.zero_add, Findings.told?]

/-! ## Diagnostics and flags -/

theorem Validation.getElem?_of_tooDeepFrom? {levels : Levels} {start index : Nat}
    {tokens : List Token} {token : Token}
    (found : tooDeepFrom? levels start tokens = some (index, token)) :
    ∃ i, index = start + i ∧ tokens[i]? = some token := by
  induction tokens generalizing levels start with
  | nil => cases found
  | cons first tokens ih =>
    rw [tooDeepFrom?] at found
    split at found
    · cases found
      exact ⟨0, rfl, rfl⟩
    · obtain ⟨i, rfl, here⟩ := ih found
      exact ⟨i + 1, by omega, here⟩

section

variable {schema : Schema} {tokens : List Token} (some_token : tokens ≠ [])

include some_token

theorem exists_foundAt {diagnostic : Diagnostic}
    (member : diagnostic ∈ (schema.validate tokens).report.diagnostics) :
    ∃ index token, tokens[index]? = some token ∧ diagnostic.span = token.span ∧
      (Findings.of schema tokens).FoundAt tokens.length index token diagnostic.problem := by
  rcases (mem_diagnostics some_token).1 member with inPlace | atEnd | unmatched | tooDeep
  · obtain ⟨token, member, place⟩ := Findings.mem_inColumn.1 inPlace
    obtain ⟨index, found⟩ := List.mem_iff_getElem?.1 member
    obtain ⟨here, problem⟩ := List.getElem?_zip_eq_some.1 found
    refine ⟨index, token, here, place, .inl ?_⟩
    rw [← problem, Findings.of, tokenProblems_eq]
  · obtain ⟨token, member, place⟩ := Findings.mem_inColumn.1 atEnd
    obtain ⟨last, problem⟩ := List.of_mem_zip member
    rw [Option.mem_toList, List.getLast?_eq_getElem?] at last
    have positive := List.length_pos_iff.2 some_token
    exact ⟨_, token, last, place, .inr (.inl ⟨by omega, (List.mem_singleton.1 problem).symm⟩)⟩
  · obtain ⟨token, member, paren, place⟩ := exists_paren_of_unmatched? unmatched
    obtain ⟨index, here⟩ := List.mem_iff_getElem?.1 member
    exact ⟨index, token, here, place.symm, .inr (.inr (.inl ⟨paren, diagnostic, unmatched, rfl⟩))⟩
  · obtain ⟨index, token, found, rfl⟩ := tooDeep
    obtain ⟨index, rfl, here⟩ := getElem?_of_tooDeepFrom? found
    exact ⟨index, token, here, rfl, .inr (.inr (.inr ⟨rfl, _, found, Nat.zero_add index⟩))⟩

theorem exists_diagnostic {index : Nat} {token : Token} {problem : Problem}
    (here : tokens[index]? = some token)
    (found : (Findings.of schema tokens).FoundAt tokens.length index token problem) :
    ∃ diagnostic ∈ (schema.validate tokens).report.diagnostics, diagnostic.problem = problem := by
  simp only [mem_diagnostics some_token]
  rcases found with inPlace | ⟨last, atEnd⟩ | ⟨-, diagnostic, unmatched, rfl⟩ |
    ⟨rfl, ⟨index, deep⟩, tooDeep, -⟩
  · rw [Findings.of, tokenProblems_eq] at inPlace
    refine ⟨⟨problem, token.span⟩, .inl (Findings.mem_inColumn.2 ⟨token, ?_, rfl⟩), rfl⟩
    exact List.mem_iff_getElem?.2 ⟨index, List.getElem?_zip_eq_some.2 ⟨here, inPlace⟩⟩
  · have ends : tokens.getLast? = some token := by
      rw [List.getLast?_eq_getElem?, ← last, Nat.add_sub_cancel, here]
    refine ⟨⟨problem, token.span⟩, .inr (.inl (Findings.mem_inColumn.2 ⟨token, ?_, rfl⟩)), rfl⟩
    rw [ends, show endProblem? tokens = some problem from atEnd]
    exact List.mem_singleton.2 rfl
  · exact ⟨diagnostic, .inr (.inr (.inl unmatched)), rfl⟩
  · exact ⟨⟨.tooDeep, deep.span⟩, .inr (.inr (.inr ⟨index, deep, tooDeep, rfl⟩)), rfl⟩

theorem exists_flagged {diagnostic : Diagnostic}
    (member : diagnostic ∈ (schema.validate tokens).report.diagnostics) :
    ∃ token ∈ (schema.validate tokens).tokens, token.flag ≠ none ∧
      token.span = diagnostic.span := by
  obtain ⟨index, token, here, place, found⟩ := exists_foundAt some_token member
  refine ⟨_, List.mem_of_getElem? ((getElem?_validate schema some_token index).trans
    (congrArg _ here)), ?_, place.symm⟩
  simpa [Token.withProblem] using Findings.told?_ne_none found

theorem exists_diagnostic_of_flag {token : Token} {message : String}
    (member : token ∈ (schema.validate tokens).tokens) (flagged : token.flag = some message) :
    ∃ diagnostic ∈ (schema.validate tokens).report.diagnostics, diagnostic.message = message := by
  obtain ⟨index, found⟩ := List.mem_iff_getElem?.1 member
  rw [getElem?_validate schema some_token] at found
  obtain ⟨token, here, rfl⟩ := Option.map_eq_some_iff.1 found
  obtain ⟨problem, told, rfl⟩ := Option.map_eq_some_iff.1 flagged
  obtain ⟨diagnostic, member, rfl⟩ :=
    exists_diagnostic some_token here (Findings.foundAt_of_told? told)
  exact ⟨diagnostic, member, rfl⟩

theorem isValid_iff_unflagged :
    (schema.validate tokens).report.isValid = true ↔
      ∀ token ∈ (schema.validate tokens).tokens, token.flag = none := by
  rw [Report.isValid, List.isEmpty_iff, List.eq_nil_iff_forall_not_mem]
  constructor
  · intro silent token member
    cases flagged : token.flag with
    | none => rfl
    | some message =>
      obtain ⟨diagnostic, told, -⟩ := exists_diagnostic_of_flag some_token member flagged
      exact absurd told (silent diagnostic)
  · intro unflagged diagnostic told
    obtain ⟨token, member, flagged, -⟩ := exists_flagged some_token told
    exact flagged (unflagged token member)

end

theorem span_of_diagnostic (lexicon : Lexicon) (schema : Schema) (text : String)
    {diagnostic : Diagnostic}
    (member : diagnostic ∈ (schema.validate (lexicon.tokens text)).report.diagnostics) :
    diagnostic.span.start ≤ diagnostic.span.stop ∧ diagnostic.span.stop ≤ text.utf8ByteSize := by
  by_cases some_token : lexicon.tokens text = []
  · rw [some_token] at member
    obtain rfl := List.mem_singleton.1 member
    exact ⟨Nat.le_refl _, Nat.zero_le _⟩
  · obtain ⟨index, token, here, place, -⟩ := exists_foundAt some_token member
    have placed := (lexicon.reads_tokens text).placed token (List.mem_of_getElem? here)
    have bounds := placed.start_lt_stop
    rw [Text.byteLength_toList, Nat.zero_add] at bounds
    rw [place]
    exact ⟨Nat.le_of_lt bounds.2.1, bounds.2.2⟩

theorem validate_congr (schema : Schema) {tokens others : List Token}
    (same : others.map Token.unflagged = tokens.map Token.unflagged) :
    schema.validate others = schema.validate tokens := by
  rw [← validate_map_unflagged schema others, same, validate_map_unflagged]

/-- Validation changes nothing of the tokens but their flags and reads no flag, so that it gives the
same once more. Its diagnostics stand in the order of their places, and tell the same as the flags:
each message at a token is that of a diagnostic, and each diagnostic stands at a token with a
message. -/
theorem validate_flags (schema : Schema) (tokens : List Token) :
    (schema.validate tokens).tokens.map Token.unflagged = tokens.map Token.unflagged ∧
      (∀ others : List Token, others.map Token.unflagged = tokens.map Token.unflagged →
        schema.validate others = schema.validate tokens) ∧
      schema.validate (schema.validate tokens).tokens = schema.validate tokens ∧
      ((schema.validate tokens).report.diagnostics.Pairwise fun a b =>
        a.span.start ≤ b.span.start) ∧
      (∀ token ∈ (schema.validate tokens).tokens, ∀ message ∈ token.flag,
        ∃ diagnostic ∈ (schema.validate tokens).report.diagnostics,
          diagnostic.message = message) ∧
      (tokens ≠ [] →
        (∀ diagnostic ∈ (schema.validate tokens).report.diagnostics,
          ∃ token ∈ (schema.validate tokens).tokens, token.flag ≠ none ∧
            token.span = diagnostic.span) ∧
        ((schema.validate tokens).report.isValid = true ↔
          ∀ token ∈ (schema.validate tokens).tokens, token.flag = none)) ∧
      ∀ (lexicon : Lexicon) (text : String), tokens = lexicon.tokens text →
        ∀ diagnostic ∈ (schema.validate tokens).report.diagnostics,
          diagnostic.span.start ≤ diagnostic.span.stop ∧
            diagnostic.span.stop ≤ text.utf8ByteSize := by
  have unflagged := validate_unflagged schema tokens
  refine ⟨unflagged, fun others => validate_congr schema, validate_congr schema unflagged,
    pairwise_diagnostics schema tokens, ?_, fun some_token => ⟨fun diagnostic =>
      exists_flagged some_token, isValid_iff_unflagged some_token⟩, ?_⟩
  · intro token member message flagged
    by_cases some_token : tokens = []
    · subst some_token
      cases member
    · exact exists_diagnostic_of_flag some_token member flagged
  · rintro lexicon text rfl diagnostic
    exact span_of_diagnostic lexicon schema text

end RuleFilter

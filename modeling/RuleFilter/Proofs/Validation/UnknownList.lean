import RuleFilter.Proofs.Engine.Compilation
import RuleFilter.Proofs.Validation.UnknownNames

namespace RuleFilter

def Report.anchors (kind : DiagnosticKind) (report : Report) (tokens : List Token) : List Token :=
  tokens.filter fun token => (report.ofKind kind).any (·.span == token.span)

namespace Validation

def unknownTokens (earlier : List Token) : List Token → List Token
  | [] => []
  | token :: tokens =>
    if token.isUnknownName && !inValuePlace earlier then
      token :: unknownTokens (token :: earlier) tokens
    else unknownTokens (token :: earlier) tokens

def unknownDiagnostic (token : Token) : Diagnostic :=
  ⟨.unknownProperty token.text, token.span⟩

variable {schema : Schema} {earlier tokens : List Token}

theorem unknownTokens_sublist (earlier tokens : List Token) :
    (unknownTokens earlier tokens).Sublist tokens := by
  induction tokens generalizing earlier with
  | nil => exact .slnil
  | cons token tokens ih =>
    unfold unknownTokens
    split
    · exact (ih _).cons_cons token
    · exact (ih _).cons token

/-! ## Names -/

theorem unknownNamesFrom_eq
    (missing : ∀ token ∈ tokens, token.isUnknownName = true → schema.contains token.text = false)
    (names : List String) :
    unknownNamesFrom schema (earlier.head?.map Token.role) names tokens =
      List.eraseDupsBy.loop Text.sameLetters ((unknownTokens earlier tokens).map Token.text)
        names := by
  induction tokens generalizing earlier names with
  | nil => rfl
  | cons token tokens ih =>
    have behind := fun names => @ih (token :: earlier)
      (fun token member => missing token (List.mem_cons_of_mem _ member)) names
    have place : (earlier.head?.map Token.role != some .operator) = !inValuePlace earlier := by
      rw [Bool.eq_iff_iff, bne_iff_ne, Bool.not_eq_true', ← Bool.not_eq_true, ne_eq,
        inValuePlace_iff]
    have comm : names.any (Text.sameLetters · token.text) =
        names.any (Text.sameLetters token.text) := by
      apply List.any_congr rfl
      exact fun name => Text.sameLetters_comm ..
    rw [unknownNamesFrom, unknownTokens, place, comm]
    cases unknown : token.isUnknownName with
    | false => exact behind names
    | true =>
      have absent := missing token List.mem_cons_self unknown
      cases inPlace : inValuePlace earlier with
      | true => simpa [inPlace] using behind names
      | false =>
        cases listed : names.any (Text.sameLetters token.text) with
        | true => simpa [absent, listed, List.eraseDupsBy.loop] using behind names
        | false =>
          simpa [absent, listed, List.eraseDupsBy.loop] using behind (token.text :: names)

theorem unknownProperties_eq
    (missing : ∀ token ∈ tokens, token.isUnknownName = true →
      schema.contains token.text = false) :
    (schema.validate tokens).report.unknownProperties =
      ((unknownTokens [] tokens).map Token.text).eraseDupsBy Text.sameLetters := by
  by_cases some_token : tokens = []
  · subst some_token
    rfl
  · have none : tokens.isEmpty = false := by simpa using some_token
    simp only [Schema.validate, none, Bool.false_eq_true, if_false]
    exact @unknownNamesFrom_eq schema [] tokens missing []

/-! ## Diagnostics -/

theorem filter_unknownProperty (schema : Schema) (earlier tokens : List Token) :
    (Findings.inColumn tokens (problemsBehind schema earlier tokens)).filter
        (·.kind == .unknownProperty) =
      (unknownTokens earlier tokens).map unknownDiagnostic := by
  induction tokens generalizing earlier with
  | nil => rfl
  | cons token tokens ih =>
    rw [problemsBehind, Findings.inColumn_cons, List.filter_append, ih, unknownTokens]
    cases unknown : token.isUnknownName with
    | true =>
      rw [tokenProblem?_of_isUnknownName unknown]
      cases inValuePlace earlier <;> rfl
    | false =>
      have other : ((tokenProblem? schema earlier token).map fun problem =>
          (⟨problem, token.span⟩ : Diagnostic)).toList.filter (·.kind == .unknownProperty) = [] := by
        apply filter_kind_eq_nil
        intro diagnostic member kind
        obtain ⟨problem, found, rfl⟩ := Option.map_eq_some_iff.1 (Option.mem_toList.1 member)
        exact absurd (isUnknownName_of_tokenProblem? found kind) (Bool.eq_false_iff.1 unknown)
      rw [other]
      rfl

theorem ofKind_unknownProperty (schema : Schema)
    (ordered : tokens.Pairwise fun a b => a.span.start < b.span.start) :
    (schema.validate tokens).report.ofKind .unknownProperty =
      (unknownTokens [] tokens).map unknownDiagnostic :=
  (ofKind_inPlace schema ordered (.inl rfl)).trans (filter_unknownProperty schema [] tokens)

theorem filter_any_span {anchors : List Token} (among : anchors.Sublist tokens)
    (ordered : tokens.Pairwise fun a b => a.span.start < b.span.start) :
    tokens.filter (fun token => anchors.any (·.span == token.span)) = anchors := by
  induction among with
  | slnil => rfl
  | @cons anchors tokens token among ih =>
    obtain ⟨first, ordered⟩ := List.pairwise_cons.1 ordered
    have apart : ∀ anchor ∈ anchors, anchor.span ≠ token.span := by
      intro anchor member same
      have before := first anchor (among.subset member)
      rw [same] at before
      exact Nat.lt_irrefl _ before
    rw [List.filter_cons_of_neg (by simpa using apart), ih ordered]
  | cons_cons token among ih =>
    obtain ⟨first, ordered⟩ := List.pairwise_cons.1 ordered
    rw [List.filter_cons_of_pos (by simp)]
    refine congrArg (token :: ·) (Eq.trans ?_ (ih ordered))
    apply List.filter_congr
    intro later member
    have apart : token.span ≠ later.span := by
      intro same
      have before := first later member
      rw [same] at before
      exact Nat.lt_irrefl _ before
    simp [apart]

theorem anchors_unknownProperty (schema : Schema)
    (ordered : tokens.Pairwise fun a b => a.span.start < b.span.start) :
    (schema.validate tokens).report.anchors .unknownProperty tokens = unknownTokens [] tokens := by
  rw [Report.anchors, ofKind_unknownProperty schema ordered]
  simp only [List.any_map, Function.comp_def, unknownDiagnostic]
  exact filter_any_span (unknownTokens_sublist [] tokens) ordered

end Validation

open Validation

/-! ## Compilation -/

theorem fault_of_imbalanceFrom? {depth : Nat} {lastOpen : Span} {tokens : List Token}
    {error : ParseError} (found : imbalanceFrom? depth lastOpen tokens = some error) :
    error.fault = .unmatchedOpen ∨ error.fault = .unmatchedClose := by
  induction tokens generalizing depth lastOpen with
  | nil =>
    unfold imbalanceFrom? at found
    split at found
    · obtain rfl := Option.some.inj found
      exact .inl rfl
    · cases found
  | cons token tokens ih =>
    unfold imbalanceFrom? at found
    split at found
    · exact ih found
    · split at found
      · obtain rfl := Option.some.inj found
        exact .inr rfl
      · exact ih found
    · exact ih found

theorem Rule.balanced_of_parse {tokens : List Token} {error : ParseError}
    (failed : parse tokens = .error error) (other : error.fault ≠ .unmatchedOpen)
    (other' : error.fault ≠ .unmatchedClose) : Balanced tokens := by
  by_contra unbalanced
  obtain ⟨error', found⟩ := Option.ne_none_iff_exists'.1 (mt imbalance?_eq_none_iff.1 unbalanced)
  obtain rfl := Except.error.inj ((parse_of_imbalance found).symm.trans failed)
  rcases fault_of_imbalanceFrom? found with opened | closed
  · exact other opened
  · exact other' closed

theorem Validation.Blames.of_unknownProperty {expected : Expectation} {token : Token} {name : String}
    (blames : Blames expected token (.unknownProperty name)) :
    expected = .operand ∧ token.isUnknownName = true ∧ token.text = name := by
  cases expected with
  | operand =>
    have blames := Eq.symm blames
    split at blames
    · next unknown => exact ⟨rfl, unknown, ParseFault.unknownProperty.inj blames⟩
    · cases blames
  | joint => rcases blames with other | other <;> cases other
  | operator | value | anything => cases blames

theorem ExpectsProperty.not_operator {tokens : List Token} {index : Nat}
    (expects : ExpectsProperty tokens index) : roleBefore tokens index ≠ some .operator := by
  intro behind
  rw [expectsProperty_iff, behind] at expects
  cases expects

namespace Lexicon

variable {lexicon : Lexicon} {text name : String}

theorem unknownNameAt_of_parse {error : ParseError}
    (failed : Rule.parse (lexicon.tokens text) = .error error)
    (fault : error.fault = .unknownProperty name) :
    ∃ index token, UnknownNameAt (lexicon.tokens text) index token ∧
      ExpectsProperty (lexicon.tokens text) index ∧ token.text = name := by
  have some_token : lexicon.tokens text ≠ [] := by
    intro none
    rw [none] at failed
    obtain rfl := Except.error.inj failed
    cases fault
  have balanced := Rule.balanced_of_parse failed (by simp [fault]) (by simp [fault])
  obtain ⟨place, progress, ⟨taken, split, moved, -⟩, stuck⟩ :=
    Rule.stuck_of_parse some_token (lexicon.spelled_tokens text) balanced failed
  have split : lexicon.tokens text = taken ++ place.rest := split
  obtain ⟨⟨expected, -⟩, counted, -⟩ := @Progress.of_run? lexicon.schema [] _ _ _ _ moved
  cases stuck with
  | ended wanted => cases fault
  | @misplaced token rest found next wrong blames =>
    obtain rfl : found = .unknownProperty name := fault
    rw [expected, List.append_nil, List.head?_reverse] at blames
    have before : roleBefore (lexicon.tokens text) taken.length =
        taken.getLast?.map Token.role := by
      rw [roleBefore, split, List.take_left]
    rw [← before] at blames
    obtain ⟨expects, unknown, named⟩ := blames.of_unknownProperty
    have here : (lexicon.tokens text)[taken.length]? = some token := by simp [split, next]
    exact ⟨taken.length, token, ⟨here, unknown⟩, expectsProperty_iff.2 expects, named⟩
  | unopened next closes none =>
    rw [Balanced, split, openAfter?_append, counted, none, next] at balanced
    simp [Token.openAfter?, closes] at balanced
  | tooDeep => cases fault

theorem parse_of_compile_unknown
    (failed : lexicon.schema.compile (lexicon.tokens text) = .error (.unknownProperty name)) :
    ∃ error, Rule.parse (lexicon.tokens text) = .error error ∧
      error.fault = .unknownProperty name := by
  unfold Schema.compile at failed
  cases parsed : Rule.parse (lexicon.tokens text) with
  | error error =>
    rw [parsed] at failed
    have failed : CompileError.ofParseError error = .unknownProperty name :=
      Except.error.inj failed
    refine ⟨error, rfl, ?_⟩
    unfold CompileError.ofParseError at failed
    split at failed <;> cases failed
    assumption
  | ok rule =>
    rw [parsed] at failed
    obtain ⟨clause, member, error⟩ :=
      List.exists_of_findSome?_eq_some ((Rule.compile_eq_error_iff _ _ rule).1 failed)
    obtain ⟨-, missing⟩ := Clause.compile_eq_unknown_iff.1 (Clause.error?_eq_some_iff.1 error)
    obtain ⟨token, inside, kind, named⟩ := (Rule.derives_of_parse parsed).exists_token member
    have known := (lexicon.genuine_tokens text token inside).property kind
    rw [named, missing] at known
    cases known

end Lexicon

namespace Engine

theorem schema_error_of_compile {engine : Engine} {serial : Nat} {cache : Cache} {text : String}
    {error : CompileError} (failed : (engine.compile serial cache text).1 = .error error)
    (other : error ≠ .empty) :
    engine.schema.compile (engine.tokens text) = .error error := by
  revert failed
  refine engine.compile_cases serial cache text ?_ ?_ ?_ ?_
  · intro blank failed
    rw [compileAnew, blank] at failed
    simp only [List.isEmpty_nil, if_true] at failed
    split at failed
    · cases failed
    · exact absurd (Except.error.inj failed).symm other
  · intro predicate _ _ failed
    cases failed
  · intro error' _ _ fails failed
    obtain rfl := Except.error.inj failed
    exact fails
  · intro condition _ _ _ failed
    cases failed

/-- The names that the report of a text lists as unknown are the texts of the tokens at which it has
diagnostics of unknown properties, in their order and without those that repeat an earlier one in
any letter case. No compilation of the text fails for another name. -/
theorem unknownProperties_of_text (engine : Engine) (text : String) :
    let tokens := engine.tokens text
    let report := (engine.validate tokens).report
    let anchors := report.anchors .unknownProperty tokens
    report.ofKind .unknownProperty =
        anchors.map (fun token => ⟨.unknownProperty token.text, token.span⟩) ∧
      report.unknownProperties = (anchors.map Token.text).eraseDupsBy Text.sameLetters ∧
      ∀ serial cache name,
        (engine.compile serial cache text).1 = .error (.unknownProperty name) →
        ∃ listed ∈ report.unknownProperties, Text.sameLetters listed name = true := by
  intro tokens report anchors
  have ordered := (engine.lexicon.reads_tokens text).pairwise_start
  have anchored : anchors = unknownTokens [] tokens :=
    anchors_unknownProperty engine.schema ordered
  refine ⟨?_, ?_, ?_⟩
  · rw [anchored]
    exact ofKind_unknownProperty engine.schema ordered
  · rw [anchored]
    have missing (token : Token) (member : token ∈ tokens)
        (unknown : token.isUnknownName = true) :
        engine.schema.contains token.text = false := by
      obtain ⟨index, here⟩ := List.mem_iff_getElem?.1 member
      exact @Lexicon.not_contains_of_unknownName engine.lexicon text index token ⟨here, unknown⟩
    exact unknownProperties_eq missing
  · intro serial cache name failed
    have failed := schema_error_of_compile failed nofun
    obtain ⟨error, failed, fault⟩ :=
      @Lexicon.parse_of_compile_unknown engine.lexicon text name failed
    obtain ⟨index, token, unknown, expects, rfl⟩ :=
      Lexicon.unknownNameAt_of_parse failed fault
    exact exists_mem_unknownProperties unknown expects.not_operator
      (Lexicon.not_contains_of_unknownName unknown)

theorem unknownProperties_of_text_height :
    let engine : Engine := ⟨{}, some ⟨[⟨"Age", .integer, none⟩], by decide⟩⟩
    let report := (engine.validate (engine.tokens "Height > 1")).report
    (engine.compile 0 (.ofCapacity 1) "Height > 1").1 = .error (.unknownProperty "Height") ∧
      ∃ listed ∈ report.unknownProperties, Text.sameLetters listed "Height" = true := by
  intro engine report
  have read : engine.tokens "Height > 1" = [⟨.unknown, "Height", ⟨0, 6⟩, none⟩,
      ⟨.operator, ">", ⟨7, 8⟩, none⟩, ⟨.value, "1", ⟨9, 10⟩, none⟩] :=
    Lexicon.reads_iff.1 (.token rfl rfl (.blank rfl (.token rfl rfl (.blank rfl
      (.token rfl rfl .done)))))
  have failed : (engine.compile 0 (.ofCapacity 1) "Height > 1").1 =
      .error (.unknownProperty "Height") := by
    rw [compile_empty, compileAnew, read]
    rfl
  exact ⟨failed, (unknownProperties_of_text engine "Height > 1").2.2 0 _ "Height" failed⟩

end Engine
end RuleFilter

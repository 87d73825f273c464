import RuleFilter.Proofs.Suggestion.Spaced
import RuleFilter.Proofs.Token.Value
import RuleFilter.Proofs.Validation.Typing

namespace RuleFilter

def Lexicon.TakesValue (lexicon : Lexicon) (text item : String) : Prop :=
  ∃ typed, lexicon.Takes text item [.type, .grammar, .unknownProperty] typed ∧ typed.kind = .value

theorem Candidates.forValue_of_free {property : Property} (free : property.allowed = none)
    {item : String} (listed : item ∈ (forValue property).items)
    (other : item ≠ String.singleton Text.singleQuote) :
    IsLiteral item.toList ∧ (Value.ofLiteral? item property.type).isSome = true := by
  have integers : ∀ item ∈ integerHints,
      isLiteralWord item = true ∧ (Value.ofLiteral? item .integer).isSome = true := by
    decide +kernel
  have decimals : ∀ item ∈ decimalHints,
      isLiteralWord item = true ∧ (Value.ofLiteral? item .decimal).isSome = true := by
    decide +kernel
  have truths : ∀ item ∈ ["true", "false"],
      isLiteralWord item = true ∧ (Value.ofLiteral? item .boolean).isSome = true := by
    decide +kernel
  have written : isLiteralWord item = true ∧
      (Value.ofLiteral? item property.type).isSome = true := by
    rw [forValue, free] at listed
    cases type : property.type with
    | boolean => exact truths item (by simpa [type] using listed)
    | integer => exact integers item (by simpa [type, among] using listed)
    | decimal => exact decimals item (by simpa [type, among] using listed)
    | string => exact absurd (by simpa [type, among] using listed) other
    | dateTime => exact absurd (by simpa [type, among] using listed) other
    | custom _ => simp [type, among] at listed
  refine written.imp_left fun word => isLiteral_of_isLiteralWord ?_
  rwa [String.ofList_toList]

open Validation

namespace Lexicon

variable {lexicon : Lexicon} {text : String} {name operator : Token} {property : Property}

section

variable (ends : [name, operator] <:+ lexicon.tokens text)
  (named : lexicon.schema.named? name = some property) (kind : operator.kind = .operator)
  (spaced : operator.span.stop < text.utf8ByteSize)

include ends named kind spaced

theorem suggest_operator :
    lexicon.schema.suggest (lexicon.tokens text) text.utf8ByteSize =
      (Candidates.forValue property).items.eraseDups := by
  obtain ⟨init, split⟩ := ends
  have last : (lexicon.tokens text).getLast? = some operator := by simp [← split]
  have behind : Candidates.behind lexicon.schema (lexicon.tokens text).reverse =
      Candidates.forValue property := by
    rw [← split, List.reverse_append]
    simp [Candidates.behind, kind, named]
  rw [suggest_spaced last spaced, behind]

theorem takesValue_iff {item : String} :
    lexicon.TakesValue text item ↔
      ∃ word, Text.Pads item.toList word.toList ∧ lexicon.IsValue word ∧
        (Value.ofLiteral? word property.type).isSome = true ∧ property.allows word = true := by
  obtain ⟨init, split⟩ := ends
  have last : (lexicon.tokens text).getLast? = some operator := by simp [← split]
  -- A value is in its place here, and may end a rule, so that only the literal can be wrong.
  have problem (typed : Token) (value : typed.kind = .value) :
      tokenProblem? lexicon.schema (lexicon.tokens text).reverse typed =
        literalProblem? property typed.text := by
    have role : typed.role = .value := by simp [Token.role, value]
    have before : operator.role = .operator := by simp [Token.role, kind]
    rw [← split, List.reverse_append]
    simp [tokenProblem?, typeProblem?, role, before, Role.mayFollow, value, named]
  have ended (typed : Token) (value : typed.kind = .value) :
      endProblem? (lexicon.tokens text ++ [typed]) = none := by
    have role : typed.role = .value := by simp [Token.role, value]
    simp [endProblem?, role, Role.mayEnd]
  constructor
  · rintro ⟨typed, takes, value⟩
    obtain ⟨read, quiet⟩ := (takes_iff (by simp)).1 takes
    rw [tokens_extend_iff last spaced, kind] at read
    obtain ⟨pads, written⟩ := reads_value_iff.1 ⟨typed, read, value, rfl⟩
    refine ⟨typed.text, pads, written, literalProblem?_eq_none_iff.1 ?_⟩
    rw [Option.eq_none_iff_forall_ne_some]
    intro wrong found
    have unwanted := quiet wrong (.inl ((problem typed value).trans found))
    rw [literalProblem?_kind found] at unwanted
    simp at unwanted
  · rintro ⟨word, pads, written, right⟩
    obtain ⟨typed, reads, value, rfl⟩ := reads_value_iff.2 ⟨pads, written⟩
    rw [← kind] at reads
    refine ⟨typed, (takes_iff (by simp)).2 ⟨(tokens_extend_iff last spaced).2 reads, ?_⟩, value⟩
    intro wrong found
    rw [problem typed value, literalProblem?_eq_none_iff.2 right, ended typed value] at found
    rcases found with found | found <;> cases found

end

/-- Without allowed values all suggestions behind an operator but an opening quote can be typed as
they are. With them the suggestions are the allowed values, and those can be typed as they are that
are written as values of the rule. -/
theorem suggest_values (lexicon : Lexicon) (text : String) {name operator : Token}
    (ends : [name, operator] <:+ lexicon.tokens text) (kind : name.kind = .property)
    (kind' : operator.kind = .operator) (spaced : operator.span.stop < text.utf8ByteSize) :
    let suggestions := lexicon.schema.suggest (lexicon.tokens text) text.utf8ByteSize
    ∃ property, lexicon.schema.describe? name.text = some property ∧
      (property.allowed = none →
        ∀ item ∈ suggestions, item ≠ String.singleton Text.singleQuote →
          lexicon.TakesValue text item) ∧
      ∀ values, property.allowed = some values →
        suggestions = values.eraseDups ∧
        ∀ item ∈ values, lexicon.TakesValue text item ↔
          ∃ word, Text.Pads item.toList word.toList ∧ lexicon.IsValue word ∧
            (Value.ofLiteral? word property.type).isSome = true ∧
            property.allows word = true := by
  intro suggestions
  have genuine := lexicon.genuine_tokens text name (ends.mem List.mem_cons_self)
  obtain ⟨property, described⟩ := Option.isSome_iff_exists.1 (genuine.property kind)
  have named : lexicon.schema.named? name = some property := (if_pos kind).trans described
  have suggested : suggestions = (Candidates.forValue property).items.eraseDups :=
    suggest_operator ends named kind' spaced
  refine ⟨property, described, ?_, ?_⟩
  · intro free item listed other
    rw [suggested, List.mem_eraseDups] at listed
    obtain ⟨literal, denotes⟩ := Candidates.forValue_of_free free listed other
    have alone : Text.Pads item.toList item.toList := ⟨[], [], by simp, nofun, nofun⟩
    refine (takesValue_iff ends named kind' spaced).2 ⟨item, alone, .inl literal, denotes, ?_⟩
    rw [Property.allows, free]
    rfl
  · intro values limited
    rw [suggested, Candidates.forValue, limited]
    exact ⟨rfl, fun _ _ => takesValue_iff ends named kind' spaced⟩

theorem suggest_values_status :
    let lexicon : Lexicon :=
      ⟨⟨[⟨"Age", .integer, none⟩, ⟨"Status", .string, some ["Open", "In Progress"]⟩],
        by decide⟩, true⟩
    (lexicon.tokens "Age > " = [⟨.property, "Age", ⟨0, 3⟩, none⟩, ⟨.operator, ">", ⟨4, 5⟩, none⟩] ∧
      5 < "Age > ".utf8ByteSize ∧ lexicon.TakesValue "Age > " "100") ∧
    lexicon.tokens "(status == " = [⟨.openParen, "(", ⟨0, 1⟩, none⟩,
        ⟨.property, "status", ⟨1, 7⟩, none⟩, ⟨.operator, "==", ⟨8, 10⟩, none⟩] ∧
      10 < "(status == ".utf8ByteSize ∧
      lexicon.schema.suggest (lexicon.tokens "(status == ") 11 = ["Open", "In Progress"] ∧
      lexicon.TakesValue "(status == " "Open" := by
  intro lexicon
  have age : lexicon.tokens "Age > " = [⟨.property, "Age", ⟨0, 3⟩, none⟩,
      ⟨.operator, ">", ⟨4, 5⟩, none⟩] :=
    reads_iff.1 (.token rfl rfl (.blank rfl (.token rfl rfl (.blank rfl .done))))
  have status : lexicon.tokens "(status == " = [⟨.openParen, "(", ⟨0, 1⟩, none⟩,
      ⟨.property, "status", ⟨1, 7⟩, none⟩, ⟨.operator, "==", ⟨8, 10⟩, none⟩] :=
    reads_iff.1 (.token rfl rfl (.token rfl rfl (.blank rfl (.token rfl rfl (.blank rfl .done)))))
  have spaced : 5 < "Age > ".utf8ByteSize := by decide
  have spaced' : 10 < "(status == ".utf8ByteSize := by decide
  obtain ⟨first, described, free, -⟩ :=
    suggest_values lexicon "Age > " ⟨[], age.symm⟩ rfl rfl spaced
  obtain ⟨second, described', -, limited⟩ :=
    suggest_values lexicon "(status == " ⟨[_], status.symm⟩ rfl rfl spaced'
  cases described
  cases described'
  obtain ⟨suggested, taken⟩ := limited _ rfl
  refine ⟨⟨age, spaced, free rfl "100" ?_ (by decide)⟩, status, spaced', suggested, ?_⟩
  · rw [age]
    decide
  · have alone : Text.Pads "Open".toList "Open".toList := ⟨[], [], by simp, nofun, nofun⟩
    have other : ¬ Text.IsSpelling "Open" := by
      unfold Text.IsSpelling
      decide
    have bare : lexicon.IsValue "Open" := .inr ⟨rfl, by decide, other, by decide⟩
    exact (taken "Open" (by decide)).2 ⟨"Open", alone, bare, rfl, by decide⟩

theorem not_suggest_values :
    ¬ ∀ (lexicon : Lexicon) (text : String) (name operator : Token) (property : Property)
      (op : Comparator), [name, operator] <:+ lexicon.tokens text → name.kind = .property →
      lexicon.schema.describe? name.text = some property → operator.kind = .operator →
      Comparator.ofSymbol? operator.text = some op → op.isLegalFor property.type = true →
      operator.span.stop < text.utf8ByteSize →
      ∀ item ∈ lexicon.schema.suggest (lexicon.tokens text) text.utf8ByteSize,
        item ≠ String.singleton Text.singleQuote → lexicon.TakesValue text item := by
  intro claimed
  let lexicon : Lexicon := ⟨⟨[⟨"Status", .string, some ["In Progress"]⟩], by decide⟩, true⟩
  have read : lexicon.tokens "Status == " = [⟨.property, "Status", ⟨0, 6⟩, none⟩,
      ⟨.operator, "==", ⟨7, 9⟩, none⟩] :=
    reads_iff.1 (.token rfl rfl (.blank rfl (.token rfl rfl (.blank rfl .done))))
  have longer : lexicon.tokens "Status == In Progress" = [⟨.property, "Status", ⟨0, 6⟩, none⟩,
      ⟨.operator, "==", ⟨7, 9⟩, none⟩, ⟨.value, "In", ⟨10, 12⟩, none⟩,
      ⟨.unknown, "Progress", ⟨13, 21⟩, none⟩] :=
    reads_iff.1 (.token rfl rfl (.blank rfl (.token rfl rfl (.blank rfl (.token rfl rfl
      (.blank rfl (.token rfl rfl .done)))))))
  have listed : "In Progress" ∈ lexicon.schema.suggest (lexicon.tokens "Status == ") 10 := by
    rw [read]
    decide
  obtain ⟨typed, ⟨taken, -⟩, -⟩ := claimed lexicon "Status == " _ _ _ .eq ⟨[], read.symm⟩ rfl rfl
    rfl rfl rfl (by decide) "In Progress" listed (by decide)
  have joined : "Status == " ++ "In Progress" = "Status == In Progress" := by decide
  rw [joined, longer, read] at taken
  simp at taken

end Lexicon
end RuleFilter

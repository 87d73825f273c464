import RuleFilter.Proofs.Suggestion.Spaced
import RuleFilter.Proofs.Text.Bytes
import RuleFilter.Proofs.Token.Spelling

namespace RuleFilter

namespace Suggestion

def Edited (caret : Nat) (token : Token) : Prop :=
  token.span.start < caret ∧ (caret < token.span.stop ∨
    caret = token.span.stop ∧ token.kind ≠ .openParen ∧ token.kind ≠ .closeParen)

/-- Whether `front` is what a token has in front of a caret, or all of it where the caret stands
between no two characters of its text. -/
def Typed (token : Token) (caret : Nat) (front : String) : Prop :=
  (∃ rest, token.text = front ++ rest ∧ token.span.start + front.utf8ByteSize = caret) ∨
    front = token.text ∧
      ∀ head rest, token.text = head ++ rest → token.span.start + head.utf8ByteSize ≠ caret

def Needle (token : Token) (caret : Nat) (needle : String) : Prop :=
  if token.kind = .value then
    ∃ quotes, Typed token caret (quotes ++ needle) ∧
      (∀ c ∈ quotes.toList, Text.isQuote c = true) ∧
      ∀ c ∈ needle.toList.head?, Text.isQuote c = false
  else Typed token caret needle

/-- Whether `values` are all that may stand behind the tokens `before`: the allowed values of the
property in front of an operator, or the truth values. -/
def Closed (schema : Schema) (before : List Token) (values : List String) : Prop :=
  ∃ earlier name operator property, before = earlier ++ [name, operator] ∧
    operator.kind = .operator ∧ schema.named? name = some property ∧
    (property.allowed = some values ∨
      property.allowed = none ∧ property.type = .boolean ∧ values = ["true", "false"])

def GoesOn (needle item : String) : Prop :=
  ∃ front rest, item = front ++ rest ∧ Text.sameLetters front needle = true

/-- What suggestions are in a token behind the tokens `before`: they go on with what is typed, and
behind a finished value they are longer values of a closed set or connectives. -/
inductive Complete (schema : Schema) (before : List Token) (token : Token) (caret : Nat)
    (items : List String) : Prop
  | typed {needle : String} : (token.kind ≠ .value ∨ caret ≠ token.span.stop) →
      Needle token caret needle → (∀ item ∈ items, GoesOn needle item) →
      Complete schema before token caret items
  | longer {needle : String} {values : List String} : token.kind = .value →
      caret = token.span.stop → Needle token caret needle → Closed schema before values →
      (∀ item ∈ items,
        item ∈ values ∧ GoesOn needle item ∧ Text.sameLetters item needle = false) →
      Complete schema before token caret items
  | connectives : token.kind = .value → caret = token.span.stop →
      (∀ item ∈ items, item ∈ ["AND", "OR"]) → Complete schema before token caret items

variable {schema : Schema} {before : List Token} {token : Token} {caret : Nat}
  {items : List String}

theorem isEdited_iff : isEdited caret token = true ↔ Edited caret token := by
  have paren : token.kind.isParen = false ↔
      token.kind ≠ .openParen ∧ token.kind ≠ .closeParen := by
    cases token.kind <;> simp [TokenKind.isParen]
  simp only [isEdited, Edited, Span.touches, Bool.and_eq_true, Bool.or_eq_true,
    Bool.not_eq_true', decide_eq_true_eq, ← paren]
  grind

theorem typed_typed (start : token.span.start < caret) : Typed token caret (typed token caret) := by
  unfold typed
  cases cut : Text.takeBytes? token.text (caret - token.span.start) with
  | some front =>
    obtain ⟨rest, split, size⟩ := Text.takeBytes?_eq_some_iff.1 cut
    exact .inl ⟨rest, split, by rw [Option.getD_some]; omega⟩
  | none =>
    refine .inr ⟨rfl, fun head rest split size => ?_⟩
    have found := Text.takeBytes?_eq_some_iff.2 ⟨rest, split, rfl⟩
    rw [← size, Nat.add_sub_cancel_left, found] at cut
    cases cut

theorem dropQuotes_split (text : String) : ∃ quotes, text = quotes ++ Text.dropQuotes text ∧
    (∀ c ∈ quotes.toList, Text.isQuote c = true) ∧
    ∀ c ∈ (Text.dropQuotes text).toList.head?, Text.isQuote c = false := by
  refine ⟨String.ofList (text.toList.takeWhile Text.isQuote), ?_, ?_, ?_⟩
  · rw [Text.dropQuotes, ← String.ofList_append, List.takeWhile_append_dropWhile,
      String.ofList_toList]
  · rw [String.toList_ofList]
    exact List.all_eq_true.1 List.all_takeWhile
  · rw [Text.dropQuotes, String.toList_ofList]
    intro c first
    have := List.head?_dropWhile_not Text.isQuote text.toList
    rw [first] at this
    exact this

theorem needle_of_value (start : token.span.start < caret) (kind : token.kind = .value) :
    Needle token caret (Text.dropQuotes (typed token caret)) := by
  obtain ⟨quotes, split, quoted, bare⟩ := dropQuotes_split (typed token caret)
  rw [Needle, if_pos kind]
  exact ⟨quotes, split ▸ typed_typed start, quoted, bare⟩

theorem needle_of_other (start : token.span.start < caret) (kind : token.kind ≠ .value) :
    Needle token caret (typed token caret) := by
  rw [Needle, if_neg kind]
  exact typed_typed start

theorem goesOn_of_mem_beginning {needle item : String} (member : item ∈ beginning needle items) :
    item ∈ items ∧ GoesOn needle item := by
  obtain ⟨listed, begins⟩ := List.mem_filter.1 member
  exact ⟨listed, Text.startsWithLetters_iff.1 begins⟩

theorem forValue_of_exhaustive {property : Property}
    (exhaustive : (Candidates.forValue property).exhaustive = true) :
    property.allowed = some (Candidates.forValue property).items ∨
      property.allowed = none ∧ property.type = .boolean ∧
        (Candidates.forValue property).items = ["true", "false"] := by
  unfold Candidates.forValue at exhaustive ⊢
  cases limited : property.allowed with
  | some values => exact .inl rfl
  | none =>
    cases type : property.type with
    | boolean => exact .inr ⟨rfl, rfl, rfl⟩
    | string | integer | decimal | dateTime | custom =>
      rw [limited, type] at exhaustive
      cases exhaustive

theorem closed_of_exhaustive
    (exhaustive : (Candidates.behind schema before.reverse).exhaustive = true) :
    Closed schema before (Candidates.behind schema before.reverse).items := by
  unfold Candidates.behind at exhaustive ⊢
  cases reversed : before.reverse with
  | nil => simp [reversed, Candidates.among] at exhaustive
  | cons operator rest =>
    simp only [reversed] at exhaustive ⊢
    cases kind : operator.kind with
    | operator =>
      simp only [kind] at exhaustive ⊢
      cases named : rest.head?.bind schema.named? with
      | none => simp [named, Candidates.among] at exhaustive
      | some property =>
        obtain ⟨name, first, found⟩ := Option.bind_eq_some_iff.1 named
        obtain ⟨earlier, rfl⟩ := List.head?_eq_some_iff.1 first
        rw [named] at exhaustive
        refine ⟨earlier.reverse, name, operator, property, ?_, kind, found,
          forValue_of_exhaustive exhaustive⟩
        rw [← List.reverse_reverse before, reversed]
        simp
    | property | logical | value | openParen | closeParen | unknown =>
      simp [kind, Candidates.among] at exhaustive

theorem complete_completions (edited : Edited caret token) :
    Complete schema before token caret (completions schema before.reverse token caret) := by
  have start := edited.1
  by_cases kind : token.kind = .value
  · by_cases stop : caret = token.span.stop
    · simp only [completions, kind, if_true, if_pos stop]
      cases exhaustive : (Candidates.behind schema before.reverse).exhaustive with
      | false => exact .connectives kind stop fun item member => member
      | true =>
        simp only [if_true]
        split
        · exact .connectives kind stop fun item member => member
        · refine .longer kind stop (needle_of_value start kind) (closed_of_exhaustive exhaustive)
            fun item member => ?_
          obtain ⟨found, longer⟩ := List.mem_filter.1 member
          obtain ⟨listed, goes_on⟩ := goesOn_of_mem_beginning found
          exact ⟨listed, goes_on, by simpa using longer⟩
    · simp only [completions, kind, if_true, if_neg stop]
      exact .typed (.inr stop) (needle_of_value start kind) fun item member =>
        (goesOn_of_mem_beginning member).2
  · simp only [completions, if_neg kind]
    exact .typed (.inl kind) (needle_of_other start kind) fun item member =>
      (goesOn_of_mem_beginning member).2

theorem Complete.of_subset (complete : Complete schema before token caret items)
    {fewer : List String} (subset : fewer ⊆ items) : Complete schema before token caret fewer := by
  cases complete with
  | typed inside needle goes_on =>
    exact .typed inside needle fun item member => goes_on item (subset member)
  | longer kind stop needle closed longer =>
    exact .longer kind stop needle closed fun item member => longer item (subset member)
  | connectives kind stop among =>
    exact .connectives kind stop fun item member => among item (subset member)

theorem mem_distinct {next : Option Token} {item : String} : item ∈ distinct next items ↔
    item ∈ items ∧ ∀ token ∈ next, Text.sameLetters item (Text.unquote token.text) = false := by
  rw [distinct, List.mem_eraseDups, List.mem_filter]
  cases next <;> simp [Text.sameLetters_comm]

end Suggestion

namespace Schema

open Suggestion

theorem suggest_of_edited (schema : Schema) {before behind : List Token} {token : Token}
    {caret : Nat} (edited : Edited caret token) (first : ∀ other ∈ before, ¬ Edited caret other) :
    schema.suggest (before ++ token :: behind) caret =
      distinct ((before ++ token :: behind).find? fun token => caret ≤ token.span.start)
        (completions schema before.reverse token caret) := by
  have passed : ∀ other ∈ before, (!isEdited caret other) = true := by
    intro other member
    rw [Bool.not_eq_true', ← Bool.not_eq_true, isEdited_iff]
    exact first other member
  have stops : ¬ (!isEdited caret token) = true := by
    rw [isEdited_iff.2 edited]
    exact Bool.false_ne_true
  have rest : (before ++ token :: behind).dropWhile (fun other => !isEdited caret other) =
      token :: behind := by
    rw [List.dropWhile_append_of_pos passed]
    exact List.dropWhile_cons_of_neg stops
  have front : (before ++ token :: behind).takeWhile (fun other => !isEdited caret other) =
      before := by
    rw [List.takeWhile_append_of_pos passed]
    exact (congrArg (before ++ ·) (List.takeWhile_cons_of_neg stops)).trans (List.append_nil _)
  simp only [suggest, rest, front]

/-- Suggestions are different from each other and from what stands behind the caret, whatever
letter case that has. In the first token that the caret edits they complete that token. -/
theorem suggest_at (schema : Schema) (tokens : List Token) (caret : Nat) :
    (schema.suggest tokens caret).Nodup ∧
      (∀ next, tokens.find? (fun token => caret ≤ token.span.start) = some next →
        ∀ item ∈ schema.suggest tokens caret,
          Text.sameLetters item (Text.unquote next.text) = false) ∧
      ∀ before token behind, tokens = before ++ token :: behind → Edited caret token →
        (∀ other ∈ before, ¬ Edited caret other) →
          Complete schema before token caret (schema.suggest tokens caret) := by
  refine ⟨nodup_eraseDups _, fun next found item member => ?_, ?_⟩
  · exact (mem_distinct.1 member).2 next found
  · rintro before token behind rfl edited first
    rw [schema.suggest_of_edited edited first]
    exact (complete_completions edited).of_subset fun item member => (mem_distinct.1 member).1

theorem suggest_at_status :
    let schema : Schema := ⟨[⟨"Status", .string, some ["open", "Opened", "closed"]⟩], by decide⟩
    let before : List Token := [⟨.property, "status", ⟨0, 6⟩, none⟩,
      ⟨.operator, "==", ⟨7, 9⟩, none⟩]
    let token : Token := ⟨.value, "'OPEN", ⟨10, 15⟩, none⟩
    let next : Token := ⟨.logical, "and", ⟨15, 18⟩, none⟩
    schema.suggest (before ++ [token, next]) 15 = ["Opened"] ∧
      Complete schema before token 15 ["Opened"] := by
  intro schema before token next
  have suggested : schema.suggest (before ++ [token, next]) 15 = ["Opened"] := by decide
  obtain ⟨-, -, completes⟩ := schema.suggest_at (before ++ [token, next]) 15
  have edited : Edited 15 token := ⟨by decide, by decide⟩
  have first : ∀ other ∈ before, ¬ Edited 15 other := by
    intro other member
    rw [← isEdited_iff]
    revert other
    decide
  have complete := completes before token [next] rfl edited first
  rw [suggested] at complete
  exact ⟨suggested, complete⟩

end Schema
end RuleFilter

import RuleFilter.Proofs.Condition.Compiling
import RuleFilter.Proofs.Rule.Parsing
import RuleFilter.Proofs.Token.Clause
import RuleFilter.Proofs.Value.Integer

namespace RuleFilter

namespace Text

def enquote (quote : Char) (body : List Char) : String :=
  String.ofList (quote :: (body ++ [quote]))

theorem unquote_enquote {quote : Char} (is : isQuote quote = true) (body : List Char) :
    unquote (enquote quote body) = String.ofList body := by
  simp [unquote, enquote, is]

theorem isLiteral_enquote {quote : Char} (is : isQuote quote = true) {body : List Char}
    (free : quote ∉ body) : IsLiteral (enquote quote body).toList := by
  rw [enquote, String.toList_ofList]
  exact .quoted is free

theorem isLiteral_integerText (negative : Bool) {digits : List Char} (is : isDigits digits = true) :
    IsLiteral (integerText negative digits).toList := by
  rw [integerText, String.toList_ofList]
  refine .integer ?_
  cases negative with
  | false =>
    obtain ⟨c, cs, rfl, digit⟩ := exists_digit is
    have sign : (c == '-') = false := beq_eq_false_iff_ne.2 (ne_of_isDigit digit rfl)
    rwa [if_neg Bool.false_ne_true, Lexeme.isIntegerText_cons, sign]
  | true => exact is

end Text

/-! ## From text to comparison -/

theorem Comparator.ofSymbol?_of_sameLetters {op : Comparator} {symbol : String}
    (spelled : Text.sameLetters symbol op.symbol = true) : ofSymbol? symbol = some op := by
  rw [ofSymbol?_congr (Text.sameLetters_iff.1 spelled)]
  cases op <;> rfl

theorem Rule.parse_clauseTokens {op : Comparator} {symbol : String}
    (spelled : Text.sameLetters symbol op.symbol = true) (name literal : String) :
    ∃ span, parse (clauseTokens name symbol literal) = .ok (.clause ⟨name, op, literal, span⟩) := by
  have unary : Grammar.Unary nestingLimit (clauseTokens name symbol literal) _ :=
    Grammar.Unary.clause _ rfl rfl (Comparator.ofSymbol?_of_sameLetters spelled) rfl
  exact ⟨_, parse_of_derives (.single (.single unary))⟩

theorem Property.operand_of_free {property : Property} (free : property.allowed = none)
    (literal : String) :
    property.operand literal =
      match Value.ofLiteral? literal property.type with
      | some operand => .ok operand
      | none => .error (.invalidLiteral literal property.type) := by
  rw [operand, free]
  cases Value.ofLiteral? literal property.type <;> rfl

theorem Schema.compile_clauseTokens {schema : Schema} {property : Property} {name symbol : String}
    {op : Comparator} (described : schema.describe? name = some property)
    (spelled : Text.sameLetters symbol op.symbol = true) (literal : String) :
    schema.compile (clauseTokens name symbol literal) =
      if op.isLegalFor property.type then
        (property.operand literal).map fun operand =>
          .comparison ⟨property.name, property.type, op, operand⟩
      else .error (.illegalOperator op property.type property.name) := by
  obtain ⟨span, parsed⟩ := Rule.parse_clauseTokens spelled name literal
  rw [compile, parsed]
  simp only [Rule.compile, Clause.compile, described]
  split
  · cases property.operand literal <;> rfl
  · rfl

namespace Lexicon

variable (lexicon : Lexicon) {property : Property} {name symbol literal : String} {op : Comparator}

theorem compile_clauseText (member : property ∈ lexicon.schema.properties)
    (named : Text.sameLetters name property.name = true)
    (spelled : Text.sameLetters symbol op.symbol = true) (is : IsLiteral literal.toList) :
    lexicon.schema.compile (lexicon.tokens (clauseText name symbol literal)) =
      if op.isLegalFor property.type then
        (property.operand literal).map fun operand =>
          .comparison ⟨property.name, property.type, op, operand⟩
      else .error (.illegalOperator op property.type property.name) := by
  rw [tokens_clauseText member named spelled is]
  exact Schema.compile_clauseTokens (Schema.describe?_of_mem member named) spelled literal

/-! ## Properties without allowed values -/

/-- Without allowed values a literal stands for the value of the declared type that it denotes, and
the operator is checked first. Of a string in quotes that value is what stands between them. -/
theorem compile_literal (member : property ∈ lexicon.schema.properties)
    (named : Text.sameLetters name property.name = true)
    (spelled : Text.sameLetters symbol op.symbol = true) (free : property.allowed = none)
    (is : IsLiteral literal.toList) :
    (lexicon.schema.compile (lexicon.tokens (clauseText name symbol literal)) =
      if op.isLegalFor property.type then
        match Value.ofLiteral? literal property.type with
        | some operand => .ok (.comparison ⟨property.name, property.type, op, operand⟩)
        | none => .error (.invalidLiteral literal property.type)
      else .error (.illegalOperator op property.type property.name)) ∧
    ∀ quote body, Text.isQuote quote = true → literal = Text.enquote quote body →
      property.type = .string → op.isLegalFor .string = true →
        lexicon.schema.compile (lexicon.tokens (clauseText name symbol literal)) =
          .ok (.comparison ⟨property.name, .string, op, .string (String.ofList body)⟩) := by
  have whole := compile_clauseText lexicon member named spelled is
  rw [Property.operand_of_free free] at whole
  constructor
  · rw [whole]
    cases Value.ofLiteral? literal property.type <;> rfl
  · rintro quote body isQuote rfl typed legal
    rw [whole, typed, if_pos legal, Value.ofLiteral?, Text.unquote_enquote isQuote]
    rfl

theorem compile_literal_name :
    let lexicon : Lexicon := ⟨⟨[⟨"Name", .string, none⟩], by decide⟩, false⟩
    lexicon.schema.compile (lexicon.tokens (clauseText "nAME" "Contains" "'not \x22 or (:'")) =
      .ok (.comparison ⟨"Name", .string, .contains, .string "not \x22 or (:"⟩) := by
  intro lexicon
  have member : ⟨"Name", .string, none⟩ ∈ lexicon.schema.properties := List.mem_cons_self
  have named : Text.sameLetters "nAME" "Name" = true := by decide
  have spelled : Text.sameLetters "Contains" Comparator.contains.symbol = true := by decide
  have free : Text.singleQuote ∉ "not \x22 or (:".toList := by decide
  have is := Text.isLiteral_enquote rfl free
  exact (compile_literal lexicon member named spelled rfl is).2 _ _ rfl rfl rfl rfl

theorem compile_integerText (member : property ∈ lexicon.schema.properties)
    (named : Text.sameLetters name property.name = true)
    (spelled : Text.sameLetters symbol op.symbol = true) (typed : property.type = .integer)
    (free : property.allowed = none)
    (legal : op.isLegalFor .integer = true) (negative : Bool) {digits : List Char}
    (is : Text.isDigits digits = true) :
    lexicon.schema.compile
        (lexicon.tokens (clauseText name symbol (Text.integerText negative digits))) =
      if Value.fitsInteger (Text.numeral negative digits) then
        .ok (.comparison
          ⟨property.name, .integer, op, .integer (Text.numeral negative digits)⟩)
      else .error (.invalidLiteral (Text.integerText negative digits) .integer) := by
  rw [compile_clauseText lexicon member named spelled (Text.isLiteral_integerText negative is),
    Property.operand_of_free free, typed, if_pos legal, Value.ofLiteral?_integerText is]
  by_cases fits : Value.fitsInteger (Text.numeral negative digits) = true
  · rw [if_pos fits, if_pos fits]
    rfl
  · rw [if_neg fits, if_neg fits]
    rfl

/-- An integer of any length compiles if it is in range, and is then compared as the integer that
its digits denote. -/
theorem compile_integer (member : property ∈ lexicon.schema.properties)
    (named : Text.sameLetters name property.name = true)
    (spelled : Text.sameLetters symbol op.symbol = true) (typed : property.type = .integer)
    (free : property.allowed = none)
    (plain : op.isTextual = false) (negative : Bool) {digits : List Char}
    (is : Text.isDigits digits = true) :
    let n := Text.numeral negative digits
    let compiled := lexicon.schema.compile
      (lexicon.tokens (clauseText name symbol (Text.integerText negative digits)))
    ((∃ condition, compiled = .ok condition) ↔ -2 ^ 63 ≤ n ∧ n ≤ 2 ^ 63 - 1) ∧
    (¬ (-2 ^ 63 ≤ n ∧ n ≤ 2 ^ 63 - 1) →
      compiled = .error (.invalidLiteral (Text.integerText negative digits) .integer)) ∧
    ∀ condition, compiled = .ok condition → ∀ (target : Target) (m : Int),
      target property.name = some (.integer m) →
        (condition.holds target = true ↔ op.Relates m n) := by
  intro n compiled
  have legal : op.isLegalFor .integer = true := by
    cases op <;> first | rfl | cases plain
  have same : compiled = if Value.fitsInteger n then _ else _ :=
    compile_integerText lexicon member named spelled typed free legal negative is
  rw [same, ← Value.fitsInteger_iff]
  by_cases fits : Value.fitsInteger n = true
  · simp only [fits, if_true, not_true_eq_false, false_imp_iff, true_and, Except.ok.injEq,
      exists_eq', forall_eq']
    intro target m held
    simp only [Condition.holds, Comparison.holds, held, Option.bind_some, Value.coerce?]
    exact Comparator.holds_integer op m n
  · simp [fits]

theorem compile_integer_least :
    let lexicon : Lexicon := ⟨⟨[⟨"Age", .integer, none⟩], by decide⟩, false⟩
    let compiled := lexicon.schema.compile
      (lexicon.tokens (clauseText "age" "<=" "-009223372036854775808"))
    (∃ condition, compiled = .ok condition) ∧
    ∀ condition, compiled = .ok condition → ∀ (target : Target) (m : Int),
      target "Age" = some (.integer m) → (condition.holds target = true ↔ m ≤ -2 ^ 63) := by
  intro lexicon compiled
  have member : ⟨"Age", .integer, none⟩ ∈ lexicon.schema.properties := List.mem_cons_self
  have named : Text.sameLetters "age" "Age" = true := by decide
  have spelled : Text.sameLetters "<=" Comparator.le.symbol = true := by decide
  have digits : Text.isDigits "009223372036854775808".toList = true := by decide
  have least : Text.numeral true "009223372036854775808".toList = -2 ^ 63 := by decide
  have result := compile_integer lexicon member named spelled rfl rfl rfl true digits
  rw [least] at result
  exact ⟨result.1.2 (by decide), result.2.2⟩

/-! ## Allowed values -/

end Lexicon

theorem Property.operand_enquote {property : Property} (typed : property.type = .string)
    {values : List String} (limited : property.allowed = some values) {value taken : String}
    {quote : Char} (is : Text.isQuote quote = true)
    (found : values.find? (Text.sameLetters · value) = some taken) :
    property.operand (Text.enquote quote value.toList) = .ok (.string (Text.unquote taken)) := by
  have spelled : property.spelling? (Text.enquote quote value.toList) = some taken := by
    rw [Property.spelling?, limited, Text.unquote_enquote is, String.ofList_toList]
    exact found
  rw [Property.operand, typed, limited, spelled]
  rfl

theorem Comparison.holds_string_iff {name text operand : String} {target : Target}
    (held : target name = some (.string text)) :
    Comparison.holds ⟨name, .string, .eq, .string operand⟩ target = true ↔ text = operand := by
  simp [holds, held, Value.coerce?, Comparator.holds, Value.compare?]

namespace Lexicon

variable (lexicon : Lexicon) {property : Property}

/-- An allowed value between quotes is compared as the first one of the set that has its letters,
which is the value itself unless an earlier one differs from it in letter case only. That one is
told from all others of the set, if it does not stand between quotes of its own. -/
theorem compile_allowed (member : property ∈ lexicon.schema.properties)
    (typed : property.type = .string) {values : List String}
    (limited : property.allowed = some values) {value : String} (listed : value ∈ values)
    {quote : Char} (is : Text.isQuote quote = true) (free : quote ∉ value.toList) :
    ∃ taken condition, values.find? (Text.sameLetters · value) = some taken ∧
      ((∀ other ∈ values, Text.sameLetters other value = true → other = value) → taken = value) ∧
      lexicon.schema.compile
        (lexicon.tokens (clauseText property.name "==" (Text.enquote quote value.toList))) =
          .ok condition ∧
      (Text.unquote taken = taken → ∀ target : Target,
        (target property.name = some (.string taken) → condition.holds target = true) ∧
        ∀ other ∈ values, other ≠ taken →
          target property.name = some (.string other) → condition.holds target = false) := by
  obtain ⟨taken, found⟩ : ∃ taken, values.find? (Text.sameLetters · value) = some taken :=
    Option.isSome_iff_exists.1 (List.find?_isSome.2 ⟨value, listed, Text.sameLetters_refl value⟩)
  have same : Text.sameLetters taken value = true := by simpa using List.find?_some found
  have compiled := compile_clauseText lexicon member (Text.sameLetters_refl _)
    (Text.sameLetters_refl Comparator.eq.symbol) (Text.isLiteral_enquote is free)
  rw [Property.operand_enquote typed limited is found, typed] at compiled
  refine ⟨taken, _, found, fun alone => ?_, compiled, fun bare target => ?_⟩
  · exact alone taken (List.mem_of_find?_eq_some found) same
  · constructor
    · intro held
      rw [Condition.holds, Comparison.holds_string_iff held, bare]
    · intro other _ differs held
      rw [Condition.holds, Bool.eq_false_iff, ne_eq, Comparison.holds_string_iff held, bare]
      exact differs

theorem compile_allowed_open :
    let lexicon : Lexicon :=
      ⟨⟨[⟨"Status", .string, some ["Open", "OPEN", "Closed"]⟩], by decide⟩, false⟩
    ∃ condition, lexicon.schema.compile (lexicon.tokens "Status == 'OPEN'") = .ok condition ∧
      ∀ target : Target,
        (target "Status" = some (.string "Open") → condition.holds target = true) ∧
        ∀ other ∈ ["Open", "OPEN", "Closed"], other ≠ "Open" →
          target "Status" = some (.string other) → condition.holds target = false := by
  intro lexicon
  let property : Property := ⟨"Status", .string, some ["Open", "OPEN", "Closed"]⟩
  have member : property ∈ lexicon.schema.properties := List.mem_cons_self
  have listed : "OPEN" ∈ ["Open", "OPEN", "Closed"] := by decide
  have free : Text.singleQuote ∉ "OPEN".toList := by decide
  obtain ⟨taken, condition, found, -, compiled, holds⟩ :=
    compile_allowed lexicon member rfl rfl listed rfl free
  have first : ["Open", "OPEN", "Closed"].find? (Text.sameLetters · "OPEN") = some "Open" := by
    decide
  obtain rfl : "Open" = taken := Option.some.inj (first.symm.trans found)
  exact ⟨condition, compiled, holds (by decide)⟩

theorem not_compile_allowed :
    ¬ ∀ (lexicon : Lexicon) (property : Property), property ∈ lexicon.schema.properties →
      property.type = .string → ∀ values, property.allowed = some values → ∀ value ∈ values,
      ∀ quote, Text.isQuote quote = true → quote ∉ value.toList →
        ∃ condition,
          lexicon.schema.compile
            (lexicon.tokens (clauseText property.name "==" (Text.enquote quote value.toList))) =
              .ok condition ∧
          ∀ target : Target,
            (target property.name = some (.string value) → condition.holds target = true) ∧
            ∀ other ∈ values, other ≠ value →
              target property.name = some (.string other) → condition.holds target = false := by
  intro claimed
  let property : Property := ⟨"Status", .string, some ["Open", "open"]⟩
  let lexicon : Lexicon := ⟨⟨[property], by decide⟩, false⟩
  have member : property ∈ lexicon.schema.properties := List.mem_cons_self
  have free : Text.singleQuote ∉ "open".toList := by decide
  obtain ⟨condition, compiled, holds⟩ :=
    claimed lexicon property member rfl _ rfl "open" (by decide) Text.singleQuote rfl free
  have taken := compile_clauseText lexicon member (Text.sameLetters_refl property.name)
    (Text.sameLetters_refl Comparator.eq.symbol) (Text.isLiteral_enquote rfl free)
  have first : property.operand (Text.enquote Text.singleQuote "open".toList) =
      .ok (.string "Open") := by rfl
  rw [first] at taken
  cases compiled.symm.trans taken
  have found := (holds (.ofFields [("Status", .string "open")])).1 (by decide)
  revert found
  decide

end Lexicon
end RuleFilter

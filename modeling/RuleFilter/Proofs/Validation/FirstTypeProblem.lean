import RuleFilter.Proofs.Schema.Lookup
import RuleFilter.Proofs.Token.Coverage
import RuleFilter.Proofs.Validation.Reports
import RuleFilter.Proofs.Validation.Typing

namespace RuleFilter

/-! ## Clauses in tokens -/

inductive StandIn : List Clause → List Token → Prop
  | nil : StandIn [] []
  | other {token : Token} {clauses : List Clause} {tokens : List Token} :
      token.kind ∉ [.property, .operator, .value] → StandIn clauses tokens →
      StandIn clauses (token :: tokens)
  | clause {name operator literal : Token} {op : Comparator} {clauses : List Clause}
      {tokens : List Token} :
      name.kind = .property → operator.kind = .operator →
      Comparator.ofSymbol? operator.text = some op → literal.kind = .value →
      StandIn clauses tokens →
      StandIn (⟨name.text, op, literal.text, ⟨name.span.start, literal.span.stop⟩⟩ :: clauses)
        (name :: operator :: literal :: tokens)

theorem StandIn.append {clauses clauses' : List Clause} {tokens tokens' : List Token}
    (first : StandIn clauses tokens) (second : StandIn clauses' tokens') :
    StandIn (clauses ++ clauses') (tokens ++ tokens') := by
  induction first with
  | nil => exact second
  | other kind _ ih => exact .other kind ih
  | clause kind kind' spelled kind'' _ ih => exact .clause kind kind' spelled kind'' ih

theorem Grammar.Derives.standIn {levels : Nat} {tokens : List Token} {rule : Rule}
    (derived : Derives levels tokens rule) : StandIn rule.clauses tokens := by
  refine derived.clauses_induction (P := fun tokens clauses => StandIn clauses tokens) ?_ ?_ ?_ ?_
  · intro property operator value op kind₁ kind₂ spelled kind₃
    exact .clause kind₁ kind₂ spelled kind₃ .nil
  · intro sign tokens clauses is inside
    exact .other (by simp [Token.kind_of_isConnective is]) inside
  · intro opening closing tokens clauses kind kind' inside
    have closed : StandIn [] [closing] := .other (by simp [kind']) .nil
    have behind := inside.append closed
    rw [List.append_nil] at behind
    exact .other (by simp [kind]) behind
  · intro connective token tokens rest clauses clauses' _ is left right
    exact left.append (.other (by simp [Token.kind_of_isConnective is]) right)

/-! ## Errors of clauses -/

theorem Clause.error?_eq {schema : Schema} (clause : Clause) {property : Property}
    (described : schema.describe? clause.property = some property)
    (limited : ∀ property ∈ schema.properties, property.allowed ≠ none → property.type = .string) :
    clause.error? schema =
      if clause.op.isLegalFor property.type = false then
        some (.illegalOperator clause.op property.type property.name)
      else if (Value.ofLiteral? clause.literal property.type).isNone then
        some (.invalidLiteral clause.literal property.type)
      else if property.allows clause.literal = false then
        some (.valueNotAllowed clause.literal property.name)
      else none := by
  cases legal : clause.op.isLegalFor property.type with
  | false => simp [error?_eq_some_iff, compile, described, legal]
  | true =>
    cases read : Value.ofLiteral? clause.literal property.type with
    | none =>
      simp [error?_eq_some_iff, compile, described, legal, map_eq_error_iff, Property.operand, read]
    | some value =>
      cases allowed : property.allows clause.literal with
      | false =>
        obtain ⟨some_values, unspelled⟩ : property.allowed.isNone = false ∧
            property.spelling? clause.literal = none := by
          simpa [Property.allows] using allowed
        simp [error?_eq_some_iff, compile, described, legal, map_eq_error_iff, Property.operand,
          read, some_values, unspelled]
      | true =>
        have right : ¬ clause.Misspelt schema := by
          rintro ⟨property', spelling, described', dated, spells, -⟩
          have some_values : property'.allowed ≠ none := by
            intro none
            simp [Property.spelling?, none] at spells
          have text := limited property' (Schema.describe?_eq_some_iff.1 described').1 some_values
          rw [dated] at text
          cases text
        have typed : clause.Typed schema := ⟨property, described, legal, by simp [read], allowed⟩
        simpa [error?_eq_none_iff, exists_compile_iff] using ⟨typed, right⟩

/-! ## Sites -/

structure Site (schema : Schema) (tokens : List Token) where
  before : List Token
  name : Token
  operator : Token
  literal : Token
  behind : List Token
  property : Property
  op : Comparator
  split : tokens = before ++ name :: operator :: literal :: behind
  named : schema.named? name = some property
  spelled : operator.kind = .operator ∧ Comparator.ofSymbol? operator.text = some op
  valued : literal.kind = .value

namespace Site

def later {schema : Schema} {tokens : List Token} (first : Token)
    (site : Site schema tokens) : Site schema (first :: tokens) where
  before := first :: site.before
  name := site.name
  operator := site.operator
  literal := site.literal
  behind := site.behind
  property := site.property
  op := site.op
  split := congrArg (first :: ·) site.split
  named := site.named
  spelled := site.spelled
  valued := site.valued

/-- Whether an error tells what is wrong at a site, by the token at which validation reports it: at
the operator that it may not be used, and at the literal that it has not the type of the property or
that it is not among the allowed values. -/
structure Fails {schema : Schema} {tokens : List Token} (site : Site schema tokens)
    (anchor : Token) (error : CompileError) : Prop where
  among : anchor = site.operator ∨ anchor = site.literal
  told : error ∈ [.illegalOperator site.op site.property.type site.property.name,
    .invalidLiteral site.literal.text site.property.type,
    .valueNotAllowed site.literal.text site.property.name]
  illegal : error = .illegalOperator site.op site.property.type site.property.name ↔
    anchor.kind = .operator
  unread : error = .invalidLiteral site.literal.text site.property.type ↔
    anchor.kind = .value ∧ Value.ofLiteral? site.literal.text site.property.type = none
  barred : error = .valueNotAllowed site.literal.text site.property.name ↔
    anchor.kind = .value ∧
      (Value.ofLiteral? site.literal.text site.property.type).isSome = true ∧
      site.property.allows site.literal.text = false

namespace Fails

variable {schema : Schema} {tokens : List Token} (site : Site schema tokens)

theorem of_illegal : site.Fails site.operator
    (.illegalOperator site.op site.property.type site.property.name) :=
  ⟨.inl rfl, by simp, by simp [site.spelled.1], by simp [site.spelled.1],
    by simp [site.spelled.1]⟩

theorem of_unread (unread : Value.ofLiteral? site.literal.text site.property.type = none) :
    site.Fails site.literal (.invalidLiteral site.literal.text site.property.type) :=
  ⟨.inr rfl, by simp, by simp [site.valued], by simp [site.valued, unread],
    by simp [unread]⟩

theorem of_barred {value : Value}
    (read : Value.ofLiteral? site.literal.text site.property.type = some value)
    (barred : site.property.allows site.literal.text = false) :
    site.Fails site.literal (.valueNotAllowed site.literal.text site.property.name) :=
  ⟨.inr rfl, by simp, by simp [site.valued], by simp [read],
    by simp [site.valued, read, barred]⟩

theorem later {site : Site schema tokens} {anchor : Token} {error : CompileError}
    (fails : site.Fails anchor error) (first : Token) : (site.later first).Fails anchor error :=
  ⟨fails.among, fails.told, fails.illegal, fails.unread, fails.barred⟩

end Fails

open Validation

variable {schema : Schema} {tokens : List Token} (site : Site schema tokens)

def clause : Clause :=
  ⟨site.name.text, site.op, site.literal.text, ⟨site.name.span.start, site.literal.span.stop⟩⟩

def problems : List Diagnostic :=
  ((operatorProblem? site.property site.operator.text).map (⟨·, site.operator.span⟩)).toList ++
    ((literalProblem? site.property site.literal.text).map (⟨·, site.literal.span⟩)).toList

theorem described : schema.describe? site.name.text = some site.property := by
  have named := site.named
  unfold Schema.named? at named
  split at named
  · exact named
  · cases named

theorem problems_cases
    (limited : ∀ property ∈ schema.properties, property.allowed ≠ none → property.type = .string) :
    (site.problems = [] ∧ site.clause.error? schema = none) ∨
      ∃ first others anchor error, site.problems = first :: others ∧ anchor.span = first.span ∧
        site.clause.error? schema = some error ∧ site.Fails anchor error := by
  have error := Clause.error?_eq ⟨site.name.text, site.op, site.literal.text,
    ⟨site.name.span.start, site.literal.span.stop⟩⟩ site.described limited
  rw [clause, error, problems]
  cases legal : site.op.isLegalFor site.property.type with
  | false =>
    have problem : operatorProblem? site.property site.operator.text =
        some (.illegalOperator site.op site.property.type site.property.name) := by
      simp [operatorProblem?, site.spelled.2, legal]
    rw [problem]
    exact .inr ⟨_, _, site.operator, _, rfl, rfl, rfl, .of_illegal site⟩
  | true =>
    rw [(operatorProblem?_eq_none_iff site.spelled.2).2 legal]
    cases read : Value.ofLiteral? site.literal.text site.property.type with
    | none =>
      have problem : literalProblem? site.property site.literal.text =
          some (.invalidLiteral site.literal.text site.property.type site.property.name) := by
        simp [literalProblem?, read]
      rw [problem]
      exact .inr ⟨_, _, site.literal, _, rfl, rfl, rfl, .of_unread site read⟩
    | some value =>
      cases allowed : site.property.allows site.literal.text with
      | false =>
        have problem : literalProblem? site.property site.literal.text =
            some (.valueNotAllowed site.literal.text site.property.name
              (site.property.allowed.getD [])) := by
          simp [literalProblem?, read, allowed]
        rw [problem]
        exact .inr ⟨_, _, site.literal, _, rfl, rfl, rfl, .of_barred site read allowed⟩
      | true =>
        have quiet : literalProblem? site.property site.literal.text = none := by
          simp [literalProblem?, read, allowed]
        rw [quiet]
        exact .inl ⟨rfl, rfl⟩

end Site

namespace Validation

/-! ## Problems of type -/

def typeProblemsBehind (schema : Schema) (earlier : List Token) :
    List Token → List (Option Problem)
  | [] => []
  | token :: tokens =>
    typeProblem? schema earlier token :: typeProblemsBehind schema (token :: earlier) tokens

theorem problemsBehind_eq {schema : Schema} {earlier tokens : List Token}
    (right : ∀ problem, some problem ∈ problemsBehind schema earlier tokens →
      problem.kind = .type) :
    problemsBehind schema earlier tokens = typeProblemsBehind schema earlier tokens := by
  induction tokens generalizing earlier with
  | nil => rfl
  | cons token tokens ih =>
    simp only [problemsBehind, List.mem_cons, or_imp, forall_and] at right
    have first : ∀ problem ∈ tokenProblem? schema earlier token, problem.kind = .type :=
      fun problem found => right.1 problem found.symm
    rw [problemsBehind, typeProblemsBehind, tokenProblem?_eq first, ih right.2]

end Validation

open Validation

theorem StandIn.fails {schema : Schema} {clauses : List Clause} {tokens : List Token}
    (limited : ∀ property ∈ schema.properties, property.allowed ≠ none → property.type = .string)
    (stand : StandIn clauses tokens)
    (known : ∀ token ∈ tokens, token.kind = .property → schema.contains token.text = true)
    {earlier : List Token} {first : Diagnostic} {others : List Diagnostic}
    (found : Findings.inColumn tokens (typeProblemsBehind schema earlier tokens) =
      first :: others) :
    ∃ (site : Site schema tokens) (anchor : Token) (error : CompileError),
      anchor.span = first.span ∧ clauses.findSome? (Clause.error? schema) = some error ∧
        site.Fails anchor error := by
  induction stand generalizing earlier with
  | nil => cases found
  | @other token clauses tokens kind _ ih =>
    simp only [List.mem_cons, List.not_mem_nil, or_false, not_or] at kind
    rw [typeProblemsBehind, typeProblem?_of_kind kind.2.1 kind.2.2] at found
    obtain ⟨site, anchor, error, place, fails, told⟩ :=
      ih (fun token member => known token (List.mem_cons_of_mem _ member)) found
    exact ⟨site.later token, anchor, error, place, fails, told.later token⟩
  | @clause name operator literal op clauses tokens kind kind' spelled kind'' _ ih =>
    obtain ⟨property, described⟩ := Option.isSome_iff_exists.1 (known name (by simp) kind)
    have named : schema.named? name = some property := (if_pos kind).trans described
    let site : Site schema (name :: operator :: literal :: tokens) :=
      ⟨[], name, operator, literal, tokens, property, op, rfl, named, ⟨kind', spelled⟩, kind''⟩
    have column : Findings.inColumn (name :: operator :: literal :: tokens)
        (typeProblemsBehind schema earlier (name :: operator :: literal :: tokens)) =
        site.problems ++ Findings.inColumn tokens
          (typeProblemsBehind schema (literal :: operator :: name :: earlier) tokens) := by
      simp [site, Site.problems, typeProblemsBehind, Findings.inColumn_cons, typeProblem?, kind,
        kind', kind'', named]
    have head : Clause.error? schema
        ⟨name.text, op, literal.text, ⟨name.span.start, literal.span.stop⟩⟩ =
          site.clause.error? schema := rfl
    rw [column] at found
    rw [List.findSome?_cons, head]
    rcases site.problems_cases limited with
      ⟨none, quiet⟩ | ⟨problem, rest, anchor, error, problems, place, fails, told⟩
    · rw [none, List.nil_append] at found
      have known (token : Token) (member : token ∈ tokens) :=
        known token (List.mem_append_right [name, operator, literal] member)
      obtain ⟨later, anchor, error, place, fails, told⟩ := ih known found
      refine ⟨((later.later literal).later operator).later name, anchor, error, place, ?_,
        ((told.later literal).later operator).later name⟩
      rw [quiet]
      exact fails
    · rw [problems] at found
      obtain ⟨rfl, -⟩ := List.cons.inj found
      refine ⟨site, anchor, error, place, ?_, told⟩
      rw [fails]

namespace Lexicon

/-- Where only strings are limited to some values and the tokens of a text form a rule, it does not
compile if its report has a problem of type. The error tells what is wrong where the first of them
stands. -/
theorem compile_of_typeProblem (lexicon : Lexicon) (text : String)
    (limited : ∀ property ∈ lexicon.schema.properties,
      property.allowed ≠ none → property.type = .string)
    {rule : Rule} (parsed : Rule.parse (lexicon.tokens text) = .ok rule)
    {first : Diagnostic} {others : List Diagnostic}
    (reported : (lexicon.schema.validate (lexicon.tokens text)).report.ofKind .type =
      first :: others) :
    ∃ (site : Site lexicon.schema (lexicon.tokens text)) (anchor : Token) (error : CompileError),
      anchor.span = first.span ∧ lexicon.schema.compile (lexicon.tokens text) = .error error ∧
        site.Fails anchor error := by
  have derived := Rule.derives_of_parse parsed
  have right := ((@accepts_iff lexicon.schema [] _ 0 .start (by simp)).1
    (accepts_of_derives derived)).1
  have kinds := (kinds_inColumn_iff (length_problemsBehind lexicon.schema [] _)).2 right
  rw [ofKind_inPlace lexicon.schema (lexicon.reads_tokens text).pairwise_start (.inr rfl),
    filter_kind_eq_self kinds, problemsBehind_eq right] at reported
  have known := fun token member => (lexicon.genuine_tokens text token member).property
  obtain ⟨site, anchor, error, place, fails, told⟩ :=
    derived.standIn.fails limited known reported
  refine ⟨site, anchor, error, place, ?_, told⟩
  rw [Schema.compile, parsed]
  exact (Rule.compile_eq_error_iff lexicon.schema error rule).2 fails

theorem compile_of_typeProblem_contains :
    let lexicon : Lexicon := ⟨⟨[⟨"Age", .integer, none⟩], by decide⟩, true⟩
    let tokens := lexicon.tokens "Age contains 5"
    let first : Diagnostic := ⟨.illegalOperator .contains .integer "Age", ⟨4, 12⟩⟩
    (∀ property ∈ lexicon.schema.properties, property.allowed ≠ none → property.type = .string) ∧
      Rule.parse tokens = .ok (.clause ⟨"Age", .contains, "5", ⟨0, 14⟩⟩) ∧
      (lexicon.schema.validate tokens).report.ofKind .type = [first] ∧
      ∃ (site : Site lexicon.schema tokens) (anchor : Token) (error : CompileError),
        anchor.span = first.span ∧ lexicon.schema.compile tokens = .error error ∧
          site.Fails anchor error := by
  intro lexicon tokens first
  have limited : ∀ property ∈ lexicon.schema.properties,
      property.allowed ≠ none → property.type = .string := by decide
  have read : tokens = [⟨.property, "Age", ⟨0, 3⟩, none⟩, ⟨.operator, "contains", ⟨4, 12⟩, none⟩,
      ⟨.value, "5", ⟨13, 14⟩, none⟩] :=
    reads_iff.1 (.token rfl rfl (.blank rfl (.token rfl rfl (.blank rfl (.token rfl rfl .done)))))
  have parsed : Rule.parse tokens = .ok (.clause ⟨"Age", .contains, "5", ⟨0, 14⟩⟩) := by
    rw [read]
    rfl
  have reported : (lexicon.schema.validate tokens).report.ofKind .type = [first] := by
    rw [read]
    exact congrArg (List.filter (·.kind == .type)) (List.mergeSort_singleton first)
  exact ⟨limited, parsed, reported,
    compile_of_typeProblem lexicon "Age contains 5" limited parsed reported⟩

end Lexicon
end RuleFilter

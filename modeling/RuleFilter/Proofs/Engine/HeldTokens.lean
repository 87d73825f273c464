import RuleFilter.Proofs.Engine.Session
import RuleFilter.Proofs.Validation.Typing

namespace RuleFilter

/-! ## Tokens that a session holds -/

namespace Session

/-- Whether tokens are spelled as such, and each property among them is one for some engine. -/
structure Acquainted (employed : Engine → Prop) (tokens : List Token) : Prop where
  spelled : Spelled tokens
  known : ∀ token ∈ tokens, token.kind = .property →
    ∃ engine, employed engine ∧ engine.schema.contains token.text = true

namespace Acquainted

variable {employed : Engine → Prop} {tokens : List Token}

theorem read {engine : Engine} (employs : employed engine) (text : String) :
    Acquainted employed (engine.tokens text) where
  spelled := engine.lexicon.spelled_tokens text
  known := fun token member kind =>
    ⟨engine, employs, (engine.lexicon.genuine_tokens text token member).property kind⟩

theorem of_unflagged {tokens' : List Token} (acquainted : Acquainted employed tokens)
    (same : tokens'.map Token.unflagged = tokens.map Token.unflagged) :
    Acquainted employed tokens' := by
  have origin : ∀ token ∈ tokens', ∃ token' ∈ tokens,
      token'.kind = token.kind ∧ token'.text = token.text := by
    intro token member
    have listed := List.mem_map_of_mem (f := Token.unflagged) member
    rw [same] at listed
    obtain ⟨token', member', equal⟩ := List.mem_map.1 listed
    simp only [Token.unflagged, Token.mk.injEq] at equal
    exact ⟨token', member', equal.1, equal.2.1⟩
  constructor
  · intro token member
    obtain ⟨token', member', kind, text⟩ := origin token member
    rw [← kind, ← text]
    exact acquainted.spelled token' member'
  · intro token member
    obtain ⟨token', member', kind, text⟩ := origin token member
    rw [← kind, ← text]
    exact acquainted.known token' member'

theorem eraseIdx (acquainted : Acquainted employed tokens) (index : Nat) :
    Acquainted employed (tokens.eraseIdx index) where
  spelled := fun token member => acquainted.spelled token (List.mem_of_mem_eraseIdx member)
  known := fun token member => acquainted.known token (List.mem_of_mem_eraseIdx member)

theorem perform {session : Session} (acquainted : Acquainted employed session.tokens)
    {seat : Seat} (employs : employed seat.engine) (index : Nat) (action : Action) :
    Acquainted employed (session.perform index seat action).2.tokens := by
  cases action with
  | choose properties =>
    cases chooses : seat.engine.choose properties with
    | error error => rwa [perform_choose_of_error chooses]
    | ok engine => rwa [perform_choose_of_ok chooses]
  | tokenize text => exact .read employs text
  | dropToken index => exact acquainted.eraseIdx index
  | validateTokens => exact acquainted.of_unflagged (validate_unflagged _ _)
  | _ => exact acquainted

theorem after {session : Session} {steps : List (Nat × Action)}
    (acquainted : Acquainted employed session.tokens)
    (employs : ∀ engine ∈ session.engines steps, employed engine) :
    Acquainted employed (session.after steps).tokens :=
  after_induction (P := fun session => Acquainted employed session.tokens)
    (fun _ index _ action _ employs acquainted => acquainted.perform employs index action)
    employs acquainted

end Acquainted

theorem step?_validateTokens {session : Session} {index : Nat} {seat : Seat}
    (sits : session.seats[index]? = some seat) :
    session.step? index .validateTokens = some (.validated (seat.engine.validate session.tokens),
      { session with tokens := (seat.engine.validate session.tokens).tokens }) := by
  rw [step?, sits]
  rfl

/-- Held tokens in which validation finds nothing wrong form a rule, whose properties some engine of
the session knew. The rule compiles if the engine at hand knows them all and no literal is misspelt;
what fails for want of a property does so at the first one, with no misspelt literal before it. -/
theorem compile_of_valid {start : Session} (unread : start.tokens = [])
    {steps : List (Nat × Action)} {index : Nat} {seat : Seat}
    (sits : (start.after steps).seats[index]? = some seat) {validated : Validated} {later : Session}
    (told : (start.after steps).step? index .validateTokens = some (.validated validated, later))
    (valid : validated.report.isValid = true) :
    let schema := seat.engine.schema
    let tokens := (start.after steps).tokens
    ∃ rule, Rule.parse tokens = .ok rule ∧
      rule.clauses.map Clause.property = (tokens.filter (·.kind == .property)).map Token.text ∧
      (∀ clause ∈ rule.clauses,
        ∃ engine ∈ start.engines steps, engine.schema.contains clause.property = true) ∧
      ((∃ condition, schema.compile tokens = .ok condition) ↔
        ∀ clause ∈ rule.clauses, clause.Sound schema) ∧
      ∀ name, schema.compile tokens = .error (.unknownProperty name) ↔
        ∃ before clause after, rule.clauses = before ++ clause :: after ∧
          (∀ earlier ∈ before, earlier.Sound schema) ∧
          clause.property = name ∧ schema.contains clause.property = false := by
  intro schema tokens
  rw [step?_validateTokens sits] at told
  obtain ⟨⟨⟩, -⟩ := told
  have acquainted : Acquainted (· ∈ start.engines steps) tokens := by
    refine Acquainted.after ?_ fun _ employs => employs
    rw [unread]
    exact ⟨nofun, nofun⟩
  obtain ⟨rule, parsed, typed⟩ := exists_parse_of_valid acquainted.spelled valid
  have derived := Rule.derives_of_parse parsed
  refine ⟨rule, parsed, derived.map_property, fun clause member => ?_,
    compile_of_typed parsed typed⟩
  obtain ⟨token, held, kind, text⟩ := derived.exists_token member
  rw [← text]
  exact acquainted.known token held kind

/-! ## A property of an earlier schema -/

def ageSchema : Schema := ⟨[⟨"Age", .integer, none⟩], by decide⟩

def heightSchema : Schema := ⟨[⟨"Height", .integer, none⟩], by decide⟩

def replacedSteps : List (Nat × Action) :=
  [(0, .choose ageSchema.properties), (0, .tokenize "Age > 1"),
    (0, .choose heightSchema.properties)]

def heightSeat : Seat := ⟨⟨{}, some heightSchema⟩, 0⟩

theorem replaced_sits :
    ((separate [.default]).after replacedSteps).seats[0]? = some heightSeat := rfl

theorem replaced_tokens : ((separate [.default]).after replacedSteps).tokens =
    [⟨.property, "Age", ⟨0, 3⟩, none⟩, ⟨.operator, ">", ⟨4, 5⟩, none⟩,
      ⟨.value, "1", ⟨6, 7⟩, none⟩] := by
  have read : (Lexicon.mk ageSchema true).tokens "Age > 1" = [⟨.property, "Age", ⟨0, 3⟩, none⟩,
      ⟨.operator, ">", ⟨4, 5⟩, none⟩, ⟨.value, "1", ⟨6, 7⟩, none⟩] :=
    Lexicon.reads_iff.1 (.token rfl rfl (.blank rfl (.token rfl rfl (.blank rfl
      (.token rfl rfl .done)))))
  exact read

theorem replaced_valid : (heightSeat.engine.validate
    ((separate [.default]).after replacedSteps).tokens).report.isValid = true := by
  rw [replaced_tokens]
  exact List.isEmpty_iff.2 (List.mergeSort_nil ..)

theorem compile_of_valid_replaced :
    let start := separate [.default]
    let tokens := (start.after replacedSteps).tokens
    start.tokens = [] ∧ (start.after replacedSteps).seats[0]? = some heightSeat ∧
      ∃ validated later,
        (start.after replacedSteps).step? 0 .validateTokens =
            some (.validated validated, later) ∧
          validated.report.isValid = true ∧
          ∃ rule, Rule.parse tokens = .ok rule ∧
            rule.clauses.map Clause.property =
              (tokens.filter (·.kind == .property)).map Token.text ∧
            (∀ clause ∈ rule.clauses, ∃ engine ∈ start.engines replacedSteps,
              engine.schema.contains clause.property = true) ∧
            ((∃ condition, heightSchema.compile tokens = .ok condition) ↔
              ∀ clause ∈ rule.clauses, clause.Sound heightSchema) ∧
            ∀ name, heightSchema.compile tokens = .error (.unknownProperty name) ↔
              ∃ before clause after, rule.clauses = before ++ clause :: after ∧
                (∀ earlier ∈ before, earlier.Sound heightSchema) ∧
                clause.property = name ∧ heightSchema.contains clause.property = false := by
  intro start tokens
  have told := step?_validateTokens replaced_sits
  exact ⟨rfl, replaced_sits, _, _, told, replaced_valid,
    compile_of_valid rfl replaced_sits told replaced_valid⟩

theorem not_compile_of_valid :
    ¬ ∀ (engine : Engine) (steps : List (Nat × Action)) (seat : Seat) (validated : Validated)
      (later : Session) (name : String),
      ((separate [engine]).after steps).seats[0]? = some seat →
      ((separate [engine]).after steps).step? 0 .validateTokens =
        some (.validated validated, later) →
      validated.report.isValid = true →
      seat.engine.schema.compile ((separate [engine]).after steps).tokens ≠
        .error (.unknownProperty name) := by
  intro claimed
  refine claimed .default replacedSteps heightSeat _ _ "Age" replaced_sits
    (step?_validateTokens replaced_sits) replaced_valid ?_
  rw [replaced_tokens]
  rfl

end Session
end RuleFilter

import RuleFilter.Proofs.Token.Boundary
import RuleFilter.Proofs.Validation.FirstComplaint
import RuleFilter.Proofs.Validation.Unmatched

namespace RuleFilter

def roleBefore (tokens : List Token) (index : Nat) : Option Role :=
  (tokens.take index).getLast?.map Token.role

def UnknownNameAt (tokens : List Token) (index : Nat) (token : Token) : Prop :=
  tokens[index]? = some token ∧ token.isUnknownName = true

/-- Whether a property may stand at an index: at the start, or behind AND, OR, NOT or an opening
parenthesis. -/
def ExpectsProperty (tokens : List Token) (index : Nat) : Prop :=
  roleBefore tokens index ∈ [none, some .connective, some .negation, some .openParen]

def UnknownInPlace (schema : Schema) (tokens : List Token) : Prop :=
  (∀ diagnostic ∈ (schema.validate tokens).report.ofKind .unknownProperty,
    ∃ index token, UnknownNameAt tokens index token ∧ ExpectsProperty tokens index ∧
      diagnostic = ⟨.unknownProperty token.text, token.span⟩) ∧
  ∀ name ∈ (schema.validate tokens).report.unknownProperties,
    ∃ index token, UnknownNameAt tokens index token ∧ ExpectsProperty tokens index ∧
      name = token.text

/-! ## Names and their places -/

theorem expectsProperty_iff {tokens : List Token} {index : Nat} :
    ExpectsProperty tokens index ↔ Expectation.after (roleBefore tokens index) = .operand := by
  unfold ExpectsProperty
  cases roleBefore tokens index with
  | none => decide
  | some role => cases role <;> decide

theorem expectsProperty_iff_not_mem {tokens : List Token} {index : Nat}
    (behind : roleBefore tokens index ≠ some .operator) :
    ExpectsProperty tokens index ↔
      roleBefore tokens index ∉ [some .property, some .value, some .closeParen, some .unknown] := by
  unfold ExpectsProperty
  revert behind
  cases roleBefore tokens index with
  | none => decide
  | some role => cases role <;> decide

theorem Token.role_eq_unknown_iff {token : Token} :
    token.role = .unknown ↔ token.kind = .unknown := by
  cases kind : token.kind with
  | logical => cases negative : token.isConnective .not <;> simp [role, kind, negative]
  | _ => simp [role, kind]

theorem Token.isUnknownName_iff {token : Token} :
    token.isUnknownName = true ↔ token.role = .unknown ∧ Text.isName token.text = true := by
  rw [isUnknownName, Bool.and_eq_true, beq_iff_eq, role_eq_unknown_iff]

theorem Text.not_isQuote_of_isName {text : String} (named : isName text = true) :
    text.toList.head?.any isQuote = false := by
  unfold isName at named
  split at named
  · cases named
  · next c cs chars =>
    simp only [Bool.and_eq_true, List.all_cons] at named
    rw [chars, List.head?_cons, Option.any_some, Bool.eq_false_iff]
    intro is
    rcases isQuote_iff.1 is with rfl | rfl <;> exact absurd named.2.1 (by decide)

namespace Validation

variable {schema : Schema} {earlier tokens : List Token} {token : Token}

/-! ## Unknown names among problems in place -/

theorem inValuePlace_iff : inValuePlace earlier = true ↔
    earlier.head?.map Token.role = some .operator := by
  cases earlier <;> simp [inValuePlace]

theorem tokenProblem?_of_isUnknownName (unknown : token.isUnknownName = true) :
    tokenProblem? schema earlier token =
      some (if inValuePlace earlier then .unquoted token.text
        else .unknownProperty token.text) := by
  obtain ⟨role, named⟩ := Token.isUnknownName_iff.1 unknown
  simp only [tokenProblem?, role, if_true, unknownProblem, Text.not_isQuote_of_isName named, named,
    Bool.not_true, Bool.false_eq_true, if_false]

theorem isUnknownName_of_tokenProblem? {problem : Problem}
    (found : tokenProblem? schema earlier token = some problem)
    (kind : problem.kind = .unknownProperty) : token.isUnknownName = true := by
  unfold tokenProblem? at found
  simp only at found
  split at found
  · next unknown =>
    refine Token.isUnknownName_iff.2 ⟨unknown, ?_⟩
    obtain rfl := Option.some.inj found
    unfold unknownProblem at kind
    split at kind
    · cases kind
    · split at kind
      · cases kind
      · next named => simpa using named
  · split at found
    · cases (typeProblem?_kind found).symm.trans kind
    · obtain rfl := Option.some.inj found
      cases kind

theorem getElem?_problemsBehind (index : Nat) :
    (problemsBehind schema earlier tokens)[index]? = tokens[index]?.map
      (tokenProblem? schema ((tokens.take index).reverse ++ earlier)) := by
  induction tokens generalizing earlier index with
  | nil => rfl
  | cons token tokens ih =>
    cases index with
    | zero => rfl
    | succ index => simp [problemsBehind, ih]

theorem mem_inPlace_iff {diagnostic : Diagnostic} :
    diagnostic ∈ Findings.inColumn tokens (problemsBehind schema [] tokens) ↔
      ∃ (index : Nat) (token : Token), tokens[index]? = some token ∧
        tokenProblem? schema (tokens.take index).reverse token = some diagnostic.problem ∧
        diagnostic.span = token.span := by
  rw [Findings.mem_inColumn]
  constructor
  · rintro ⟨token, member, place⟩
    obtain ⟨index, both⟩ := List.mem_iff_getElem?.1 member
    obtain ⟨here, found⟩ := List.getElem?_zip_eq_some.1 both
    rw [getElem?_problemsBehind, here, List.append_nil] at found
    exact ⟨index, token, here, Option.some.inj found, place⟩
  · rintro ⟨index, token, here, found, place⟩
    refine ⟨token, List.mem_iff_getElem?.2 ⟨index, List.getElem?_zip_eq_some.2 ⟨here, ?_⟩⟩, place⟩
    rw [getElem?_problemsBehind, here, List.append_nil, Option.map_some, found]

theorem inValuePlace_reverse {index : Nat} :
    inValuePlace (tokens.take index).reverse = true ↔ roleBefore tokens index = some .operator := by
  rw [inValuePlace_iff, List.head?_reverse, roleBefore]

/-! ## Unknown names in a report -/

theorem mem_ofKind {diagnostic : Diagnostic} {kind : DiagnosticKind} {report : Report} :
    diagnostic ∈ report.ofKind kind ↔
      diagnostic ∈ report.diagnostics ∧ diagnostic.kind = kind := by
  rw [Report.ofKind, List.mem_filter, beq_iff_eq]

theorem mem_of_unknownName {index : Nat} (unknown : UnknownNameAt tokens index token) :
    (if roleBefore tokens index = some .operator then
        (⟨.unquoted token.text, token.span⟩ : Diagnostic)
      else ⟨.unknownProperty token.text, token.span⟩) ∈
      (schema.validate tokens).report.diagnostics := by
  obtain ⟨here, named⟩ := unknown
  have some_token : tokens ≠ [] := by
    rintro rfl
    cases here
  refine (mem_diagnostics some_token).2 (.inl (mem_inPlace_iff.2 ⟨index, token, here, ?_⟩))
  rw [tokenProblem?_of_isUnknownName named]
  by_cases behind : roleBefore tokens index = some .operator
  · simp [behind, inValuePlace_reverse.2 behind]
  · simp [behind, mt inValuePlace_reverse.1 behind]

theorem mem_unknownProperty_iff {diagnostic : Diagnostic} :
    diagnostic ∈ (schema.validate tokens).report.ofKind .unknownProperty ↔
      ∃ index token, UnknownNameAt tokens index token ∧
        roleBefore tokens index ≠ some .operator ∧
        diagnostic = ⟨.unknownProperty token.text, token.span⟩ := by
  rw [mem_ofKind]
  constructor
  · rintro ⟨member, kind⟩
    by_cases some_token : tokens = []
    · subst some_token
      obtain rfl := List.mem_singleton.1 member
      cases kind
    · rcases (mem_diagnostics some_token).1 member with inPlace | atEnd | unmatched | tooDeep
      · obtain ⟨index, token, here, found, place⟩ := mem_inPlace_iff.1 inPlace
        have named := isUnknownName_of_tokenProblem? found kind
        rw [tokenProblem?_of_isUnknownName named, Option.some.injEq] at found
        split at found
        · rw [Diagnostic.kind, ← found] at kind
          cases kind
        · next behind =>
          refine ⟨index, token, ⟨here, named⟩, mt inValuePlace_reverse.2 behind, ?_⟩
          rw [found, ← place]
      · cases (atEnd_kind atEnd).symm.trans kind
      · cases (unmatched?_kind unmatched).symm.trans kind
      · obtain ⟨index, token, -, rfl⟩ := tooDeep
        cases kind
  · rintro ⟨index, token, unknown, behind, rfl⟩
    have member := @mem_of_unknownName schema _ _ _ unknown
    rw [if_neg behind] at member
    exact ⟨member, rfl⟩

theorem mem_unknownNamesFrom {names : List String} {name : String}
    (member : name ∈ unknownNamesFrom schema (earlier.head?.map Token.role) names tokens) :
    name ∈ names ∨ ∃ index token, UnknownNameAt tokens index token ∧
      ((tokens.take index).reverse ++ earlier).head?.map Token.role ≠ some .operator ∧
      name = token.text := by
  induction tokens generalizing earlier names with
  | nil => exact .inl (List.mem_reverse.1 member)
  | cons token tokens ih =>
    rcases @ih (token :: earlier) _ member with known | ⟨index, later, ⟨here, named⟩, behind, rfl⟩
    · split at known
      · next isNew =>
        simp only [Bool.and_eq_true, bne_iff_ne] at isNew
        rcases List.mem_cons.1 known with rfl | known
        · exact .inr ⟨0, token, ⟨rfl, isNew.1.1.1⟩, isNew.1.2, rfl⟩
        · exact .inl known
      · exact .inl known
    · exact .inr ⟨index + 1, later, ⟨here, named⟩, by simpa using behind, rfl⟩

theorem exists_of_mem_unknownProperties {name : String}
    (member : name ∈ (schema.validate tokens).report.unknownProperties) :
    ∃ index token, UnknownNameAt tokens index token ∧
      roleBefore tokens index ≠ some .operator ∧ name = token.text := by
  unfold Schema.validate at member
  split at member
  · cases member
  · rcases @mem_unknownNamesFrom schema [] tokens [] name member with
      nothing | ⟨index, token, unknown, behind, rfl⟩
    · cases nothing
    · rw [List.append_nil, List.head?_reverse] at behind
      exact ⟨index, token, unknown, behind, rfl⟩

theorem subset_unknownNamesFrom (previous : Option Role) (names : List String) :
    names ⊆ unknownNamesFrom schema previous names tokens := by
  induction tokens generalizing previous names with
  | nil => exact fun name member => List.mem_reverse.2 member
  | cons token tokens ih =>
    rw [unknownNamesFrom]
    apply List.Subset.trans _ (ih ..)
    split
    · exact List.subset_cons_self ..
    · exact List.Subset.refl _

theorem exists_mem_unknownNamesFrom {index : Nat} (unknown : UnknownNameAt tokens index token)
    (behind : ((tokens.take index).reverse ++ earlier).head?.map Token.role ≠ some .operator)
    (missing : schema.contains token.text = false) (names : List String) :
    ∃ name ∈ unknownNamesFrom schema (earlier.head?.map Token.role) names tokens,
      Text.sameLetters name token.text = true := by
  induction tokens generalizing earlier index names with
  | nil => cases unknown.1
  | cons first tokens ih =>
    obtain ⟨here, named⟩ := unknown
    cases index with
    | succ index => exact @ih (first :: earlier) index ⟨here, named⟩ (by simpa using behind) _
    | zero =>
      obtain rfl := Option.some.inj here
      have behind : earlier.head?.map Token.role ≠ some .operator := behind
      have listed := @subset_unknownNamesFrom schema tokens (some first.role)
      rw [unknownNamesFrom]
      cases known : names.any (Text.sameLetters · first.text) with
      | false =>
        refine ⟨first.text, listed _ ?_, Text.sameLetters_refl _⟩
        simp [named, missing, behind]
      | true =>
        obtain ⟨name, member, same⟩ := List.any_eq_true.1 known
        refine ⟨name, listed _ ?_, same⟩
        simpa [known] using member

theorem exists_mem_unknownProperties {index : Nat} (unknown : UnknownNameAt tokens index token)
    (behind : roleBefore tokens index ≠ some .operator)
    (missing : schema.contains token.text = false) :
    ∃ name ∈ (schema.validate tokens).report.unknownProperties,
      Text.sameLetters name token.text = true := by
  have some_token : tokens.isEmpty = false := by
    rw [List.isEmpty_eq_false_iff]
    rintro rfl
    cases unknown.1
  simp only [Schema.validate, some_token, Bool.false_eq_true, if_false]
  refine @exists_mem_unknownNamesFrom schema [] tokens token index unknown ?_ missing []
  rwa [List.append_nil, List.head?_reverse]

end Validation

open Validation

namespace Lexicon

variable {lexicon : Lexicon} {text : String}

theorem not_contains_of_isName {previous : Option TokenKind} {c : Char} {cs : List Char}
    (unknown : (lexicon.lexeme previous c cs).kind = .unknown)
    (named : Text.isName (String.ofList (lexicon.lexeme previous c cs).text) = true) :
    lexicon.schema.contains (String.ofList (lexicon.lexeme previous c cs).text) = false := by
  revert unknown named
  refine @lexeme_elim _ _ _ _ (fun lexeme => lexeme.kind = .unknown →
    Text.isName (String.ofList lexeme.text) = true →
    lexicon.schema.contains (String.ofList lexeme.text) = false) nofun nofun ?_ ?_ ?_ ?_
  · intro is unknown named
    rcases Lexeme.closed_or_open c cs with ⟨body, rest, rfl, inside⟩ | inside
    · rw [Lexeme.quoted_closed inside] at unknown
      cases unknown
    · rw [Lexeme.quoted_open inside] at named
      have unquoted := Text.not_isQuote_of_isName named
      rw [String.toList_ofList, List.head?_cons, Option.any_some, is] at unquoted
      cases unquoted
  · intro lexeme found unknown
    obtain ⟨-, spelling, member, -, kind, -⟩ := Lexeme.operator?_eq_some found
    have other : ∀ spelling ∈ operatorSpellings, spelling.2 ≠ .unknown := by decide
    exact absurd (kind.symm.trans unknown) (other spelling member)
  · intro _ _ text rest _ unknown _
    have unknown : lexicon.classify previous (String.ofList text) = .unknown := unknown
    unfold classify at unknown
    split at unknown
    · cases unknown
    split at unknown
    · cases unknown
    · next missing => exact Bool.eq_false_iff.2 missing
  · intro _ sign _ named
    have char := (Text.isName_ofList.1 named).2 c List.mem_cons_self
    cases sign.symm.trans (Text.isWordChar_of_isNameChar char)

theorem not_contains_of_unknownName {index : Nat} {token : Token}
    (unknown : UnknownNameAt (lexicon.tokens text) index token) :
    lexicon.schema.contains token.text = false := by
  obtain ⟨here, named⟩ := unknown
  obtain ⟨role, named⟩ := Token.isUnknownName_iff.1 named
  obtain ⟨before, c, behind, lexeme, -, rfl, kind, spelled, -⟩ :=
    (lexicon.reads_tokens text).lexeme_at here
  rw [Token.role_eq_unknown_iff, kind] at role
  rw [spelled] at named ⊢
  exact not_contains_of_isName role named

section

variable {error : ParseError} {index : Nat} {token : Token}
  (failed : Rule.parse (lexicon.tokens text) = .error error) (there : error.span = token.span)

include failed there

theorem isParen_of_unbalanced (here : (lexicon.tokens text)[index]? = some token)
    (unbalanced : ¬ Balanced (lexicon.tokens text)) : token.kind.isParen = true := by
  obtain ⟨error', found⟩ := Option.ne_none_iff_exists'.1 (mt imbalance?_eq_none_iff.1 unbalanced)
  obtain rfl := Except.error.inj ((Rule.parse_of_imbalance found).symm.trans failed)
  obtain ⟨paren, member, is, place⟩ := exists_paren_of_imbalance? found
  obtain ⟨index', here'⟩ := List.mem_iff_getElem?.1 member
  obtain rfl := (lexicon.reads_tokens text).eq_of_span here' here (place.symm.trans there)
  obtain rfl := Option.some.inj (here'.symm.trans here)
  exact is

theorem blames_of_unknownName (unknown : UnknownNameAt (lexicon.tokens text) index token) :
    Blames (.after (roleBefore (lexicon.tokens text) index)) token error.fault := by
  have reads := lexicon.reads_tokens text
  obtain ⟨here, named⟩ := unknown
  have kind := Token.role_eq_unknown_iff.1 (Token.isUnknownName_iff.1 named).1
  have some_token : lexicon.tokens text ≠ [] := by
    intro none
    rw [none] at here
    cases here
  have balanced : Balanced (lexicon.tokens text) := by
    by_contra unbalanced
    have paren := isParen_of_unbalanced failed there here unbalanced
    rw [kind] at paren
    cases paren
  obtain ⟨place, progress, ⟨taken, split, moved, -⟩, stuck⟩ :=
    Rule.stuck_of_parse some_token (lexicon.spelled_tokens text) balanced failed
  have split : lexicon.tokens text = taken ++ place.rest := split
  obtain ⟨⟨expected, -⟩, -⟩ := @Progress.of_run? lexicon.schema [] _ _ _ _ moved
  have found {first : Token} {rest : List Token} (next : place.rest = first :: rest)
      (same : first.span = token.span) : taken.length = index ∧ first = token := by
    have first_there : (lexicon.tokens text)[taken.length]? = some first := by
      simp [split, next]
    obtain rfl := reads.eq_of_span first_there here same
    exact ⟨rfl, Option.some.inj (first_there.symm.trans here)⟩
  cases stuck with
  | ended wanted none goes_on =>
    -- The place behind the last token is empty.
    have bounds := (reads.placed token (List.mem_of_getElem? here)).start_lt_stop
    rw [← there] at bounds
    simp only at bounds
    omega
  | misplaced next wrong blames =>
    obtain ⟨rfl, rfl⟩ := found next there
    rw [expected, List.append_nil, List.head?_reverse] at blames
    rwa [roleBefore, split, List.take_left]
  | unopened next closes none =>
    obtain ⟨-, rfl⟩ := found next there
    cases kind.symm.trans closes
  | tooDeep next opens beyond =>
    obtain ⟨-, rfl⟩ := found next there
    simp [Levels.reached?, kind] at opens

end

theorem unknownInPlace_iff : UnknownInPlace lexicon.schema (lexicon.tokens text) ↔
    ∀ index token, UnknownNameAt (lexicon.tokens text) index token →
      roleBefore (lexicon.tokens text) index ∉
        [some .property, some .value, some .closeParen, some .unknown] := by
  constructor
  · rintro ⟨inPlace, -⟩ index token unknown
    by_cases behind : roleBefore (lexicon.tokens text) index = some .operator
    · rw [behind]
      decide
    · obtain ⟨index', token', unknown', expects, same⟩ :=
        inPlace _ (mem_unknownProperty_iff.2 ⟨index, token, unknown, behind, rfl⟩)
      have reads := lexicon.reads_tokens text
      obtain rfl := reads.eq_of_span unknown.1 unknown'.1 (congrArg Diagnostic.span same)
      exact (expectsProperty_iff_not_mem behind).1 expects
  · intro others
    constructor
    · intro diagnostic member
      obtain ⟨index, token, unknown, behind, rfl⟩ := mem_unknownProperty_iff.1 member
      have expects := (expectsProperty_iff_not_mem behind).2 (others index token unknown)
      exact ⟨index, token, unknown, expects, rfl⟩
    · intro name member
      obtain ⟨index, token, unknown, behind, rfl⟩ := exists_of_mem_unknownProperties member
      have expects := (expectsProperty_iff_not_mem behind).2 (others index token unknown)
      exact ⟨index, token, unknown, expects, rfl⟩

/-- Of unknown names validation reports those that stand behind an operator as values without
quotes, and all others as unknown properties, whose names it lists up to letter case. So these stand
where a property may just if no unknown name follows a property, a value, a closing parenthesis or
an unknown token. Where parsing fails at an unknown name, it reports an unknown property if and only
if a property may stand there, and otherwise that something else is expected. -/
theorem report_unknownNames (lexicon : Lexicon) (text : String) :
    let tokens := lexicon.tokens text
    let report := (lexicon.schema.validate tokens).report
    (∀ diagnostic, diagnostic ∈ report.ofKind .unknownProperty ↔
      ∃ index token, UnknownNameAt tokens index token ∧
        roleBefore tokens index ≠ some .operator ∧
        diagnostic = ⟨.unknownProperty token.text, token.span⟩) ∧
    (∀ name ∈ report.unknownProperties,
      ∃ index token, UnknownNameAt tokens index token ∧
        roleBefore tokens index ≠ some .operator ∧ name = token.text) ∧
    (∀ index token, UnknownNameAt tokens index token →
      roleBefore tokens index ≠ some .operator →
      ∃ name ∈ report.unknownProperties, Text.sameLetters name token.text = true) ∧
    (∀ index token, UnknownNameAt tokens index token →
      roleBefore tokens index = some .operator →
      ⟨.unquoted token.text, token.span⟩ ∈ report.ofKind .grammar) ∧
    (UnknownInPlace lexicon.schema tokens ↔
      ∀ index token, UnknownNameAt tokens index token →
        roleBefore tokens index ∉
          [some .property, some .value, some .closeParen, some .unknown]) ∧
    ∀ error index token, Rule.parse tokens = .error error → UnknownNameAt tokens index token →
      error.span = token.span →
      ExpectsProperty tokens index ∧ error.fault = .unknownProperty token.text ∨
        ¬ ExpectsProperty tokens index ∧
          ((∃ wanted, error.fault = .unexpected wanted token.text) ∨
            error.fault = .leftOver token.text) := by
  intro tokens report
  refine ⟨fun _ => mem_unknownProperty_iff, fun _ => exists_of_mem_unknownProperties, ?_, ?_,
    unknownInPlace_iff, ?_⟩
  · intro index token unknown behind
    exact exists_mem_unknownProperties unknown behind (not_contains_of_unknownName unknown)
  · intro index token unknown behind
    have member := @mem_of_unknownName lexicon.schema _ _ _ unknown
    rw [if_pos behind] at member
    exact mem_ofKind.2 ⟨member, rfl⟩
  · intro error index token failed unknown there
    have blames := blames_of_unknownName failed there unknown
    by_cases expects : ExpectsProperty tokens index
    · rw [expectsProperty_iff.1 expects] at blames
      exact .inl ⟨expects, blames.trans (if_pos unknown.2)⟩
    · refine .inr ⟨expects, ?_⟩
      rw [expectsProperty_iff] at expects
      cases expected : Expectation.after (roleBefore tokens index) with
      | operand => exact absurd expected expects
      | operator => exact .inl ⟨_, expected ▸ blames⟩
      | value => exact .inl ⟨_, expected ▸ blames⟩
      | joint =>
        rw [expected] at blames
        exact blames.imp_left fun unclosed => ⟨_, unclosed⟩
      | anything =>
        rw [expected] at blames
        exact blames.elim

theorem not_unknownInPlace :
    ¬ ∀ (lexicon : Lexicon) (text : String),
      UnknownInPlace lexicon.schema (lexicon.tokens text) := by
  intro claimed
  have others := unknownInPlace_iff.1 (claimed ageLexicon "Age Height 5")
  have read : ageLexicon.tokens "Age Height 5" =
      [⟨.property, "Age", ⟨0, 3⟩, none⟩, ⟨.unknown, "Height", ⟨4, 10⟩, none⟩,
        ⟨.value, "5", ⟨11, 12⟩, none⟩] :=
    reads_iff.1 (.token rfl rfl (.blank rfl (.token rfl rfl (.blank rfl (.token rfl rfl .done)))))
  rw [read] at others
  exact others 1 _ ⟨rfl, by decide⟩ (by decide)

end Lexicon
end RuleFilter

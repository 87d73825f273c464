import RuleFilter.Condition.Compiler
import RuleFilter.Proofs.Layout.Normal
import RuleFilter.Proofs.Rule.Parsing

namespace RuleFilter

/-! ## Shapes -/

inductive CompileErrorKind where
  | empty
  | ungrammatical
  | unbalanced
  | tooDeep
  | unknownProperty
  | illegalOperator
  | invalidLiteral
  | valueNotAllowed
  deriving DecidableEq, Repr

def CompileError.kind : CompileError → CompileErrorKind
  | empty => .empty
  | ungrammatical .. => .ungrammatical
  | unbalanced _ => .unbalanced
  | tooDeep _ => .tooDeep
  | unknownProperty _ => .unknownProperty
  | illegalOperator .. => .illegalOperator
  | invalidLiteral .. => .invalidLiteral
  | valueNotAllowed .. => .valueNotAllowed

def ParseError.kind (error : ParseError) : CompileErrorKind :=
  (CompileError.ofParseError error).kind

def Token.shape (token : Token) : Token :=
  ⟨token.kind, if token.kind = .value then token.text else Text.folded token.text, .zero, none⟩

def Clause.shape (clause : Clause) : Clause :=
  ⟨Text.folded clause.property, clause.op, clause.literal, .zero⟩

namespace Rule

mutual

def shape : Rule → Rule
  | .clause c => .clause c.shape
  | .all rules => .all (shapes rules)
  | .any rules => .any (shapes rules)
  | .negation rule => .negation rule.shape

def shapes : List Rule → List Rule
  | [] => []
  | rule :: rules => rule.shape :: shapes rules

end

theorem shapes_eq_map (rules : List Rule) : shapes rules = rules.map shape := by
  induction rules with
  | nil => rfl
  | cons rule rules ih => rw [shapes, ih, List.map_cons]

theorem shape_join {node : List Rule → Rule}
    (inner : ∀ rules rules', rules.map shape = rules'.map shape →
      (node rules).shape = (node rules').shape)
    {rules rules' : List Rule} (same : rules.map shape = rules'.map shape) :
    (join node rules).shape = (join node rules').shape := by
  rcases rules with - | ⟨rule, _ | ⟨second, rules⟩⟩
  · obtain rfl := List.map_eq_nil_iff.1 same.symm
    rfl
  · obtain ⟨rule', others, rfl, first, rest⟩ := List.map_eq_cons_iff.1 same.symm
    obtain rfl := List.map_eq_nil_iff.1 rest
    exact first.symm
  · obtain ⟨rule', others, rfl, -, rest⟩ := List.map_eq_cons_iff.1 same.symm
    obtain ⟨second', others, rfl, -, -⟩ := List.map_eq_cons_iff.1 rest
    exact inner _ _ same

end Rule

def Cursor.shape (cursor : Cursor) : Cursor :=
  ⟨cursor.rest.map Token.shape, 0, cursor.depth⟩

/-! ## Outcomes -/

inductive Outcome {α : Type} (R : α → α → Prop) :
    Except ParseError α → Except ParseError α → Prop
  | ok {a b : α} : R a b → Outcome R (.ok a) (.ok b)
  | error {e e' : ParseError} : e.kind = e'.kind → Outcome R (.error e) (.error e')

theorem Outcome.bind {α β : Type} {R : α → α → Prop} {S : β → β → Prop}
    {x x' : Except ParseError α} {f f' : α → Except ParseError β} (h : Outcome R x x')
    (next : ∀ a a', R a a' → Outcome S (f a) (f' a')) : Outcome S (x >>= f) (x' >>= f') := by
  cases h with
  | ok related => exact next _ _ related
  | error same => exact .error same

/-! ## Tokens -/

namespace Token

theorem kind_eq_of_shape {a b : Token} (same : a.shape = b.shape) : a.kind = b.kind := by
  have kinds := congrArg Token.kind same
  exact kinds

theorem foldCase_eq_of_shape {a b : Token} (same : a.shape = b.shape) :
    Text.foldCase a.text = Text.foldCase b.text := by
  have kinds := kind_eq_of_shape same
  have texts := congrArg Token.text same
  simp only [shape, kinds] at texts
  split at texts
  · rw [texts]
  · exact Text.folded_inj.1 texts

theorem text_eq_of_shape {a b : Token} (same : a.shape = b.shape) (kind : a.kind = .value) :
    a.text = b.text := by
  have kinds := kind_eq_of_shape same
  have texts := congrArg Token.text same
  simpa only [shape, ← kinds, kind, if_true] using texts

theorem isConnective_eq_of_shape {a b : Token} (same : a.shape = b.shape)
    (connective : Connective) : a.isConnective connective = b.isConnective connective :=
  isConnective_congr (kind_eq_of_shape same) (foldCase_eq_of_shape same) connective

theorem isUnknownName_eq_of_shape {a b : Token} (same : a.shape = b.shape) :
    a.isUnknownName = b.isUnknownName := by
  rw [isUnknownName, isUnknownName, kind_eq_of_shape same,
    Text.isName_congr (foldCase_eq_of_shape same)]

theorem shape_eq_of_normalToken {schema : Schema} {a b : Token}
    (same : Layout.normalToken schema a = Layout.normalToken schema b) : a.shape = b.shape := by
  have kinds : a.kind = b.kind := by
    have := congrArg Token.kind same
    exact this
  have words : Layout.normalWord schema a = Layout.normalWord schema b :=
    congrArg Token.text same
  have letters : Text.folded a.text = Text.folded b.text := by
    rw [Text.folded_inj, ← Layout.foldCase_normalWord schema a, words,
      Layout.foldCase_normalWord]
  simp only [shape, kinds, letters]
  split
  · next value =>
    rw [Layout.normalWord_of_kind, Layout.normalWord_of_kind] at words
    all_goals simp_all
  · rfl

end Token

/-! ## Readings -/

namespace Cursor

theorem shape_eq_iff {a b : Cursor} :
    a.shape = b.shape ↔ a.rest.map Token.shape = b.rest.map Token.shape ∧ a.depth = b.depth := by
  simp [shape]

theorem rest_cases {a b : Cursor} (same : a.shape = b.shape) :
    a.rest = [] ∧ b.rest = [] ∨
      ∃ token rest token' rest', a.rest = token :: rest ∧ b.rest = token' :: rest' ∧
        token.shape = token'.shape ∧ a.advance.shape = b.advance.shape := by
  obtain ⟨tokens, depth⟩ := shape_eq_iff.1 same
  cases left : a.rest with
  | nil =>
    rw [left] at tokens
    exact .inl ⟨rfl, List.map_eq_nil_iff.1 tokens.symm⟩
  | cons token rest =>
    rw [left] at tokens
    obtain ⟨token', rest', right, first, others⟩ := List.map_eq_cons_iff.1 tokens.symm
    refine .inr ⟨token, rest, token', rest', rfl, right, first.symm, ?_⟩
    rw [shape_eq_iff]
    simp [advance, left, right, others, depth]

theorem advance_shape {a b : Cursor} (same : a.shape = b.shape) :
    a.advance.shape = b.advance.shape := by
  rcases rest_cases same with ⟨left, right⟩ | ⟨_, _, _, _, -, -, -, behind⟩
  · simpa only [advance, left, right] using same
  · exact behind

theorem isAt_eq_of_shape {a b : Cursor} (same : a.shape = b.shape) (connective : Connective) :
    a.isAt connective = b.isAt connective := by
  rcases rest_cases same with ⟨left, right⟩ | ⟨token, rest, token', rest', left, right, first, -⟩
  · rw [isAt, isAt, left, right]
  · simp only [isAt, left, right, List.head?_cons, Option.any_some,
      Token.isConnective_eq_of_shape first]

theorem atOpen_eq_of_shape {a b : Cursor} (same : a.shape = b.shape) :
    a.rest.head?.any (·.kind == .openParen) = b.rest.head?.any (·.kind == .openParen) := by
  rcases rest_cases same with ⟨left, right⟩ | ⟨token, rest, token', rest', left, right, first, -⟩
  · rw [left, right]
  · simp only [left, right, List.head?_cons, Option.any_some, Token.kind_eq_of_shape first]

theorem leave_shape {a b : Cursor} (same : a.shape = b.shape) : a.leave.shape = b.leave.shape := by
  obtain ⟨tokens, depth⟩ := shape_eq_iff.1 same
  exact shape_eq_iff.2 ⟨tokens, congrArg (· - 1) depth⟩

end Cursor

namespace Reading

def Same {α β : Type} (shape : α → β) (x x' : α × Cursor) : Prop :=
  shape x.1 = shape x'.1 ∧ x.2.shape = x'.2.shape

theorem unexpected_kind (wanted : Wanted) (cursor : Cursor) :
    (cursor.unexpected wanted).kind = .ungrammatical := by
  unfold Cursor.unexpected
  split <;> rfl

theorem expect_outcome (kind : TokenKind) (wanted : Wanted) {a b : Cursor}
    (same : a.shape = b.shape) :
    Outcome (fun x x' => x.1.kind = kind ∧ Same Token.shape x x') (a.expect kind wanted)
      (b.expect kind wanted) := by
  have errors : (a.unexpected wanted).kind = (b.unexpected wanted).kind := by
    rw [unexpected_kind, unexpected_kind]
  rcases Cursor.rest_cases same with
    ⟨left, right⟩ | ⟨token, rest, token', rest', left, right, first, behind⟩
  · simpa only [Cursor.expect, left, right] using .error errors
  · simp only [Cursor.expect, left, right, Token.kind_eq_of_shape first]
    split
    · next is => exact .ok ⟨(Token.kind_eq_of_shape first).trans is, first, behind⟩
    · exact .error errors

theorem expectProperty_outcome {a b : Cursor} (same : a.shape = b.shape) :
    Outcome (fun x x' => x.1.kind = .property ∧ Same Token.shape x x') a.expectProperty
      b.expectProperty := by
  rcases Cursor.rest_cases same with
    ⟨left, right⟩ | ⟨token, rest, token', rest', left, right, first, -⟩
  · simp only [Cursor.expectProperty, left, right]
    apply Outcome.error
    rw [unexpected_kind, unexpected_kind]
  · simp only [Cursor.expectProperty, left, right, Token.isUnknownName_eq_of_shape first]
    split
    · exact .error rfl
    · exact expect_outcome _ _ same

theorem enter_outcome {a b : Cursor} (same : a.shape = b.shape) :
    Outcome (fun c c' => c.shape = c'.shape) a.enter b.enter := by
  simp only [Cursor.enter, (Cursor.shape_eq_iff.1 same).2]
  split
  · exact .error rfl
  · exact .ok (Cursor.shape_eq_iff.2
      ⟨(Cursor.shape_eq_iff.1 (Cursor.advance_shape same)).1, rfl⟩)

/-- Whether what a reading does depends on the shape of the tokens only. -/
def Blind (reading : Reading) : Prop :=
  ∀ a b : Cursor, a.shape = b.shape → Outcome (Same Rule.shape) (reading a) (reading b)

theorem clause_blind : Blind clause := by
  intro a b same
  apply (expectProperty_outcome same).bind
  rintro ⟨property, a₁⟩ ⟨property', b₁⟩ ⟨-, properties, same₁⟩
  apply (expect_outcome _ _ same₁).bind
  rintro ⟨operator, a₂⟩ ⟨operator', b₂⟩ ⟨-, operators, same₂⟩
  simp only [Comparator.ofSymbol?_congr (Token.foldCase_eq_of_shape operators)]
  split
  · exact .error rfl
  · apply (expect_outcome _ _ same₂).bind
    rintro ⟨value, a₃⟩ ⟨value', b₃⟩ ⟨kind, values, same₃⟩
    refine .ok ⟨?_, same₃⟩
    have names : Text.folded property.text = Text.folded property'.text :=
      Text.folded_inj.2 (Token.foldCase_eq_of_shape properties)
    have literals : value.text = value'.text := Token.text_eq_of_shape values kind
    simp only [Rule.shape, Clause.shape, names, literals]

theorem operandsFrom_outcome {operand : Reading} (blind : Blind operand) (connective : Connective)
    (bound : Nat) {taken taken' : List Rule} (same : taken.map Rule.shape = taken'.map Rule.shape)
    {a b : Cursor} (same' : a.shape = b.shape) :
    Outcome (Same (List.map Rule.shape)) (operandsFrom connective operand bound taken a)
      (operandsFrom connective operand bound taken' b) := by
  induction bound generalizing taken taken' a b with
  | zero =>
    refine .ok ⟨?_, same'⟩
    rw [List.map_reverse, same, List.map_reverse]
  | succ bound ih =>
    unfold operandsFrom
    have first := blind a b same'
    revert first
    generalize operand a = x
    generalize operand b = x'
    rintro (⟨rules, behind⟩ | errors)
    · rename_i x x'
      have more : (x.1 :: taken).map Rule.shape = (x'.1 :: taken').map Rule.shape := by
        rw [List.map_cons, rules, same, List.map_cons]
      simp only [Cursor.isAt_eq_of_shape behind connective]
      split
      · exact ih more (Cursor.advance_shape behind)
      · refine .ok ⟨?_, behind⟩
        rw [List.map_reverse, more, List.map_reverse]
    · exact .error errors

theorem operands_outcome {operand : Reading} (blind : Blind operand) (connective : Connective)
    {a b : Cursor} (same : a.shape = b.shape) :
    Outcome (Same (List.map Rule.shape)) (operands connective operand a)
      (operands connective operand b) := by
  have lengths : a.rest.length = b.rest.length := by
    simpa using congrArg List.length (Cursor.shape_eq_iff.1 same).1
  rw [operands, operands, lengths]
  exact operandsFrom_outcome blind connective _ rfl same

theorem joined_blind {operand : Reading} (blind : Blind operand) (connective : Connective)
    {node : List Rule → Rule}
    (inner : ∀ rules rules', rules.map Rule.shape = rules'.map Rule.shape →
      (node rules).shape = (node rules').shape) :
    Blind (joined connective node operand) := by
  intro a b same
  apply (operands_outcome blind connective same).bind
  rintro ⟨rules, a'⟩ ⟨rules', b'⟩ ⟨shapes, behind⟩
  exact .ok ⟨Rule.shape_join inner shapes, behind⟩

theorem disjunction_blind {operand : Reading} (blind : Blind operand) :
    Blind (disjunction operand) := by
  rw [disjunction_eq]
  apply joined_blind _ .or
  · intro rules rules' same
    simp only [Rule.shape, Rule.shapes_eq_map, same]
  · apply joined_blind blind .and
    intro rules rules' same
    simp only [Rule.shape, Rule.shapes_eq_map, same]

theorem operand_blind (levels : Nat) : Blind (operand levels) := by
  induction levels with
  | zero => exact fun a b same => .error rfl
  | succ levels ih =>
    intro a b same
    simp only [operand, Cursor.isAt_eq_of_shape same, Cursor.atOpen_eq_of_shape same]
    split
    · apply (enter_outcome same).bind
      intro a₁ b₁ same₁
      apply (ih a₁ b₁ same₁).bind
      rintro ⟨rule, a₂⟩ ⟨rule', b₂⟩ ⟨rules, same₂⟩
      have negations : (Rule.negation rule).shape = (Rule.negation rule').shape := by
        simpa only [Rule.shape, Rule.negation.injEq] using rules
      exact .ok ⟨negations, Cursor.leave_shape same₂⟩
    split
    · apply (enter_outcome same).bind
      intro a₁ b₁ same₁
      apply (disjunction_blind ih a₁ b₁ same₁).bind
      rintro ⟨rule, a₂⟩ ⟨rule', b₂⟩ ⟨rules, same₂⟩
      apply (expect_outcome _ _ same₂).bind
      rintro ⟨_, a₃⟩ ⟨_, b₃⟩ ⟨-, -, same₃⟩
      exact .ok ⟨rules, Cursor.leave_shape same₃⟩
    · exact clause_blind a b same

theorem rule_blind : Blind rule :=
  disjunction_blind (operand_blind _)

end Reading

/-! ## Whole rules -/

theorem imbalanceFrom?_kind {tokens tokens' : List Token}
    (same : tokens.map Token.shape = tokens'.map Token.shape) (depth : Nat) (span span' : Span) :
    (imbalanceFrom? depth span tokens).map ParseError.kind =
      (imbalanceFrom? depth span' tokens').map ParseError.kind := by
  induction tokens generalizing tokens' depth span span' with
  | nil =>
    obtain rfl := List.map_eq_nil_iff.1 same.symm
    simp only [imbalanceFrom?]
    split <;> rfl
  | cons token tokens ih =>
    obtain ⟨token', tokens', rfl, first, others⟩ := List.map_eq_cons_iff.1 same.symm
    simp only [imbalanceFrom?, Token.kind_eq_of_shape first]
    split
    · exact ih others.symm _ _ _
    · split
      · rfl
      · exact ih others.symm _ _ _
    · exact ih others.symm _ _ _

namespace Rule

theorem parse_shape {tokens tokens' : List Token}
    (same : tokens.map Token.shape = tokens'.map Token.shape) :
    Outcome (fun rule rule' => rule.shape = rule'.shape) (parse tokens) (parse tokens') := by
  have empty : tokens.isEmpty = tokens'.isEmpty := by
    simpa using congrArg List.isEmpty same
  have balance := imbalanceFrom?_kind same 0 .zero .zero
  have start : (Cursor.start tokens).shape = (Cursor.start tokens').shape :=
    Cursor.shape_eq_iff.2 ⟨same, rfl⟩
  have whole := Reading.rule_blind _ _ start
  unfold parse
  rw [empty]
  split
  · exact .error rfl
  unfold imbalance?
  revert balance
  generalize imbalanceFrom? 0 .zero tokens = fault
  generalize imbalanceFrom? 0 .zero tokens' = fault'
  intro balance
  match fault, fault', balance with
  | some error, some error', balance => exact .error (Option.some.inj balance)
  | none, none, _ =>
    simp only
    revert whole
    generalize Reading.rule (.start tokens) = x
    generalize Reading.rule (.start tokens') = x'
    rintro (⟨rules, behind⟩ | errors)
    · simp only
      rcases Cursor.rest_cases behind with ⟨left, right⟩ | ⟨_, _, _, _, left, right, -, -⟩
      · simpa only [left, right] using .ok rules
      · simpa only [left, right] using .error rfl
    · exact .error errors

/-! ## Conditions -/

end Rule

theorem Clause.compile_shape (schema : Schema) (clause : Clause) :
    (clause.shape.compile schema).mapError CompileError.kind =
      (clause.compile schema).mapError CompileError.kind := by
  have found : schema.describe? clause.shape.property = schema.describe? clause.property :=
    schema.describe?_congr (Text.foldCase_folded clause.property)
  unfold compile
  rw [found]
  cases schema.describe? clause.property <;> rfl

theorem mapError_map {ε κ α β : Type} (kind : ε → κ) (f : α → β) (x : Except ε α) :
    (x.map f).mapError kind = (x.mapError kind).map f := by
  cases x <;> rfl

namespace Rule

mutual

theorem compile_shape (schema : Schema) : ∀ rule : Rule,
    (compile schema rule.shape).mapError CompileError.kind =
      (compile schema rule).mapError CompileError.kind
  | .clause c => by
    simp only [shape, compile, mapError_map, Clause.compile_shape]
  | .all rules => by
    simp only [shape, compile, mapError_map, compileFrom_shapes schema [] rules]
  | .any rules => by
    simp only [shape, compile, mapError_map, compileFrom_shapes schema [] rules]
  | .negation rule => by
    simp only [shape, compile, mapError_map, compile_shape schema rule]

theorem compileFrom_shapes (schema : Schema) : ∀ (taken : List Condition) (rules : List Rule),
    (compileFrom schema taken (shapes rules)).mapError CompileError.kind =
      (compileFrom schema taken rules).mapError CompileError.kind
  | _, [] => rfl
  | taken, rule :: rules => by
    have first := compile_shape schema rule
    simp only [shapes, compileFrom]
    revert first
    generalize compile schema rule.shape = x
    generalize compile schema rule = x'
    intro first
    match x, x', first with
    | .error error, .error error', first => exact congrArg Except.error (Except.error.inj first)
    | .ok condition, .ok condition', first =>
      cases first
      exact compileFrom_shapes schema (condition :: taken) rules

end

end Rule

theorem Schema.compile_eq_of_shape (schema : Schema) {tokens tokens' : List Token}
    (same : tokens.map Token.shape = tokens'.map Token.shape) :
    (schema.compile tokens).mapError CompileError.kind =
      (schema.compile tokens').mapError CompileError.kind := by
  have parsed := Rule.parse_shape same
  unfold compile
  revert parsed
  generalize Rule.parse tokens = x
  generalize Rule.parse tokens' = x'
  rintro (shapes | errors)
  · simp only
    rw [← Rule.compile_shape, shapes, Rule.compile_shape]
  · exact congrArg Except.error errors

end RuleFilter

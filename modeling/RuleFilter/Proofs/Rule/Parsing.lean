import RuleFilter.Proofs.Rule.Balance

namespace RuleFilter

namespace Cursor

theorem isAt_iff {connective : Connective} {cursor : Cursor} :
    cursor.isAt connective = true ↔
      ∃ token rest, cursor.rest = token :: rest ∧ token.isConnective connective = true := by
  unfold isAt
  cases cursor.rest <;> simp

theorem expect_ok {kind : TokenKind} {wanted : Wanted} {cursor after : Cursor} {token : Token}
    (h : cursor.expect kind wanted = .ok (token, after)) :
    cursor.rest = token :: after.rest ∧ token.kind = kind ∧ after.depth = cursor.depth := by
  unfold expect at h
  split at h
  · cases h
  · next found rest behind =>
    split at h
    · next is =>
      cases h
      simp [advance, behind, is]
    · cases h

theorem expectProperty_ok {cursor after : Cursor} {token : Token}
    (h : cursor.expectProperty = .ok (token, after)) :
    cursor.rest = token :: after.rest ∧ token.kind = .property ∧ after.depth = cursor.depth := by
  unfold expectProperty at h
  split at h
  · cases h
  · split at h
    · cases h
    · exact expect_ok h

theorem enter_ok {cursor inner : Cursor} (h : cursor.enter = .ok inner) :
    cursor.depth < nestingLimit ∧ inner.rest = cursor.rest.tail ∧
      inner.depth = cursor.depth + 1 := by
  unfold enter at h
  split at h
  · cases h
  · next room =>
    cases h
    refine ⟨by omega, ?_, rfl⟩
    unfold advance
    split <;> simp_all

theorem expect_cons {kind : TokenKind} (wanted : Wanted) {token : Token} (h : token.kind = kind)
    (rest : List Token) (stop depth : Nat) :
    expect kind wanted ⟨token :: rest, stop, depth⟩ = .ok (token, ⟨rest, token.span.stop, depth⟩) :=
  if_pos h

theorem expectProperty_cons {token : Token} (h : token.kind = .property) (rest : List Token)
    (stop depth : Nat) :
    expectProperty ⟨token :: rest, stop, depth⟩ = .ok (token, ⟨rest, token.span.stop, depth⟩) := by
  unfold expectProperty
  simp only
  rw [if_neg (by simp [Token.isUnknownName, h]), expect_cons _ h]

theorem enter_cons {depth : Nat} (room : depth < nestingLimit) (token : Token) (rest : List Token)
    (stop : Nat) :
    enter ⟨token :: rest, stop, depth⟩ = .ok ⟨rest, token.span.stop, depth + 1⟩ :=
  if_neg (by simp only; omega)

end Cursor

namespace Reading

theorem bind_eq_ok {ε α β : Type} {x : Except ε α} {f : α → Except ε β} {b : β} :
    x >>= f = .ok b ↔ ∃ a, x = .ok a ∧ f a = .ok b := by
  cases x <;> simp [bind, Except.bind]

open Grammar

def joined (connective : Connective) (node : List Rule → Rule) (operand : Reading) : Reading :=
  fun cursor => do
    let (rules, cursor) ← operands connective operand cursor
    .ok (Rule.join node rules, cursor)

theorem disjunction_eq (operand : Reading) :
    disjunction operand = joined .or .any (joined .and .all operand) :=
  rfl

/-! ## Soundness -/

/-- What the reading takes at a depth is derived, and it comes back to that depth. -/
def Takes (reading : Reading) (depth : Nat) (part : Phrase) : Prop :=
  ∀ cursor rule after, cursor.depth = depth → reading cursor = .ok (rule, after) →
    ∃ tokens, cursor.rest = tokens ++ after.rest ∧ part tokens rule ∧ after.depth = depth

theorem clause_takes (inner : Phrase) (depth : Nat) : Takes clause depth (Operand inner) := by
  intro cursor rule after at_depth h
  simp only [clause, bind_eq_ok] at h
  obtain ⟨⟨property, c₁⟩, hp, ⟨operator, c₂⟩, ho, h⟩ := h
  split at h
  · cases h
  · next op spelled =>
    obtain ⟨⟨value, c₃⟩, hv, h⟩ := bind_eq_ok.1 h
    cases h
    obtain ⟨rest₁, kind₁, depth₁⟩ := Cursor.expectProperty_ok hp
    obtain ⟨rest₂, kind₂, depth₂⟩ := Cursor.expect_ok ho
    obtain ⟨rest₃, kind₃, depth₃⟩ := Cursor.expect_ok hv
    refine ⟨[property, operator, value], ?_, .clause kind₁ kind₂ spelled kind₃, ?_⟩
    · rw [rest₁, rest₂, rest₃]; rfl
    · rw [depth₃, depth₂, depth₁, at_depth]

theorem operandsFrom_takes {connective : Connective} {operand : Reading} {depth : Nat}
    {part : Phrase} (sound : Takes operand depth part) {bound : Nat} {taken rules : List Rule}
    {cursor after : Cursor} (enough : cursor.rest.length < bound) (at_depth : cursor.depth = depth)
    (h : operandsFrom connective operand bound taken cursor = .ok (rules, after)) :
    ∃ tokens found, cursor.rest = tokens ++ after.rest ∧ Run connective part tokens found ∧
      rules = taken.reverse ++ found ∧ after.depth = depth := by
  -- Every connective takes a token, so the bound is not reached before the tokens end.
  induction bound generalizing taken cursor with
  | zero => omega
  | succ bound ih =>
    unfold operandsFrom at h
    split at h
    · cases h
    · next rule behind first =>
      obtain ⟨tokens, split, derived, back⟩ := sound _ _ _ at_depth first
      split at h
      · next goes_on =>
        obtain ⟨token, rest, next, is⟩ := Cursor.isAt_iff.1 goes_on
        have advanced : behind.advance.rest = rest := by simp [Cursor.advance, next]
        have kept : behind.advance.depth = depth := by simp [Cursor.advance, next, back]
        have shorter : behind.advance.rest.length < bound := by
          rw [split, next, List.length_append, List.length_cons] at enough
          rw [advanced]
          omega
        obtain ⟨more, found, split', run, rfl, back'⟩ := ih shorter kept h
        refine ⟨tokens ++ token :: more, rule :: found, ?_, .more derived is run, ?_, back'⟩
        · rw [split, next, ← advanced, split']; simp
        · simp
      · cases h
        exact ⟨tokens, [rule], split, .last derived, by simp, back⟩

theorem operands_takes {connective : Connective} {operand : Reading} {depth : Nat} {part : Phrase}
    (sound : Takes operand depth part) {rules : List Rule} {cursor after : Cursor}
    (at_depth : cursor.depth = depth)
    (h : operands connective operand cursor = .ok (rules, after)) :
    ∃ tokens, cursor.rest = tokens ++ after.rest ∧ Run connective part tokens rules ∧
      after.depth = depth := by
  obtain ⟨tokens, found, split, run, rfl, back⟩ :=
    operandsFrom_takes sound (Nat.lt_succ_self _) at_depth h
  exact ⟨tokens, split, run, back⟩

theorem joined_takes (connective : Connective) (node : List Rule → Rule) {operand : Reading}
    {depth : Nat} {part : Phrase} (sound : Takes operand depth part) :
    Takes (joined connective node operand) depth (Joined connective node part) := by
  intro cursor rule after at_depth h
  obtain ⟨⟨rules, behind⟩, found, h⟩ := bind_eq_ok.1 h
  cases h
  obtain ⟨tokens, split, run, back⟩ := operands_takes sound at_depth found
  exact ⟨tokens, split, joined_iff.2 ⟨rules, run, rfl⟩, back⟩

theorem disjunction_takes {operand : Reading} {depth : Nat} {unary : Phrase}
    (sound : Takes operand depth unary) :
    Takes (disjunction operand) depth (Disjunction unary) := by
  rw [disjunction_eq]
  exact joined_takes .or .any (joined_takes .and .all sound)

theorem operand_takes {depth levels : Nat} (room : depth + levels = nestingLimit) :
    Takes (operand (levels + 1)) depth (Unary levels) := by
  induction levels generalizing depth with
  | zero =>
    -- At the limit no level opens, so that only a clause is left.
    intro cursor rule after at_depth h
    unfold operand at h
    split at h
    · obtain ⟨inner, entered, -⟩ := bind_eq_ok.1 h
      have := (Cursor.enter_ok entered).1
      omega
    · split at h
      · obtain ⟨inner, entered, -⟩ := bind_eq_ok.1 h
        have := (Cursor.enter_ok entered).1
        omega
      · exact clause_takes _ depth _ _ _ at_depth h
  | succ levels ih =>
    intro cursor rule after at_depth h
    have below := @ih (depth + 1) (by omega)
    unfold operand at h
    split at h
    · next negated =>
      obtain ⟨inner, entered, h⟩ := bind_eq_ok.1 h
      obtain ⟨⟨rule, behind⟩, found, h⟩ := bind_eq_ok.1 h
      cases h
      obtain ⟨sign, rest, next, is⟩ := Cursor.isAt_iff.1 negated
      obtain ⟨-, rest_eq, deeper⟩ := Cursor.enter_ok entered
      obtain ⟨tokens, split, derived, back⟩ := below _ _ _ (by rw [deeper, at_depth]) found
      refine ⟨sign :: tokens, ?_, .negation is derived, ?_⟩
      · rw [next, List.cons_append, Cursor.leave, ← split, rest_eq, next, List.tail_cons]
      · simp [Cursor.leave, back]
    · split at h
      · next opened =>
        obtain ⟨inner, entered, h⟩ := bind_eq_ok.1 h
        obtain ⟨⟨rule, behind⟩, found, h⟩ := bind_eq_ok.1 h
        obtain ⟨⟨closing, last⟩, closed, h⟩ := bind_eq_ok.1 h
        cases h
        obtain ⟨-, rest_eq, deeper⟩ := Cursor.enter_ok entered
        obtain ⟨tokens, split, derived, back⟩ :=
          disjunction_takes below _ _ _ (by rw [deeper, at_depth]) found
        obtain ⟨rest_eq', closes, depth_eq⟩ := Cursor.expect_ok closed
        cases next : cursor.rest with
        | nil => simp [next] at opened
        | cons opening rest =>
          simp only [next, List.head?_cons, Option.any_some, beq_iff_eq] at opened
          refine ⟨opening :: (tokens ++ [closing]), ?_, .group opened derived closes, ?_⟩
          · rw [next, List.tail_cons] at rest_eq
            simp [Cursor.leave, ← rest_eq, split, rest_eq']
          · simp [Cursor.leave, depth_eq, back]
      · exact clause_takes _ depth _ _ _ at_depth h

/-! ## Completeness -/

def StopsAt (connective : Connective) (tokens : List Token) : Prop :=
  tokens.head?.any (·.isConnective connective) = false

theorem stopsAt_of_isConnective {a b : Connective} (differ : a ≠ b) {token : Token}
    (is : token.isConnective b = true) (rest : List Token) : StopsAt a (token :: rest) :=
  Bool.eq_false_iff.2 fun other => differ (Token.eq_of_isConnective other is)

theorem stopsAt_of_kind (connective : Connective) {token : Token} (h : token.kind ≠ .logical)
    (rest : List Token) : StopsAt connective (token :: rest) :=
  Token.isConnective_false_of_kind h

def Reads (reading : Reading) (depth : Nat) (part : Phrase) (follow : List Token → Prop) : Prop :=
  ∀ tokens rule rest stop, part tokens rule → follow rest →
    ∃ stop', reading ⟨tokens ++ rest, stop, depth⟩ = .ok (rule, ⟨rest, stop', depth⟩)

theorem clause_reads {property operator value : Token} {op : Comparator}
    (kind₁ : property.kind = .property) (kind₂ : operator.kind = .operator)
    (spelled : Comparator.ofSymbol? operator.text = some op) (kind₃ : value.kind = .value)
    (rest : List Token) (stop depth : Nat) :
    clause ⟨property :: operator :: value :: rest, stop, depth⟩ =
      .ok (.clause ⟨property.text, op, value.text, ⟨property.span.start, value.span.stop⟩⟩,
        ⟨rest, value.span.stop, depth⟩) := by
  simp [clause, bind, Except.bind, Cursor.expectProperty_cons kind₁, Cursor.expect_cons _ kind₂,
    Cursor.expect_cons _ kind₃, spelled]

theorem operandsFrom_reads {connective : Connective} {operand : Reading} {depth : Nat}
    {part : Phrase} {follow : List Token → Prop} (complete : Reads operand depth part follow)
    (followed : ∀ token rest, token.isConnective connective = true → follow (token :: rest))
    {tokens rest : List Token} {rules : List Rule} (run : Run connective part tokens rules)
    (ends : follow rest) (stops : StopsAt connective rest) {bound : Nat} (taken : List Rule)
    (stop : Nat) (enough : (tokens ++ rest).length < bound) :
    ∃ stop', operandsFrom connective operand bound taken ⟨tokens ++ rest, stop, depth⟩ =
      .ok (taken.reverse ++ rules, ⟨rest, stop', depth⟩) := by
  induction run generalizing bound taken stop with
  | @last tokens rule derived =>
    obtain ⟨bound, rfl⟩ := Nat.exists_eq_add_of_lt enough
    obtain ⟨stop', first⟩ := complete tokens rule rest stop derived ends
    refine ⟨stop', ?_⟩
    have stopped : Cursor.isAt connective ⟨rest, stop', depth⟩ = false := stops
    simp [operandsFrom, first, stopped]
  | @more tokens more token rule rules derived is _ ih =>
    cases bound with
    | zero => omega
    | succ bound =>
      obtain ⟨stop', first⟩ :=
        complete tokens rule (token :: more ++ rest) stop derived (followed token _ is)
      have goes_on : Cursor.isAt connective ⟨token :: more ++ rest, stop', depth⟩ = true := is
      have shorter : (more ++ rest).length < bound := by
        simp only [List.length_append, List.length_cons] at enough ⊢
        omega
      obtain ⟨stop'', others⟩ := ih (rule :: taken) token.span.stop shorter
      refine ⟨stop'', ?_⟩
      rw [List.append_assoc, operandsFrom, first]
      simp only [goes_on, if_true]
      simpa [Cursor.advance] using others

theorem operands_reads {connective : Connective} {operand : Reading} {depth : Nat}
    {part : Phrase} {follow : List Token → Prop} (complete : Reads operand depth part follow)
    (followed : ∀ token rest, token.isConnective connective = true → follow (token :: rest))
    {tokens rest : List Token} {rules : List Rule} (run : Run connective part tokens rules)
    (ends : follow rest) (stops : StopsAt connective rest) (stop : Nat) :
    ∃ stop', operands connective operand ⟨tokens ++ rest, stop, depth⟩ =
      .ok (rules, ⟨rest, stop', depth⟩) :=
  operandsFrom_reads complete followed run ends stops [] stop (Nat.lt_succ_self _)

theorem joined_reads {connective : Connective} (node : List Rule → Rule) {operand : Reading}
    {depth : Nat} {part : Phrase} {follow : List Token → Prop}
    (complete : Reads operand depth part follow)
    (followed : ∀ token rest, token.isConnective connective = true → follow (token :: rest)) :
    Reads (joined connective node operand) depth (Joined connective node part)
      fun rest => follow rest ∧ StopsAt connective rest := by
  rintro tokens rule rest stop derived ⟨ends, stops⟩
  obtain ⟨rules, run, rfl⟩ := joined_iff.1 derived
  obtain ⟨stop', found⟩ := operands_reads complete followed run ends stops stop
  exact ⟨stop', bind_eq_ok.2 ⟨_, found, rfl⟩⟩

theorem disjunction_reads {operand : Reading} {depth : Nat} {unary : Phrase}
    (complete : Reads operand depth unary fun _ => True) :
    Reads (disjunction operand) depth (Disjunction unary)
      fun rest => StopsAt .and rest ∧ StopsAt .or rest := by
  have conjunctions := @joined_reads .and .all _ _ _ _ complete fun _ _ _ => trivial
  have followed : ∀ token rest, token.isConnective .or = true →
      True ∧ StopsAt .and (token :: rest) :=
    fun _ rest is => ⟨trivial, stopsAt_of_isConnective (by decide) is rest⟩
  rintro tokens rule rest stop derived ⟨stops, stops'⟩
  rw [disjunction_eq]
  exact joined_reads .any conjunctions followed tokens rule rest stop derived
    ⟨⟨trivial, stops⟩, stops'⟩

theorem operand_eq_clause (levels : Nat) {cursor : Cursor} (stops : StopsAt .not cursor.rest)
    (not_open : cursor.rest.head?.any (·.kind == .openParen) = false) :
    operand (levels + 1) cursor = clause cursor := by
  have stopped : cursor.isAt .not = false := stops
  simp [operand, stopped, not_open]

theorem operand_reads {depth levels : Nat} (room : depth + levels = nestingLimit) :
    Reads (operand (levels + 1)) depth (Unary levels) fun _ => True := by
  have clauses (levels : Nat) {property operator value : Token} {op : Comparator}
      (kind₁ : property.kind = .property) (kind₂ : operator.kind = .operator)
      (spelled : Comparator.ofSymbol? operator.text = some op) (kind₃ : value.kind = .value)
      (rest : List Token) (stop depth : Nat) := by
    refine (operand_eq_clause levels ?_ ?_).trans
      (clause_reads kind₁ kind₂ spelled kind₃ rest stop depth)
    · exact stopsAt_of_kind .not (by simp [kind₁]) _
    · simp [kind₁]
  induction levels generalizing depth with
  | zero =>
    intro tokens rule rest stop derived _
    cases derived with
    | clause kind₁ kind₂ spelled kind₃ => exact ⟨_, clauses 0 kind₁ kind₂ spelled kind₃ _ _ _⟩
    | negation _ inner => exact inner.elim
    | group _ inner _ => exact (not_disjunction_false inner).elim
  | succ levels ih =>
    intro tokens rule rest stop derived _
    have room' : depth < nestingLimit := by omega
    have below := @ih (depth + 1) (by omega)
    cases derived with
    | clause kind₁ kind₂ spelled kind₃ => exact ⟨_, clauses _ kind₁ kind₂ spelled kind₃ _ _ _⟩
    | @negation sign tokens rule is inner =>
      obtain ⟨stop', found⟩ := below tokens rule rest sign.span.stop inner trivial
      have negated : Cursor.isAt .not ⟨sign :: (tokens ++ rest), stop, depth⟩ = true := is
      refine ⟨stop', ?_⟩
      rw [List.cons_append, operand]
      simp [negated, Cursor.enter_cons room', bind, Except.bind, found, Cursor.leave]
    | @group opening closing tokens rule opens inner closes =>
      obtain ⟨stop', found⟩ := disjunction_reads below tokens rule (closing :: rest)
        opening.span.stop inner
        ⟨stopsAt_of_kind _ (by simp [closes]) _, stopsAt_of_kind _ (by simp [closes]) _⟩
      have positive : Cursor.isAt .not ⟨opening :: (tokens ++ closing :: rest), stop, depth⟩ =
          false := stopsAt_of_kind _ (by simp [opens]) _
      refine ⟨closing.span.stop, ?_⟩
      rw [List.cons_append, List.append_assoc, List.singleton_append, operand]
      simp [positive, opens, Cursor.enter_cons room', bind, Except.bind, found,
        Cursor.expect_cons _ closes, Cursor.leave]

end Reading

/-! ## The whole list -/

namespace Rule

theorem derives_of_parse {tokens : List Token} {rule : Rule} (h : parse tokens = .ok rule) :
    Grammar.Derives nestingLimit tokens rule := by
  unfold parse at h
  split at h
  · cases h
  split at h
  · cases h
  split at h
  · cases h
  next found =>
    split at h
    · next ended =>
      cases h
      obtain ⟨taken, split, derived, -⟩ :=
        Reading.disjunction_takes (Reading.operand_takes (Nat.zero_add _)) _ _ _ rfl found
      obtain rfl : tokens = taken :=
        split.trans (by rw [ended, List.append_nil])
      exact derived
    · cases h

theorem parse_of_derives {tokens : List Token} {rule : Rule}
    (h : Grammar.Derives nestingLimit tokens rule) : parse tokens = .ok rule := by
  have balanced := imbalance?_eq_none_iff.2 (h.openAfter?_eq 0)
  obtain ⟨stop, found⟩ := Reading.disjunction_reads (Reading.operand_reads (Nat.zero_add _))
    tokens rule [] 0 h ⟨rfl, rfl⟩
  rw [List.append_nil] at found
  have whole : Reading.rule (.start tokens) = .ok (rule, ⟨[], stop, 0⟩) := found
  unfold parse
  rw [if_neg (by simp [h.ne_nil]), balanced]
  simp only [whole]

/-- Parsing finds a rule exactly when the grammar derives it, with no token under more parentheses
and NOTs than the limit allows. -/
theorem parse_eq_ok_iff_derives {tokens : List Token} {rule : Rule} :
    parse tokens = .ok rule ↔ Grammar.Derives nestingLimit tokens rule :=
  ⟨derives_of_parse, parse_of_derives⟩

theorem parse_eq_ok_iff_derives_three :
    let clause (start : Nat) (literal : String) : List Token :=
      [⟨.property, "Age", ⟨start, start + 3⟩, none⟩, ⟨.operator, ">", ⟨start + 4, start + 5⟩, none⟩,
        ⟨.value, literal, ⟨start + 6, start + 7⟩, none⟩]
    let sign (start : Nat) (word : String) : Token :=
      ⟨.logical, word, ⟨start, start + word.length⟩, none⟩
    let conjuncts := clause 16 "2" ++ sign 24 "and" :: (clause 28 "3" ++ sign 36 "AND" ::
      clause 40 "4")
    let disjuncts := clause 5 "1" ++ sign 13 "or" :: conjuncts
    let tokens := sign 0 "not" :: ⟨.openParen, "(", ⟨4, 5⟩, none⟩ ::
      (disjuncts ++ [⟨.closeParen, ")", ⟨47, 48⟩, none⟩])
    let leaf (start : Nat) (literal : String) : Rule :=
      .clause ⟨"Age", .gt, literal, ⟨start, start + 7⟩⟩
    let rule : Rule := .negation (.any [leaf 5 "1", .all [leaf 16 "2", leaf 28 "3", leaf 40 "4"]])
    Grammar.Derives nestingLimit tokens rule ∧ parse tokens = .ok rule := by
  intro clause sign conjuncts disjuncts tokens leaf rule
  have spelled : Comparator.ofSymbol? ">" = some .gt := rfl
  have operand (start : Nat) (literal : String) :
      Grammar.Unary 126 (clause start literal) (leaf start literal) :=
    .clause 126 rfl rfl spelled rfl
  have conjunction : Grammar.Conjunction (Grammar.Unary 126) conjuncts
      (.all [leaf 16 "2", leaf 28 "3", leaf 40 "4"]) :=
    .several (by decide) (.more (operand 16 "2") (by decide) (.more (operand 28 "3") (by decide)
      (.last (operand 40 "4"))))
  have disjunction : Grammar.Disjunction (Grammar.Unary 126) disjuncts _ :=
    .several (by decide) (.more (.single (operand 5 "1")) (by decide) (.last conjunction))
  have group : Grammar.Unary 127 tokens.tail _ := .group rfl disjunction rfl
  have negation : Grammar.Unary 128 tokens rule := .negation (by decide) group
  have derived : Grammar.Derives nestingLimit tokens rule := .single (.single negation)
  exact ⟨derived, parse_eq_ok_iff_derives.2 derived⟩

end Rule
end RuleFilter

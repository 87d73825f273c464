import RuleFilter.Proofs.Rule.Clauses

namespace RuleFilter

inductive Form where
  | leaf
  | all (forms : List Form)
  | any (forms : List Form)
  | negation (form : Form)

namespace Form

mutual

def height : Form → Nat
  | .leaf => 1
  | .all forms => tallest forms + 1
  | .any forms => tallest forms + 1
  | .negation form => height form + 1

def tallest : List Form → Nat
  | [] => 0
  | form :: forms => max (height form) (tallest forms)

end

inductive Branching : Form → Prop
  | leaf : Branching .leaf
  | all {forms : List Form} : 2 ≤ forms.length → (∀ form ∈ forms, Branching form) →
      Branching (.all forms)
  | any {forms : List Form} : 2 ≤ forms.length → (∀ form ∈ forms, Branching form) →
      Branching (.any forms)
  | negation {form : Form} : Branching form → Branching (.negation form)

theorem tallest_le_iff {forms : List Form} {bound : Nat} :
    tallest forms ≤ bound ↔ ∀ form ∈ forms, form.height ≤ bound := by
  induction forms with
  | nil => simp [tallest]
  | cons form forms ih => rw [tallest, Nat.max_le, ih, List.forall_mem_cons]

end Form

namespace Rule

mutual

def form : Rule → Form
  | .clause _ => .leaf
  | .all rules => .all (forms rules)
  | .any rules => .any (forms rules)
  | .negation rule => .negation (form rule)

def forms : List Rule → List Form
  | [] => []
  | rule :: rules => form rule :: forms rules

end

theorem forms_eq_map (rules : List Rule) : forms rules = rules.map form := by
  induction rules with
  | nil => rfl
  | cons rule rules ih => rw [forms, ih, List.map_cons]

theorem height_join_le {node : List Rule → Rule}
    (several : ∀ rules, (node rules).form.height = Form.tallest (forms rules) + 1)
    {rules : List Rule} {bound : Nat} (operands : ∀ rule ∈ rules, rule.form.height ≤ bound) :
    (join node rules).form.height ≤ bound + 1 := by
  unfold join
  split
  · next rule => exact Nat.le_succ_of_le (operands rule List.mem_cons_self)
  · rw [several, forms_eq_map]
    apply Nat.succ_le_succ
    rw [Form.tallest_le_iff, List.forall_mem_map]
    exact operands

end Rule

namespace Grammar

/-! ## Height -/

theorem Joined.height_le {connective : Connective} {node : List Rule → Rule} {part : Phrase}
    {bound : Nat}
    (several : ∀ rules, (node rules).form.height = Form.tallest (Rule.forms rules) + 1)
    (parts : ∀ tokens rule, part tokens rule → rule.form.height ≤ bound) {tokens : List Token}
    {rule : Rule} (joined : Joined connective node part tokens rule) :
    rule.form.height ≤ bound + 1 := by
  obtain ⟨rules, run, rfl⟩ := joined_iff.1 joined
  exact Rule.height_join_le several (run.forall_mem parts)

theorem Disjunction.height_le {unary : Phrase} {bound : Nat}
    (parts : ∀ tokens rule, unary tokens rule → rule.form.height ≤ bound) {tokens : List Token}
    {rule : Rule} (derived : Disjunction unary tokens rule) : rule.form.height ≤ bound + 2 :=
  Joined.height_le (fun _ => rfl)
    (fun _ _ part => Joined.height_le (fun _ => rfl) parts part) derived

theorem Unary.height_le {levels : Nat} {tokens : List Token} {rule : Rule}
    (derived : Unary levels tokens rule) : rule.form.height ≤ 2 * levels + 1 := by
  induction levels generalizing tokens rule with
  | zero =>
    cases derived with
    | clause => exact Nat.le_refl 1
    | negation _ inner => exact inner.elim
    | group _ inner _ => exact (not_disjunction_false inner).elim
  | succ levels ih =>
    cases derived with
    | clause => exact Nat.le_add_left ..
    | negation _ inner =>
      have inside := ih inner
      rw [Rule.form, Form.height]
      omega
    | group _ inner _ =>
      have inside := inner.height_le fun _ _ part => ih part
      omega

/-- Each level brings an OR and an AND at most, and so does the whole rule. -/
theorem Derives.height_le {levels : Nat} {tokens : List Token} {rule : Rule}
    (derived : Derives levels tokens rule) : rule.form.height ≤ 2 * levels + 3 :=
  Disjunction.height_le (fun _ _ part => part.height_le) derived

/-! ## Branching -/

theorem Run.branching {connective : Connective} {tokens : List Token} {rules : List Rule}
    (run : Run connective (fun _ rule => rule.form.Branching) tokens rules) :
    ∀ form ∈ Rule.forms rules, form.Branching := by
  rw [Rule.forms_eq_map, List.forall_mem_map]
  exact run.forall_mem (P := fun rule => rule.form.Branching) fun _ _ branching => branching

theorem Derives.branching {levels : Nat} {tokens : List Token} {rule : Rule}
    (derived : Derives levels tokens rule) : rule.form.Branching := by
  apply derived.induction (P := fun _ rule => rule.form.Branching)
  case clause => intros; exact .leaf
  case negation => intro _ _ _ _ inside; exact .negation inside
  case group => intro _ _ _ _ _ _ inside; exact inside
  case all =>
    intro _ rules several run
    exact .all (by rwa [Rule.forms_eq_map, List.length_map]) run.branching
  case any =>
    intro _ rules several run
    exact .any (by rwa [Rule.forms_eq_map, List.length_map]) run.branching

end Grammar

/-! ## Triples -/

def tripleAt? : List Token → Option (Token × Token × Token)
  | property :: operator :: value :: _ =>
    if property.kind = .property ∧ operator.kind = .operator ∧ value.kind = .value then
      some (property, operator, value)
    else none
  | _ => none

def triples : List Token → List (Token × Token × Token)
  | [] => []
  | token :: tokens => (tripleAt? (token :: tokens)).toList ++ triples tokens

def Clause.ofTriple? : Token × Token × Token → Option Clause
  | (property, operator, value) => (Comparator.ofSymbol? operator.text).map fun op =>
    ⟨property.text, op, value.text, ⟨property.span.start, value.span.stop⟩⟩

theorem triples_append {token : Token} (other : token.kind ∉ [.property, .operator, .value])
    (tokens rest : List Token) :
    triples (tokens ++ token :: rest) = triples tokens ++ triples rest := by
  simp only [List.mem_cons, List.not_mem_nil, not_or] at other
  obtain ⟨property, operator, value, -⟩ := other
  induction tokens with
  | nil =>
    have none : tripleAt? (token :: rest) = none := by
      unfold tripleAt?
      split
      · next split =>
        cases split
        exact if_neg fun kinds => property kinds.1
      · rfl
    simp only [List.nil_append, triples, none, Option.toList_none]
  | cons first tokens ih =>
    have same : tripleAt? (first :: (tokens ++ token :: rest)) = tripleAt? (first :: tokens) := by
      rcases tokens with - | ⟨second, _ | ⟨third, tokens⟩⟩
      · cases rest <;> simp [tripleAt?, operator]
      · simp [tripleAt?, value]
      · rfl
    rw [List.cons_append, triples, same, ih, triples, List.append_assoc]

namespace Grammar

theorem Derives.map_triples {levels : Nat} {tokens : List Token} {rule : Rule}
    (derived : Derives levels tokens rule) :
    (triples tokens).map Clause.ofTriple? = rule.clauses.map some := by
  apply derived.clauses_induction
    (P := fun tokens clauses => (triples tokens).map Clause.ofTriple? = clauses.map some)
  case clause =>
    intro property operator value op kind₁ kind₂ spelled kind₃
    have listed : triples [property, operator, value] = [(property, operator, value)] := by
      simp [triples, tripleAt?, kind₁, kind₂, kind₃]
    rw [listed, List.map_singleton, Clause.ofTriple?, spelled]
    rfl
  case negation =>
    intro sign tokens clauses is inside
    have kind := Token.kind_of_isConnective is
    have apart : triples (sign :: tokens) = triples tokens :=
      triples_append (by simp [kind]) [] tokens
    rw [apart, inside]
  case group =>
    intro opening closing tokens clauses opens closes inside
    have apart : triples (opening :: (tokens ++ [closing])) = triples (tokens ++ [closing]) :=
      triples_append (by simp [opens]) [] _
    rw [apart, triples_append (by simp [closes]), triples, List.append_nil, inside]
  case joined =>
    intro connective token tokens rest clauses clauses' _ is left right
    have kind := Token.kind_of_isConnective is
    rw [triples_append (by simp [kind]), List.map_append, left, right, List.map_append]

end Grammar
end RuleFilter

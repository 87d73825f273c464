import RuleFilter.Proofs.Rule.Grammar

namespace RuleFilter
namespace Rule

mutual

theorem clausesOnto_eq (taken : List Clause) : ∀ rule : Rule,
    clausesOnto taken rule = rule.clauses.reverse ++ taken
  | .clause c => rfl
  | .all rules => by
    simp only [clauses, clausesOnto, clausesOfOnto_eq _ rules, List.reverse_reverse,
      List.append_nil]
  | .any rules => by
    simp only [clauses, clausesOnto, clausesOfOnto_eq _ rules, List.reverse_reverse,
      List.append_nil]
  | .negation rule => clausesOnto_eq taken rule

theorem clausesOfOnto_eq (taken : List Clause) : ∀ rules : List Rule,
    clausesOfOnto taken rules = (rules.flatMap clauses).reverse ++ taken
  | [] => rfl
  | rule :: rules => by
    rw [clausesOfOnto, clausesOfOnto_eq _ rules, clausesOnto_eq _ rule, List.flatMap_cons,
      List.reverse_append, List.append_assoc]

end

@[simp] theorem clauses_clause (c : Clause) : (clause c).clauses = [c] := rfl

@[simp] theorem clauses_all (rules : List Rule) : (all rules).clauses = rules.flatMap clauses := by
  rw [clauses, clausesOnto, clausesOfOnto_eq, List.append_nil, List.reverse_reverse]

@[simp] theorem clauses_any (rules : List Rule) : (any rules).clauses = rules.flatMap clauses := by
  rw [clauses, clausesOnto, clausesOfOnto_eq, List.append_nil, List.reverse_reverse]

@[simp] theorem clauses_negation (rule : Rule) : (negation rule).clauses = rule.clauses := rfl

end Rule

namespace Grammar

variable {P : List Token → List Clause → Prop}

theorem Run.clauses_induction {connective : Connective}
    (joined : ∀ (token : Token) tokens rest clauses clauses',
      token.isConnective connective = true → P tokens clauses → P rest clauses' →
      P (tokens ++ token :: rest) (clauses ++ clauses'))
    {tokens : List Token} {rules : List Rule}
    (run : Run connective (fun tokens rule => P tokens rule.clauses) tokens rules) :
    P tokens (rules.flatMap Rule.clauses) := by
  induction run with
  | last h =>
    rw [List.flatMap_singleton]
    exact h
  | more h is _ ih => exact joined _ _ _ _ _ is h ih

section

variable
  (clause : ∀ (property operator value : Token) op, property.kind = .property →
    operator.kind = .operator → Comparator.ofSymbol? operator.text = some op →
    value.kind = .value → P [property, operator, value]
      [⟨property.text, op, value.text, ⟨property.span.start, value.span.stop⟩⟩])
  (negation : ∀ (sign : Token) tokens clauses, sign.isConnective .not = true →
    P tokens clauses → P (sign :: tokens) clauses)
  (group : ∀ (opening closing : Token) tokens clauses, opening.kind = .openParen →
    closing.kind = .closeParen → P tokens clauses → P (opening :: (tokens ++ [closing])) clauses)
  (joined : ∀ connective (token : Token) tokens rest clauses clauses', connective ≠ .not →
    token.isConnective connective = true → P tokens clauses → P rest clauses' →
    P (tokens ++ token :: rest) (clauses ++ clauses'))

include clause negation group joined

theorem Derives.clauses_induction {levels : Nat} {tokens : List Token} {rule : Rule}
    (h : Derives levels tokens rule) : P tokens rule.clauses := by
  refine h.induction (P := fun tokens rule => P tokens rule.clauses) ?_ ?_ ?_ ?_ ?_
  · exact clause
  · exact fun _ _ _ => negation _ _ _
  · exact fun _ _ _ _ => group _ _ _ _
  · intro tokens rules _ run
    rw [Rule.clauses_all]
    exact run.clauses_induction fun token _ _ _ _ => joined .and token _ _ _ _ nofun
  · intro tokens rules _ run
    rw [Rule.clauses_any]
    exact run.clauses_induction fun token _ _ _ _ => joined .or token _ _ _ _ nofun

end

theorem Derives.clauses_ne_nil {levels : Nat} {tokens : List Token} {rule : Rule}
    (h : Derives levels tokens rule) : rule.clauses ≠ [] := by
  refine h.clauses_induction (P := fun _ clauses => clauses ≠ []) ?_ ?_ ?_ ?_
  · exact fun _ _ _ _ _ _ _ _ => List.cons_ne_nil _ _
  · exact fun _ _ _ _ inside => inside
  · exact fun _ _ _ _ _ _ inside => inside
  · exact fun _ _ _ _ _ _ _ _ left _ => List.append_ne_nil_of_left_ne_nil left _

theorem Derives.map_property {levels : Nat} {tokens : List Token} {rule : Rule}
    (h : Derives levels tokens rule) :
    rule.clauses.map Clause.property =
      (tokens.filter (·.kind == .property)).map Token.text := by
  refine h.clauses_induction (P := fun tokens clauses =>
    clauses.map Clause.property = (tokens.filter (·.kind == .property)).map Token.text) ?_ ?_ ?_ ?_
  · intro property operator value op kind₁ kind₂ _ kind₃
    simp [kind₁, kind₂, kind₃]
  · intro sign tokens clauses is inside
    simp [Token.kind_of_isConnective is, inside]
  · intro opening closing tokens clauses kind kind' inside
    simp [kind, kind', inside]
  · intro connective token tokens rest clauses clauses' _ is left right
    simp [Token.kind_of_isConnective is, left, right]

theorem Derives.exists_token {levels : Nat} {tokens : List Token} {rule : Rule}
    (h : Derives levels tokens rule) {clause : Clause} (member : clause ∈ rule.clauses) :
    ∃ token ∈ tokens, token.kind = .property ∧ token.text = clause.property := by
  have listed := List.mem_map_of_mem (f := Clause.property) member
  rw [h.map_property] at listed
  obtain ⟨token, kept, text⟩ := List.mem_map.1 listed
  obtain ⟨inside, kind⟩ := List.mem_filter.1 kept
  exact ⟨token, inside, beq_iff_eq.1 kind, text⟩

end Grammar
end RuleFilter

import RuleFilter.Proofs.Condition.Compiling
import RuleFilter.Proofs.Rule.Form
import RuleFilter.Proofs.Rule.Parsing

namespace RuleFilter

namespace Condition

mutual

def form : Condition → Form
  | .comparison _ => .leaf
  | .all conditions => .all (forms conditions)
  | .any conditions => .any (forms conditions)
  | .negation condition => .negation (form condition)

def forms : List Condition → List Form
  | [] => []
  | condition :: conditions => form condition :: forms conditions

end

theorem forms_append (front back : List Condition) :
    forms (front ++ back) = forms front ++ forms back := by
  induction front with
  | nil => rfl
  | cons condition front ih => rw [List.cons_append, forms, forms, ih, List.cons_append]

end Condition

namespace Rule

mutual

theorem form_of_compile {schema : Schema} : ∀ {rule : Rule} {condition : Condition},
    rule.compile schema = .ok condition → condition.form = rule.form
  | .clause _, _, compiles => by
    rw [compile] at compiles
    obtain ⟨comparison, -, rfl⟩ := map_eq_ok_iff.1 compiles
    rfl
  | .all _, _, compiles => by
    rw [compile] at compiles
    obtain ⟨conditions, compiled, rfl⟩ := map_eq_ok_iff.1 compiles
    rw [form, Condition.form, forms_of_compileFrom compiled]
    rfl
  | .any _, _, compiles => by
    rw [compile] at compiles
    obtain ⟨conditions, compiled, rfl⟩ := map_eq_ok_iff.1 compiles
    rw [form, Condition.form, forms_of_compileFrom compiled]
    rfl
  | .negation _, _, compiles => by
    rw [compile] at compiles
    obtain ⟨negated, compiled, rfl⟩ := map_eq_ok_iff.1 compiles
    rw [form, Condition.form, form_of_compile compiled]

theorem forms_of_compileFrom {schema : Schema} : ∀ {rules : List Rule}
    {taken conditions : List Condition}, compileFrom schema taken rules = .ok conditions →
      Condition.forms conditions = Condition.forms taken.reverse ++ forms rules
  | [], _, _, compiles => by
    cases compiles
    exact (List.append_nil _).symm
  | rule :: rules, taken, _, compiles => by
    rw [compileFrom] at compiles
    split at compiles
    · cases compiles
    · next condition compiled =>
      rw [forms_of_compileFrom compiles, List.reverse_cons, Condition.forms_append, forms,
        ← form_of_compile compiled, List.append_assoc]
      rfl

end

/-- A rule that was read branches wherever it joins, its clauses are the triples of a property, an
operator and a value among its tokens, and neither it nor a condition that it compiles to is higher
than the nesting limit allows, however many tokens there are. -/
theorem form_of_parse {tokens : List Token} {rule : Rule} (parsed : parse tokens = .ok rule) :
    rule.form.Branching ∧ (triples tokens).map Clause.ofTriple? = rule.clauses.map some ∧
      rule.form.height ≤ 2 * nestingLimit + 3 ∧
      ∀ schema condition, rule.compile schema = .ok condition →
        condition.form = rule.form ∧ condition.form.height ≤ 2 * nestingLimit + 3 := by
  have derived := derives_of_parse parsed
  have bounded : rule.form.height ≤ 2 * nestingLimit + 3 := derived.height_le
  refine ⟨derived.branching, derived.map_triples, bounded, fun schema condition compiles => ?_⟩
  have same := form_of_compile compiles
  exact ⟨same, same ▸ bounded⟩

theorem form_of_parse_age :
    let schema : Schema := ⟨[⟨"Age", .integer, none⟩], by decide⟩
    let young : List Token := [⟨.property, "Age", ⟨5, 8⟩, none⟩, ⟨.operator, "<", ⟨9, 10⟩, none⟩,
      ⟨.value, "18", ⟨11, 13⟩, none⟩]
    let old : List Token := [⟨.property, "age", ⟨17, 20⟩, none⟩, ⟨.operator, ">", ⟨21, 22⟩, none⟩,
      ⟨.value, "65", ⟨23, 25⟩, none⟩]
    let tokens : List Token := ⟨.logical, "NOT", ⟨0, 3⟩, none⟩ :: ⟨.openParen, "(", ⟨4, 5⟩, none⟩ ::
      young ++ ⟨.logical, "OR", ⟨14, 16⟩, none⟩ :: old ++ [⟨.closeParen, ")", ⟨25, 26⟩, none⟩]
    let rule : Rule := .negation (.any [.clause ⟨"Age", .lt, "18", ⟨5, 13⟩⟩,
      .clause ⟨"age", .gt, "65", ⟨17, 25⟩⟩])
    let condition : Condition := .negation (.any [.comparison ⟨"Age", .integer, .lt, .integer 18⟩,
      .comparison ⟨"Age", .integer, .gt, .integer 65⟩])
    parse tokens = .ok rule ∧ rule.compile schema = .ok condition ∧ rule.form.Branching ∧
      condition.form = rule.form ∧ condition.form.height ≤ 2 * nestingLimit + 3 := by
  intro schema young old tokens rule condition
  have parsed : parse tokens = .ok rule := by rfl
  have compiles : rule.compile schema = .ok condition := by rfl
  obtain ⟨branching, -, -, compiled⟩ := form_of_parse parsed
  exact ⟨parsed, compiles, branching, compiled schema condition compiles⟩

end Rule
end RuleFilter

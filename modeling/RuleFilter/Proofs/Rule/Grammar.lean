import RuleFilter.Rule.Parser

/-!
# The grammar of rules

`Grammar.Derives levels tokens rule` says that the tokens form the rule, without a word on how they
are read:

* or ::= and (OR and)\*
* and ::= unary (AND unary)\*
* unary ::= NOT unary | `(` or `)` | property operator value

where no token stands under more than `levels` parentheses and NOTs. Parentheses leave no trace in
the rule, and a run of one connective is one node. `Derives.tokens_induction` is the induction over
the tokens of a derivation, and `Derives.induction` that over its tokens and rules.
-/

namespace RuleFilter

abbrev Phrase := List Token → Rule → Prop

namespace Grammar

inductive Run (connective : Connective) (part : Phrase) : List Token → List Rule → Prop
  | last {tokens : List Token} {rule : Rule} : part tokens rule → Run connective part tokens [rule]
  | more {tokens rest : List Token} {token : Token} {rule : Rule} {rules : List Rule} :
      part tokens rule → token.isConnective connective = true → Run connective part rest rules →
      Run connective part (tokens ++ token :: rest) (rule :: rules)

/-- A single part stands alone, and a run of two or more makes one node of their rules in order. -/
inductive Joined (connective : Connective) (node : List Rule → Rule) (part : Phrase) :
    List Token → Rule → Prop
  | single {tokens : List Token} {rule : Rule} : part tokens rule →
      Joined connective node part tokens rule
  | several {tokens : List Token} {rules : List Rule} : 2 ≤ rules.length →
      Run connective part tokens rules → Joined connective node part tokens (node rules)

/-- and ::= unary (AND unary)\* -/
def Conjunction (unary : Phrase) : Phrase :=
  Joined .and .all unary

/-- or ::= and (OR and)\* -/
def Disjunction (unary : Phrase) : Phrase :=
  Joined .or .any (Conjunction unary)

/-- unary ::= NOT unary | `(` or `)` | property operator value, where `inner` is the unary of the
level below. -/
inductive Operand (inner : Phrase) : List Token → Rule → Prop
  | clause {property operator value : Token} {op : Comparator} :
      property.kind = .property → operator.kind = .operator →
      Comparator.ofSymbol? operator.text = some op → value.kind = .value →
      Operand inner [property, operator, value]
        (.clause ⟨property.text, op, value.text, ⟨property.span.start, value.span.stop⟩⟩)
  | negation {sign : Token} {tokens : List Token} {rule : Rule} :
      sign.isConnective .not = true → inner tokens rule →
      Operand inner (sign :: tokens) (.negation rule)
  | group {opening closing : Token} {tokens : List Token} {rule : Rule} :
      opening.kind = .openParen → Disjunction inner tokens rule → closing.kind = .closeParen →
      Operand inner (opening :: (tokens ++ [closing])) rule

def Unary : (levels : Nat) → Phrase
  | 0 => Operand fun _ _ => False
  | levels + 1 => Operand (Unary levels)

theorem Unary.clause (levels : Nat) {property operator value : Token} {op : Comparator}
    (kind₁ : property.kind = .property) (kind₂ : operator.kind = .operator)
    (spelled : Comparator.ofSymbol? operator.text = some op) (kind₃ : value.kind = .value) :
    Unary levels [property, operator, value]
      (.clause ⟨property.text, op, value.text, ⟨property.span.start, value.span.stop⟩⟩) := by
  cases levels <;> exact Operand.clause kind₁ kind₂ spelled kind₃

/-- The tokens form the rule, and none of them stands under more than `levels` parentheses and
NOTs. -/
def Derives (levels : Nat) : Phrase :=
  Disjunction (Unary levels)

end Grammar

/-! ## Connectives -/

namespace Token

theorem isConnective_of_symbol {token : Token} {connective : Connective}
    (kind : token.kind = .logical) (text : token.text = connective.symbol) :
    token.isConnective connective = true := by
  rw [isConnective, kind, text, Text.sameLetters_refl]
  rfl

theorem kind_of_isConnective {token : Token} {connective : Connective}
    (h : token.isConnective connective = true) : token.kind = .logical := by
  simp only [isConnective, Bool.and_eq_true, beq_iff_eq] at h
  exact h.1

theorem isConnective_false_of_kind {token : Token} {connective : Connective}
    (h : token.kind ≠ .logical) : token.isConnective connective = false :=
  Bool.eq_false_iff.2 fun is => h (kind_of_isConnective is)

theorem eq_of_isConnective {token : Token} {a b : Connective}
    (ha : token.isConnective a = true) (hb : token.isConnective b = true) : a = b := by
  simp only [isConnective, Bool.and_eq_true, Text.sameLetters_iff] at ha hb
  have spelled : Text.foldCase a.symbol = Text.foldCase b.symbol := ha.2.symm.trans hb.2
  revert spelled
  cases a <;> cases b <;> decide

theorem isConnective_not_of_binary {token : Token} {connective : Connective}
    (binary : connective ≠ .not) (is : token.isConnective connective = true) :
    token.isConnective .not = false :=
  Bool.eq_false_iff.2 fun negative => binary (eq_of_isConnective is negative)

end Token

theorem Rule.join_of_two_le (node : List Rule → Rule) {rules : List Rule}
    (several : 2 ≤ rules.length) : join node rules = node rules := by
  rcases rules with - | ⟨rule, _ | ⟨second, rules⟩⟩
  · cases several
  · simp at several
  · rfl

/-! ## Induction over the tokens of a derivation -/

namespace Grammar

theorem Run.tokens_induction {connective : Connective} {part : Phrase} {P : List Token → Prop}
    (single : ∀ tokens rule, part tokens rule → P tokens)
    (joined : ∀ token tokens rest, token.isConnective connective = true → P tokens → P rest →
      P (tokens ++ token :: rest))
    {tokens : List Token} {rules : List Rule} (run : Run connective part tokens rules) :
    P tokens := by
  induction run with
  | last h => exact single _ _ h
  | more h is _ ih => exact joined _ _ _ is (single _ _ h) ih

theorem Joined.tokens_induction {connective : Connective} {node : List Rule → Rule} {part : Phrase}
    {P : List Token → Prop} (single : ∀ tokens rule, part tokens rule → P tokens)
    (joined : ∀ token tokens rest, token.isConnective connective = true → P tokens → P rest →
      P (tokens ++ token :: rest))
    {tokens : List Token} {rule : Rule} (h : Joined connective node part tokens rule) :
    P tokens := by
  cases h with
  | single part => exact single _ _ part
  | several _ run => exact run.tokens_induction single joined

theorem Disjunction.tokens_induction {unary : Phrase} {P : List Token → Prop}
    (single : ∀ tokens rule, unary tokens rule → P tokens)
    (joined : ∀ connective (token : Token) tokens rest, connective ≠ .not →
      token.isConnective connective = true → P tokens → P rest → P (tokens ++ token :: rest))
    {tokens : List Token} {rule : Rule} (h : Disjunction unary tokens rule) : P tokens := by
  have conjunctions (tokens : List Token) (rule : Rule) (part : Conjunction unary tokens rule) :
      P tokens :=
    part.tokens_induction single fun token tokens rest => joined .and token tokens rest nofun
  exact Joined.tokens_induction conjunctions
    (fun token tokens rest => joined .or token tokens rest nofun) h

theorem not_disjunction_false {tokens : List Token} {rule : Rule} :
    ¬ Disjunction (fun _ _ => False) tokens rule := fun h =>
  h.tokens_induction (P := fun _ => False) (fun _ _ h => h) fun _ _ _ _ _ _ h _ => h

section

variable {P : Nat → List Token → Prop}
  (clause : ∀ levels (property operator value : Token), property.kind = .property →
    operator.kind = .operator → value.kind = .value → P levels [property, operator, value])
  (negation : ∀ levels (sign : Token) tokens, sign.isConnective .not = true → P levels tokens →
    P (levels + 1) (sign :: tokens))
  (group : ∀ levels (opening closing : Token) tokens, opening.kind = .openParen →
    closing.kind = .closeParen → P levels tokens →
    P (levels + 1) (opening :: (tokens ++ [closing])))
  (joined : ∀ levels connective (token : Token) tokens rest, connective ≠ .not →
    token.isConnective connective = true → P levels tokens → P levels rest →
    P levels (tokens ++ token :: rest))

include clause negation group joined

theorem Unary.tokens_induction {levels : Nat} {tokens : List Token} {rule : Rule}
    (h : Unary levels tokens rule) : P levels tokens := by
  induction levels generalizing tokens rule with
  | zero =>
    cases h with
    | clause property operator _ value => exact clause 0 _ _ _ property operator value
    | negation _ inner => exact inner.elim
    | group _ inner _ => exact (not_disjunction_false inner).elim
  | succ levels ih =>
    cases h with
    | clause property operator _ value => exact clause _ _ _ _ property operator value
    | negation sign inner => exact negation levels _ _ sign (ih inner)
    | group opening inner closing =>
      have inside := inner.tokens_induction (fun _ _ h => ih h) (joined levels)
      exact group levels _ _ _ opening closing inside

theorem Derives.tokens_induction {levels : Nat} {tokens : List Token} {rule : Rule}
    (h : Derives levels tokens rule) : P levels tokens :=
  Disjunction.tokens_induction (fun _ _ h => h.tokens_induction clause negation group joined)
    (joined levels) h

end

theorem Derives.ne_nil {levels : Nat} {tokens : List Token} {rule : Rule}
    (h : Derives levels tokens rule) : tokens ≠ [] :=
  h.tokens_induction (P := fun _ tokens => tokens ≠ []) (fun _ _ _ _ _ _ _ => nofun)
    (fun _ _ _ _ _ => nofun) (fun _ _ _ _ _ _ _ => nofun)
    (fun _ _ _ _ _ _ _ _ _ => List.append_ne_nil_of_right_ne_nil _ nofun)

theorem Derives.known {levels : Nat} {tokens : List Token} {rule : Rule}
    (h : Derives levels tokens rule) : ∀ token ∈ tokens, token.kind ≠ .unknown := by
  refine h.tokens_induction (P := fun _ tokens => ∀ token ∈ tokens, token.kind ≠ .unknown)
    ?_ ?_ ?_ ?_
  · intro _ property operator value kind₁ kind₂ kind₃
    simp [kind₁, kind₂, kind₃]
  · intro _ sign tokens is inner
    simpa [Token.kind_of_isConnective is] using inner
  · intro _ opening closing tokens kind kind' inner
    simpa [kind, kind', or_imp, forall_and] using inner
  · intro _ connective token tokens rest _ is left right
    simpa [Token.kind_of_isConnective is, or_imp, forall_and] using ⟨left, right⟩

/-! ## Induction over a derivation -/

theorem Run.imp {connective : Connective} {part part' : Phrase}
    (implies : ∀ tokens rule, part tokens rule → part' tokens rule) {tokens : List Token}
    {rules : List Rule} (run : Run connective part tokens rules) :
    Run connective part' tokens rules := by
  induction run with
  | last h => exact .last (implies _ _ h)
  | more h is _ ih => exact .more (implies _ _ h) is ih

theorem Run.forall_mem {connective : Connective} {part : Phrase} {P : Rule → Prop}
    (implies : ∀ tokens rule, part tokens rule → P rule) {tokens : List Token} {rules : List Rule}
    (run : Run connective part tokens rules) : ∀ rule ∈ rules, P rule := by
  induction run with
  | last h => exact List.forall_mem_singleton.2 (implies _ _ h)
  | more h _ _ ih => exact List.forall_mem_cons.2 ⟨implies _ _ h, ih⟩

theorem Run.ne_nil {connective : Connective} {part : Phrase} {tokens : List Token}
    {rules : List Rule} (run : Run connective part tokens rules) : rules ≠ [] := by
  cases run <;> exact List.cons_ne_nil _ _

theorem Joined.induction {connective : Connective} {node : List Rule → Rule} {part P : Phrase}
    (single : ∀ tokens rule, part tokens rule → P tokens rule)
    (several : ∀ tokens rules, 2 ≤ rules.length → Run connective P tokens rules →
      P tokens (node rules))
    {tokens : List Token} {rule : Rule} (h : Joined connective node part tokens rule) :
    P tokens rule := by
  cases h with
  | single part => exact single _ _ part
  | several two run => exact several _ _ two (run.imp single)

/-- The parser joins the rules of a run as the grammar does. -/
theorem joined_iff {connective : Connective} {node : List Rule → Rule} {part : Phrase}
    {tokens : List Token} {rule : Rule} :
    Joined connective node part tokens rule ↔
      ∃ rules, Run connective part tokens rules ∧ rule = Rule.join node rules := by
  constructor
  · intro joined
    cases joined with
    | @single rule part => exact ⟨[rule], .last part, rfl⟩
    | @several rules two run => exact ⟨rules, run, (Rule.join_of_two_le node two).symm⟩
  · rintro ⟨rules, run, rfl⟩
    cases run with
    | last part => exact .single part
    | more part is others =>
      obtain ⟨second, rules, rfl⟩ := List.exists_cons_of_ne_nil others.ne_nil
      exact .several (Nat.le_add_left 2 rules.length) (.more part is others)

section

variable {P : Phrase}
  (clause : ∀ (property operator value : Token) op, property.kind = .property →
    operator.kind = .operator → Comparator.ofSymbol? operator.text = some op →
    value.kind = .value → P [property, operator, value]
      (.clause ⟨property.text, op, value.text, ⟨property.span.start, value.span.stop⟩⟩))
  (negation : ∀ (sign : Token) tokens rule, sign.isConnective .not = true → P tokens rule →
    P (sign :: tokens) (.negation rule))
  (group : ∀ (opening closing : Token) tokens rule, opening.kind = .openParen →
    closing.kind = .closeParen → P tokens rule → P (opening :: (tokens ++ [closing])) rule)
  (all : ∀ tokens rules, 2 ≤ rules.length → Run .and P tokens rules → P tokens (.all rules))
  (any : ∀ tokens rules, 2 ≤ rules.length → Run .or P tokens rules → P tokens (.any rules))

include clause negation group all any

theorem Unary.induction {levels : Nat} {tokens : List Token} {rule : Rule}
    (h : Unary levels tokens rule) : P tokens rule := by
  induction levels generalizing tokens rule with
  | zero =>
    cases h with
    | clause property operator spelled value => exact clause _ _ _ _ property operator spelled value
    | negation _ inner => exact inner.elim
    | group _ inner _ => exact (not_disjunction_false inner).elim
  | succ levels ih =>
    cases h with
    | clause property operator spelled value => exact clause _ _ _ _ property operator spelled value
    | negation sign inner =>
      have inside := ih inner
      exact negation _ _ _ sign inside
    | group opening inner closing =>
      have inside := inner.induction (fun _ _ part => part.induction (fun _ _ h => ih h) all) any
      exact group _ _ _ _ opening closing inside

/-- What holds of clauses and is kept by NOT, by parentheses and by joining two operands or more
holds of all tokens that form a rule and of the rule. -/
theorem Derives.induction {levels : Nat} {tokens : List Token} {rule : Rule}
    (h : Derives levels tokens rule) : P tokens rule :=
  Joined.induction
    (fun _ _ part => part.induction (fun _ _ h => h.induction clause negation group all any) all)
    any h

end

end Grammar
end RuleFilter

import RuleFilter.Proofs.Rule.Grammar

namespace RuleFilter

def Token.openAfter? (depth : Nat) (token : Token) : Option Nat :=
  match token.kind with
  | .openParen => some (depth + 1)
  | .closeParen => if depth = 0 then none else some (depth - 1)
  | _ => some depth

def openAfter? (depth : Nat) (tokens : List Token) : Option Nat :=
  tokens.foldlM Token.openAfter? depth

@[simp] theorem openAfter?_nil (depth : Nat) : openAfter? depth [] = some depth :=
  rfl

@[simp] theorem openAfter?_cons (depth : Nat) (token : Token) (tokens : List Token) :
    openAfter? depth (token :: tokens) =
      (token.openAfter? depth).bind fun depth => openAfter? depth tokens :=
  rfl

theorem openAfter?_append (depth : Nat) (tokens rest : List Token) :
    openAfter? depth (tokens ++ rest) =
      (openAfter? depth tokens).bind fun depth => openAfter? depth rest :=
  List.foldlM_append

namespace Token

theorem openAfter?_open {token : Token} (h : token.kind = .openParen) (depth : Nat) :
    token.openAfter? depth = some (depth + 1) := by
  simp [openAfter?, h]

theorem openAfter?_close {token : Token} (h : token.kind = .closeParen) (depth : Nat) :
    token.openAfter? (depth + 1) = some depth := by
  simp [openAfter?, h]

theorem openAfter?_other {token : Token} (h : token.kind.isParen = false) (depth : Nat) :
    token.openAfter? depth = some depth := by
  cases kind : token.kind <;> simp_all [openAfter?, TokenKind.isParen]

theorem openAfter?_cases {token : Token} {depth next : Nat}
    (counted : token.openAfter? depth = some next) :
    token.kind = .openParen ∧ next = depth + 1 ∨ token.kind = .closeParen ∧ depth = next + 1 ∨
      token.kind.isParen = false ∧ next = depth := by
  cases kind : token.kind with
  | openParen =>
    rw [openAfter?_open kind, Option.some.injEq] at counted
    exact .inl ⟨rfl, counted.symm⟩
  | closeParen =>
    cases depth with
    | zero => simp [openAfter?, kind] at counted
    | succ depth =>
      rw [openAfter?_close kind, Option.some.injEq] at counted
      exact .inr (.inl ⟨rfl, congrArg (· + 1) counted⟩)
  | _ =>
    rw [openAfter?_other (by rw [kind]; rfl), Option.some.injEq] at counted
    exact .inr (.inr ⟨rfl, counted.symm⟩)

theorem openAfter?_connective {token : Token} {connective : Connective}
    (h : token.isConnective connective = true) (depth : Nat) :
    token.openAfter? depth = some depth :=
  openAfter?_other (by rw [kind_of_isConnective h]; rfl) depth

end Token

theorem imbalanceFrom?_eq_none_iff {depth : Nat} {lastOpen : Span} {tokens : List Token} :
    imbalanceFrom? depth lastOpen tokens = none ↔ openAfter? depth tokens = some 0 := by
  induction tokens generalizing depth lastOpen with
  | nil =>
    simp only [imbalanceFrom?, openAfter?_nil, Option.some.injEq]
    split <;> simp <;> omega
  | cons token tokens ih =>
    unfold imbalanceFrom?
    split
    · next h => rw [ih, openAfter?_cons, Token.openAfter?_open h, Option.bind_some]
    · next h =>
      cases depth with
      | zero => simp [Token.openAfter?, h]
      | succ depth => simp [ih, Token.openAfter?_close h]
    · next opens closes =>
      have other : token.kind.isParen = false := by
        cases kind : token.kind <;> simp_all [TokenKind.isParen]
      rw [ih, openAfter?_cons, Token.openAfter?_other other, Option.bind_some]

theorem imbalance?_eq_none_iff {tokens : List Token} :
    imbalance? tokens = none ↔ openAfter? 0 tokens = some 0 :=
  imbalanceFrom?_eq_none_iff

namespace Grammar

private theorem openAfter?_clause {property operator value : Token}
    (hp : property.kind = .property) (ho : operator.kind = .operator) (hv : value.kind = .value)
    (depth : Nat) : openAfter? depth [property, operator, value] = some depth := by
  have p := Token.openAfter?_other (by rw [hp]; rfl) depth
  have o := Token.openAfter?_other (by rw [ho]; rfl) depth
  have v := Token.openAfter?_other (by rw [hv]; rfl) depth
  simp [p, o, v]

private theorem openAfter?_joined {connective : Connective} {token : Token}
    {tokens rest : List Token} (is : token.isConnective connective = true)
    (h : ∀ depth, openAfter? depth tokens = some depth)
    (h' : ∀ depth, openAfter? depth rest = some depth) (depth : Nat) :
    openAfter? depth (tokens ++ token :: rest) = some depth := by
  simp [openAfter?_append, h, h', Token.openAfter?_connective is]

private theorem openAfter?_group {opening closing : Token} {tokens : List Token}
    (ho : opening.kind = .openParen) (hc : closing.kind = .closeParen)
    (h : ∀ depth, openAfter? depth tokens = some depth) (depth : Nat) :
    openAfter? depth (opening :: (tokens ++ [closing])) = some depth := by
  simp [openAfter?_append, h, Token.openAfter?_open ho, Token.openAfter?_close hc]

theorem Derives.openAfter?_eq {levels : Nat} {tokens : List Token} {rule : Rule}
    (h : Derives levels tokens rule) (depth : Nat) : openAfter? depth tokens = some depth := by
  revert depth
  refine h.tokens_induction (P := fun _ tokens => ∀ depth, openAfter? depth tokens = some depth)
    ?_ ?_ ?_ ?_
  · intro _ property operator value hp ho hv
    exact openAfter?_clause hp ho hv
  · intro _ sign tokens is ih depth
    simp [Token.openAfter?_connective is, ih]
  · intro _ opening closing tokens ho hc ih
    exact openAfter?_group ho hc ih
  · intro _ connective token tokens rest _ is left right
    exact openAfter?_joined is left right

end Grammar
end RuleFilter

import RuleFilter.Text.Hex

namespace RuleFilter.Text

theorem digitChar_inj : ∀ m < 16, ∀ n < 16, Nat.digitChar m = Nat.digitChar n → m = n := by
  decide

theorem hexChars_inj {a b : UInt8} (same : hexChars a = hexChars b) : a = b := by
  simp only [hexChars, List.cons.injEq, and_true] at same
  have := a.toNat_lt
  have := b.toNat_lt
  have high := digitChar_inj _ (by omega) _ (by omega) same.1
  have low := digitChar_inj _ (by omega) _ (by omega) same.2
  exact UInt8.toNat_inj.1 (by omega)

theorem hex_inj {a b : List UInt8} (same : hex a = hex b) : a = b := by
  have chars : a.flatMap hexChars = b.flatMap hexChars := String.ofList_injective same
  clear same
  induction a generalizing b with
  | nil =>
    cases b with
    | nil => rfl
    | cons byte b => simp [hexChars] at chars
  | cons byte a ih =>
    cases b with
    | nil => simp [hexChars] at chars
    | cons byte' b =>
      obtain ⟨first, others⟩ := List.append_inj chars rfl
      rw [hexChars_inj first, ih others]

end RuleFilter.Text

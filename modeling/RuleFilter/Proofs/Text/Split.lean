import Mathlib.Data.List.TakeWhile
import RuleFilter.Proofs.Token.Value
import RuleFilter.Text.Split

namespace RuleFilter.Text

variable {separator : Char} {cs padded word front back : List Char}

def Trimmed (word : List Char) : Prop :=
  word.head?.any isBlank = false ∧ word.getLast?.any isBlank = false

instance (word : List Char) : Decidable (Trimmed word) :=
  inferInstanceAs (Decidable (_ ∧ _))

/-! ## Separators -/

theorem splitAll_eq_splitOn (separator : Char) (cs : List Char) :
    splitAll separator cs = cs.splitOn separator := by
  induction cs with
  | nil => rfl
  | cons c cs ih =>
    rw [List.splitOn_eq_splitOnP] at ih ⊢
    rw [splitAll, List.splitOnP_cons_eq_if_modifyHead, ih]
    split
    · rfl
    · cases parts : cs.splitOnP (· == separator) with
      | nil => exact absurd parts (List.splitOnP_ne_nil _ _)
      | cons part parts => rfl

theorem splitAll_intercalate {parts : List (List Char)} (some_part : parts ≠ [])
    (absent : ∀ part ∈ parts, separator ∉ part) :
    splitAll separator ([separator].intercalate parts) = parts := by
  rw [splitAll_eq_splitOn, List.splitOn_intercalate separator absent some_part]

theorem ne_of_not_mem (absent : separator ∉ cs) : ∀ c ∈ cs, (c != separator) = true := by
  intro c member
  rw [bne_iff_ne]
  rintro rfl
  exact absent member

theorem splitFirst?_append (absent : separator ∉ front) (back : List Char) :
    splitFirst? separator (front ++ separator :: back) = some (front, back) := by
  have other := ne_of_not_mem absent
  simp [splitFirst?, List.dropWhile_append_of_pos other, List.takeWhile_append_of_pos other]

theorem splitFirst?_eq_none (absent : separator ∉ cs) : splitFirst? separator cs = none := by
  rw [splitFirst?, List.dropWhile_eq_nil_iff.2 (ne_of_not_mem absent)]

/-! ## Blanks -/

theorem trimStart_append (before : ∀ c ∈ front, isBlank c = true) (cs : List Char) :
    trimStart (front ++ cs) = trimStart cs :=
  List.dropWhile_append_of_pos before

theorem trim_append (before : ∀ c ∈ front, isBlank c = true)
    (behind : ∀ c ∈ back, isBlank c = true) (cs : List Char) :
    trim (front ++ (cs ++ back)) = trim cs := by
  have behind' : ∀ c ∈ back.reverse, isBlank c = true := by simpa using behind
  have blank : trimStart back = [] := List.dropWhile_eq_nil_iff.2 behind
  have kept : trimStart (cs ++ back) =
      if (trimStart cs).isEmpty then trimStart back else trimStart cs ++ back :=
    List.dropWhile_append
  rw [trim, trim, trimStart_append before, kept]
  split
  · next none => rw [blank, List.isEmpty_iff.1 none]
  · rw [List.reverse_append, trimStart_append behind']

theorem pads_trim (cs : List Char) : Pads cs (trim cs) := by
  have front := List.takeWhile_append_dropWhile (p := isBlank) (l := cs)
  have back := List.takeWhile_append_dropWhile (p := isBlank) (l := (trimStart cs).reverse)
  refine ⟨cs.takeWhile isBlank, ((trimStart cs).reverse.takeWhile isBlank).reverse, ?_,
    fun c member => List.mem_takeWhile_imp member,
    fun c member => List.mem_takeWhile_imp (List.mem_reverse.1 member)⟩
  have split := congrArg List.reverse back
  rw [List.reverse_append, List.reverse_reverse] at split
  rw [trim, trimStart, split, trimStart, front]

theorem Pads.trim_eq (pads : Pads padded word) : trim padded = trim word := by
  obtain ⟨front, back, rfl, before, behind⟩ := pads
  exact trim_append before behind word

theorem trim_eq_self (trimmed : Trimmed word) : trim word = word := by
  have unchanged {cs : List Char} (first : cs.head?.any isBlank = false) : trimStart cs = cs := by
    cases cs with
    | nil => rfl
    | cons c cs => exact List.dropWhile_cons_of_neg (Bool.eq_false_iff.1 first)
  rw [trim, unchanged trimmed.1, unchanged (by simpa using trimmed.2), List.reverse_reverse]

theorem not_mem_of_blank (visible : isBlank separator = false)
    (blank : ∀ c ∈ cs, isBlank c = true) : separator ∉ cs :=
  fun member => Bool.false_ne_true (visible.symm.trans (blank _ member))

theorem Pads.not_mem (pads : Pads padded word) (visible : isBlank separator = false)
    (absent : separator ∉ word) : separator ∉ padded := by
  obtain ⟨front, back, rfl, before, behind⟩ := pads
  simp only [List.mem_append, not_or]
  exact ⟨not_mem_of_blank visible before, absent, not_mem_of_blank visible behind⟩

theorem trim_ne_nil (visible : isBlank separator = false) (member : separator ∈ cs) :
    trim cs ≠ [] := by
  intro nothing
  have absent : separator ∉ trim cs := nothing ▸ List.not_mem_nil
  exact (pads_trim cs).not_mem visible absent member

/-! ## Separators between blanks -/

section

variable (visible : isBlank separator = false)

include visible

theorem splitFirst?_pads (before : ∀ c ∈ front, isBlank c = true)
    (behind : ∀ c ∈ back, isBlank c = true) (cs : List Char) :
    splitFirst? separator (front ++ (cs ++ back)) =
      (splitFirst? separator cs).map fun (left, right) => (front ++ left, right ++ back) := by
  by_cases member : separator ∈ cs
  · obtain ⟨left, right, rfl, absent⟩ := List.eq_append_cons_of_mem member
    have absent' : separator ∉ front ++ left := by
      simp [not_mem_of_blank visible before, absent]
    rw [splitFirst?_append absent, List.append_assoc, ← List.append_assoc, List.cons_append,
      splitFirst?_append absent']
    rfl
  · have absent' : separator ∉ front ++ (cs ++ back) :=
      Pads.not_mem ⟨front, back, rfl, before, behind⟩ visible member
    rw [splitFirst?_eq_none member, splitFirst?_eq_none absent', Option.map_none]

theorem splitAll_append (behind : ∀ c ∈ back, isBlank c = true) (cs : List Char) :
    List.Forall₂ (fun longer part => ∃ gap, longer = part ++ gap ∧ ∀ c ∈ gap, isBlank c = true)
      (splitAll separator (cs ++ back)) (splitAll separator cs) := by
  induction cs with
  | nil =>
    have alone := @splitAll_intercalate separator [back] (List.cons_ne_nil _ _)
      (by simpa using not_mem_of_blank visible behind)
    rw [List.intercalate_singleton] at alone
    rw [List.nil_append, alone]
    exact .cons ⟨back, rfl, behind⟩ .nil
  | cons c cs ih =>
    rw [List.cons_append, splitAll, splitAll]
    split
    · exact .cons ⟨[], rfl, nofun⟩ ih
    · generalize splitAll separator (cs ++ back) = longer at ih
      generalize splitAll separator cs = parts at ih
      cases ih with
      | nil => exact .cons ⟨[], rfl, nofun⟩ .nil
      | cons first others =>
        obtain ⟨gap, rfl, blank⟩ := first
        exact .cons ⟨gap, rfl, blank⟩ others

theorem map_trim_splitAll (behind : ∀ c ∈ back, isBlank c = true) (cs : List Char) :
    (splitAll separator (cs ++ back)).map trim = (splitAll separator cs).map trim := by
  have parts := splitAll_append visible behind cs
  generalize splitAll separator (cs ++ back) = longer at parts
  generalize splitAll separator cs = parts at parts
  induction parts with
  | nil => rfl
  | @cons _ part _ _ first _ ih =>
    obtain ⟨gap, rfl, blank⟩ := first
    have same : trim (part ++ gap) = trim part := @trim_append [] gap nofun blank part
    rw [List.map_cons, List.map_cons, ih, same]

end

end RuleFilter.Text

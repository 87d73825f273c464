import RuleFilter.Text.Bytes
import RuleFilter.Token.Basic

namespace RuleFilter

namespace Text

theorem byteLength_cons (c : Char) (cs : List Char) :
    byteLength (c :: cs) = c.utf8Size + byteLength cs := by
  have shifted (start : Nat) : cs.foldl (fun bytes c => bytes + c.utf8Size) start =
      start + byteLength cs := by
    unfold byteLength
    induction cs generalizing start with
    | nil => rfl
    | cons d cs ih => rw [List.foldl_cons, List.foldl_cons, ih, ih (0 + _)]; omega
  rw [byteLength, List.foldl_cons, shifted, Nat.zero_add]

@[simp] theorem byteLength_append (cs more : List Char) :
    byteLength (cs ++ more) = byteLength cs + byteLength more := by
  induction cs with
  | nil => exact (Nat.zero_add _).symm
  | cons c cs ih => rw [List.cons_append, byteLength_cons, byteLength_cons, ih, Nat.add_assoc]

theorem utf8ByteSize_ofList (cs : List Char) : (String.ofList cs).utf8ByteSize = byteLength cs := by
  induction cs with
  | nil => rfl
  | cons c cs ih =>
    rw [← List.singleton_append, String.ofList_append, String.utf8ByteSize_append, ih,
      byteLength_append, ← String.singleton_eq_ofList, String.utf8ByteSize_singleton,
      byteLength_cons]
    rfl

theorem byteLength_toList (text : String) : byteLength text.toList = text.utf8ByteSize := by
  rw [← utf8ByteSize_ofList, String.ofList_toList]

theorem byteLength_pos {cs : List Char} (some_char : cs ≠ []) : 0 < byteLength cs := by
  obtain ⟨c, cs, rfl⟩ := List.exists_cons_of_ne_nil some_char
  have := c.utf8Size_pos
  rw [byteLength_cons]
  omega

theorem takeBytesFrom?_eq_some_iff {taken cs front : List Char} {bytes : Nat} :
    takeBytesFrom? taken bytes cs = some front ↔
      ∃ head rest, cs = head ++ rest ∧ byteLength head = bytes ∧ front = taken.reverse ++ head := by
  induction cs generalizing taken bytes with
  | nil =>
    cases bytes with
    | zero => simp [takeBytesFrom?, byteLength, eq_comm]
    | succ bytes => simp [takeBytesFrom?, byteLength]
  | cons c cs ih =>
    have wide := c.utf8Size_pos
    cases bytes with
    | zero =>
      simp only [takeBytesFrom?, Option.some.injEq]
      constructor
      · rintro rfl
        exact ⟨[], c :: cs, rfl, rfl, (List.append_nil _).symm⟩
      · rintro ⟨_ | ⟨d, head⟩, rest, -, empty, rfl⟩
        · rw [List.append_nil]
        · exact absurd empty (Nat.ne_of_gt (byteLength_pos (List.cons_ne_nil d head)))
    | succ bytes =>
      rw [takeBytesFrom?]
      constructor
      · intro h
        split at h
        · next fits =>
          obtain ⟨head, rest, rfl, size, rfl⟩ := ih.1 h
          refine ⟨c :: head, rest, rfl, ?_, by simp⟩
          rw [byteLength_cons, size]
          omega
        · cases h
      · rintro ⟨_ | ⟨d, head⟩, rest, split, size, rfl⟩
        · cases size
        · cases split
          rw [byteLength_cons] at size
          have fits : c.utf8Size ≤ bytes + 1 := by omega
          rw [if_pos fits]
          exact ih.2 ⟨head, rest, rfl, by omega, by simp⟩

theorem takeBytes?_eq_some_iff {text front : String} {bytes : Nat} :
    takeBytes? text bytes = some front ↔
      ∃ rest, text = front ++ rest ∧ front.utf8ByteSize = bytes := by
  simp only [takeBytes?, Option.map_eq_some_iff, takeBytesFrom?_eq_some_iff, List.reverse_nil,
    List.nil_append]
  constructor
  · rintro ⟨_, ⟨head, rest, split, size, rfl⟩, rfl⟩
    refine ⟨String.ofList rest, ?_, (utf8ByteSize_ofList _).trans size⟩
    rw [← String.ofList_append, ← split, String.ofList_toList]
  · rintro ⟨rest, rfl, rfl⟩
    exact ⟨front.toList, ⟨front.toList, rest.toList, String.toList_append,
      byteLength_toList front, rfl⟩, String.ofList_toList⟩

/-- Whether `part` is what a text has between the offsets of a span, both of which then lie between
two characters. -/
def HasAt (text : String) (span : Span) (part : String) : Prop :=
  ∃ before after : String, text = before ++ part ++ after ∧ span.start = before.utf8ByteSize ∧
    span.stop = (before ++ part).utf8ByteSize

theorem append_inj_of_byteLength {cs cs' more more' : List Char}
    (same : cs ++ more = cs' ++ more') (length : byteLength cs = byteLength cs') :
    cs = cs' ∧ more = more' := by
  induction cs generalizing cs' with
  | nil =>
    cases cs' with
    | nil => exact ⟨rfl, same⟩
    | cons c cs' => exact absurd length (Nat.ne_of_lt (byteLength_pos (List.cons_ne_nil c cs')))
  | cons c cs ih =>
    cases cs' with
    | nil => exact absurd length.symm (Nat.ne_of_lt (byteLength_pos (List.cons_ne_nil c cs)))
    | cons c' cs' =>
      obtain ⟨rfl, others⟩ := List.cons.inj same
      rw [byteLength_cons, byteLength_cons, Nat.add_left_cancel_iff] at length
      obtain ⟨rfl, behind⟩ := ih others length
      exact ⟨rfl, behind⟩

theorem HasAt.eq {text a b : String} {span : Span} (h : HasAt text span a)
    (h' : HasAt text span b) : a = b := by
  obtain ⟨before, after, rfl, start, stop⟩ := h
  obtain ⟨before', after', split, start', stop'⟩ := h'
  rw [String.utf8ByteSize_append] at stop stop'
  have first : byteLength before.toList = byteLength before'.toList := by
    rw [byteLength_toList, byteLength_toList, ← start, start']
  have second : byteLength a.toList = byteLength b.toList := by
    rw [byteLength_toList, byteLength_toList]
    omega
  rw [← String.toList_inj] at split ⊢
  simp only [String.toList_append, List.append_assoc] at split
  exact (append_inj_of_byteLength (append_inj_of_byteLength split first).2 second).1

theorem HasAt.split {text part : String} {before behind : List Char} {stop : Nat}
    (h : HasAt text ⟨byteLength before, stop⟩ part) (chars : text.toList = before ++ behind) :
    ∃ after, behind = part.toList ++ after ∧
      stop = byteLength before + byteLength part.toList := by
  obtain ⟨before', after, rfl, start, rfl⟩ := h
  simp only [String.toList_append, List.append_assoc, ← byteLength_toList] at chars start ⊢
  obtain ⟨-, rest⟩ := append_inj_of_byteLength chars start.symm
  exact ⟨after.toList, rest.symm, by rw [byteLength_append, start]⟩

def placesFrom (offset : Nat) : List Char → List (Nat × Char)
  | [] => []
  | c :: cs => (offset, c) :: placesFrom (offset + c.utf8Size) cs

theorem placesFrom_append (offset : Nat) (cs more : List Char) :
    placesFrom offset (cs ++ more) =
      placesFrom offset cs ++ placesFrom (offset + byteLength cs) more := by
  induction cs generalizing offset with
  | nil => rfl
  | cons c cs ih => rw [List.cons_append, placesFrom, placesFrom, ih, byteLength_cons,
      List.cons_append, Nat.add_assoc]

theorem le_of_mem_placesFrom {offset : Nat} {cs : List Char} {place : Nat × Char}
    (h : place ∈ placesFrom offset cs) :
    offset ≤ place.1 ∧ place.1 < offset + byteLength cs := by
  induction cs generalizing offset with
  | nil => cases h
  | cons c cs ih =>
    have := c.utf8Size_pos
    rw [byteLength_cons]
    rcases List.mem_cons.1 h with rfl | behind
    · simp only
      omega
    · have := ih behind
      omega

end Text

def Span.covers (span : Span) (offset : Nat) : Bool :=
  span.start ≤ offset && offset < span.stop

end RuleFilter

import RuleFilter.Proofs.Text.Casing
import RuleFilter.Time.Reader

namespace RuleFilter.Time

def lowered {α : Type} (read : α × List Char) : α × List Char :=
  (read.1, read.2.map Char.toLower)

/-! ## Fields -/

theorem digits?_toLower (least most : Nat) (cs : List Char) :
    digits? least most (cs.map Char.toLower) = (digits? least most cs).map lowered := by
  simp only [digits?, ← List.map_take, Text.takeWhile_isDigit_toLower, ← List.map_drop]
  split
  · rfl
  · rw [Option.map_map]
    rfl

theorem oneOf?_toLower {choices choices' : List Char}
    (same : ∀ c : Char, choices.contains c.toLower = choices'.contains c) (cs : List Char) :
    oneOf? choices (cs.map Char.toLower) = (oneOf? choices' cs).map (List.map Char.toLower) := by
  cases cs with
  | nil => rfl
  | cons c cs =>
    rw [List.map_cons, oneOf?, oneOf?, same]
    split <;> rfl

theorem oneOf?_mark {mark : Char} (other : mark.isAlpha = false) (cs : List Char) :
    oneOf? [mark] (cs.map Char.toLower) = (oneOf? [mark] cs).map (List.map Char.toLower) := by
  refine oneOf?_toLower (fun c => ?_) cs
  simp [Text.toLower_eq_iff other]

theorem trimStart_toLower (cs : List Char) :
    Text.trimStart (cs.map Char.toLower) = (Text.trimStart cs).map Char.toLower := by
  rw [Text.trimStart, List.dropWhile_map]
  simp only [Function.comp_def, Text.isBlank_toLower]
  rfl

theorem field?_toLower (most : Nat) (cs : List Char) :
    field? most (cs.map Char.toLower) = (field? most cs).map lowered := by
  rw [field?, trimStart_toLower, digits?_toLower, field?]

/-! ## Dates -/

theorem year?_toLower (cs : List Char) :
    year? (cs.map Char.toLower) = (year? cs).map lowered := by
  rw [year?, trimStart_toLower, year?]
  cases Text.trimStart cs with
  | nil => rfl
  | cons c cs =>
    have whole := digits?_toLower 1 4 (c :: cs)
    rw [List.map_cons] at whole ⊢
    by_cases minus : c = '-'
    · subst minus
      simp only [show '-'.toLower = '-' from rfl, digits?_toLower, List.length_map, Option.map_map]
      rfl
    by_cases plus : c = '+'
    · subst plus
      simp only [show '+'.toLower = '+' from rfl, digits?_toLower, List.length_map, Option.map_map]
      rfl
    have minus' : c.toLower ≠ '-' := Text.toLower_ne (by decide) minus
    have plus' : c.toLower ≠ '+' := Text.toLower_ne (by decide) plus
    split
    · next is => exact absurd (List.cons.inj is).1 minus'
    · next is => exact absurd (List.cons.inj is).1 plus'
    split
    · next is => exact absurd (List.cons.inj is).1 minus
    · next is => exact absurd (List.cons.inj is).1 plus
    · rw [whole, Option.map_map, Option.map_map]
      rfl

theorem date?_toLower (cs : List Char) :
    date? (cs.map Char.toLower) = (date? cs).map lowered := by
  have dash := @oneOf?_mark '-' (by decide)
  simp only [date?, year?_toLower, lowered, Option.bind_eq_bind, Option.bind_map, Option.map_bind,
    dash, field?_toLower, Function.comp_def, Option.map_some]

theorem midnight?_toLower (cs : List Char) : midnight? (cs.map Char.toLower) = midnight? cs := by
  simp only [midnight?, date?_toLower, lowered, Option.bind_eq_bind, Option.bind_map,
    Function.comp_def, List.isEmpty_map]

theorem dateTime?_toLower {separate separate' : List Char → Option (List Char)}
    (same : ∀ cs, separate (cs.map Char.toLower) = (separate' cs).map (List.map Char.toLower))
    (cs : List Char) : dateTime? separate (cs.map Char.toLower) = dateTime? separate' cs := by
  have colon := @oneOf?_mark ':' (by decide)
  simp only [dateTime?, date?_toLower, same, colon, field?_toLower, lowered, Option.bind_eq_bind,
    Option.bind_map, Function.comp_def, List.isEmpty_map]

/-! ## RFC 3339 -/

def zoned? (date : Date) (hour minute second nanos : Nat) (cs : List Char) : Option Instant := do
  let (offset, cs) ← offset? cs
  if cs.isEmpty then
    let instant ← Instant.ofFields? date hour minute second nanos
    some { instant with seconds := instant.seconds - offset }
  else none

def fractional? (date : Date) (hour minute second : Nat) : List Char → Option Instant
  | '.' :: cs => do
    let (nanos, cs) ← fraction? cs
    zoned? date hour minute second nanos cs
  | cs => zoned? date hour minute second 0 cs

theorem fractional?_of_ne {c : Char} (other : c ≠ '.') (date : Date) (hour minute second : Nat)
    (cs : List Char) :
    fractional? date hour minute second (c :: cs) = zoned? date hour minute second 0 (c :: cs) :=
  fractional?.eq_2 _ _ _ _ _ fun _ is => other (List.cons.inj is).1

theorem internetTime?_eq (cs : List Char) :
    internetTime? cs = (do
      let (year, cs) ← digits? 4 4 cs
      let cs ← oneOf? ['-'] cs
      let (month, cs) ← digits? 2 2 cs
      let cs ← oneOf? ['-'] cs
      let (day, cs) ← digits? 2 2 cs
      let cs ← oneOf? ['T', 't', ' '] cs
      let (hour, cs) ← digits? 2 2 cs
      let cs ← oneOf? [':'] cs
      let (minute, cs) ← digits? 2 2 cs
      let cs ← oneOf? [':'] cs
      let (second, cs) ← digits? 2 2 cs
      fractional? ⟨year, month, day⟩ hour minute second cs) := by
  unfold internetTime?
  iterate 10 refine Option.bind_congr fun _ _ => ?_
  refine Option.bind_congr fun ⟨second, cs⟩ _ => ?_
  dsimp only
  split
  · rfl
  · next other => exact (fractional?.eq_2 _ _ _ _ _ other).symm

theorem fraction?_toLower (cs : List Char) :
    fraction? (cs.map Char.toLower) = (fraction? cs).map lowered := by
  simp only [fraction?, Text.takeWhile_isDigit_toLower, ← List.map_drop]
  split
  · rfl
  · simp only [lowered, Option.bind_eq_bind, Option.map_bind, Function.comp_def, Option.map_some]

theorem offset?_toLower (cs : List Char) :
    offset? (cs.map Char.toLower) = (offset? cs).map lowered := by
  cases cs with
  | nil => rfl
  | cons sign cs =>
    have letter : (sign.toLower == 'Z' || sign.toLower == 'z') = (sign == 'Z' || sign == 'z') :=
      Text.eq_toLower_of_letters (fun c => c == 'Z' || c == 'z') (by decide) sign
    have behind : (sign.toLower == '+' || sign.toLower == '-' || sign.toLower == '\u2212') =
        (sign == '+' || sign == '-' || sign == '\u2212') :=
      Text.eq_toLower_of_letters (fun c => c == '+' || c == '-' || c == '\u2212')
        (by decide) sign
    have east : (sign.toLower == '+') = (sign == '+') :=
      Text.eq_toLower_of_letters (· == '+') (by decide) sign
    have colon := @oneOf?_mark ':' (by decide)
    rw [List.map_cons, offset?, offset?, letter, behind]
    split
    · rfl
    split
    · -- With the offset in the place of its name the term is too deep.
      simp -zeta only [digits?_toLower, colon, east, lowered, Option.bind_eq_bind,
        Option.bind_map, Option.map_bind, Function.comp_def]
      iterate 3 refine Option.bind_congr fun _ _ => ?_
      rw [apply_ite (Option.map lowered)]
      rfl
    · rfl

theorem zoned?_toLower (date : Date) (hour minute second nanos : Nat) (cs : List Char) :
    zoned? date hour minute second nanos (cs.map Char.toLower) =
      zoned? date hour minute second nanos cs := by
  simp only [zoned?, offset?_toLower, lowered, Option.bind_eq_bind, Option.bind_map,
    Function.comp_def, List.isEmpty_map]

theorem fractional?_toLower (date : Date) (hour minute second : Nat) (cs : List Char) :
    fractional? date hour minute second (cs.map Char.toLower) =
      fractional? date hour minute second cs := by
  cases cs with
  | nil => rfl
  | cons c cs =>
    by_cases point : c = '.'
    · subst point
      simp only [List.map_cons, show '.'.toLower = '.' from rfl, fractional?, fraction?_toLower,
        zoned?_toLower, lowered, Option.bind_eq_bind, Option.bind_map, Function.comp_def]
    · have point' : c.toLower ≠ '.' := Text.toLower_ne (by decide) point
      rw [List.map_cons, fractional?_of_ne point', fractional?_of_ne point, ← List.map_cons,
        zoned?_toLower]

theorem internetTime?_toLower (cs : List Char) :
    internetTime? (cs.map Char.toLower) = internetTime? cs := by
  have dash := @oneOf?_mark '-' (by decide)
  have colon := @oneOf?_mark ':' (by decide)
  have between := @oneOf?_toLower ['T', 't', ' '] ['T', 't', ' '] fun c =>
    Text.eq_toLower_of_letters (['T', 't', ' '].contains ·) (by decide) c
  simp only [internetTime?_eq, digits?_toLower, dash, between, colon, fractional?_toLower, lowered,
    Option.bind_eq_bind, Option.bind_map, Function.comp_def]

/-! ## The mark in front of a time of day -/

theorem exists_of_oneOf? {choices cs rest : List Char} (h : oneOf? choices cs = some rest) :
    ∃ c ∈ choices, cs = c :: rest := by
  cases cs with
  | nil => cases h
  | cons c cs =>
    rw [oneOf?] at h
    split at h <;> cases h
    next chosen => exact ⟨c, List.contains_iff_mem.1 chosen, rfl⟩

theorem digits?_weaken {least least' most : Nat} {cs : List Char} {read : Nat × List Char}
    (le : least' ≤ least) (h : digits? least most cs = some read) :
    digits? least' most cs = some read := by
  unfold digits? at h ⊢
  simp only at h ⊢
  split at h
  · cases h
  · rwa [if_neg (by omega)]

theorem digits?_head {least most : Nat} {cs : List Char} {read : Nat × List Char}
    (positive : 0 < least) (h : digits? least most cs = some read) :
    ∃ c rest, cs = c :: rest ∧ c.isDigit = true := by
  unfold digits? at h
  simp only at h
  split at h
  · cases h
  · cases cs with
    | nil => simp_all
    | cons c cs =>
      refine ⟨c, cs, rfl, Decidable.byContradiction fun other => ?_⟩
      cases most <;> simp_all

theorem trimStart_of_visible {c : Char} (visible : Text.isBlank c = false) (cs : List Char) :
    Text.trimStart (c :: cs) = c :: cs :=
  List.dropWhile_cons_of_neg (by simp [visible])

theorem isBlank_of_isDigit {c : Char} (digit : c.isDigit = true) : Text.isBlank c = false :=
  Bool.eq_false_iff.2 fun blank =>
    Bool.false_ne_true ((Text.isDigit_of_isBlank blank).symm.trans digit)

theorem field?_of_digits? {cs : List Char} {read : Nat × List Char}
    (h : digits? 2 2 cs = some read) : field? 2 cs = some read := by
  obtain ⟨c, rest, rfl, digit⟩ := digits?_head (by decide) h
  rw [field?, trimStart_of_visible (isBlank_of_isDigit digit)]
  exact digits?_weaken (by decide) h

theorem year?_of_ne {c : Char} (visible : Text.isBlank c = false) (minus : c ≠ '-') (plus : c ≠ '+')
    (cs : List Char) :
    year? (c :: cs) = (digits? 1 4 (c :: cs)).map fun read => ((read.1 : Int), read.2) := by
  rw [year?, trimStart_of_visible visible]
  split
  · next is => exact absurd (List.cons.inj is).1 minus
  · next is => exact absurd (List.cons.inj is).1 plus
  · rfl

theorem year?_of_digits? {cs : List Char} {read : Nat × List Char}
    (h : digits? 4 4 cs = some read) : year? cs = some ((read.1 : Int), read.2) := by
  obtain ⟨c, rest, rfl, digit⟩ := digits?_head (by decide) h
  have minus : c ≠ '-' := by
    rintro rfl
    cases digit
  have plus : c ≠ '+' := by
    rintro rfl
    cases digit
  rw [year?_of_ne (isBlank_of_isDigit digit) minus plus, digits?_weaken (by decide) h]
  rfl

theorem dateTime?_of_internetTime? {cs : List Char} {instant : Instant} (choices : List Char)
    (h : internetTime? cs = some instant) : dateTime? (oneOf? choices) cs = none := by
  simp only [internetTime?_eq, Option.bind_eq_bind, Option.bind_eq_some_iff] at h
  obtain ⟨year, atYear, _, dash, month, atMonth, _, dash', day, atDay, _, mark, hour, atHour, _,
    colon, minute, atMinute, _, colon', second, atSecond, zone⟩ := h
  have dated : date? cs = some (⟨year.1, month.1, day.1⟩, day.2) := by
    simp [date?, year?_of_digits? atYear, dash, field?_of_digits? atMonth, dash',
      field?_of_digits? atDay]
  refine Option.eq_none_iff_forall_ne_some.2 fun other found => ?_
  simp only [dateTime?, dated, Option.bind_eq_bind, Option.bind_some] at found
  obtain ⟨rest, mark', found⟩ := Option.bind_eq_some_iff.1 found
  obtain ⟨_, -, behind⟩ := exists_of_oneOf? mark
  obtain ⟨_, -, behind'⟩ := exists_of_oneOf? mark'
  obtain rfl := (List.cons.inj (behind'.symm.trans behind)).2
  simp only [field?_of_digits? atHour, colon, field?_of_digits? atMinute, colon',
    field?_of_digits? atSecond, Option.bind_some] at found
  split at found
  · next ended =>
    rw [List.isEmpty_iff.1 ended] at zone
    cases zone
  · cases found

theorem oneOf?_cases (cs : List Char) :
    oneOf? ['T', 't'] cs = oneOf? ['T'] cs ∧ oneOf? ['t'] cs = none ∨
      oneOf? ['T', 't'] cs = oneOf? ['t'] cs ∧ oneOf? ['T'] cs = none := by
  cases cs with
  | nil => exact .inl ⟨rfl, rfl⟩
  | cons c cs =>
    by_cases big : c = 'T'
    · subst big
      exact .inl ⟨rfl, rfl⟩
    · exact .inr (by simp [oneOf?, big])

theorem dateTime?_or (cs : List Char) :
    dateTime? (oneOf? ['T', 't']) cs =
      (dateTime? (oneOf? ['T']) cs).or (dateTime? (oneOf? ['t']) cs) := by
  unfold dateTime?
  cases date? cs with
  | none => rfl
  | some read =>
    simp only [Option.bind_eq_bind, Option.bind_some]
    rcases oneOf?_cases read.2 with ⟨same, other⟩ | ⟨same, other⟩
    · rw [same, other, Option.bind_none, Option.or_none]
    · rw [same, other, Option.bind_none, Option.none_or]

/-- A date and a time of day without a zone, with a small `t` between them. -/
def isSmallMarked (cs : List Char) : Bool :=
  (dateTime? (oneOf? ['t']) cs).isSome

namespace Instant

def ofAnyCase? (cs : List Char) : Option Instant :=
  ((internetTime? cs).or (dateTime? (some ∘ Text.trimStart) cs)).or (midnight? cs)

theorem ofAnyCase?_toLower (cs : List Char) : ofAnyCase? (cs.map Char.toLower) = ofAnyCase? cs := by
  have spaced (cs : List Char) : (some ∘ Text.trimStart) (cs.map Char.toLower) =
      ((some ∘ Text.trimStart) cs).map (List.map Char.toLower) :=
    congrArg some (trimStart_toLower cs)
  rw [ofAnyCase?, internetTime?_toLower, dateTime?_toLower spaced, midnight?_toLower, ofAnyCase?]

theorem isSome_ofText? (text : String) :
    (ofText? text).isSome =
      ((ofAnyCase? text.toList).isSome || (dateTime? (oneOf? ['T']) text.toList).isSome) := by
  simp only [ofText?, ofAnyCase?, Option.orElse_eq_orElse, Option.orElse_eq_or, Option.isSome_or]
  simp only [Bool.or_assoc, Bool.or_comm (midnight? _).isSome]

theorem ofText?_of_isSmallMarked {text : String} (small : isSmallMarked text.toList = true) :
    ofText? text = none := by
  obtain ⟨instant, found⟩ := Option.isSome_iff_exists.1 small
  have zoneless : internetTime? text.toList = none := by
    refine Option.eq_none_iff_forall_ne_some.2 fun instant zoned => ?_
    rw [dateTime?_of_internetTime? ['t'] zoned] at found
    cases found
  unfold dateTime? at found
  obtain ⟨⟨date, behind⟩, dated, found⟩ := Option.bind_eq_some_iff.1 found
  obtain ⟨rest, mark, -⟩ := Option.bind_eq_some_iff.1 found
  obtain ⟨_, member, rfl⟩ := exists_of_oneOf? mark
  obtain rfl := List.mem_singleton.1 member
  -- No form but that of RFC 3339 goes on with a small letter behind the date.
  have spaced : field? 2 ('t' :: rest) = none := rfl
  have trimmed : Text.trimStart ('t' :: rest) = 't' :: rest := rfl
  have other : oneOf? ['T'] ('t' :: rest) = none := rfl
  simp [ofText?, zoneless, dateTime?, midnight?, dated, spaced, trimmed, other]

theorem ofText?_eq_none {text : String} {c : Char} {cs : List Char} (begins : text.toList = c :: cs)
    (visible : Text.isBlank c = false) (other : c.isDigit = false) (minus : c ≠ '-')
    (plus : c ≠ '+') : ofText? text = none := by
  have numberless {least most : Nat} (positive : 0 < least) :
      digits? least most (c :: cs) = none := by
    refine Option.eq_none_iff_forall_ne_some.2 fun read found => ?_
    obtain ⟨_, _, begins', digit⟩ := digits?_head positive found
    rw [← (List.cons.inj begins').1, other] at digit
    cases digit
  have undated : date? (c :: cs) = none := by
    rw [date?, year?_of_ne visible minus plus, numberless (by decide)]
    rfl
  simp [ofText?, begins, internetTime?_eq, dateTime?, midnight?, undated, numberless]

theorem isSome_ofText?_iff {text text' : String}
    (same : Text.foldCase text = Text.foldCase text') (reads : (ofText? text).isSome = true) :
    (ofText? text').isSome = true ↔ isSmallMarked text'.toList = false := by
  have anyCase : ofAnyCase? text.toList = ofAnyCase? text'.toList := by
    rw [← ofAnyCase?_toLower, ← Text.foldCase, same, Text.foldCase, ofAnyCase?_toLower]
  -- What either mark would allow is read in any letter case, and `text'` has only one of them.
  have marks := @oneOf?_toLower ['T', 't'] ['T', 't'] fun c =>
    Text.eq_toLower_of_letters (['T', 't'].contains ·) (by decide) c
  have marked : dateTime? (oneOf? ['T', 't']) text.toList =
      dateTime? (oneOf? ['T', 't']) text'.toList := by
    rw [← dateTime?_toLower marks, ← Text.foldCase, same, Text.foldCase, dateTime?_toLower marks]
  have either := congrArg Option.isSome marked
  rw [dateTime?_or, dateTime?_or, Option.isSome_or, Option.isSome_or] at either
  cases small : isSmallMarked text'.toList with
  | true => simp [ofText?_of_isSmallMarked small]
  | false =>
    rw [isSmallMarked] at small
    rw [isSome_ofText?, anyCase] at reads
    rw [small, Bool.or_false] at either
    rw [isSome_ofText?, ← either]
    simp only [iff_true, Bool.or_eq_true] at reads ⊢
    rcases reads with read | big
    · exact .inl read
    · exact .inr (.inl big)

end Instant
end RuleFilter.Time

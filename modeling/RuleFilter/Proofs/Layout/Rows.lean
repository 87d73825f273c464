import RuleFilter.Proofs.Layout.Formatted
import RuleFilter.Proofs.Rule.Partners

namespace RuleFilter
namespace Layout

structure Row where
  depth : Nat
  tokens : List Token

namespace Row

def line (row : Row) : Line :=
  ⟨row.depth, row.tokens.map Token.keywordText⟩

def indent (width : Nat) (row : Row) : Nat :=
  width * row.depth

def text (width : Nat) (row : Row) : String :=
  String.ofList (List.replicate (row.indent width) ' ') ++
    " ".intercalate (row.tokens.map Token.keywordText)

def finished (row : Row) : List Row :=
  if row.tokens = [] then [] else [row]

inductive Sets (row : Row) (token : Token) : List Row → Row → Prop
  | word : token.kind.isParen = false →
      (token.kind = .logical → token.isConnective .not = true) →
      Sets row token [] ⟨row.depth, row.tokens ++ [token]⟩
  | connective : token.kind = .logical → token.isConnective .not = false →
      Sets row token row.finished ⟨row.depth, [token]⟩
  | opening : token.kind = .openParen →
      Sets row token [⟨row.depth, row.tokens ++ [token]⟩] ⟨row.depth + 1, []⟩
  | closing : token.kind = .closeParen →
      Sets row token (row.finished ++ [⟨row.depth - 1, [token]⟩]) ⟨row.depth - 1, []⟩

inductive Writes : Row → List Token → List Row → Row → Prop
  | nil {row : Row} : Writes row [] [] row
  | cons {row next last : Row} {token : Token} {tokens : List Token} {rows others : List Row} :
      Sets row token rows next → Writes next tokens others last →
      Writes row (token :: tokens) (rows ++ others) last

theorem Sets.of_open {row next : Row} {token : Token} {rows : List Row}
    (sets : row.Sets token rows next) (kind : token.kind = .openParen) :
    rows = [⟨row.depth, row.tokens ++ [token]⟩] ∧ next = ⟨row.depth + 1, []⟩ := by
  cases sets with
  | opening => exact ⟨rfl, rfl⟩
  | word other _ => simp [kind, TokenKind.isParen] at other
  | connective other _ | closing other => simp [kind] at other

theorem Sets.of_close {row next : Row} {token : Token} {rows : List Row}
    (sets : row.Sets token rows next) (kind : token.kind = .closeParen) :
    rows = row.finished ++ [⟨row.depth - 1, [token]⟩] ∧ next = ⟨row.depth - 1, []⟩ := by
  cases sets with
  | closing => exact ⟨rfl, rfl⟩
  | word other _ => simp [kind, TokenKind.isParen] at other
  | connective other _ | opening other => simp [kind] at other

theorem exists_sets (row : Row) (token : Token) : ∃ rows next, row.Sets token rows next := by
  cases kind : token.kind with
  | logical =>
    cases negative : token.isConnective .not with
    | true => exact ⟨_, _, .word (by rw [kind]; rfl) fun _ => negative⟩
    | false => exact ⟨_, _, .connective kind negative⟩
  | openParen => exact ⟨_, _, .opening kind⟩
  | closeParen => exact ⟨_, _, .closing kind⟩
  | _ => exact ⟨_, _, .word (by rw [kind]; rfl) (by simp [kind])⟩

theorem exists_writes (row : Row) (tokens : List Token) :
    ∃ rows last, row.Writes tokens rows last := by
  induction tokens generalizing row with
  | nil => exact ⟨[], row, .nil⟩
  | cons token tokens ih =>
    obtain ⟨rows, next, first⟩ := row.exists_sets token
    obtain ⟨others, last, rest⟩ := ih next
    exact ⟨rows ++ others, last, .cons first rest⟩

theorem Writes.of_append {row last : Row} {before rest : List Token} {rows : List Row}
    (writes : row.Writes (before ++ rest) rows last) :
    ∃ above middle below, row.Writes before above middle ∧ middle.Writes rest below last ∧
      rows = above ++ below := by
  induction before generalizing row rows with
  | nil => exact ⟨[], row, rows, .nil, writes, rfl⟩
  | cons token before ih =>
    cases writes with
    | cons first others =>
      obtain ⟨above, middle, below, front, back, rfl⟩ := ih others
      exact ⟨_, middle, below, .cons first front, back, (List.append_assoc ..).symm⟩

/-! ## Tokens of rows -/

@[simp] theorem flatMap_finished (row : Row) : row.finished.flatMap tokens = row.tokens := by
  unfold finished
  split
  · next nothing => rw [nothing, List.flatMap_nil]
  · rw [List.flatMap_singleton]

theorem finished_concat (depth : Nat) (tokens : List Token) (token : Token) :
    finished ⟨depth, tokens ++ [token]⟩ = [⟨depth, tokens ++ [token]⟩] :=
  if_neg (by simp)

theorem finished_singleton (depth : Nat) (token : Token) :
    finished ⟨depth, [token]⟩ = [⟨depth, [token]⟩] :=
  finished_concat depth [] token

theorem eq_of_mem_finished {row above : Row} (member : above ∈ row.finished) : above = row := by
  unfold finished at member
  split at member
  · cases member
  · exact List.mem_singleton.1 member

theorem Sets.tokens {row next : Row} {token : Token} {rows : List Row}
    (sets : row.Sets token rows next) :
    rows.flatMap Row.tokens ++ next.tokens = row.tokens ++ [token] := by
  cases sets <;> simp

theorem Writes.tokens {row last : Row} {tokens : List Token} {rows : List Row}
    (writes : row.Writes tokens rows last) :
    rows.flatMap Row.tokens ++ last.tokens = row.tokens ++ tokens := by
  induction writes with
  | nil => rw [List.flatMap_nil, List.nil_append, List.append_nil]
  | cons first _ ih =>
    rw [List.flatMap_append, List.append_assoc, ih, ← List.append_assoc, first.tokens,
      List.append_assoc, List.singleton_append]

/-! ## Places in rows -/

def Placed (row : Row) : Prop :=
  ∀ before token after, row.tokens = before ++ token :: after →
    (token.kind = .logical → token.isConnective .not = false → before = []) ∧
    (token.kind = .openParen → after = []) ∧
    (token.kind = .closeParen → before = [] ∧ after = [])

def Plain (row : Row) : Prop :=
  ∀ token ∈ row.tokens, token.kind.isParen = false

theorem placed_nil (depth : Nat) : Placed ⟨depth, []⟩ := by
  intro before token after split
  exact absurd split (by simp)

theorem plain_nil (depth : Nat) : Plain ⟨depth, []⟩ :=
  List.forall_mem_nil _

theorem placed_singleton (depth : Nat) (token : Token) : Placed ⟨depth, [token]⟩ := by
  intro before other after split
  obtain ⟨rfl, rfl, rfl⟩ : before = [] ∧ other = token ∧ after = [] := by
    simpa [List.singleton_eq_append_iff] using split
  exact ⟨fun _ _ => rfl, fun _ => rfl, fun _ => ⟨rfl, rfl⟩⟩

theorem Placed.concat {row : Row} (placed : row.Placed) (plain : row.Plain) {token : Token}
    (open_or_word : token.kind ≠ .closeParen)
    (negative : token.kind = .logical → token.isConnective .not = true) :
    Placed ⟨row.depth, row.tokens ++ [token]⟩ := by
  intro before other after split
  rcases List.eq_nil_or_concat after with rfl | ⟨after, last, rfl⟩
  · obtain ⟨rfl, same⟩ := List.append_inj' split rfl
    obtain rfl := List.singleton_inj.1 same
    refine ⟨fun kind binary => ?_, fun _ => rfl, fun closes => absurd closes open_or_word⟩
    rw [negative kind] at binary
    cases binary
  · rw [List.concat_eq_append, ← List.cons_append, ← List.append_assoc] at split
    obtain ⟨inside, -⟩ := List.append_inj' split rfl
    have other_plain := plain other (by simp [inside])
    refine ⟨(placed before other after inside).1, fun opens => ?_, fun closes => ?_⟩
    · rw [opens] at other_plain
      cases other_plain
    · rw [closes] at other_plain
      cases other_plain

theorem Placed.finished {row : Row} (placed : row.Placed) :
    ∀ above ∈ row.finished, above.Placed := by
  intro above member
  rwa [eq_of_mem_finished member]

theorem Sets.placed {row next : Row} {token : Token} {rows : List Row}
    (sets : row.Sets token rows next) (placed : row.Placed) (plain : row.Plain) :
    (∀ above ∈ rows, above.Placed) ∧ next.Placed ∧ next.Plain := by
  cases sets with
  | word other negative =>
    refine ⟨List.forall_mem_nil _, placed.concat plain ?_ negative, ?_⟩
    · intro closes
      rw [closes] at other
      cases other
    · simpa [Plain, or_imp, forall_and, other] using plain
  | connective kind _ =>
    refine ⟨placed.finished, placed_singleton _ _, ?_⟩
    simp [Plain, kind, TokenKind.isParen]
  | opening kind =>
    refine ⟨List.forall_mem_singleton.2 (placed.concat plain ?_ ?_), placed_nil _, plain_nil _⟩
    · simp [kind]
    · simp [kind]
  | closing kind =>
    refine ⟨List.forall_mem_append.2 ⟨placed.finished, ?_⟩, placed_nil _, plain_nil _⟩
    exact List.forall_mem_singleton.2 (placed_singleton _ _)

theorem Writes.placed {row last : Row} {tokens : List Token} {rows : List Row}
    (writes : row.Writes tokens rows last) (placed : row.Placed) (plain : row.Plain) :
    (∀ above ∈ rows, above.Placed) ∧ last.Placed := by
  induction writes with
  | nil => exact ⟨nofun, placed⟩
  | cons first _ ih =>
    obtain ⟨above, next_placed, next_plain⟩ := first.placed placed plain
    obtain ⟨below, last_placed⟩ := ih next_placed next_plain
    exact ⟨List.forall_mem_append.2 ⟨above, below⟩, last_placed⟩

/-! ## Depths of rows -/

theorem Sets.level {row next : Row} {token : Token} {rows : List Row}
    (sets : row.Sets token rows next) {base count count' : Nat}
    (counted : token.openAfter? count = some count') (depth : row.depth = base + count) :
    next.depth = base + count' ∧ ∀ above ∈ rows, base ≤ above.depth := by
  have finished : ∀ above ∈ row.finished, base ≤ above.depth := by
    intro above member
    rw [eq_of_mem_finished member]
    omega
  cases sets with
  | word other _ =>
    rw [Token.openAfter?_other other] at counted
    obtain rfl := Option.some.inj counted
    exact ⟨depth, nofun⟩
  | connective kind _ =>
    rw [Token.openAfter?_other (by rw [kind]; rfl)] at counted
    obtain rfl := Option.some.inj counted
    exact ⟨depth, finished⟩
  | opening kind =>
    rw [Token.openAfter?_open kind] at counted
    obtain rfl := Option.some.inj counted
    exact ⟨congrArg (· + 1) depth, List.forall_mem_singleton.2 (by simp only; omega)⟩
  | closing kind =>
    cases count with
    | zero => simp [Token.openAfter?, kind] at counted
    | succ count =>
      rw [Token.openAfter?_close kind] at counted
      obtain rfl := Option.some.inj counted
      refine ⟨by simp only; omega, List.forall_mem_append.2 ⟨finished, ?_⟩⟩
      exact List.forall_mem_singleton.2 (by simp only; omega)

theorem Writes.level {row last : Row} {tokens : List Token} {rows : List Row}
    (writes : row.Writes tokens rows last) {base count count' : Nat}
    (counted : openAfter? count tokens = some count') (depth : row.depth = base + count) :
    last.depth = base + count' ∧ ∀ above ∈ rows, base ≤ above.depth := by
  induction writes generalizing count with
  | nil =>
    obtain rfl := Option.some.inj counted
    exact ⟨depth, nofun⟩
  | cons first _ ih =>
    obtain ⟨next, counted₁, counted₂⟩ := Option.bind_eq_some_iff.1 counted
    obtain ⟨depth₁, above⟩ := first.level counted₁ depth
    obtain ⟨depth₂, below⟩ := ih counted₂ depth₁
    exact ⟨depth₂, List.forall_mem_append.2 ⟨above, below⟩⟩

/-- Whether a row ends with the token at `i`, the token at `j` is all of a later row, and the rows
between those two, which are indented alike, are indented deeper. -/
def Frames (width : Nat) (tokens : List Token) (rows : List Row) (i j : Nat) : Prop :=
  ∃ above opened inside closed below, rows = above ++ [opened] ++ inside ++ [closed] ++ below ∧
    (above ++ [opened]).flatMap Row.tokens = tokens.take (i + 1) ∧
    (above ++ [opened] ++ inside).flatMap Row.tokens = tokens.take j ∧
    (above ++ [opened] ++ inside ++ [closed]).flatMap Row.tokens = tokens.take (j + 1) ∧
    closed.indent width = opened.indent width ∧
    ∀ row ∈ inside, opened.indent width < row.indent width

theorem Writes.frames {last : Row} {tokens : List Token} {rows : List Row} {width i j : Nat}
    (writes : Writes ⟨0, []⟩ tokens rows last) (wide : 0 < width)
    (partners : Partners tokens i j) : Frames width tokens (rows ++ last.finished) i j := by
  obtain ⟨before, opening, _, _, rfl, opens, ⟨inside, closing, after, rfl, rfl, balanced, closes⟩,
    rfl, rfl⟩ := partners
  -- The rows split where the tokens do: in front of the opening parenthesis, between the two, and
  -- behind the closing one.
  obtain ⟨above, row, _, front, opened, rfl⟩ := writes.of_append
  cases opened with
  | cons first later =>
  obtain ⟨rfl, rfl⟩ := first.of_open opens
  obtain ⟨deeper, behind, _, between, closed, rfl⟩ := later.of_append
  cases closed with
  | @cons _ next _ _ _ _ below second rest =>
  obtain ⟨rfl, rfl⟩ := second.of_close closes
  have within_depth : (⟨row.depth + 1, []⟩ : Row).depth = row.depth + 1 + 0 := rfl
  obtain ⟨depth, levels⟩ := between.level balanced within_depth
  have outside : above.flatMap Row.tokens ++ row.tokens = before := front.tokens
  have within : deeper.flatMap Row.tokens ++ behind.tokens = inside := between.tokens
  simp only [Nat.add_zero] at depth
  refine ⟨above, ⟨row.depth, row.tokens ++ [opening]⟩, deeper ++ behind.finished,
    ⟨behind.depth - 1, [closing]⟩, below ++ last.finished, ?_, ?_, ?_, ?_, ?_, ?_⟩
  · simp only [List.append_assoc]
  · rw [List.take_length_add_append, List.take_succ_cons, List.take_zero]
    simp [← outside]
  · rw [List.take_length_add_append, List.take_succ_cons, List.take_left]
    simp [← outside, ← within]
  · rw [Nat.add_assoc, List.take_length_add_append, List.take_succ_cons,
      List.take_length_add_append]
    simp [← outside, ← within]
  · simp [indent, depth]
  · intro between member
    apply Nat.mul_lt_mul_of_pos_left ?_ wide
    rcases List.mem_append.1 member with member | member
    · exact levels between member
    · rw [eq_of_mem_finished member, depth]
      exact Nat.lt_succ_self _

end Row

/-! ## The draft -/

namespace Draft

def ofRows (rows : List Row) (row : Row) : Draft :=
  ⟨row.depth, (row.tokens.map Token.keywordText).reverse, (rows.map Row.line).reverse⟩

theorem push_ofRows (rows : List Row) (row : Row) (token : Token) :
    (ofRows rows row).push token.keywordText =
      ofRows rows ⟨row.depth, row.tokens ++ [token]⟩ := by
  simp [ofRows, push]

theorem breakLine_ofRows (rows : List Row) (row : Row) :
    (ofRows rows row).breakLine = ofRows (rows ++ row.finished) ⟨row.depth, []⟩ := by
  unfold breakLine Row.finished
  by_cases nothing : row.tokens = []
  · simp [ofRows, nothing]
  · simp [ofRows, nothing, Row.line]

theorem step_ofRows {row next : Row} {token : Token} {rows : List Row}
    (sets : row.Sets token rows next) (above : List Row) :
    (ofRows above row).step token = ofRows (above ++ rows) next := by
  cases sets with
  | word other negative =>
    rw [List.append_nil, ← push_ofRows]
    cases kind : token.kind with
    | logical => simp [step, kind, negative kind]
    | openParen | closeParen => simp [kind, TokenKind.isParen] at other
    | _ => simp [step, kind]
  | connective kind binary =>
    simp only [step, kind, binary, breakLine_ofRows, push_ofRows]
    rfl
  | opening kind =>
    simp only [step, kind, push_ofRows, breakLine_ofRows, Row.finished_concat]
    rfl
  | closing kind =>
    have raised (rows : List Row) :
        (ofRows rows ⟨row.depth, []⟩).raise = ofRows rows ⟨row.depth - 1, []⟩ := rfl
    simp only [step, kind, breakLine_ofRows, raised, push_ofRows, List.nil_append,
      Row.finished_singleton, List.append_assoc]

theorem foldl_ofRows {row last : Row} {tokens : List Token} {rows : List Row}
    (writes : row.Writes tokens rows last) (above : List Row) :
    tokens.foldl step (ofRows above row) = ofRows (above ++ rows) last := by
  induction writes generalizing above with
  | nil => rw [List.append_nil, List.foldl_nil]
  | cons first _ ih => rw [List.foldl_cons, step_ofRows first, ih, List.append_assoc]

end Draft

theorem lines_of_writes {last : Row} {tokens : List Token} {rows : List Row}
    (writes : Row.Writes ⟨0, []⟩ tokens rows last) :
    lines tokens = (rows ++ last.finished).map Row.line := by
  have drafted : tokens.foldl Draft.step .start = Draft.ofRows rows last :=
    Draft.foldl_ofRows writes []
  rw [lines, drafted, Draft.breakLine_ofRows]
  exact List.reverse_reverse _

/-- The lines of a formatted rule are the tokens divided into rows. In each AND and OR stand first,
an opening parenthesis last and a closing one alone, and parentheses that are partners frame rows
that are indented deeper than their own. -/
theorem format_rows (width : Nat) (tokens : List Token) (wide : 0 < width) :
    ∃ rows : List Row, rows.flatMap Row.tokens = tokens ∧ rows.map Row.line = lines tokens ∧
      format width tokens = "\n".intercalate (rows.map (Row.text width)) ∧
      (∀ row ∈ rows, row.tokens ≠ [] ∧ row.Placed) ∧
      ∀ i j, (i, j) ∈ pairs tokens → Row.Frames width tokens rows i j := by
  obtain ⟨rows, last, writes⟩ := Row.exists_writes ⟨0, []⟩ tokens
  have lined := lines_of_writes writes
  have words : (rows ++ last.finished).flatMap Row.tokens = tokens := by
    rw [List.flatMap_append, Row.flatMap_finished, writes.tokens, List.nil_append]
  obtain ⟨placed, last_placed⟩ := writes.placed (Row.placed_nil 0) (Row.plain_nil 0)
  refine ⟨_, words, lined.symm, ?_, fun row member => ⟨?_, ?_⟩, fun i j found => ?_⟩
  · rw [format, lined, List.map_map]
    rfl
  · have listed : row.line ∈ lines tokens := lined ▸ List.mem_map_of_mem member
    intro nothing
    exact words_ne_nil_of_mem_lines listed (by rw [Row.line, nothing, List.map_nil])
  · exact (List.forall_mem_append.2 ⟨placed, last_placed.finished⟩) row member
  · exact writes.frames wide (mem_pairs_iff.1 found)

theorem format_rows_stray :
    let tokens : List Token := [⟨.closeParen, ")", ⟨0, 1⟩, none⟩, ⟨.openParen, "(", ⟨1, 2⟩, none⟩,
      ⟨.property, "Age", ⟨2, 5⟩, none⟩, ⟨.logical, "or", ⟨6, 8⟩, none⟩,
      ⟨.openParen, "(", ⟨9, 10⟩, none⟩, ⟨.value, "1", ⟨10, 11⟩, none⟩,
      ⟨.closeParen, ")", ⟨11, 12⟩, none⟩, ⟨.closeParen, ")", ⟨12, 13⟩, none⟩,
      ⟨.openParen, "(", ⟨13, 14⟩, none⟩]
    0 < 2 ∧ pairs tokens = [(4, 6), (1, 7)] ∧
      lines tokens = [⟨0, [")"]⟩, ⟨0, ["("]⟩, ⟨1, ["Age"]⟩, ⟨1, ["OR", "("]⟩, ⟨2, ["1"]⟩,
        ⟨1, [")"]⟩, ⟨0, [")"]⟩, ⟨0, ["("]⟩] ∧
      ∃ rows : List Row, rows.map Row.line = lines tokens ∧ Row.Frames 2 tokens rows 1 7 ∧
        Row.Frames 2 tokens rows 4 6 := by
  intro tokens
  obtain ⟨rows, -, lined, -, -, framed⟩ := format_rows 2 tokens (by decide)
  exact ⟨by decide, rfl, rfl, rows, lined, framed 1 7 (by decide), framed 4 6 (by decide)⟩

end Layout
end RuleFilter

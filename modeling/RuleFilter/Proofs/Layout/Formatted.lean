import RuleFilter.Proofs.Layout.Normal
import RuleFilter.Proofs.Token.Coverage

/-!
# Reading a formatted rule back

A formatted rule has the tokens that it was made of, with keywords in upper case
(`Lexicon.tokens_format`).

* `Layout.spread_format`: it consists of the words of the tokens in order, with blanks between them.
* `Reads.spread`: what separates tokens by blanks is read as the same tokens.
* `Layout.format_congr`: only classes and words of tokens count in a layout.
-/

namespace RuleFilter

namespace Token

def asWritten (token : Token) : TokenKind × String :=
  (token.kind, token.keywordText)

theorem keywordText_eq (token : Token) :
    token.keywordText =
      if token.kind = .operator ∨ token.kind = .logical then Text.upperCase token.text
      else token.text := by
  unfold keywordText
  cases token.kind <;> simp

theorem foldCase_keywordText (token : Token) :
    Text.foldCase token.keywordText = Text.foldCase token.text := by
  unfold keywordText
  split
  · exact Layout.foldCase_upperCase token.text
  · exact Layout.foldCase_upperCase token.text
  · rfl

theorem asWritten_of_asRead {a b : Token} (same : a.asRead = b.asWritten) :
    a.asWritten = b.asWritten := by
  obtain ⟨kind, text⟩ : a.kind = b.kind ∧ a.text = b.keywordText := by
    simpa [asRead, asWritten] using same
  suffices a.keywordText = b.keywordText by rw [asWritten, asWritten, kind, this]
  simp only [keywordText, kind] at text ⊢
  split <;> simp_all [Layout.upperCase_upperCase]

theorem foldCase_eq_of_asWritten {a b : Token} (same : a.asWritten = b.asWritten) :
    Text.foldCase a.text = Text.foldCase b.text := by
  rw [← foldCase_keywordText, ← foldCase_keywordText, show a.keywordText = b.keywordText from
    congrArg Prod.snd same]

theorem isConnective_eq_of_asWritten {a b : Token} (same : a.asWritten = b.asWritten)
    (connective : Connective) : a.isConnective connective = b.isConnective connective :=
  isConnective_congr (congrArg Prod.fst same) (foldCase_eq_of_asWritten same) connective

end Token

namespace Layout

/-! ## Words spread over a text -/

inductive Spread : List String → List Char → Prop
  | nil : Spread [] []
  | word {gap cs : List Char} {word : String} {words : List String} : gap ≠ [] →
      (∀ c ∈ gap, Text.isBlank c = true) → Spread words cs →
      Spread (word :: words) (gap ++ (word.toList ++ cs))

theorem Spread.append {words words' : List String} {cs cs' : List Char} (h : Spread words cs)
    (h' : Spread words' cs') : Spread (words ++ words') (cs ++ cs') := by
  induction h with
  | nil => exact h'
  | word some_blank blank _ ih =>
    rw [List.append_assoc, List.append_assoc]
    exact .word some_blank blank ih

theorem Spread.breaks {words : List String} {cs : List Char} (h : Spread words cs) :
    Lexeme.Breaks cs := by
  cases h with
  | nil => nofun
  | @word gap _ _ _ some_blank blank _ =>
    obtain ⟨c, gap, rfl⟩ := List.exists_cons_of_ne_nil some_blank
    intro d first
    cases first
    exact .inl (blank _ List.mem_cons_self)

theorem cons_intercalate {α : Type} (a : α) {parts : List (List α)} (some_part : parts ≠ []) :
    a :: [a].intercalate parts = parts.flatMap (a :: ·) := by
  obtain ⟨part, parts, rfl⟩ := List.exists_cons_of_ne_nil some_part
  induction parts generalizing part with
  | nil => simp
  | cons next parts ih =>
    rw [List.intercalate_cons_cons, List.flatMap_cons, ← ih next (List.cons_ne_nil _ _)]
    simp

theorem spread_words (words : List String) :
    Spread words (words.flatMap fun word => ' ' :: word.toList) := by
  induction words with
  | nil => exact .nil
  | cons word words ih => exact @Spread.word [' '] _ _ _ nofun (List.forall_mem_singleton.2 rfl) ih

theorem spread_line (width : Nat) {line : Line} (some_word : line.words ≠ []) :
    Spread line.words ('\n' :: (line.text width).toList) := by
  obtain ⟨depth, words⟩ := line
  obtain ⟨word, words, rfl⟩ := List.exists_cons_of_ne_nil some_word
  have joined := @cons_intercalate _ ' ' ((word :: words).map String.toList) (by simp)
  simp only [List.map_cons, List.flatMap_cons, List.cons_append, List.cons.injEq, true_and]
    at joined
  have blank : ∀ c ∈ '\n' :: List.replicate (width * depth) ' ', Text.isBlank c = true := by
    intro c member
    rcases List.mem_cons.1 member with rfl | member
    · decide
    · rw [(List.mem_replicate.1 member).2]
      decide
  rw [Line.text, String.toList_append, String.toList_intercalate, String.toList_ofList,
    show " ".toList = [' '] from rfl, List.map_cons, joined, ← List.cons_append]
  refine .word nofun blank ?_
  rw [List.flatMap_map]
  exact spread_words words

/-! ## The words of a draft -/

namespace Draft

def written (draft : Draft) : List String :=
  draft.lines.reverse.flatMap Line.words ++ draft.words.reverse

def Tidy (draft : Draft) : Prop :=
  ∀ line ∈ draft.lines, line.words ≠ []

@[simp] theorem written_push (word : String) (draft : Draft) :
    (draft.push word).written = draft.written ++ [word] := by
  simp [written, push]

@[simp] theorem written_breakLine (draft : Draft) : draft.breakLine.written = draft.written := by
  unfold breakLine
  split
  · rfl
  · simp [written]

@[simp] theorem written_deepen (draft : Draft) : draft.deepen.written = draft.written :=
  rfl

@[simp] theorem written_raise (draft : Draft) : draft.raise.written = draft.written :=
  rfl

theorem Tidy.breakLine {draft : Draft} (tidy : draft.Tidy) : draft.breakLine.Tidy := by
  unfold Draft.breakLine
  split
  · exact tidy
  · next some_word =>
    exact List.forall_mem_cons.2 ⟨by simpa using some_word, tidy⟩

theorem words_breakLine (draft : Draft) : draft.breakLine.words = [] := by
  unfold breakLine
  split
  · next none => exact List.isEmpty_iff.1 none
  · rfl

theorem written_step (draft : Draft) (token : Token) :
    (draft.step token).written = draft.written ++ [token.keywordText] := by
  unfold step
  simp only
  split
  · split <;> simp
  · simp
  · simp
  · simp

theorem Tidy.step {draft : Draft} (tidy : draft.Tidy) (token : Token) :
    (draft.step token).Tidy := by
  unfold Draft.step
  simp only
  split
  · split
    · exact tidy
    · exact tidy.breakLine
  · exact @Tidy.breakLine (draft.push _) tidy
  · exact @Tidy.breakLine (draft.breakLine.raise.push _) tidy.breakLine
  · exact tidy

theorem written_foldl (tokens : List Token) (draft : Draft) :
    (tokens.foldl step draft).written = draft.written ++ tokens.map Token.keywordText := by
  induction tokens generalizing draft with
  | nil => exact (List.append_nil _).symm
  | cons token tokens ih => simp [ih, written_step]

theorem Tidy.foldl {draft : Draft} (tidy : draft.Tidy) (tokens : List Token) :
    (tokens.foldl Draft.step draft).Tidy := by
  induction tokens generalizing draft with
  | nil => exact tidy
  | cons token tokens ih => exact ih (tidy.step token)

end Draft

theorem words_lines (tokens : List Token) :
    (lines tokens).flatMap Line.words = tokens.map Token.keywordText := by
  have all := Draft.written_breakLine (tokens.foldl Draft.step .start)
  rw [Draft.written_foldl, Draft.written, Draft.words_breakLine, List.reverse_nil,
    List.append_nil] at all
  exact all

theorem words_ne_nil_of_mem_lines {tokens : List Token} {line : Line} (h : line ∈ lines tokens) :
    line.words ≠ [] := by
  have tidy := (@Draft.Tidy.foldl .start nofun tokens).breakLine
  exact tidy line (List.mem_reverse.1 h)

theorem lines_ne_nil {tokens : List Token} (some_token : tokens ≠ []) : lines tokens ≠ [] := by
  intro none
  have words := words_lines tokens
  rw [none, List.flatMap_nil] at words
  exact some_token (List.map_eq_nil_iff.1 words.symm)

theorem spread_format (width : Nat) {tokens : List Token} (some_token : tokens ≠ []) :
    Spread (tokens.map Token.keywordText) ('\n' :: (format width tokens).toList) := by
  have some_line : ((lines tokens).map (Line.text width)).map String.toList ≠ [] := by
    simpa using lines_ne_nil some_token
  rw [← words_lines, format, String.toList_intercalate, show "\n".toList = ['\n'] from rfl,
    cons_intercalate _ some_line, List.flatMap_map, List.flatMap_map]
  have some_word := fun line => @words_ne_nil_of_mem_lines tokens line
  revert some_word
  generalize lines tokens = lines
  intro some_word
  induction lines with
  | nil => exact .nil
  | cons line lines ih =>
    rw [List.forall_mem_cons] at some_word
    exact (spread_line width some_word.1).append (ih some_word.2)

/-! ## What a layout depends on -/

theorem step_congr (draft : Draft) {a b : Token} (same : a.asWritten = b.asWritten) :
    draft.step a = draft.step b := by
  obtain ⟨kind, word⟩ : a.kind = b.kind ∧ a.keywordText = b.keywordText := by
    simpa [Token.asWritten] using same
  simp only [Draft.step, kind, word, Token.isConnective_eq_of_asWritten same]

theorem format_congr (width : Nat) {tokens tokens' : List Token}
    (same : tokens.map Token.asWritten = tokens'.map Token.asWritten) :
    format width tokens = format width tokens' := by
  have drafts (draft : Draft) : tokens.foldl Draft.step draft = tokens'.foldl Draft.step draft := by
    induction tokens generalizing tokens' draft with
    | nil => rw [List.map_eq_nil_iff.1 same.symm]
    | cons token tokens ih =>
      obtain ⟨token', tokens', rfl, first, others⟩ := List.map_eq_cons_iff.1 same.symm
      rw [List.foldl_cons, List.foldl_cons, step_congr draft first, ih others.symm]
  rw [format, format, lines, lines, drafts]

theorem normalWord_congr (schema : Schema) {a b : Token} (same : a.asWritten = b.asWritten) :
    normalWord schema a = normalWord schema b := by
  obtain ⟨kind, word⟩ : a.kind = b.kind ∧ a.keywordText = b.keywordText := by
    simpa [Token.asWritten] using same
  have named : schema.named? a = schema.named? b := by
    rw [Schema.named?, Schema.named?, kind,
      schema.describe?_congr (Token.foldCase_eq_of_asWritten same)]
  rw [normalWord, normalWord, named, word]

theorem normalize_congr (schema : Schema) {tokens tokens' : List Token}
    (same : tokens.map Token.asWritten = tokens'.map Token.asWritten) :
    normalize schema tokens = normalize schema tokens' := by
  rw [← String.toList_inj, normalize_eq, normalize_eq]
  apply normalChars_congr
  refine map_eq_map_of_map_eq_map (fun a b same => ?_) same
  rw [normalToken, normalToken, show a.kind = b.kind from congrArg Prod.fst same,
    normalWord_congr schema same]

end Layout

namespace Lexicon

open Layout

/-- What is read is read again where its words stand apart from each other. -/
theorem Reads.spread {lexicon : Lexicon} {offset : Nat} {previous : Option TokenKind}
    {cs out : List Char} {tokens : List Token} (reads : lexicon.Reads offset previous cs tokens)
    (spread : Spread (tokens.map Token.keywordText) out) (offset' : Nat) :
    ∃ tokens', lexicon.Reads offset' previous out tokens' ∧
      tokens'.map Token.asRead = tokens.map Token.asWritten := by
  induction reads generalizing out offset' with
  | done =>
    cases spread
    exact ⟨[], .done, rfl⟩
  | blank _ _ ih => exact ih spread offset'
  | @token offset previous c cs lexeme tokens visible found reads ih =>
    subst found
    generalize is : (⟨(lexicon.lexeme previous c cs).kind,
      String.ofList (lexicon.lexeme previous c cs).text,
      ⟨offset, offset + Text.byteLength (lexicon.lexeme previous c cs).text⟩, none⟩ : Token) = token
      at spread
    obtain ⟨kind, text⟩ : token.kind = (lexicon.lexeme previous c cs).kind ∧
        token.text = String.ofList (lexicon.lexeme previous c cs).text := by
      rw [← is]
      exact ⟨rfl, rfl⟩
    have letters : Text.foldCase token.keywordText =
        (lexicon.lexeme previous c cs).text.map Char.toLower := by
      rw [Token.foldCase_keywordText, text, Text.foldCase, String.toList_ofList]
    cases spread with
    | @word gap more _ _ _ blank others =>
      -- A text without a closing quote was the last one, and nothing is written behind it.
      have last (unknown : (lexicon.lexeme previous c cs).kind = .unknown)
          (quotes : Text.isQuote c = true) : more = [] := by
        rw [lexeme_unterminated unknown quotes] at reads
        cases reads
        cases others
        rfl
      obtain ⟨tokens', reads', same⟩ := ih others _
      refine ⟨_, (reads_word visible letters (fun _ => others.breaks) last
        reads').behind_blanks blank, ?_⟩
      rw [List.map_cons, List.map_cons, same, Token.asRead, Token.asWritten, kind]

theorem asRead_tokens_format (lexicon : Lexicon) (width : Nat) (text : String) :
    (lexicon.tokens (format width (lexicon.tokens text))).map Token.asRead =
      (lexicon.tokens text).map Token.asWritten := by
  by_cases nothing : lexicon.tokens text = []
  · have blank : lexicon.tokens "" = [] := reads_iff.1 .done
    rw [nothing]
    exact congrArg (List.map Token.asRead) blank
  · obtain ⟨tokens, reads, same⟩ :=
      (lexicon.reads_tokens text).spread (spread_format width nothing) 0
    -- The line break in front of the first line moves the places of the tokens by a byte.
    have moved := (lexicon.reads_tokens (format width (lexicon.tokens text))).moved 1
    have behind : lexicon.Reads 0 none
        ('\n' :: (format width (lexicon.tokens text)).toList) _ := .blank (by decide) moved
    rw [← same, ← reads_iff.1 reads, reads_iff.1 behind, List.map_map]
    rfl

/-- A formatted rule has the same tokens, with operators and connectives in upper case; so
formatting it again changes nothing, and it has the normal form of the rule. -/
theorem tokens_format (lexicon : Lexicon) (width : Nat) (text : String) :
    ((lexicon.tokens (format width (lexicon.tokens text))).map fun token =>
        (token.kind, token.text)) =
      ((lexicon.tokens text).map fun token => (token.kind,
        if token.kind = .operator ∨ token.kind = .logical then Text.upperCase token.text
        else token.text)) ∧
    format width (lexicon.tokens (format width (lexicon.tokens text))) =
      format width (lexicon.tokens text) ∧
    normalize lexicon.schema (lexicon.tokens (format width (lexicon.tokens text))) =
      normalize lexicon.schema (lexicon.tokens text) := by
  have read := asRead_tokens_format lexicon width text
  have written : (lexicon.tokens (format width (lexicon.tokens text))).map Token.asWritten =
      (lexicon.tokens text).map Token.asWritten :=
    map_eq_map_of_map_eq_map (fun _ _ => Token.asWritten_of_asRead) read
  unfold Token.asRead Token.asWritten at read
  simp only [Token.keywordText_eq] at read
  exact ⟨read, format_congr width written, normalize_congr lexicon.schema written⟩

theorem tokens_format_small :
    let lexicon : Lexicon := ⟨⟨[⟨"Name", .string, none⟩], by decide⟩, true⟩
    let text := "name startswith 'a\nb'  or not(Name contains 'x"
    let formatted := format 2 (lexicon.tokens text)
    formatted = "name STARTSWITH 'a\nb'\nOR NOT (\n  Name CONTAINS 'x" ∧
      (lexicon.tokens formatted).map (fun token => (token.kind, token.text)) =
        [(.property, "name"), (.operator, "STARTSWITH"), (.value, "'a\nb'"), (.logical, "OR"),
          (.logical, "NOT"), (.openParen, "("), (.property, "Name"), (.operator, "CONTAINS"),
          (.unknown, "'x")] ∧
      format 2 (lexicon.tokens formatted) = formatted := by
  intro lexicon text formatted
  have read : lexicon.tokens "name startswith 'a\nb'  or not(Name contains 'x" = [
      ⟨.property, "name", ⟨0, 4⟩, none⟩, ⟨.operator, "startswith", ⟨5, 15⟩, none⟩,
      ⟨.value, "'a\nb'", ⟨16, 21⟩, none⟩, ⟨.logical, "or", ⟨23, 25⟩, none⟩,
      ⟨.logical, "not", ⟨26, 29⟩, none⟩, ⟨.openParen, "(", ⟨29, 30⟩, none⟩,
      ⟨.property, "Name", ⟨30, 34⟩, none⟩, ⟨.operator, "contains", ⟨35, 43⟩, none⟩,
      ⟨.unknown, "'x", ⟨44, 46⟩, none⟩] :=
    reads_iff.1 (.token rfl rfl (.blank rfl (.token rfl rfl (.blank rfl (.token rfl rfl (.blank rfl
      (.blank rfl (.token rfl rfl (.blank rfl (.token rfl rfl (.token rfl rfl (.token rfl rfl
        (.blank rfl (.token rfl rfl (.blank rfl (.token rfl rfl .done))))))))))))))))
  obtain ⟨texts, again, -⟩ := tokens_format lexicon 2 text
  refine ⟨?_, ?_, again⟩
  · rw [show formatted = format 2 (lexicon.tokens text) from rfl, read]
    decide
  · rw [show (lexicon.tokens formatted).map _ = _ from texts, read]
    decide

end Lexicon
end RuleFilter

import Mathlib.Data.List.Forall2
import RuleFilter.Layout
import RuleFilter.Proofs.Token.Reading

namespace RuleFilter

theorem map_eq_map_of_map_eq_map {α β γ : Type} {f f' : α → β} {g g' : α → γ}
    (each : ∀ a b, f a = f' b → g a = g' b) {as bs : List α} (same : as.map f = bs.map f') :
    as.map g = bs.map g' := by
  induction as generalizing bs with
  | nil => rw [List.map_eq_nil_iff.1 same.symm, List.map_nil, List.map_nil]
  | cons a as ih =>
    obtain ⟨b, bs, rfl, first, others⟩ := List.map_eq_cons_iff.1 same.symm
    rw [List.map_cons, List.map_cons, each a b first.symm, ih others.symm]

def Token.asRead (token : Token) : TokenKind × String :=
  (token.kind, token.text)

namespace Layout

def normalToken (schema : Schema) (token : Token) : Token :=
  ⟨token.kind, normalWord schema token, .zero, none⟩

theorem foldCase_upperCase (text : String) :
    Text.foldCase (Text.upperCase text) = Text.foldCase text := by
  simp [Text.foldCase, Text.upperCase, Function.comp_def]

theorem upperCase_upperCase (text : String) :
    Text.upperCase (Text.upperCase text) = Text.upperCase text := by
  simp [Text.upperCase, Function.comp_def]

theorem foldCase_name_of_describe? {schema : Schema} {name : String} {property : Property}
    (h : schema.describe? name = some property) :
    Text.foldCase property.name = Text.foldCase name := by
  have same := List.find?_some h
  exact Text.sameLetters_iff.1 same

theorem foldCase_normalWord (schema : Schema) (token : Token) :
    Text.foldCase (normalWord schema token) = Text.foldCase token.text := by
  unfold normalWord
  split
  · next property named =>
    unfold Schema.named? at named
    split at named
    · exact foldCase_name_of_describe? named
    · cases named
  · unfold Token.keywordText
    split
    · exact foldCase_upperCase token.text
    · exact foldCase_upperCase token.text
    · rfl

theorem normalWord_of_kind {schema : Schema} {token : Token} (property : token.kind ≠ .property)
    (operator : token.kind ≠ .operator) (logical : token.kind ≠ .logical) :
    normalWord schema token = token.text := by
  unfold normalWord Schema.named? Token.keywordText
  rw [if_neg property]
  cases kind : token.kind <;> simp_all

theorem normalToken_normalToken (schema : Schema) (token : Token) :
    normalToken schema (normalToken schema token) = normalToken schema token := by
  suffices same : normalWord schema (normalToken schema token) = normalWord schema token by
    rw [normalToken, same, normalToken]
  cases kind : token.kind with
  | property =>
    have again : schema.named? (normalToken schema token) = schema.named? token := by
      simp only [Schema.named?, normalToken, kind, if_true]
      exact schema.describe?_congr (foldCase_normalWord schema token)
    rw [normalWord, again]
    cases named : schema.named? token with
    | none => simp [Token.keywordText, normalToken, kind, normalWord, named]
    | some property => simp [normalWord, named]
  | operator | logical =>
    simp [normalToken, normalWord, Schema.named?, kind, Token.keywordText, upperCase_upperCase]
  | _ => simp [normalToken, normalWord, Schema.named?, kind, Token.keywordText]

theorem normalToken_congr (schema : Schema) {a b : Token} (same : a.asRead = b.asRead) :
    normalToken schema a = normalToken schema b := by
  obtain ⟨kind, text⟩ : a.kind = b.kind ∧ a.text = b.text := by simpa [Token.asRead] using same
  simp only [normalToken, normalWord, Schema.named?, Token.keywordText, kind, text]

theorem normalToken_of_asRead {schema : Schema} {a b : Token}
    (same : a.asRead = (normalToken schema b).asRead) :
    normalToken schema a = normalToken schema b := by
  rw [normalToken_congr schema same, normalToken_normalToken]

/-- What the normal form of a rule makes of a token: the name of a property is spelled as in the
schema, operators and connectives are in upper case, and all else stays as it is. -/
structure Restates (schema : Schema) (token again : Token) : Prop where
  kind : again.kind = token.kind
  property : token.kind = .property → ∃ property ∈ schema.properties,
    Text.sameLetters property.name token.text = true ∧ again.text = property.name
  keyword : token.kind = .operator ∨ token.kind = .logical →
    again.text = Text.upperCase token.text
  other : token.kind ≠ .property → token.kind ≠ .operator → token.kind ≠ .logical →
    again.text = token.text

theorem restates_of_asRead {schema : Schema} {token again : Token}
    (genuine : token.Genuine schema) (same : again.asRead = (normalToken schema token).asRead) :
    Restates schema token again := by
  obtain ⟨kind, text⟩ : again.kind = token.kind ∧ again.text = normalWord schema token := by
    simpa [Token.asRead, normalToken] using same
  refine ⟨kind, fun is => ?_, fun is => ?_, fun property operator logical => ?_⟩
  · obtain ⟨property, found⟩ := Option.isSome_iff_exists.1 (genuine.property is)
    have same := List.find?_some found
    refine ⟨property, List.mem_of_find?_eq_some found, same, ?_⟩
    rw [text, normalWord, Schema.named?, if_pos is, found]
  · rw [text]
    rcases is with is | is <;> simp [normalWord, Schema.named?, is, Token.keywordText]
  · rw [text, normalWord_of_kind property operator logical]

/-! ## The line as characters -/

def normalChars (schema : Schema) (previous : Option TokenKind) : List Token → List Char
  | [] => []
  | token :: tokens =>
    (if previous == none || previous == some .openParen || token.kind == .closeParen then []
      else [' ']) ++
    ((normalWord schema token).toList ++ normalChars schema (some token.kind) tokens)

theorem normalizeOnto_eq (schema : Schema) (out : String) (previous : Option TokenKind)
    (tokens : List Token) :
    (normalizeOnto schema out previous tokens).toList =
      out.toList ++ normalChars schema previous tokens := by
  induction tokens generalizing out previous with
  | nil => simp [normalizeOnto, normalChars]
  | cons token tokens ih =>
    rw [normalizeOnto, normalChars]
    simp only [ih]
    split <;> simp

theorem normalize_eq (schema : Schema) (tokens : List Token) :
    (normalize schema tokens).toList = normalChars schema none tokens := by
  rw [normalize, normalizeOnto_eq]
  rfl

theorem normalChars_congr {schema : Schema} {tokens tokens' : List Token}
    (same : tokens.map (normalToken schema) = tokens'.map (normalToken schema))
    (previous : Option TokenKind) :
    normalChars schema previous tokens = normalChars schema previous tokens' := by
  induction tokens generalizing tokens' previous with
  | nil =>
    obtain rfl := List.map_eq_nil_iff.1 same.symm
    rfl
  | cons token tokens ih =>
    obtain ⟨token', tokens', rfl, first, others⟩ := List.map_eq_cons_iff.1 same.symm
    obtain ⟨kind, word⟩ : token'.kind = token.kind ∧
        normalWord schema token' = normalWord schema token := by
      simpa [normalToken] using first
    rw [normalChars, normalChars, kind, word, ih others.symm]

theorem normalChars_breaks {schema : Schema} {kind : TokenKind} (other : kind ≠ .openParen)
    {tokens : List Token} (genuine : ∀ token ∈ tokens, token.Genuine schema) :
    Lexeme.Breaks (normalChars schema (some kind) tokens) := by
  cases tokens with
  | nil => nofun
  | cons token tokens =>
    rw [normalChars]
    by_cases closes : token.kind = .closeParen
    · have text := (genuine token List.mem_cons_self).closeParen closes
      have word : normalWord schema token = ")" := by
        rw [normalWord_of_kind (by simp [closes]) (by simp [closes]) (by simp [closes]), text]
      simp [closes, word, Lexeme.Breaks]
    · simp [closes, other, Lexeme.Breaks]
      decide

end Layout

namespace Lexicon

open Layout

theorem lexeme_recased {lexicon : Lexicon} {previous : Option TokenKind} {c : Char}
    {cs word more : List Char}
    (letters : word.map Char.toLower = (lexicon.lexeme previous c cs).text.map Char.toLower)
    (breaks : (lexicon.lexeme previous c cs).kind ≠ .openParen → Lexeme.Breaks more)
    (last : (lexicon.lexeme previous c cs).kind = .unknown → Text.isQuote c = true → more = []) :
    ∃ d tail, word = d :: tail ∧ d.toLower = c.toLower ∧ lexicon.lexeme previous d (tail ++ more) =
      ⟨(lexicon.lexeme previous c cs).kind, d :: tail, more⟩ := by
  obtain ⟨tail, text⟩ := lexicon.lexeme_text previous c cs
  rw [text] at letters
  obtain ⟨d, tail', rfl, first, others⟩ := List.map_eq_cons_iff.1 letters
  refine ⟨d, tail', rfl, first, ?_⟩
  -- In lower case both words are read alike, and reading splits the characters as they stand.
  have found := lexeme_reread text breaks last
  have lower := lexicon.lexeme_toLower previous d (tail' ++ more)
  rw [first, List.map_append, others, ← List.map_append, lexeme_toLower, found] at lower
  have split := lexicon.lexeme_split previous d (tail' ++ more)
  cases found' : lexicon.lexeme previous d (tail' ++ more) with
  | mk kind text' rest' =>
    rw [found'] at lower split
    simp only [Lexeme.toLower, Lexeme.mk.injEq] at lower
    obtain ⟨rfl, texts, -⟩ := lower
    have length : text'.length = (d :: tail').length := by
      have := congrArg List.length texts
      have := congrArg List.length others
      simp only [List.length_map, List.length_cons] at *
      omega
    obtain ⟨rfl, rfl⟩ := List.append_inj (show _ = (d :: tail') ++ more from split) length
    rfl

theorem reads_word {lexicon : Lexicon} {previous : Option TokenKind} {c : Char}
    {cs more : List Char} {word : String} {tokens : List Token} (visible : Text.isBlank c = false)
    (letters : Text.foldCase word = (lexicon.lexeme previous c cs).text.map Char.toLower)
    (breaks : (lexicon.lexeme previous c cs).kind ≠ .openParen → Lexeme.Breaks more)
    (last : (lexicon.lexeme previous c cs).kind = .unknown → Text.isQuote c = true → more = [])
    {start : Nat} (reads : lexicon.Reads (start + Text.byteLength word.toList)
      (some (lexicon.lexeme previous c cs).kind) more tokens) :
    lexicon.Reads start previous (word.toList ++ more)
      (⟨(lexicon.lexeme previous c cs).kind, word,
        ⟨start, start + Text.byteLength word.toList⟩, none⟩ :: tokens) := by
  obtain ⟨d, tail, split, same, found⟩ := lexeme_recased letters breaks last
  have visible' : Text.isBlank d = false := by
    rw [← Text.isBlank_toLower, same, Text.isBlank_toLower, visible]
  obtain rfl : word = String.ofList (d :: tail) := by rw [← split, String.ofList_toList]
  rw [String.toList_ofList] at reads ⊢
  exact .token visible' found reads

theorem Reads.normalChars {lexicon : Lexicon} {offset : Nat} {previous : Option TokenKind}
    {cs : List Char} {tokens : List Token} (reads : lexicon.Reads offset previous cs tokens)
    (offset' : Nat) :
    ∃ tokens', lexicon.Reads offset' previous
        (Layout.normalChars lexicon.schema previous tokens) tokens' ∧
      tokens'.map Token.asRead =
        tokens.map fun token => (normalToken lexicon.schema token).asRead := by
  induction reads generalizing offset' with
  | done => exact ⟨[], .done, rfl⟩
  | blank _ _ ih => exact ih offset'
  | @token offset previous c cs lexeme tokens visible found reads ih =>
    subst found
    generalize is : (⟨(lexicon.lexeme previous c cs).kind,
      String.ofList (lexicon.lexeme previous c cs).text,
      ⟨offset, offset + Text.byteLength (lexicon.lexeme previous c cs).text⟩, none⟩ : Token) = token
    obtain ⟨kind, text⟩ : token.kind = (lexicon.lexeme previous c cs).kind ∧
        token.text = String.ofList (lexicon.lexeme previous c cs).text := by
      rw [← is]
      exact ⟨rfl, rfl⟩
    have letters : Text.foldCase (normalWord lexicon.schema token) =
        (lexicon.lexeme previous c cs).text.map Char.toLower := by
      rw [foldCase_normalWord, text, Text.foldCase, String.toList_ofList]
    have breaks := fun other => @normalChars_breaks lexicon.schema
      (lexicon.lexeme previous c cs).kind other tokens reads.genuine
    have last (unknown : (lexicon.lexeme previous c cs).kind = .unknown)
        (quotes : Text.isQuote c = true) : Layout.normalChars lexicon.schema
          (some (lexicon.lexeme previous c cs).kind) tokens = [] := by
      rw [lexeme_unterminated unknown quotes] at reads
      cases reads
      rfl
    have read (start : Nat) : ∃ tokens', lexicon.Reads start previous
        ((normalWord lexicon.schema token).toList ++
          Layout.normalChars lexicon.schema (some token.kind) tokens) tokens' ∧
        tokens'.map Token.asRead =
          (token :: tokens).map fun token => (normalToken lexicon.schema token).asRead := by
      obtain ⟨tokens', reads', others⟩ := ih _
      rw [kind]
      refine ⟨_, reads_word visible letters breaks last reads', ?_⟩
      rw [List.map_cons, List.map_cons, others, ← kind]
      rfl
    -- The word stands behind nothing, or behind a blank, which changes its place only.
    rw [Layout.normalChars]
    split
    · exact read offset'
    · obtain ⟨tokens', reads', same⟩ := read (offset' + ' '.utf8Size)
      exact ⟨tokens', .blank (by decide) reads', same⟩

theorem asRead_tokens_normalize (lexicon : Lexicon) (text : String) :
    (lexicon.tokens (normalize lexicon.schema (lexicon.tokens text))).map Token.asRead =
      (lexicon.tokens text).map fun token => (normalToken lexicon.schema token).asRead := by
  obtain ⟨tokens, reads, same⟩ := (lexicon.reads_tokens text).normalChars 0
  rw [← normalize_eq] at reads
  rw [show lexicon.tokens (normalize lexicon.schema (lexicon.tokens text)) = tokens from
    reads_iff.1 reads, same]

theorem normalTokens_normalize (lexicon : Lexicon) (text : String) :
    (lexicon.tokens (normalize lexicon.schema (lexicon.tokens text))).map
        (normalToken lexicon.schema) =
      (lexicon.tokens text).map (normalToken lexicon.schema) :=
  map_eq_map_of_map_eq_map (fun _ _ => normalToken_of_asRead)
    (asRead_tokens_normalize lexicon text)

theorem normalTokens_eq_of_normalize_eq {lexicon : Lexicon} {a b : String}
    (same : normalize lexicon.schema (lexicon.tokens a) =
      normalize lexicon.schema (lexicon.tokens b)) :
    (lexicon.tokens a).map (normalToken lexicon.schema) =
      (lexicon.tokens b).map (normalToken lexicon.schema) := by
  rw [← normalTokens_normalize, same, normalTokens_normalize]

theorem normalize_normalize (lexicon : Lexicon) (text : String) :
    normalize lexicon.schema
        (lexicon.tokens (normalize lexicon.schema (lexicon.tokens text))) =
      normalize lexicon.schema (lexicon.tokens text) := by
  rw [← String.toList_inj, normalize_eq, normalize_eq,
    normalChars_congr (normalTokens_normalize lexicon text)]

/-- The normal form of a rule, whether well formed or not, is read as its tokens restated one by
one, and it is its own normal form. -/
theorem tokens_normalize (lexicon : Lexicon) (text : String) :
    List.Forall₂ (Restates lexicon.schema) (lexicon.tokens text)
        (lexicon.tokens (normalize lexicon.schema (lexicon.tokens text))) ∧
      normalize lexicon.schema
          (lexicon.tokens (normalize lexicon.schema (lexicon.tokens text))) =
        normalize lexicon.schema (lexicon.tokens text) := by
  refine ⟨?_, normalize_normalize lexicon text⟩
  have same := asRead_tokens_normalize lexicon text
  have genuine := lexicon.genuine_tokens text
  generalize lexicon.tokens (normalize lexicon.schema (lexicon.tokens text)) = again at same
  generalize lexicon.tokens text = tokens at same genuine
  induction tokens generalizing again with
  | nil => rw [List.map_eq_nil_iff.1 same]; exact .nil
  | cons token tokens ih =>
    obtain ⟨token', again, rfl, first, others⟩ := List.map_eq_cons_iff.1 same
    rw [List.forall_mem_cons] at genuine
    exact .cons (restates_of_asRead genuine.1 first) (ih again others genuine.2)

end Lexicon
end RuleFilter

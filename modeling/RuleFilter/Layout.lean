import RuleFilter.Schema.Naming

/-!
# Layout

A rule is written over again from its tokens, so that rules with mistakes can be laid out too.
Only blanks and the letter case of keywords change. `format` writes one clause on a line and indents
what stands in parentheses; `normalize` writes one line, with the properties as the schema spells
them, which is the same for all rules with the same tokens.
-/

namespace RuleFilter

def Token.keywordText (token : Token) : String :=
  match token.kind with
  | .operator | .logical => Text.upperCase token.text
  | _ => token.text

namespace Layout

structure Line where
  depth : Nat
  words : List String
  deriving DecidableEq, Repr

structure Draft where
  depth : Nat
  words : List String
  lines : List Line

namespace Draft

def start : Draft := ⟨0, [], []⟩

def push (word : String) (draft : Draft) : Draft :=
  { draft with words := word :: draft.words }

def breakLine (draft : Draft) : Draft :=
  if draft.words.isEmpty then draft
  else { draft with words := [], lines := ⟨draft.depth, draft.words.reverse⟩ :: draft.lines }

def deepen (draft : Draft) : Draft :=
  { draft with depth := draft.depth + 1 }

def raise (draft : Draft) : Draft :=
  { draft with depth := draft.depth - 1 }

def step (draft : Draft) (token : Token) : Draft :=
  let word := token.keywordText
  match token.kind with
  | .logical =>
    if token.isConnective .not then draft.push word else draft.breakLine.push word
  | .openParen => (draft.push word).breakLine.deepen
  | .closeParen => (draft.breakLine.raise.push word).breakLine
  | _ => draft.push word

end Draft

def lines (tokens : List Token) : List Line :=
  (tokens.foldl Draft.step .start).breakLine.lines.reverse

def Line.text (width : Nat) (line : Line) : String :=
  String.ofList (List.replicate (width * line.depth) ' ') ++ " ".intercalate line.words

def format (width : Nat) (tokens : List Token) : String :=
  "\n".intercalate ((lines tokens).map (Line.text width))

def normalWord (schema : Schema) (token : Token) : String :=
  match schema.named? token with
  | some property => property.name
  | none => token.keywordText

/-- The tokens on one line behind the text `out`, which ends with a token of the class `previous`. A
blank stands between two tokens, but not on the inner side of a parenthesis. -/
def normalizeOnto (schema : Schema) (out : String) (previous : Option TokenKind) :
    List Token → String
  | [] => out
  | token :: tokens =>
    let tight := previous == none || previous == some .openParen || token.kind == .closeParen
    let out := if tight then out else out ++ " "
    normalizeOnto schema (out ++ normalWord schema token) (some token.kind) tokens

def normalize (schema : Schema) (tokens : List Token) : String :=
  normalizeOnto schema "" none tokens

end Layout
end RuleFilter

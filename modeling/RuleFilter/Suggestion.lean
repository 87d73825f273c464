import RuleFilter.Schema.Naming
import RuleFilter.Text.Bytes
import RuleFilter.Text.Quoted

/-!
# Suggestions

What may be typed at a caret. Where the caret stands in a token or right behind one, the candidates
for that token's place are narrowed to those that go on with what is typed; elsewhere they are those
for the place behind the last token in front of the caret. What already stands behind the caret is
not suggested.

The tokens in front of a place are held in reverse, so that the first one is the nearest.
-/

namespace RuleFilter

structure Candidates where
  items : List String
  exhaustive : Bool

namespace Candidates

def among (items : List String) : Candidates := ⟨items, false⟩

def connectives : List String :=
  [Connective.and.symbol, Connective.or.symbol]

def integerHints : List String := ["0", "1", "10", "100", "1000"]

def decimalHints : List String := ["0.0", "0.5", "1.0", "10.0", "100.0"]

def forValue (property : Property) : Candidates :=
  match property.allowed with
  | some values => ⟨values, true⟩
  | none =>
    match property.type with
    | .boolean => ⟨["true", "false"], true⟩
    | .integer => among integerHints
    | .decimal => among decimalHints
    | .string | .dateTime => among [String.singleton Text.singleQuote]
    | .custom _ => among []

def behind (schema : Schema) (before : List Token) : Candidates :=
  match before with
  | [] => among schema.names
  | token :: before =>
    match token.kind with
    | .property =>
      among (match schema.describe? token.text with
        | some property => (Comparator.legalFor property.type).map Comparator.symbol
        | none => [])
    | .operator =>
      match before.head?.bind schema.named? with
      | some property => forValue property
      | none => among []
    | .value | .closeParen => among connectives
    | .logical => among (schema.names ++ ["("])
    | .openParen => among schema.names
    | .unknown => among []

end Candidates

namespace Suggestion

def isEdited (caret : Nat) (token : Token) : Bool :=
  token.span.touches caret && (!token.kind.isParen || caret < token.span.stop)

/-- What is typed of a token in front of the caret; the whole token if the caret stands inside a
character. -/
def typed (token : Token) (caret : Nat) : String :=
  (Text.takeBytes? token.text (caret - token.span.start)).getD token.text

def beginning (typed : String) (items : List String) : List String :=
  items.filter (Text.startsWithLetters · typed)

/-- The ways to complete the token that is edited, behind the tokens `before`. Behind a finished
value a connective follows, unless longer values begin with it and nothing else may stand there. -/
def completions (schema : Schema) (before : List Token) (token : Token) (caret : Nat) :
    List String :=
  let candidates := Candidates.behind schema before
  let typed := typed token caret
  if token.kind = .value then
    let found := beginning (Text.dropQuotes typed) candidates.items
    if caret = token.span.stop then
      let longer :=
        if candidates.exhaustive then
          found.filter fun item => !Text.sameLetters item (Text.dropQuotes typed)
        else []
      if longer.isEmpty then Candidates.connectives else longer
    else found
  else beginning typed candidates.items

def distinct (next : Option Token) (items : List String) : List String :=
  (items.filter fun item =>
    !next.any fun token => Text.sameLetters (Text.unquote token.text) item).eraseDups

end Suggestion

def Schema.suggest (schema : Schema) (tokens : List Token) (caret : Nat) : List String :=
  let items :=
    match tokens.dropWhile fun token => !Suggestion.isEdited caret token with
    | token :: _ =>
      let before := tokens.takeWhile fun token => !Suggestion.isEdited caret token
      Suggestion.completions schema before.reverse token caret
    | [] =>
      let before := tokens.reverse.dropWhile fun token => caret < token.span.stop
      (Candidates.behind schema before).items
  Suggestion.distinct (tokens.find? fun token => caret ≤ token.span.start) items

end RuleFilter

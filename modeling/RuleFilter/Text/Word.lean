import RuleFilter.Text.LetterTable

namespace RuleFilter.Text

def isWordChar (c : Char) : Bool :=
  if c.toNat < 0x80 then c.isAlphanum || c == '_' else inRanges c.toNat letterRanges

def isNameChar (c : Char) : Bool :=
  c.isAlphanum || c == '_'

def isName (text : String) : Bool :=
  match text.toList with
  | [] => false
  | c :: cs => !c.isDigit && (c :: cs).all isNameChar

def isDigits (cs : List Char) : Bool :=
  !cs.isEmpty && cs.all Char.isDigit

def isIntegerText : List Char → Bool
  | '-' :: cs => isDigits cs
  | cs => isDigits cs

def isNumberText (cs : List Char) : Bool :=
  match cs.dropWhile (· != '.') with
  | [] => isIntegerText cs
  | _ :: fraction => isIntegerText (cs.takeWhile (· != '.')) && isDigits fraction

end RuleFilter.Text

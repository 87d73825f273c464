namespace RuleFilter.Text

def singleQuote : Char := '\x27'

def doubleQuote : Char := '\x22'

def isQuote (c : Char) : Bool :=
  c == singleQuote || c == doubleQuote

def unquote (text : String) : String :=
  match text.toList with
  | [] => text
  | c :: cs => if isQuote c && cs.getLast? == some c then String.ofList cs.dropLast else text

def dropQuotes (text : String) : String :=
  String.ofList (text.toList.dropWhile isQuote)

end RuleFilter.Text

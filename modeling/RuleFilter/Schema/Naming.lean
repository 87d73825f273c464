import RuleFilter.Schema.Basic
import RuleFilter.Token.Basic

namespace RuleFilter

def Schema.named? (schema : Schema) (token : Token) : Option Property :=
  if token.kind = .property then schema.describe? token.text else none

end RuleFilter

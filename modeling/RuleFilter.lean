import RuleFilter.Engine.Session
import RuleFilter.Expect
import RuleFilter.Json.Reader
import RuleFilter.Main
import RuleFilter.Person
import RuleFilter.Settings.Document
import RuleFilter.Proofs.Engine.Session
import RuleFilter.Proofs.Validation.Acceptance
import RuleFilter.Proofs.Text.Bytes
import RuleFilter.Proofs.Token.Coverage
import RuleFilter.Proofs.Layout.Formatted
import RuleFilter.Proofs.Condition.Compiling
import RuleFilter.Proofs.Condition.Meaning
import RuleFilter.Proofs.Time.LetterCase
import RuleFilter.Proofs.Value.LetterCase
import RuleFilter.Proofs.Rule.Clauses
import RuleFilter.Proofs.Validation.Typing
import RuleFilter.Proofs.Cache.Queue
import RuleFilter.Proofs.Cache.Recency
import RuleFilter.Proofs.Engine.Fingerprint
import RuleFilter.Proofs.Engine.HeldTokens
import RuleFilter.Proofs.Engine.Single
import RuleFilter.Proofs.Validation.Flags
import RuleFilter.Proofs.Validation.FirstComplaint
import RuleFilter.Proofs.Validation.Depth
import RuleFilter.Proofs.Condition.Clause
import RuleFilter.Proofs.Condition.Leaves
import RuleFilter.Proofs.Rule.Text
import RuleFilter.Proofs.Token.LetterCase
import RuleFilter.Proofs.Condition.LetterCase
import RuleFilter.Proofs.Token.Classes
import RuleFilter.Proofs.Validation.Parentheses
import RuleFilter.Proofs.Validation.UnknownList
import RuleFilter.Proofs.Validation.FirstTypeProblem
import RuleFilter.Proofs.Suggestion.Operators
import RuleFilter.Proofs.Suggestion.Values
import RuleFilter.Proofs.Layout.Rows
import RuleFilter.Proofs.Rule.Form
import RuleFilter.Proofs.Condition.Form
import RuleFilter.Proofs.Schema.Registration
import RuleFilter.Proofs.Suggestion.Caret
import RuleFilter.Proofs.Condition.Target
import RuleFilter.Proofs.Schema.Declaration
import RuleFilter.Proofs.Token.Composition
import RuleFilter.Proofs.Rule.Descent

import RuleFilter.Proofs.Condition.Clause
import RuleFilter.Proofs.Suggestion.Spaced
import RuleFilter.Proofs.Validation.Typing

namespace RuleFilter

namespace Comparator

theorem symbol_inj {a b : Comparator} (same : a.symbol = b.symbol) : a = b := by
  have found := ofSymbol?_of_sameLetters (Text.sameLetters_refl a.symbol)
  rw [same, ofSymbol?_of_sameLetters (Text.sameLetters_refl b.symbol)] at found
  exact (Option.some.inj found).symm

theorem mem_all (op : Comparator) : op ∈ all := by
  cases op <;> decide

theorem mem_legalFor_iff {op : Comparator} {type : PropertyType} :
    op.symbol ∈ (legalFor type).map symbol ↔ op.isLegalFor type = true := by
  rw [List.mem_map]
  constructor
  · rintro ⟨other, member, same⟩
    rw [← symbol_inj same]
    exact (List.mem_filter.1 member).2
  · intro legal
    exact ⟨op, List.mem_filter.2 ⟨mem_all op, legal⟩, rfl⟩

theorem legalFor_sublist (type : PropertyType) :
    ((legalFor type).map symbol).Sublist (all.map symbol) :=
  List.filter_sublist.map symbol

theorem nodup_legalFor (type : PropertyType) : ((legalFor type).map symbol).Nodup := by
  have all_apart : (all.map symbol).Nodup := by decide
  exact all_apart.sublist (legalFor_sublist type)

end Comparator

theorem Schema.compile_clauseTokens_ne_illegal {schema : Schema} {property : Property}
    {name symbol : String} {op : Comparator} (described : schema.describe? name = some property)
    (spelled : Text.sameLetters symbol op.symbol = true)
    (legal : op.isLegalFor property.type = true) (literal : String) (used : Comparator)
    (type : PropertyType) (named : String) :
    schema.compile (clauseTokens name symbol literal) ≠
      .error (.illegalOperator used type named) := by
  rw [compile_clauseTokens described spelled, if_pos legal, ne_eq, map_eq_error_iff,
    Property.operand]
  repeat' split
  all_goals simp

open Validation

namespace Lexicon

variable {lexicon : Lexicon} {text : String} {token : Token} {property : Property}

theorem tokens_symbol (ends : (lexicon.tokens text).getLast? = some token)
    (spaced : token.span.stop < text.utf8ByteSize) (op : Comparator) :
    lexicon.tokens (text ++ op.symbol) = lexicon.tokens text ++ [⟨.operator, op.symbol,
      ⟨text.utf8ByteSize, text.utf8ByteSize + Text.byteLength op.symbol.toList⟩, none⟩] := by
  have whole : lexicon.Whole (some token.kind) .operator op.symbol.toList :=
    whole_symbol (Text.sameLetters_refl op.symbol)
  have reads := whole.passage text.utf8ByteSize [] [] nofun .done
  rw [List.append_nil] at reads
  exact tokens_extend ends spaced reads

section

variable (ends : (lexicon.tokens text).getLast? = some token) (kind : token.kind = .property)
  (spaced : token.span.stop < text.utf8ByteSize)
  (described : lexicon.schema.describe? token.text = some property)

include ends kind spaced described

theorem suggest_property :
    lexicon.schema.suggest (lexicon.tokens text) text.utf8ByteSize =
      (Comparator.legalFor property.type).map Comparator.symbol := by
  obtain ⟨init, split⟩ := List.getLast?_eq_some_iff.1 ends
  have items : (Candidates.behind lexicon.schema (lexicon.tokens text).reverse).items =
      (Comparator.legalFor property.type).map Comparator.symbol := by
    rw [split, List.reverse_concat, Candidates.behind]
    simp only [kind, described, Candidates.among]
  rw [suggest_spaced ends spaced, items]
  exact eraseDups_of_nodup (Comparator.nodup_legalFor property.type)

theorem takes_symbol_iff (op : Comparator) :
    (∃ typed, lexicon.Takes text op.symbol [.type] typed ∧ typed.kind = .operator ∧
        typed.text = op.symbol) ↔ op.isLegalFor property.type = true := by
  obtain ⟨init, split⟩ := List.getLast?_eq_some_iff.1 ends
  have named : lexicon.schema.named? token = some property := (if_pos kind).trans described
  have spelled : Comparator.ofSymbol? op.symbol = some op :=
    Comparator.ofSymbol?_of_sameLetters (Text.sameLetters_refl op.symbol)
  have problem (typed : Token) (operator : typed.kind = .operator)
      (written : typed.text = op.symbol) :
      tokenProblem? lexicon.schema (lexicon.tokens text).reverse typed =
        if op.isLegalFor property.type then none
        else some (.illegalOperator op property.type property.name) := by
    have role : typed.role = .operator := by simp [Token.role, operator]
    have before : token.role = .property := by simp [Token.role, kind]
    simp [tokenProblem?, typeProblem?, split, role, before, Role.mayFollow, operator, named,
      written, operatorProblem?, spelled]
  constructor
  · rintro ⟨typed, takes, operator, written⟩
    by_contra illegal
    have wrong := problem typed operator written
    rw [if_neg illegal] at wrong
    exact ((takes_iff (by simp)).1 takes).2 _ (.inl wrong) (by simp [Problem.kind])
  · intro legal
    refine ⟨_, (takes_iff (by simp)).2 ⟨tokens_symbol ends spaced op, ?_⟩, rfl, rfl⟩
    intro wrong found
    rw [problem _ rfl rfl, if_pos legal] at found
    rcases found with found | found
    · cases found
    · simp [endProblem?_kind found]

end

/-- Behind the name of a property and a blank the suggestions are, in their order and each once, the
operators with which validation finds nothing wrong in type. They are those that no literal behind
them makes fail. -/
theorem suggest_operators (lexicon : Lexicon) (text : String) {token : Token}
    (ends : (lexicon.tokens text).getLast? = some token) (kind : token.kind = .property)
    (spaced : token.span.stop < text.utf8ByteSize) :
    let suggestions := lexicon.schema.suggest (lexicon.tokens text) text.utf8ByteSize
    suggestions.Sublist (Comparator.all.map Comparator.symbol) ∧ suggestions.Nodup ∧
      ∀ op : Comparator,
        (op.symbol ∈ suggestions ↔ ∃ typed, lexicon.Takes text op.symbol [.type] typed ∧
          typed.kind = .operator ∧ typed.text = op.symbol) ∧
        (op.symbol ∈ suggestions ↔
          ∀ literal, lexicon.tokens (clauseText token.text op.symbol literal) =
              clauseTokens token.text op.symbol literal →
            ∀ used type name,
              lexicon.schema.compile (lexicon.tokens (clauseText token.text op.symbol literal)) ≠
                .error (.illegalOperator used type name)) := by
  intro suggestions
  have genuine := lexicon.genuine_tokens text token (List.mem_of_getLast? ends)
  obtain ⟨property, described⟩ := Option.isSome_iff_exists.1 (genuine.property kind)
  have suggested : suggestions = (Comparator.legalFor property.type).map Comparator.symbol :=
    suggest_property ends kind spaced described
  rw [suggested]
  refine ⟨Comparator.legalFor_sublist _, Comparator.nodup_legalFor _, fun op => ?_⟩
  have spelled := Text.sameLetters_refl op.symbol
  rw [takes_symbol_iff ends kind spaced described, Comparator.mem_legalFor_iff]
  refine ⟨Iff.rfl, ?_, ?_⟩
  · intro legal literal read
    rw [read]
    exact Schema.compile_clauseTokens_ne_illegal described spelled legal literal
  · intro never
    obtain ⟨member, named⟩ := Schema.describe?_eq_some_iff.1 described
    rw [Text.sameLetters_comm] at named
    have zero : IsLiteral "0".toList := .integer (by decide)
    have read := tokens_clauseText member named spelled zero
    by_contra illegal
    refine never "0" read op property.type property.name ?_
    rw [read, Schema.compile_clauseTokens described spelled, if_neg illegal]

theorem suggest_operators_age :
    let lexicon : Lexicon := ⟨⟨[⟨"Age", .integer, none⟩], by decide⟩, true⟩
    let suggestions := lexicon.schema.suggest (lexicon.tokens "5) age ") 7
    (lexicon.tokens "5) age ").getLast? = some ⟨.property, "age", ⟨3, 6⟩, none⟩ ∧
      6 < "5) age ".utf8ByteSize ∧
      suggestions.Sublist (Comparator.all.map Comparator.symbol) ∧
      (">=" ∈ suggestions ↔ ∃ typed, lexicon.Takes "5) age " ">=" [.type] typed ∧
        typed.kind = .operator ∧ typed.text = ">=") := by
  intro lexicon suggestions
  have read : lexicon.tokens "5) age " = [⟨.value, "5", ⟨0, 1⟩, none⟩,
      ⟨.closeParen, ")", ⟨1, 2⟩, none⟩, ⟨.property, "age", ⟨3, 6⟩, none⟩] :=
    reads_iff.1 (.token rfl rfl (.token rfl rfl (.blank rfl (.token rfl rfl (.blank rfl .done)))))
  have ends : (lexicon.tokens "5) age ").getLast? = some ⟨.property, "age", ⟨3, 6⟩, none⟩ := by
    rw [read]
    rfl
  have spaced : 6 < "5) age ".utf8ByteSize := by decide
  have suggested := suggest_operators lexicon "5) age " ends rfl spaced
  exact ⟨ends, spaced, suggested.1, (suggested.2.2 .ge).1⟩

end Lexicon
end RuleFilter

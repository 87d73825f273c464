import RuleFilter.Proofs.Token.Clause
import RuleFilter.Proofs.Validation.Depth

namespace RuleFilter

def Clause.unplaced (clause : Clause) : Clause :=
  { clause with span := .zero }

namespace Rule

mutual

def unplaced : Rule → Rule
  | .clause c => .clause c.unplaced
  | .all rules => .all (unplacedEach rules)
  | .any rules => .any (unplacedEach rules)
  | .negation rule => .negation rule.unplaced

def unplacedEach : List Rule → List Rule
  | [] => []
  | rule :: rules => rule.unplaced :: unplacedEach rules

end

theorem unplacedEach_eq_map (rules : List Rule) : unplacedEach rules = rules.map unplaced := by
  induction rules with
  | nil => rfl
  | cons rule rules ih => rw [unplacedEach, ih, List.map_cons]

theorem textsFrom_eq (taken : List String) (rules : List Rule) :
    textsFrom taken rules = taken.reverse ++ rules.map text := by
  induction rules generalizing taken with
  | nil => rw [textsFrom, List.map_nil, List.append_nil]
  | cons rule rules ih =>
    rw [textsFrom, ih, List.reverse_cons, List.append_assoc, List.map_cons, List.singleton_append]

def runText (connective : Connective) (rules : List Rule) : List Char :=
  (' ' :: (connective.symbol.toList ++ [' '])).intercalate (rules.map (·.text.toList))

theorem text_clause (c : Clause) :
    (clause c).text = clauseText c.property c.op.symbol c.literal := by
  rw [text, Clause.text, clauseText]
  rfl

theorem toList_grouped (connective : Connective) {separator : String}
    (spaced : separator.toList = ' ' :: (connective.symbol.toList ++ [' '])) (rules : List Rule) :
    ("(" ++ separator.intercalate (textsFrom [] rules) ++ ")").toList =
      '(' :: (runText connective rules ++ [')']) := by
  rw [textsFrom_eq, String.toList_append, String.toList_append, String.toList_intercalate, spaced,
    List.reverse_nil, List.nil_append, List.map_map]
  rfl

theorem toList_text_all (rules : List Rule) :
    (all rules).text.toList = '(' :: (runText .and rules ++ [')']) := by
  rw [text, toList_grouped .and rfl]

theorem toList_text_any (rules : List Rule) :
    (any rules).text.toList = '(' :: (runText .or rules ++ [')']) := by
  rw [text, toList_grouped .or rfl]

theorem toList_text_negation (rule : Rule) :
    (negation rule).text.toList =
      '(' :: (Connective.not.symbol.toList ++ ' ' :: rule.text.toList ++ [')']) := by
  rw [text, String.toList_append, String.toList_append]
  rfl

/-! ## The text of a part -/

/-- Whether the text of a rule, wherever it stands, is read as tokens that form a unary, and as the
rule up to its places. -/
def ReadsBack (lexicon : Lexicon) (rule : Rule) : Prop :=
  ∃ deepest, ∀ offset previous, ∃ tokens last again,
    lexicon.Passage offset previous rule.text.toList tokens last ∧
      (∀ levels, deepest ≤ levels → Grammar.Unary levels tokens again) ∧
      again.unplaced = rule.unplaced

def RunReadsBack (lexicon : Lexicon) (connective : Connective) (rules : List Rule) : Prop :=
  ∃ deepest, ∀ offset previous, ∃ tokens last again,
    lexicon.Passage offset previous (runText connective rules) tokens last ∧
      (∀ levels, deepest ≤ levels → Grammar.Run connective (Grammar.Unary levels) tokens again) ∧
      again.map unplaced = rules.map unplaced

variable {lexicon : Lexicon}

theorem exists_unary_clauseTokens (offset : Nat) {name symbol literal : String} {op : Comparator}
    (spelled : Comparator.ofSymbol? symbol = some op) :
    ∃ span, ∀ levels, Grammar.Unary levels
      ((clauseTokens name symbol literal).map (Token.moved offset))
      (.clause ⟨name, op, literal, span⟩) := by
  refine ⟨_, fun levels => Grammar.Unary.clause levels ?_ ?_ ?_ ?_⟩
  · rfl
  · rfl
  · exact spelled
  · rfl

theorem ReadsBack.clause {c : Clause} (known : lexicon.schema.contains c.property = true)
    (literal : lexicon.Whole (some .operator) .value c.literal.toList) :
    ReadsBack lexicon (.clause c) := by
  obtain ⟨property, found⟩ := Option.isSome_iff_exists.1 known
  obtain ⟨member, named⟩ := Schema.describe?_eq_some_iff.1 found
  rw [Text.sameLetters_comm] at named
  have spells := Text.sameLetters_refl c.op.symbol
  have spelled : Comparator.ofSymbol? c.op.symbol = some c.op := by cases c.op <;> rfl
  refine ⟨0, fun offset previous => ?_⟩
  have passage : lexicon.Passage offset previous _ _ _ := Lexicon.passage_clause
    (Lexicon.whole_name member named) (Lexicon.whole_symbol spells) literal offset
  rw [← text_clause] at passage
  obtain ⟨span, derives⟩ := exists_unary_clauseTokens offset spelled
  exact ⟨_, _, _, passage, fun levels _ => derives levels, rfl⟩

theorem ReadsBack.negation {rule : Rule} (inner : ReadsBack lexicon rule) :
    ReadsBack lexicon (.negation rule) := by
  obtain ⟨deepest, reads⟩ := inner
  refine ⟨deepest + 2, fun offset previous => ?_⟩
  have sign := (@Lexicon.whole_connective lexicon (some .openParen) .not).passage (offset + 1)
  obtain ⟨tokens, last, again, passage, derives, same⟩ := reads _ (some .logical)
  have whole : lexicon.Passage offset previous _ _ _ := (sign.spaced passage).group
  rw [← toList_text_negation] at whole
  refine ⟨_, _, .negation again, whole, fun levels deep => ?_, ?_⟩
  · obtain ⟨levels, rfl⟩ := Nat.exists_eq_add_of_le' deep
    have operand := derives (levels + deepest) (Nat.le_add_left ..)
    refine Grammar.Operand.group rfl (.single (.single ?_)) rfl
    exact Grammar.Operand.negation (Token.isConnective_of_symbol rfl rfl) operand
  · rw [unplaced, same, unplaced]

theorem RunReadsBack.last {connective : Connective} {rule : Rule}
    (operand : ReadsBack lexicon rule) : RunReadsBack lexicon connective [rule] := by
  obtain ⟨deepest, reads⟩ := operand
  refine ⟨deepest, fun offset previous => ?_⟩
  obtain ⟨tokens, last, again, passage, derives, same⟩ := reads offset previous
  refine ⟨tokens, last, [again], ?_, fun levels deep => .last (derives levels deep), ?_⟩
  · rwa [runText, List.map_singleton, List.intercalate_singleton]
  · rw [List.map_singleton, List.map_singleton, same]

theorem RunReadsBack.more {connective : Connective} {rule : Rule} {rules : List Rule}
    (operand : ReadsBack lexicon rule) (some_rule : rules ≠ [])
    (others : RunReadsBack lexicon connective rules) :
    RunReadsBack lexicon connective (rule :: rules) := by
  obtain ⟨deepest, reads⟩ := operand
  obtain ⟨deepest', reads'⟩ := others
  refine ⟨max deepest deepest', fun offset previous => ?_⟩
  obtain ⟨tokens, last, again, passage, derives, same⟩ := reads offset previous
  have sign := (@Lexicon.whole_connective lexicon (some last) connective).passage
    (offset + Text.byteLength rule.text.toList + 1)
  obtain ⟨tokens', last', again', passage', derives', same'⟩ := reads' _ (some .logical)
  have text : runText connective (rule :: rules) =
      rule.text.toList ++ ' ' :: (connective.symbol.toList ++ ' ' :: runText connective rules) := by
    rw [runText, List.map_cons, List.intercalate_cons_of_ne_nil (by simpa using some_rule)]
    simp [runText]
  have whole := passage.spaced (sign.spaced passage')
  rw [← text] at whole
  refine ⟨_, last', again :: again', whole, fun levels deep => ?_, ?_⟩
  · refine .more (derives levels (by omega)) ?_ (derives' levels (by omega))
    exact Token.isConnective_of_symbol rfl rfl
  · rw [List.map_cons, List.map_cons, same, same']

theorem RunReadsBack.of_run {connective : Connective} {tokens : List Token} {rules : List Rule}
    (run : Grammar.Run connective (fun _ rule => ReadsBack lexicon rule) tokens rules) :
    RunReadsBack lexicon connective rules := by
  induction run with
  | last operand => exact .last operand
  | more operand _ others ih => exact .more operand others.ne_nil ih

theorem ReadsBack.node {connective : Connective} {node : List Rule → Rule} {rules : List Rule}
    (text : (node rules).text.toList = '(' :: (runText connective rules ++ [')']))
    (derives : ∀ levels tokens again, 2 ≤ again.length →
      Grammar.Run connective (Grammar.Unary levels) tokens again →
      Grammar.Disjunction (Grammar.Unary levels) tokens (node again))
    (places : ∀ again, (node again).unplaced = node (again.map unplaced))
    (run : RunReadsBack lexicon connective rules) (several : 2 ≤ rules.length) :
    ReadsBack lexicon (node rules) := by
  obtain ⟨deepest, reads⟩ := run
  refine ⟨deepest + 1, fun offset previous => ?_⟩
  obtain ⟨tokens, last, again, passage, operands, same⟩ := reads (offset + 1) (some .openParen)
  have whole : lexicon.Passage offset previous _ _ _ := passage.group
  rw [← text] at whole
  have several' : 2 ≤ again.length := by
    rwa [← List.length_map, same, List.length_map]
  refine ⟨_, _, node again, whole, fun levels deep => ?_, by rw [places, same, places]⟩
  obtain ⟨levels, rfl⟩ := Nat.exists_eq_add_of_le' deep
  have inside := derives _ _ _ several' (operands (levels + deepest) (Nat.le_add_left ..))
  exact Grammar.Operand.group rfl inside rfl

/-! ## The text of a rule -/

theorem run_inside {connective : Connective} {P : Rule → Prop} {all tokens : List Token}
    {rules : List Rule}
    (run : Grammar.Run connective (fun tokens rule => tokens <:+: all → P rule) tokens rules)
    (inside : tokens <:+: all) : Grammar.Run connective (fun _ rule => P rule) tokens rules := by
  induction run with
  | last part => exact .last (part inside)
  | more part is _ ih =>
    have first := List.infix_append_left.trans inside
    have others := (List.suffix_cons _ _).isInfix.trans (List.infix_append_right.trans inside)
    exact .more (part first) is (ih others)

theorem ReadsBack.of_reads {offset levels : Nat} {previous : Option TokenKind} {cs : List Char}
    {all : List Token} {rule : Rule} (reads : lexicon.Reads offset previous cs all)
    (derived : Grammar.Derives levels all rule) : ReadsBack lexicon rule := by
  refine derived.induction (P := fun tokens rule => tokens <:+: all → ReadsBack lexicon rule)
    ?_ ?_ ?_ ?_ ?_ (List.infix_refl all)
  · intro property operator value op kind₁ kind₂ _ kind₃ inside
    have known := (reads.genuine property (inside.subset List.mem_cons_self)).property kind₁
    have literal := reads.whole ((List.infix_cons (List.infix_refl _)).trans inside)
      (by simp [kind₃])
    rw [kind₂, kind₃] at literal
    exact .clause known literal
  · intro sign tokens rule _ inner inside
    exact .negation (inner ((List.infix_cons (List.infix_refl _)).trans inside))
  · intro opening closing tokens rule _ _ inner inside
    exact inner ((List.infix_cons List.infix_append_left).trans inside)
  · intro tokens rules several run inside
    refine .node (toList_text_all rules) ?_ ?_ (.of_run (run_inside run inside)) several
    · exact fun levels tokens again two operands => .single (.several two operands)
    · intro again
      rw [unplaced, unplacedEach_eq_map]
  · intro tokens rules several run inside
    refine .node (toList_text_any rules) ?_ ?_ (.of_run (run_inside run inside)) several
    · exact fun levels tokens again two operands =>
        .several two (operands.imp fun _ _ operand => .single operand)
    · intro again
      rw [unplaced, unplacedEach_eq_map]

end Rule

namespace Lexicon

/-- The text of a rule has only one way to number its NOTs and parentheses, and where no number is
beyond the limit it is read as the rule again, at other places. -/
theorem parse_text {lexicon : Lexicon} {text : String} {rule : Rule}
    (parsed : Rule.parse (lexicon.tokens text) = .ok rule) :
    ∃ openers,
      (∀ others, Grammar.Openers .whole 0 (lexicon.tokens rule.text) others ↔ others = openers) ∧
      ((∀ opener ∈ openers, opener.2 ≤ nestingLimit) →
        ∃ again, Rule.parse (lexicon.tokens rule.text) = .ok again ∧
          again.unplaced = rule.unplaced) := by
  obtain ⟨deepest, reads⟩ :=
    Rule.ReadsBack.of_reads (lexicon.reads_tokens text) (Rule.derives_of_parse parsed)
  obtain ⟨tokens, last, again, passage, unary, same⟩ := reads 0 none
  have derived : Grammar.Derives deepest tokens again :=
    .single (.single (unary deepest (Nat.le_refl _)))
  obtain ⟨openers, opens, within⟩ := derived.opened 0
  rw [passage.tokens_eq]
  refine ⟨openers, fun others => ?_, fun shallow => ⟨again, ?_, same⟩⟩
  · rw [(Validation.openers_iff derived openers).1 opens, Validation.openers_iff derived]
  · exact Rule.parse_of_derives (within nestingLimit (by simpa using shallow))

theorem parse_text_negation :
    let lexicon : Lexicon := ⟨⟨[⟨"Age", .integer, none⟩], by decide⟩, false⟩
    ∃ rule, Rule.parse (lexicon.tokens "NOT Age > -1") = .ok rule ∧ rule.text = "(NOT Age > -1)" ∧
      ∃ again, Rule.parse (lexicon.tokens "(NOT Age > -1)") = .ok again ∧
        again.unplaced = rule.unplaced := by
  intro lexicon
  have read : lexicon.tokens "NOT Age > -1" = [⟨.logical, "NOT", ⟨0, 3⟩, none⟩,
      ⟨.property, "Age", ⟨4, 7⟩, none⟩, ⟨.operator, ">", ⟨8, 9⟩, none⟩,
      ⟨.value, "-1", ⟨10, 12⟩, none⟩] :=
    reads_iff.1 (.token rfl rfl (.blank rfl (.token rfl rfl (.blank rfl (.token rfl rfl
      (.blank rfl (.token rfl rfl .done)))))))
  have reread : lexicon.tokens "(NOT Age > -1)" = [⟨.openParen, "(", ⟨0, 1⟩, none⟩,
      ⟨.logical, "NOT", ⟨1, 4⟩, none⟩, ⟨.property, "Age", ⟨5, 8⟩, none⟩,
      ⟨.operator, ">", ⟨9, 10⟩, none⟩, ⟨.value, "-1", ⟨11, 13⟩, none⟩,
      ⟨.closeParen, ")", ⟨13, 14⟩, none⟩] :=
    reads_iff.1 (.token rfl rfl (.token rfl rfl (.blank rfl (.token rfl rfl (.blank rfl
      (.token rfl rfl (.blank rfl (.token rfl rfl (.token rfl rfl .done)))))))))
  have parsed : Rule.parse (lexicon.tokens "NOT Age > -1") =
      .ok (.negation (.clause ⟨"Age", .gt, "-1", ⟨4, 12⟩⟩)) := by
    rw [read]
    rfl
  have text : (Rule.negation (.clause ⟨"Age", .gt, "-1", ⟨4, 12⟩⟩)).text = "(NOT Age > -1)" := rfl
  have opens : Grammar.Openers .whole 0 (lexicon.tokens "(NOT Age > -1)")
      [(⟨.openParen, "(", ⟨0, 1⟩, none⟩, 1), (⟨.logical, "NOT", ⟨1, 4⟩, none⟩, 2)] := by
    rw [reread]
    have inner := @Grammar.Openers.clause 2 ⟨.property, "Age", ⟨5, 8⟩, none⟩
      ⟨.operator, ">", ⟨9, 10⟩, none⟩ ⟨.value, "-1", ⟨11, 13⟩, none⟩ rfl rfl rfl
    exact .single (.group rfl (.single (.negation rfl inner)) rfl)
  obtain ⟨openers, unique, again⟩ := parse_text parsed
  rw [text] at unique again
  obtain rfl := (unique _).1 opens
  exact ⟨_, parsed, text, again (by decide)⟩

end Lexicon
end RuleFilter

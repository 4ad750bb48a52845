import Templating.Proofs.Construct
import Templating.Proofs.Run

/-! # What can stand at a place

No opening delimiter is the beginning of another. At every place before the end of a source
exactly one of the four kinds of nodes can therefore begin, and a body is the same in whichever
order they are tried. -/

namespace Templating

variable {room : Room}

/-- Where one of two delimiters stands that are apart, the other does not. -/
theorem Delimiter.Apart.not_both {left right : Delimiter} (apart : left.Apart right)
    {rest : List Char} (stands : left.chars <+: rest) : ¬ right.chars <+: rest :=
  fun stands' => (List.prefix_or_prefix_of_prefix stands stands').elim apart.1 apart.2

/-- A kind of nodes, as a body tells them apart by what stands at their beginning. -/
inductive Alternative where
  | text
  | comment
  | output
  | statement
  deriving Repr, DecidableEq

theorem Grammar.here_bind {α : Type} (next : Nat → Grammar α) (cursor : Cursor) :
    (here >>= next) cursor = next cursor.offset cursor := rfl

namespace Alternative

/-- The kinds in the order in which a body tries them. -/
def all : List Alternative :=
  [text, comment, output, statement]

variable (dialect : Dialect)

/-- A node of this kind can begin at the cursor: its delimiter stands there, or text is read
there. -/
def Begins (cursor : Cursor) : Alternative → Prop
  | text => ∃ node later, Grammar.text dialect cursor = .matched node later
  | comment => dialect.commentStart.chars <+: cursor.rest
  | output => dialect.exprStart.chars <+: cursor.rest
  | statement => dialect.blockStart.chars <+: cursor.rest

/-- The rule for the nodes of this kind. -/
def rule [Room] (body : Parser (List Node)) : Alternative → Parser Node
  | text => Parser.ofGrammar (Grammar.text dialect)
  | comment => Parser.ofGrammar (Grammar.comment dialect)
  | output => Parser.ofGrammar (Grammar.output dialect)
  | statement => Parser.statement dialect body

section

variable {dialect} {cursor : Cursor} {alternative other : Alternative}

/-! ## One kind at a place -/

theorem begins_text_iff :
    Begins dialect cursor text ↔
      cursor.rest ≠ [] ∧ Grammar.opensTag dialect cursor.rest = false := by
  constructor
  · rintro ⟨node, later, matched⟩
    have read : Grammar.text dialect cursor ≠ .noMatch := by simp [matched]
    simpa [Grammar.text_eq_noMatch] using read
  · rintro ⟨nonempty, apart⟩
    refine ⟨_, _, Grammar.text_eq_matched.mpr
      ⟨Grammar.untilText (Grammar.opensTag dialect) cursor.rest, ?_, rfl, rfl⟩⟩
    cases rest : cursor.rest with
    | nil => exact absurd rest nonempty
    | cons first others =>
        rw [rest] at apart
        simp [Grammar.untilText, apart]

theorem opensTag_eq_true_iff {rest : List Char} :
    Grammar.opensTag dialect rest = true ↔
      dialect.blockStart.chars <+: rest ∨ dialect.commentStart.chars <+: rest ∨
        dialect.exprStart.chars <+: rest := by
  simp [Grammar.opensTag, Dialect.starts]

/-- No two kinds of nodes begin at the same place. -/
theorem eq_of_begins (begins : Begins dialect cursor alternative)
    (begins' : Begins dialect cursor other) : alternative = other := by
  have tagged {kind : Alternative} (begins : Begins dialect cursor kind) (isTag : kind ≠ text) :
      Grammar.opensTag dialect cursor.rest = true := by
    rw [opensTag_eq_true_iff]
    cases kind with
    | text => exact absurd rfl isTag
    | comment => exact .inr (.inl begins)
    | output => exact .inr (.inr begins)
    | statement => exact .inl begins
  have plain (begins : Begins dialect cursor text) :
      Grammar.opensTag dialect cursor.rest ≠ true :=
    Bool.eq_false_iff.mp (begins_text_iff.mp begins).2
  cases alternative <;> cases other
  case text.text | comment.comment | output.output | statement.statement => rfl
  case text.comment | text.output | text.statement =>
      exact absurd (tagged begins' nofun) (plain begins)
  case comment.text | output.text | statement.text =>
      exact absurd (tagged begins nofun) (plain begins')
  case output.comment => exact absurd begins' (dialect.expr_apart_comment.not_both begins)
  case comment.output => exact absurd begins (dialect.expr_apart_comment.not_both begins')
  case statement.comment => exact absurd begins' (dialect.block_apart_comment.not_both begins)
  case comment.statement => exact absurd begins (dialect.block_apart_comment.not_both begins')
  case statement.output => exact absurd begins' (dialect.block_apart_expr.not_both begins)
  case output.statement => exact absurd begins (dialect.block_apart_expr.not_both begins')

/-- Before the end of a source some kind of nodes begins at every place. -/
theorem exists_begins (further : cursor.rest ≠ []) :
    ∃ alternative, Begins dialect cursor alternative := by
  cases opens : Grammar.opensTag dialect cursor.rest with
  | false => exact ⟨text, begins_text_iff.mpr ⟨further, opens⟩⟩
  | true =>
      rcases opensTag_eq_true_iff.mp opens with stands | stands | stands
      · exact ⟨statement, stands⟩
      · exact ⟨comment, stands⟩
      · exact ⟨output, stands⟩

/-- A kind of nodes that does not begin at the cursor leaves it and the counters alone. -/
theorem rule_apply_of_not_begins {body : Parser (List Node)}
    (apart : ¬ Begins dialect cursor alternative) (counters : Counters) :
    rule dialect body alternative counters cursor = (.noMatch, counters) := by
  have misses {delimiter : Delimiter} (apart : ¬ delimiter.chars <+: cursor.rest) :
      Grammar.exact delimiter.chars cursor = .noMatch :=
    if_neg fun stands => apart (List.isPrefixOf_iff_prefix.mp stands)
  cases alternative with
  | text =>
      have stopped : cursor.rest = [] ∨ Grammar.opensTag dialect cursor.rest = true := by
        rw [begins_text_iff] at apart
        cases opens : Grammar.opensTag dialect cursor.rest with
        | true => exact .inr rfl
        | false => exact .inl (Classical.byContradiction fun further => apart ⟨further, opens⟩)
      have missed : Grammar.text dialect cursor = .noMatch := Grammar.text_eq_noMatch.mpr stopped
      exact congrArg (·, counters) missed
  | comment =>
      have missed : Grammar.comment dialect cursor = .noMatch := by
        rw [Grammar.comment, Grammar.here_bind, Grammar.bind_of_noMatch (misses apart)]
      exact congrArg (·, counters) missed
  | output =>
      have missed : Grammar.output dialect cursor = .noMatch := by
        rw [Grammar.output, Grammar.here_bind, Grammar.bind_of_noMatch (misses apart)]
      exact congrArg (·, counters) missed
  | statement =>
      have missed : Parser.statementStart dialect cursor = .noMatch := by
        rw [Parser.statementStart, Grammar.here_bind, Grammar.bind_of_noMatch (misses apart)]
      rw [rule, Parser.statement, Parser.bind_apply, Parser.liftM_apply, missed]

end

/-! ## In any order -/

/-- The first of several kinds of nodes that is read at the cursor. -/
def firstOf [Room] (body : Parser (List Node)) : (order : List Alternative) → Parser Node
  | [] => Parser.ofGrammar Grammar.noMatch
  | alternative :: order => rule dialect body alternative <|> firstOf body order

variable {dialect}

theorem node_eq_firstOf (body : Parser (List Node)) :
    Parser.node dialect body = firstOf dialect body all := by
  have last : firstOf dialect body [statement] = Parser.statement dialect body := by
    funext counters cursor
    show (Parser.statement dialect body <|> Parser.ofGrammar Grammar.noMatch : Parser Node) counters
      cursor = _
    rw [Parser.orElse_apply]
    rcases Parser.statement dialect body counters cursor with ⟨_ | _ | _, _⟩ <;> rfl
  rw [all, firstOf, firstOf, firstOf, last]
  rfl

/-- Of two kinds of nodes either may be tried first. -/
theorem firstOf_swap (body : Parser (List Node)) (first second : Alternative)
    (order : List Alternative) :
    firstOf dialect body (second :: first :: order) =
      firstOf dialect body (first :: second :: order) := by
  by_cases same : first = second
  · rw [same]
  · funext counters cursor
    have skips {alternative : Alternative} (apart : ¬ Begins dialect cursor alternative)
        (order : List Alternative) (counters : Counters) :
        firstOf dialect body (alternative :: order) counters cursor =
          firstOf dialect body order counters cursor := by
      rw [firstOf, Parser.orElse_apply, rule_apply_of_not_begins apart]
    have skips' {alternative other : Alternative} (apart : ¬ Begins dialect cursor alternative)
        (order : List Alternative) (counters : Counters) :
        firstOf dialect body (other :: alternative :: order) counters cursor =
          firstOf dialect body (other :: order) counters cursor := by
      show (rule dialect body other <|> firstOf dialect body (alternative :: order)) counters cursor =
        (rule dialect body other <|> firstOf dialect body order) counters cursor
      rw [Parser.orElse_apply, Parser.orElse_apply]
      simp only [skips apart]
    by_cases begins : Begins dialect cursor first
    · have apart : ¬ Begins dialect cursor second := fun begins' => same (eq_of_begins begins begins')
      rw [skips apart, skips' apart]
    · rw [skips begins, skips' begins]

theorem firstOf_perm {order order' : List Alternative} (same : order.Perm order')
    (body : Parser (List Node)) : firstOf dialect body order = firstOf dialect body order' := by
  induction same with
  | nil => rfl
  | cons alternative _ induction => rw [firstOf, firstOf, induction]
  | swap first second order => exact firstOf_swap body first second order
  | trans _ _ first second => exact first.trans second

theorem firstOf_eq_node {order : List Alternative} (same : order.Perm all)
    (body : Parser (List Node)) : firstOf dialect body order = Parser.node dialect body := by
  rw [firstOf_perm same, ← node_eq_firstOf]

end Alternative

namespace Parser

variable (dialect : Dialect) (order : List Alternative)

/-- A body with at most so many levels of bodies, where the kinds of nodes are tried in the given
order. -/
def nodesTrying [Room] : (levels : Nat) → Parser (List Node)
  | 0 => ofGrammar (Grammar.fail (.nestingLimit dialect.maxDepth))
  | levels + 1 => inBody do
      checkDepth dialect
      many (Alternative.firstOf dialect (nodesTrying levels) order)

/-- A whole source, where the kinds of nodes are tried in the given order. -/
def documentTrying [Room] : Parser (List Node) := do
  let body ← nodesTrying dialect order (dialect.maxDepth + 1)
  Grammar.endOfSource dialect
  return body

variable {order} (same : order.Perm Alternative.all)

include same

theorem nodesTrying_eq (levels : Nat) : nodesTrying dialect order levels = nodesWithin dialect levels := by
  induction levels with
  | zero => rfl
  | succ levels induction =>
      rw [nodesTrying, nodesWithin, induction, Alternative.firstOf_eq_node same]

/-- A source is the same template, or fails in the same way, in whichever order the kinds of nodes
are tried. -/
theorem documentTrying_eq : documentTrying dialect order = document dialect := by
  rw [documentTrying, nodesTrying_eq dialect same]
  rfl

end Parser

end Templating

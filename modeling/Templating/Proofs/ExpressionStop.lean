import Templating.Proofs.ExpressionHead

/-! # Where expressions stop

An expression ends where no rule for it can go on. The rules that bind at least as tightly as
some level have to miss there; looser ones are left to whatever the expression is part of. -/

namespace Templating.Grammar

open Text Templating.Expr

variable {level layer : Nat} {op : BinaryOp} {inner : Grammar Expr}
  {text middle start next rest : List Char} {first : Char}

/-- No rule that binds at least as tightly as the level goes on with the text. An operator
without an operand does not go on with it either. -/
structure Stops (level : Nat) (text : List Char) : Prop where
  separators : level ≤ 14 → ∀ {next}, Gap text next → Misses furtherName next
  postfixes : level ≤ 13 → ∀ {next}, Gap text next →
    ∀ inner start value, Misses (postfixStep inner start value) next
  filters : level ≤ 12 → ∀ {next}, Gap text next →
    ∀ inner start value, Misses (filterStep inner start value) next
  operators : ∀ op : BinaryOp, level ≤ op.layer + 2 → ∀ {next}, Gap text next →
    Misses (operator op) next ∨
      ∃ behind, Reads (operator op) next (· = op) behind ∧ ∀ inner, Misses (unaryOf inner) behind
  marks : level ≤ 1 → ∀ {next}, Gap text next → Misses rangeMark next
  operands : level ≤ 0 → ∀ {next}, Gap text next → ∀ inner, Misses (unaryOf inner) next

theorem Stops.mono {level' : Nat} (stops : Stops level text) (higher : level ≤ level') :
    Stops level' text where
  separators low := stops.separators (by omega)
  postfixes low := stops.postfixes (by omega)
  filters low := stops.filters (by omega)
  operators op low := stops.operators op (by omega)
  marks low := stops.marks (by omega)
  operands low := stops.operands (by omega)

theorem operatorOf_misses_or_reads {operators : List BinaryOp}
    (each : ∀ op ∈ operators, Misses (operator op) text ∨
      ∃ behind, Reads (operator op) text (· = op) behind ∧ ∀ inner, Misses (unaryOf inner) behind) :
    Misses (operatorOf operators) text ∨
      ∃ behind, Reads (operatorOf operators) text (fun _ => True) behind ∧
        ∀ inner, Misses (unaryOf inner) behind := by
  induction operators with
  | nil => exact .inl fun _ => rfl
  | cons op others induction =>
      rw [List.forall_mem_cons] at each
      rcases each.1 with misses | ⟨behind, reads, misses⟩
      · rcases induction each.2 with others_miss | ⟨behind, reads, others_miss⟩
        · exact .inl (misses.orElse others_miss)
        · exact .inr ⟨behind, reads.orElse_of_misses misses, others_miss⟩
      · exact .inr ⟨behind, (reads.mono fun _ _ => trivial).orElse, misses⟩

theorem Stops.binaryStep_misses (stops : Stops level text) (gap : Gap text next)
    {operators : List BinaryOp} {tighter : List (List BinaryOp)}
    (from_layer : LayersFrom layer (operators :: tighter))
    (low : level ≤ layer + 2) (start : Nat) (left : Expr) :
    Misses (binaryStep (binaryOf (unaryOf inner) tighter) operators start left) next := by
  have each := fun op member =>
    stops.operators op (by rw [(from_layer.2.1 op).mp member]; exact low) gap
  rcases operatorOf_misses_or_reads each with misses | ⟨behind, reads, misses⟩
  · exact misses.bind
  · apply reads.bind_misses
    intro _ _
    exact (binaryOf_misses (misses inner) tighter).bind

theorem Stops.argumentsOf_misses (stops : Stops level text) (low : level ≤ 13)
    (gap : Gap text next) (inner : Grammar Expr) : Misses (argumentsOf inner) next := by
  intro offset
  have missed := stops.postfixes low gap inner 0 (.var 0 "") offset
  simp only [postfixStep, orElse_eq_noMatch] at missed
  exact noMatch_of_bind_pure missed.2.2.1

/-- With the character some rule that binds at least as tightly as the level may go on. -/
def goesOn (level : Nat) (first : Char) : Bool :=
  level ≤ 14 && first == ':' || level ≤ 13 && ['.', '[', '(', '?'].contains first ||
    level ≤ 12 && first == '|' ||
    BinaryOp.layers.flatten.any (fun op =>
      level ≤ op.layer + 2 && op.symbol.toList.head? == some first) ||
    level ≤ 1 && first == '.' || level ≤ 0 && startsOperand first

theorem separators_of_head (refused : ':' ∉ (afterBlanks text).head?) (gap : Gap text next) :
    Misses furtherName next := by
  apply Misses.bind
  apply separator_misses
  rw [gap.afterBlanks_eq_afterBlanks]
  rintro _ atHead rfl
  exact refused atHead

theorem operators_of_head (refused : ∀ first ∈ (afterBlanks text).head?,
    op.symbol.toList.head? ≠ some first) (gap : Gap text next) : Misses (operator op) next := by
  apply operator_misses
  rw [gap.afterBlanks_eq_afterBlanks]
  rintro ⟨behind, shape⟩
  cases symbol : op.symbol.toList with
  | nil => cases op <;> cases symbol
  | cons first others =>
      apply refused first
      · rw [← shape, symbol]
        rfl
      · rw [symbol]
        rfl

theorem stops_of_head
    (refused : ∀ first ∈ (afterBlanks text).head?, goesOn level first = false) :
    Stops level text := by
  have apart : ∀ first, goesOn level first = true → first ∉ (afterBlanks text).head? := by
    intro first goes atHead
    rw [refused first atHead] at goes
    cases goes
  constructor
  case separators =>
      intro low next gap
      exact separators_of_head (apart ':' (by simp [goesOn, low])) gap
  case postfixes =>
      intro low next gap inner start value
      apply postfixStep_misses
      rw [gap.afterBlanks_eq_afterBlanks]
      intro first atHead among
      refine apart first ?_ atHead
      simp only [goesOn, low, List.contains_iff_mem.mpr among, decide_true, Bool.and_true,
        Bool.or_true, Bool.true_or]
  case filters =>
      intro low next gap inner start value
      apply filterStep_misses
      rw [gap.afterBlanks_eq_afterBlanks]
      exact apart '|' (by simp [goesOn, low])
  case operators =>
      intro op low next gap
      refine .inl (operators_of_head ?_ gap)
      intro first atHead begins
      refine apart first ?_ atHead
      have found : BinaryOp.layers.flatten.any (fun op =>
          level ≤ op.layer + 2 && op.symbol.toList.head? == some first) = true :=
        List.any_eq_true.mpr ⟨op, mem_layers op, by simp [low, begins]⟩
      simp only [goesOn, found, Bool.or_true, Bool.true_or]
  case marks =>
      intro low next gap
      apply rangeMark_misses
      rw [gap.afterBlanks_eq_afterBlanks]
      exact apart '.' (by simp [goesOn, low])
  case operands =>
      intro low next gap inner
      apply unaryOf_misses_of_head
      rw [gap.afterBlanks_eq_afterBlanks]
      intro first atHead
      cases starts : startsOperand first with
      | false => rfl
      | true => exact absurd atHead (apart first (by simp [goesOn, low, starts]))

theorem stops_of_symbol {symbol : String} (isSymbol : isSymbol symbol = true)
    (spelled : SymbolAt symbol text rest)
    (refused : symbol.toList.head?.any (goesOn level) = false) : Stops level text := by
  apply stops_of_head
  rw [spelled.afterBlanks_eq (solid_symbol isSymbol rest)]
  cases shape : symbol.toList with
  | nil => simp [Text.isSymbol, shape] at isSymbol
  | cons first others =>
      intro first' atHead
      cases atHead
      rw [shape] at refused
      exact refused

/-! ## Stopping at operators -/

/-- Wherever the second operator is followed by an operand, the first one does not stand. -/
def apart (other op : BinaryOp) : Bool :=
  !other.symbol.toList.isPrefixOf op.symbol.toList &&
    (!op.symbol.toList.isPrefixOf other.symbol.toList ||
      ((other.symbol.toList.drop op.symbol.toList.length).head?.all fun first =>
        !startsOperand first && !isSpace first))

theorem apart_of_layer_lt {other : BinaryOp} (tighter : op.layer < other.layer) :
    apart other op = true := by
  have all : BinaryOp.layers.flatten.all (fun op => BinaryOp.layers.flatten.all fun other =>
      !decide (op.layer < other.layer) || apart other op) = true := by
    decide
  have := List.all_eq_true.mp (List.all_eq_true.mp all op (mem_layers op)) other (mem_layers other)
  simpa [tighter] using this

theorem layers_apart : ∀ operators ∈ BinaryOp.layers,
    operators.Pairwise fun earlier op => apart earlier op = true := by
  decide

/-- An operand follows, behind blanks at most. -/
def OperandFollows (text : List Char) : Prop :=
  ∃ start, Gap text start ∧ ∃ first, start.head? = some first ∧ startsOperand first = true

theorem OperandFollows.head {first : Char} (follows : OperandFollows text)
    (atHead : first ∈ text.head?) : startsOperand first = true ∨ isSpace first = true := by
  rcases follows with ⟨start, gap, first', atHead', starts⟩
  cases gap with
  | refl =>
      rw [Option.mem_def, atHead'] at atHead
      cases atHead
      exact .inl starts
  | cons space =>
      cases atHead
      exact .inr space

theorem not_prefix_of_apart {other : BinaryOp} (apart : apart other op = true)
    (follows : OperandFollows rest) : ¬ other.symbol.toList <+: op.symbol.toList ++ rest := by
  simp only [Grammar.apart, Bool.and_eq_true, Bool.not_eq_true', Bool.or_eq_true] at apart
  rcases apart with ⟨shorter, longer⟩
  intro begins
  rcases List.prefix_or_prefix_of_prefix begins (List.prefix_append _ rest) with within | within
  · rw [List.isPrefixOf_iff_prefix.mpr within] at shorter
    cases shorter
  rcases longer with longer | longer
  · rw [List.isPrefixOf_iff_prefix.mpr within] at longer
    cases longer
  rcases within with ⟨more, shape⟩
  rw [← shape, List.prefix_append_right_inj] at begins
  rw [← shape, List.drop_left] at longer
  cases more with
  | nil =>
      rw [← shape, List.append_nil, List.isPrefixOf_iff_prefix.mpr (List.prefix_refl _)] at shorter
      cases shorter
  | cons first more =>
      have atHead : first ∈ rest.head? := by
        rcases begins with ⟨behind, rfl⟩
        rfl
      rcases follows.head atHead with starts | space
      · simp [starts] at longer
      · simp [space] at longer

theorem OperatorAt.not_prefix {other : BinaryOp} (apart : apart other op = true)
    (spelled : OperatorAt op text middle) (follows : OperandFollows middle) :
    ¬ other.symbol.toList <+: afterBlanks text := by
  have isSymbol : isSymbol op.symbol = true := by cases op <;> rfl
  rw [spelled.1.afterBlanks_eq (solid_symbol isSymbol middle)]
  exact not_prefix_of_apart apart follows

theorem operatorOf_reads {operators : List BinaryOp} (member : op ∈ operators)
    (pairwise : operators.Pairwise fun earlier op => apart earlier op = true)
    (spelled : OperatorAt op text middle) (gap : Gap middle start) (solid : Solid start)
    (follows : OperandFollows middle) : Reads (operatorOf operators) text (· = op) start := by
  induction operators with
  | nil => cases member
  | cons other others induction =>
      rw [List.pairwise_cons] at pairwise
      rcases List.mem_cons.mp member with rfl | member
      · exact (operator_reads spelled gap solid).orElse
      · have misses := operator_misses (OperatorAt.not_prefix (pairwise.1 op member) spelled follows)
        exact (induction member pairwise.2).orElse_of_misses misses

/-- At two bars no filter begins. -/
theorem filterStep_misses_at_bars {start : Nat} {value : Expr}
    (bars : afterBlanks text = '|' :: '|' :: rest) :
    Misses (filterStep inner start value) text := by
  have symbol : SymbolAt "|" text ('|' :: rest) := by
    have := gap_afterBlanks text
    rwa [bars] at this
  apply (token_reads rfl symbol (.refl _) (by simp [isSpace])).bind_misses
  intro _ _
  apply Misses.bind
  intro offset
  simp [ahead]

theorem operator_head (op : BinaryOp) (rest : List Char) :
    ∃ first, (op.symbol.toList ++ rest).head? = some first ∧
      first ∉ [':', '.', '[', '(', '?'] ∧ (op = .or ∨ first ≠ '|') := by
  refine ⟨op.symbol.toList.headD ' ', ?_, ?_⟩
  · cases op <;> rfl
  · cases op <;> decide

theorem stops_of_operator (spelled : OperatorAt op text middle) (follows : OperandFollows middle) :
    Stops (op.layer + 3) text := by
  have isSymbol : isSymbol op.symbol = true := by cases op <;> rfl
  have stands := spelled.1.afterBlanks_eq (solid_symbol isSymbol middle)
  rcases operator_head op middle with ⟨first, atHead, apart, notBar⟩
  rw [← stands] at atHead
  constructor
  case separators =>
      intro _ next gap
      refine separators_of_head ?_ gap
      rw [atHead]
      rintro ⟨⟩
      exact apart (by decide)
  case postfixes =>
      intro _ next gap inner start value
      apply postfixStep_misses
      rw [gap.afterBlanks_eq_afterBlanks, atHead]
      rintro _ ⟨⟩ among
      exact apart (List.mem_cons_of_mem _ among)
  case filters =>
      intro _ next gap inner start value
      rcases notBar with rfl | notBar
      · exact filterStep_misses_at_bars (gap.afterBlanks_eq_afterBlanks.trans stands)
      · apply filterStep_misses
        rw [gap.afterBlanks_eq_afterBlanks, atHead]
        rintro ⟨⟩
        exact notBar rfl
  case operators =>
      intro other tighter next gap
      refine .inl (operator_misses ?_)
      rw [gap.afterBlanks_eq_afterBlanks]
      exact OperatorAt.not_prefix (apart_of_layer_lt (by omega)) spelled follows
  case marks => omega
  case operands => omega

/-! ## Stopping at marks and delimiters -/

theorem postfixStep_misses_at_points {start : Nat} {value : Expr}
    (points : afterBlanks text = '.' :: '.' :: rest) :
    Misses (postfixStep inner start value) text := by
  have symbol : SymbolAt "." text ('.' :: rest) := by
    have := gap_afterBlanks text
    rwa [points] at this
  have point : Misses nameToken ('.' :: rest) := by
    apply nameToken_misses
    rw [afterBlanks_of_solid (by simp [isSpace])]
    rintro _ ⟨⟩
    decide
  have atHead : (afterBlanks text).head? = some '.' := by rw [points]; rfl
  refine .orElse ?_ (.orElse (token_misses_at (by decide) atHead (by decide)).bind
    (.orElse (argumentsOf_misses ?_).bind (token_misses_at (by decide) atHead (by decide)).bind))
  · apply (token_reads rfl symbol (.refl _) (by simp [isSpace])).bind_misses
    intro _ _
    exact point.bind
  · simp [points]

theorem stops_of_mark {kind : RangeKind} (spelled : MarkAt kind text rest) : Stops 2 text := by
  have isSymbol : isSymbol kind.symbol = true := by cases kind <;> rfl
  have stands := spelled.1.afterBlanks_eq (solid_symbol isSymbol rest)
  have points : ∃ behind, afterBlanks text = '.' :: '.' :: behind := by
    rw [stands]
    cases kind with
    | halfOpen => exact ⟨rest, rfl⟩
    | closed => exact ⟨'=' :: rest, rfl⟩
  rcases points with ⟨behind, points⟩
  constructor
  case separators =>
      intro _ next gap
      refine separators_of_head ?_ gap
      simp [points]
  case postfixes =>
      intro _ next gap inner start value
      exact postfixStep_misses_at_points (gap.afterBlanks_eq_afterBlanks.trans points)
  case filters =>
      intro _ next gap inner start value
      apply filterStep_misses
      rw [gap.afterBlanks_eq_afterBlanks, points]
      simp
  case operators =>
      intro op _ next gap
      refine .inl (operators_of_head ?_ gap)
      rw [points]
      rintro _ ⟨⟩
      cases op <;> decide
  case marks => omega
  case operands => omega

/-- No expression goes on with the text, and no operand stands there. -/
structure Closes (text : List Char) : Prop where
  stops : Stops 0 text
  noOperand : ∀ first ∈ (afterBlanks text).head?, startsOperand first = false

theorem closes_of_head (refused : ∀ first ∈ (afterBlanks text).head?, goesOn 0 first = false) :
    Closes text := by
  refine ⟨stops_of_head refused, ?_⟩
  intro first atHead
  have := refused first atHead
  simp only [goesOn, Bool.or_eq_false_iff] at this
  simpa using this.2

theorem startsPrimary_eq_false (refused : startsOperand first = false) :
    startsPrimary first = false := by
  simp only [startsOperand, Bool.or_eq_false_iff] at refused
  exact refused.1.1

/-- Behind the character nothing of an expression can begin but an operand of an operator that
is written with this character alone. -/
def isBare (first : Char) : Bool :=
  !([':', '.', '[', '(', '?', '|'].contains first) && !startsPrimary first && !isSpace first &&
    BinaryOp.layers.flatten.all fun op =>
      op.symbol.toList.head? != some first || op.symbol.toList == [first]

section

variable (bare : isBare first = true) (stands : afterBlanks text = first :: rest)
  (noOperand : ∀ other ∈ (afterBlanks rest).head?, startsOperand other = false)

include bare stands noOperand

/-- An operator that is just the character lacks an operand, and no other one begins with it. -/
theorem operator_misses_or_lacks_operand (op : BinaryOp) : Misses (operator op) text ∨
    ∃ behind, Reads (operator op) text (· = op) behind ∧ ∀ inner, Misses (unaryOf inner) behind := by
  simp only [isBare, Bool.and_eq_true, Bool.not_eq_true'] at bare
  rcases bare with ⟨⟨⟨_, noPrimary⟩, _⟩, operators⟩
  have alone := List.all_eq_true.mp operators op (mem_layers op)
  by_cases begins : op.symbol.toList = [first]
  case pos =>
      have notName : continuesName first = false := (Bool.or_eq_false_iff.mp noPrimary).1
      refine .inr ⟨afterBlanks rest, ?_, ?_⟩
      · refine operator_reads ⟨?_, ?_⟩ (gap_afterBlanks rest) (solid_afterBlanks rest)
        · rw [SymbolAt, begins, List.singleton_append, ← stands]
          exact gap_afterBlanks text
        · simp [begins, notName]
      · intro inner
        apply unaryOf_misses_of_head
        rwa [afterBlanks_of_solid (solid_afterBlanks rest)]
  case neg =>
      refine .inl (operators_of_head ?_ (.refl text))
      rw [stands]
      rintro _ ⟨⟩ atHead
      simp [atHead, begins] at alone

theorem unaryOf_misses_bare : Misses (unaryOf inner) text := by
  simp only [isBare, Bool.and_eq_true, Bool.not_eq_true'] at bare
  apply unaryOf_misses
  · rw [stands]
    rintro _ ⟨⟩
    exact bare.1.1.2
  · intro op behind shape
    have same : rest = behind := by
      rw [stands] at shape
      cases op <;> exact (List.cons.inj shape).2
    rw [← same]
    exact fun first atHead => startsPrimary_eq_false (noOperand first atHead)

/-- An operator without an operand is left to whatever comes behind the expression. -/
theorem stops_of_isBare : Stops 0 text := by
  have standsBehind : ∀ {next}, Gap text next → afterBlanks next = first :: rest := fun gap =>
    gap.afterBlanks_eq_afterBlanks.trans stands
  have apart : ∀ other ∈ [':', '.', '[', '(', '?', '|'], first ≠ other := by
    rintro _ among rfl
    simp only [isBare, List.contains_iff_mem.mpr among, Bool.not_true, Bool.false_and] at bare
    cases bare
  constructor
  case separators =>
      intro _ next gap
      refine separators_of_head ?_ gap
      rw [stands]
      rintro ⟨⟩
      exact apart ':' (by decide) rfl
  case postfixes =>
      intro _ next gap inner start value
      apply postfixStep_misses
      rw [standsBehind gap]
      rintro _ ⟨⟩ among
      refine apart first ?_ rfl
      exact List.mem_cons_of_mem _ (List.mem_append_left ['|'] among)
  case filters =>
      intro _ next gap inner start value
      apply filterStep_misses
      rw [standsBehind gap]
      rintro ⟨⟩
      exact apart '|' (by decide) rfl
  case operators =>
      intro op _ next gap
      exact operator_misses_or_lacks_operand bare (standsBehind gap) noOperand op
  case marks =>
      intro _ next gap
      apply rangeMark_misses
      rw [standsBehind gap]
      rintro ⟨⟩
      exact apart '.' (by decide) rfl
  case operands =>
      intro _ next gap inner
      exact unaryOf_misses_bare bare (standsBehind gap) noOperand

end

/-- A percent sign in front of a delimiter is no operator. -/
theorem closes_of_percent (stands : afterBlanks text = '%' :: rest)
    (noOperand : ∀ first ∈ (afterBlanks rest).head?, startsOperand first = false) :
    Closes text := by
  refine ⟨stops_of_isBare (by decide) stands noOperand, ?_⟩
  rw [stands]
  rintro _ ⟨⟩
  decide

/-- A trim marker is left to the tag that it belongs to, although two of them are operators. -/
theorem stops_of_marker {trim : Trim} (stands : afterBlanks text = trim.mark :: rest)
    (closes : Closes rest) : Stops 0 text :=
  stops_of_isBare (by cases trim <;> decide) stands closes.noOperand

end Templating.Grammar

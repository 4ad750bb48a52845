import Templating.Proofs.ExpressionSteps

/-! # Every spelling of an expression is read

A well-formed expression is read from every one of its spellings, if the expression stops
there. An expression is built by steps from an operand on its left; a chain of steps arrives at
each of them in turn. Whatever binds more tightly than a rule asks for is read by it as well. -/

namespace Templating.Grammar

variable {room : Room}

open Text Templating.Expr

variable {limit level layer offset : Nat} {inner : Grammar Expr}
  {text middle start next rest : List Char} {expression value : Expr}

/-- The rule reads the text up to blanks before the rest. -/
def ReadsPast {α : Type} (rule : Grammar α) (text : List Char) (accept : α → Prop)
    (rest : List Char) : Prop :=
  ∃ next, Gap rest next ∧ Reads rule text accept next

/-- The rule is in the middle of a chain of steps at the rest or behind blanks there. -/
def ArrivesPast {α : Type} (rule : Grammar α) (step : Nat → α → Grammar α) (text : List Char)
    (accept : α → Prop) (rest : List Char) : Prop :=
  ∃ next, Gap rest next ∧ Arrives rule step text accept next

section

variable {α : Type} {rule : Grammar α} {step : Nat → α → Grammar α} {accept welcome : α → Prop}

theorem ArrivesPast.further {last : List Char} (arrives : ArrivesPast rule step text accept last)
    (behind : Gap rest middle)
    (steps : ∀ {next}, Gap last next → ∀ origin value, accept value →
      Reads (step origin value) next welcome middle) :
    ArrivesPast rule step text welcome rest := by
  rcases arrives with ⟨next, gap, arrives⟩
  exact ⟨middle, behind, arrives.further (steps gap)⟩

theorem ArrivesPast.stop [∀ origin value, Consuming (step origin value)]
    (arrives : ArrivesPast rule step text accept rest)
    (stops : ∀ {next}, Gap rest next → ∀ origin value, Misses (step origin value) next) :
    ReadsPast rule text accept rest := by
  rcases arrives with ⟨next, gap, arrives⟩
  exact ⟨next, gap, arrives.stop (stops gap)⟩

end

/-! ## From tighter rules to looser ones -/

theorem postfixOf_arrives {accept : Expr → Prop} (gap : Gap text start) (solid : Solid start)
    (reads : ReadsPast (primaryOf inner) start accept rest) :
    ArrivesPast (postfixOf inner) (postfixStep inner) text accept rest := by
  rcases reads with ⟨next, behind, reads⟩
  exact ⟨next, behind, (Arrives.of_reads .here reads).after (spaces_reads gap solid)⟩

theorem filteredOf_arrives {accept : Expr → Prop}
    (reads : ReadsPast (postfixOf inner) text accept rest) :
    ArrivesPast (filteredOf inner) (filterStep inner) text accept rest := by
  rcases reads with ⟨next, behind, reads⟩
  exact ⟨next, behind, .of_reads (nextOffset_reads text) reads⟩

theorem binaryOf_arrives {operand : Grammar Expr} {operators : List BinaryOp}
    {tighter : List (List BinaryOp)} {accept : Expr → Prop}
    (reads : ReadsPast (binaryOf operand tighter) text accept rest) :
    ArrivesPast (binaryOf operand (operators :: tighter))
      (binaryStep (binaryOf operand tighter) operators) text accept rest := by
  rcases reads with ⟨next, behind, reads⟩
  exact ⟨next, behind, .of_reads (nextOffset_reads text) reads⟩

theorem unaryOf_reads_operand {accept : Expr → Prop} {first : Char} (gap : Gap text start)
    (solid : Solid start) (atHead : start.head? = some first)
    (starts : startsPrimary first = true)
    (reads : ReadsPast (filteredOf inner) start accept rest) :
    ReadsPast (unaryOf inner) text accept rest := by
  rcases reads with ⟨next, behind, reads⟩
  refine ⟨next, behind, ?_⟩
  rw [unaryOf_eq]
  apply (spaces_reads gap solid).bind
  intro _ _
  apply Reads.here.bind
  intro origin _
  have unmarked : Misses unaryMark start := by
    rcases unaryMark_reads_or_misses start with ⟨op, after, rfl, _⟩ | ⟨_, _, misses⟩
    · cases op <;> cases atHead <;> cases starts
    · exact misses
  apply unmarked.optional.bind
  rintro _ rfl
  apply reads.bind
  intro value accepted
  exact .pure accepted

theorem unaryOf_reads_marked {op : UnaryOp} {mark : List Char}
    (gap : Gap text (op.symbol.toList ++ mark)) (solid : Solid (op.symbol.toList ++ mark))
    (reads : ReadsPast (filteredOf inner) mark (Agrees expression) rest) :
    ReadsPast (unaryOf inner) text (Agrees (.unary offset op expression)) rest := by
  rcases reads with ⟨next, behind, reads⟩
  refine ⟨next, behind, ?_⟩
  rw [unaryOf_eq]
  apply (spaces_reads gap solid).bind
  intro _ _
  apply Reads.here.bind
  intro origin _
  apply (unaryMark_reads op mark).optional.bind
  rintro _ ⟨_, rfl, rfl⟩
  apply reads.bind
  intro value agrees
  refine .pure ?_
  simp only [Agrees, same, beq_self_eq_true, Bool.true_and]
  exact agrees

/-- Every rule that asks for at most the rank of the expression arrives at its end. -/
structure Understood (inner : Grammar Expr) (expression : Expr) (start rest : List Char) :
    Prop where
  postfixes : 13 ≤ expression.rank → Stops 14 rest → ∀ {text}, Gap text start →
    ArrivesPast (postfixOf inner) (postfixStep inner) text (Agrees expression) rest
  filters : 12 ≤ expression.rank → Stops 13 rest → ∀ {text}, Gap text start →
    ArrivesPast (filteredOf inner) (filterStep inner) text (Agrees expression) rest
  operands : 11 ≤ expression.rank → Stops 12 rest → ∀ {text}, Gap text start →
    ReadsPast (unaryOf inner) text (Agrees expression) rest
  layers : ∀ {layer operators tighter}, LayersFrom layer (operators :: tighter) →
    layer + 2 ≤ expression.rank → Stops (layer + 3) rest → ∀ {text}, Gap text start →
      ArrivesPast (binaryOf (unaryOf inner) (operators :: tighter))
        (binaryStep (binaryOf (unaryOf inner) tighter) operators) text (Agrees expression) rest

theorem Understood.reads_layers [Advancing inner]
    (understood : Understood inner expression start rest) {layers : List (List BinaryOp)}
    (from_layer : LayersFrom layer layers) (rank : layer + 2 ≤ expression.rank)
    (stops : Stops (layer + 2) rest) (gap : Gap text start) :
    ReadsPast (binaryOf (unaryOf inner) layers) text (Agrees expression) rest := by
  cases layers with
  | nil =>
      cases from_layer
      exact understood.operands rank (stops.mono (by omega)) gap
  | cons operators tighter =>
      have := consuming_binaryOf (unaryOf inner) tighter
      exact (understood.layers from_layer rank (stops.mono (by omega)) gap).stop
        fun gap origin value => stops.binaryStep_misses gap from_layer (by omega) _ _

theorem layer_lt_of_layersFrom {operators : List BinaryOp} {tighter : List (List BinaryOp)}
    (from_layer : LayersFrom layer (operators :: tighter)) : layer < 9 := by
  induction tighter generalizing layer operators with
  | nil =>
      have last : layer + 1 = 9 := from_layer.2.2
      omega
  | cons operators' tighter induction =>
      have := induction from_layer.2.2
      omega

/-- It is enough that the rule arrives that asks for just the rank of the expression. -/
theorem understood_of_rank [Advancing inner] (wellFormed : expression.WellFormed IsReadable)
    (spelled : expression.Spelled start rest)
    (postfixes : 13 ≤ expression.rank → Stops 14 rest → ∀ {text}, Gap text start →
      ArrivesPast (postfixOf inner) (postfixStep inner) text (Agrees expression) rest)
    (filters : expression.rank = 12 → Stops 13 rest → ∀ {text}, Gap text start →
      ArrivesPast (filteredOf inner) (filterStep inner) text (Agrees expression) rest)
    (operands : expression.rank = 11 → Stops 12 rest → ∀ {text}, Gap text start →
      ReadsPast (unaryOf inner) text (Agrees expression) rest)
    (layers : ∀ {layer operators tighter}, LayersFrom layer (operators :: tighter) → layer < 9 →
      expression.rank = layer + 2 → Stops (layer + 3) rest → ∀ {text}, Gap text start →
        ArrivesPast (binaryOf (unaryOf inner) (operators :: tighter))
          (binaryStep (binaryOf (unaryOf inner) tighter) operators) text (Agrees expression)
          rest) :
    Understood inner expression start rest := by
  -- From the rule that asks for just this rank outwards: each looser rule reads what the tighter
  -- one before it does, and its own steps miss because the expression stops there.
  have solid := spelled_solid wellFormed spelled
  have allFilters : 12 ≤ expression.rank → Stops 13 rest → ∀ {text}, Gap text start →
      ArrivesPast (filteredOf inner) (filterStep inner) text (Agrees expression) rest := by
    intro rank stops text gap
    by_cases exactly : expression.rank = 12
    case pos => exact filters exactly stops gap
    case neg =>
        have arrives := postfixes (by omega) (stops.mono (by omega)) gap
        exact filteredOf_arrives
          (arrives.stop fun gap => stops.postfixes (by omega) gap inner)
  have allOperands : 11 ≤ expression.rank → Stops 12 rest → ∀ {text}, Gap text start →
      ReadsPast (unaryOf inner) text (Agrees expression) rest := by
    intro rank stops text gap
    by_cases exactly : expression.rank = 11
    case pos => exact operands exactly stops gap
    case neg =>
        rcases spelled_head wellFormed spelled with ⟨first, atHead, starts, _⟩
        have arrives := allFilters (by omega) (stops.mono (by omega)) (.refl start)
        exact unaryOf_reads_operand gap solid atHead (starts (by omega))
          (arrives.stop fun gap => stops.filters (by omega) gap inner)
  refine ⟨postfixes, allFilters, allOperands, ?_⟩
  intro layer operators tighter from_layer rank stops text gap
  induction tighter generalizing layer operators with
  | nil =>
      by_cases exactly : expression.rank = layer + 2
      case pos => exact layers from_layer (layer_lt_of_layersFrom from_layer) exactly stops gap
      case neg =>
          have last : layer + 1 = 9 := from_layer.2.2
          exact binaryOf_arrives (allOperands (by omega) (stops.mono (by omega)) gap)
  | cons operators' tighter induction =>
      by_cases exactly : expression.rank = layer + 2
      case pos => exact layers from_layer (layer_lt_of_layersFrom from_layer) exactly stops gap
      case neg =>
          have := consuming_binaryOf (unaryOf inner) tighter
          have arrives := induction from_layer.2.2 (by omega) (stops.mono (by omega))
          exact binaryOf_arrives (arrives.stop fun gap origin value =>
            stops.binaryStep_misses gap from_layer.2.2 (by omega) _ _)

/-! ## By induction on expressions -/

theorem understood_of_primary [Advancing inner] (wellFormed : expression.WellFormed IsReadable)
    (spelled : expression.Spelled start rest) (rank : 13 ≤ expression.rank)
    (reads : Stops 14 rest → ReadsPast (primaryOf inner) start (Agrees expression) rest) :
    Understood inner expression start rest :=
  have solid := spelled_solid wellFormed spelled
  understood_of_rank wellFormed spelled
    (fun _ stops _ gap => postfixOf_arrives gap solid (reads stops)) (by omega) (by omega) (by omega)

theorem understood_of_postfix [Advancing inner] {object : Expr} {last : List Char}
    (wellFormed : expression.WellFormed IsReadable) (spelled : expression.Spelled start rest)
    (rank : 13 ≤ expression.rank) (understood : Understood inner object start last)
    (objectRank : 13 ≤ object.rank) (stops : Stops 14 last)
    (steps : ∀ {next}, Gap last next → ∀ origin value, Agrees object value →
      Reads (postfixStep inner origin value) next (Agrees expression) (afterBlanks rest)) :
    Understood inner expression start rest :=
  understood_of_rank wellFormed spelled
    (fun _ _ _ gap => (understood.postfixes objectRank stops gap).further (gap_afterBlanks rest) steps) (by omega)
    (by omega) (by omega)

theorem understood_of_filter [Advancing inner] (complete : CompleteInside limit inner)
    {name : String} {arguments : List Expr}
    (wellFormed : (Expr.filter offset value name arguments).WellFormed IsReadable)
    (nesting : (Expr.filter offset value name arguments).nesting ≤ limit)
    (spelled : (Expr.filter offset value name arguments).Spelled start rest)
    (understood : ∀ {last}, value.Spelled start last → Understood inner value start last) :
    Understood inner (.filter offset value name arguments) start rest := by
  have whole := spelled
  rw [Expr.nesting] at nesting
  rcases spelled with ⟨last, bar, begun, named, spelled, symbol, gap, spelledName, behindName⟩
  have stopsHere : Stops 13 last := stops_of_symbol rfl symbol rfl
  refine understood_of_rank wellFormed whole (by simp [rank]) ?_ (by simp [rank])
    (by simp only [rank]; omega)
  cases wellFormed with
  | filter _ valueRank _ argumentsFormed =>
      intro _ stops text before
      refine ((understood spelled).filters valueRank stopsHere before).further
        (gap_afterBlanks rest) ?_
      intro next behind origin value agrees
      exact filterStep_reads complete agrees argumentsFormed (by omega)
        (behind.of_gap symbol (solid_symbol rfl bar)) gap spelledName behindName stops

theorem understood_of_unary [Advancing inner] {op : UnaryOp} {operand : Expr}
    (wellFormed : (Expr.unary offset op operand).WellFormed IsReadable)
    (spelled : (Expr.unary offset op operand).Spelled start rest)
    (understood : ∀ {begun}, operand.Spelled begun rest → Understood inner operand begun rest) :
    Understood inner (.unary offset op operand) start rest := by
  have solid := spelled_solid wellFormed spelled
  refine understood_of_rank wellFormed spelled (by simp [rank]) (by simp [rank]) ?_
    (by simp only [rank]; omega)
  rcases spelled with ⟨mark, begun, rfl, gap, spelled⟩
  cases wellFormed with
  | unary _ operandRank =>
      intro _ stops text before
      have arrives := (understood spelled).filters operandRank (stops.mono (by omega)) gap
      exact unaryOf_reads_marked before solid
        (arrives.stop fun gap => stops.filters (by omega) gap inner)

/-- The left operand is of the operator's own layer or tighter, the right one is tighter: so a
chain of the layer arrives behind the left one, and the next step reads the rest. -/
theorem understood_of_binary [Advancing inner] {op : BinaryOp} {left right : Expr}
    (wellFormed : (Expr.binary offset op left right).WellFormed IsReadable)
    (spelled : (Expr.binary offset op left right).Spelled start rest)
    (understood : ∀ {last}, left.Spelled start last → Understood inner left start last)
    (understoodRight : ∀ {begun}, right.Spelled begun rest → Understood inner right begun rest) :
    Understood inner (.binary offset op left right) start rest := by
  have layer_le : op.layer ≤ 8 := by cases op <;> decide
  refine understood_of_rank wellFormed spelled (by simp only [rank]; omega)
    (by simp only [rank]; omega) (by simp only [rank]; omega) ?_
  rcases spelled with ⟨last, mark, begun, spelled, operatorAt, gap, spelledRight⟩
  cases wellFormed with
  | binary _ leftRank rightFormed rightRank =>
      have solid := spelled_solid rightFormed spelledRight
      have follows : OperandFollows mark := by
        rcases spelled_head rightFormed spelledRight with ⟨first, atHead, _, starts, _⟩
        exact ⟨begun, gap, first, atHead, starts (by omega)⟩
      intro layer operators tighter from_layer _ same stops text before
      have same : op.layer = layer := by
        rw [rank] at same
        omega
      have arrives := (understood spelled).layers from_layer (by omega)
        (same ▸ stops_of_operator operatorAt follows) before
      rcases (understoodRight spelledRight).reads_layers from_layer.2.2 (by omega) stops
        (.refl begun) with ⟨stop, behind, readsRight⟩
      refine arrives.further behind ?_
      intro next gap' origin value agrees
      have operatorAt' : OperatorAt op next mark :=
        ⟨gap'.of_gap operatorAt.1 (solid_symbol (by cases op <;> rfl) mark), operatorAt.2⟩
      have member := (from_layer.2.1 op).mpr same
      apply (operatorOf_reads member (layers_apart operators from_layer.1) operatorAt' gap solid
        follows).bind
      rintro _ rfl
      apply readsRight.bind
      intro right agreesRight
      refine .pure ?_
      simp only [Agrees, Expr.same, beq_self_eq_true, Bool.true_and, Bool.and_eq_true]
      exact ⟨agrees, agreesRight⟩

theorem understood_of_wellFormed [Advancing inner] (complete : CompleteInside limit inner)
    (wellFormed : expression.WellFormed IsReadable) (nesting : expression.nesting ≤ limit)
    (spelled : expression.Spelled start rest) : Understood inner expression start rest := by
  -- Only the operand on the left is read by the rule itself, so the hypothesis is needed of that
  -- one. What stands in brackets is left to `complete`.
  induction wellFormed generalizing start rest with
  | literal lexical =>
      refine understood_of_primary (.literal lexical) spelled (by simp [rank]) fun _ => ?_
      exact ⟨rest, .refl _, primaryOf_reads_literal lexical spelled⟩
  | var isName notTrue notFalse small =>
      refine understood_of_primary (.var isName notTrue notFalse small) spelled (by simp [rank])
        fun stops => ?_
      exact ⟨rest, .refl _, primaryOf_reads_var spelled notTrue notFalse small stops⟩
  | path readable =>
      refine understood_of_primary (.path readable) spelled (by simp [rank]) fun stops => ?_
      exact ⟨rest, .refl _, primaryOf_reads_path readable spelled stops⟩
  | list wellFormed =>
      refine understood_of_primary (.list wellFormed) spelled (by simp [rank]) fun _ => ?_
      exact ⟨_, gap_afterBlanks rest, primaryOf_reads_list complete wellFormed nesting spelled⟩
  | tuple wellFormed =>
      refine understood_of_primary (.tuple wellFormed) spelled (by simp [rank]) fun _ => ?_
      have reads := groupOf_reads_tuple complete wellFormed nesting spelled
      rcases spelled with ⟨opened, _, _, rfl, _⟩
      exact ⟨_, gap_afterBlanks rest, primaryOf_reads_of_groupOf reads⟩
  | group wellFormed =>
      refine understood_of_primary (.group wellFormed) spelled (by simp [rank]) fun _ => ?_
      have reads := groupOf_reads_group complete wellFormed nesting spelled
      rcases spelled with ⟨opened, _, _, rfl, _⟩
      exact ⟨_, gap_afterBlanks rest, primaryOf_reads_of_groupOf reads⟩
  | member wellFormed objectRank isName induction =>
      have whole := spelled
      rcases spelled with ⟨last, point, begun, spelled, symbol, gap, named⟩
      refine understood_of_postfix (.member wellFormed objectRank isName) whole (by simp [rank])
        (induction nesting spelled) objectRank (stops_of_symbol rfl symbol rfl) ?_
      intro next behind origin value agrees
      exact postfixStep_reads_member agrees (behind.of_gap symbol (solid_symbol rfl point)) gap named
  | item wellFormed objectRank keyFormed induction _ =>
      have whole := spelled
      rw [Expr.nesting] at nesting
      rcases spelled with ⟨last, opened, begun, closing, spelled, symbol, gap, spelledKey, close⟩
      refine understood_of_postfix (.item wellFormed objectRank keyFormed) whole (by simp [rank])
        (induction (by omega) spelled) objectRank (stops_of_symbol rfl symbol rfl) ?_
      intro next behind origin value agrees
      exact postfixStep_reads_item complete agrees keyFormed (by omega)
        (behind.of_gap symbol (solid_symbol rfl opened)) gap spelledKey close
  | call wellFormed objectRank argumentsFormed induction _ =>
      have whole := spelled
      rw [Expr.nesting] at nesting
      rcases spelled with ⟨last, opened, closing, spelled, symbol, spelledArguments, close⟩
      refine understood_of_postfix (.call wellFormed objectRank argumentsFormed) whole
        (by simp [rank]) (induction (by omega) spelled) objectRank
        (stops_of_symbol rfl symbol rfl) ?_
      intro next behind origin value agrees
      exact postfixStep_reads_call complete agrees argumentsFormed (by omega)
        (behind.of_gap symbol (solid_symbol rfl opened)) spelledArguments close
  | attempt wellFormed objectRank induction =>
      have whole := spelled
      rcases spelled with ⟨last, spelled, symbol⟩
      refine understood_of_postfix (.attempt wellFormed objectRank) whole (by simp [rank])
        (induction nesting spelled) objectRank (stops_of_symbol rfl symbol rfl) ?_
      intro next behind origin value agrees
      exact postfixStep_reads_attempt agrees (behind.of_gap symbol (solid_symbol rfl rest))
  | filter wellFormed valueRank isName argumentsFormed induction _ =>
      refine understood_of_filter complete
        (.filter wellFormed valueRank isName argumentsFormed) nesting spelled (induction ?_)
      exact Nat.le_trans (Nat.le_max_left ..) nesting
  | unary wellFormed operandRank induction =>
      exact understood_of_unary (.unary wellFormed operandRank) spelled (induction nesting)
  | binary wellFormed leftRank rightFormed rightRank induction inductionRight =>
      refine understood_of_binary (.binary wellFormed leftRank rightFormed rightRank) spelled
        (induction ?_) (inductionRight ?_)
      · exact Nat.le_trans (Nat.le_max_left ..) nesting
      · exact Nat.le_trans (Nat.le_max_right ..) nesting
  | @range offset kind begun stop beginFormed beginRank stopFormed stopRank =>
      -- No rule of a layer yields a range.
      have low : (Expr.range offset kind begun stop).rank ≤ 1 := rank_range_le
      exact understood_of_rank (.range beginFormed beginRank stopFormed stopRank) spelled
        (by omega) (by omega) (by omega) (by omega)

theorem operationOf_reads [Advancing inner] (complete : CompleteInside limit inner)
    (wellFormed : expression.WellFormed IsReadable) (rank : 2 ≤ expression.rank)
    (nesting : expression.nesting ≤ limit) (gap : Gap text start)
    (spelled : expression.Spelled start rest) (stops : Stops 2 rest) :
    ReadsPast (operationOf inner) text (Agrees expression) rest :=
  (understood_of_wellFormed complete wellFormed nesting spelled).reads_layers layersFrom_layers
    rank stops gap

theorem rangeMark_reads {kind : RangeKind} (spelled : MarkAt kind text rest) :
    Reads rangeMark text (· = kind) (afterBlanks rest) := by
  rcases spelled with ⟨symbol, ends⟩
  have isSymbol : isSymbol kind.symbol = true := by cases kind <;> rfl
  have reads := token_reads isSymbol symbol (gap_afterBlanks rest) (solid_afterBlanks rest)
  cases kind with
  | closed =>
      refine .orElse (reads.bind ?_)
      intro _ _
      exact .pure rfl
  | halfOpen =>
      have notClosed : Misses (token RangeKind.closed.symbol) text := by
        apply token_misses
        rw [symbol.afterBlanks_eq (solid_symbol isSymbol rest)]
        rintro ⟨behind, shape⟩
        apply ends rfl
        cases shape
        rfl
      refine .orElse_of_misses (reads.bind ?_) notClosed.bind
      intro _ _
      exact .pure rfl

/-- An expression that is no operation begins with a mark, and no operand stands there. -/
theorem operationOf_misses_at_mark {kind : RangeKind} (spelled : MarkAt kind text rest) :
    Misses (operationOf inner) text := by
  apply binaryOf_misses
  apply unaryOf_misses_of_head
  have isSymbol : isSymbol kind.symbol = true := by cases kind <;> rfl
  rw [symbol_head isSymbol spelled.1]
  cases kind <;> (rintro _ ⟨⟩; decide)

def AgreesOption (expression value : Option Expr) : Prop :=
  sameOption expression value = true

theorem MarkAt.of_gap {kind : RangeKind} (gap : Gap text next) (spelled : MarkAt kind text rest) :
    MarkAt kind next rest :=
  ⟨gap.of_gap spelled.1 (solid_symbol (by cases kind <;> rfl) rest), spelled.2⟩

theorem start_reads [Advancing inner] (complete : CompleteInside limit inner)
    {begun : Option Expr} {kind : RangeKind} {last mark : List Char}
    (wellFormed : ∀ value ∈ begun, value.WellFormed IsReadable)
    (rank : ∀ value ∈ begun, 2 ≤ value.rank) (nesting : nestingOption begun ≤ limit)
    (spelled : SpelledStart begun start last) (marked : MarkAt kind last mark) :
    ReadsPast (optional (operationOf inner)) start (AgreesOption begun) last := by
  cases begun with
  | none =>
      rcases spelled with ⟨_, rfl⟩
      refine ⟨start, .refl _, (operationOf_misses_at_mark marked).optional.mono ?_⟩
      rintro _ rfl
      rfl
  | some value =>
      rcases operationOf_reads complete (wellFormed value rfl) (rank value rfl) nesting (.refl start)
        spelled (stops_of_mark marked) with ⟨next, behind, reads⟩
      refine ⟨next, behind, reads.optional.mono ?_⟩
      rintro _ ⟨found, rfl, agrees⟩
      exact agrees

theorem stop_reads [Advancing inner] (complete : CompleteInside limit inner)
    {stop : Option Expr} {mark : List Char}
    (wellFormed : ∀ value ∈ stop, value.WellFormed IsReadable)
    (rank : ∀ value ∈ stop, 2 ≤ value.rank) (nesting : nestingOption stop ≤ limit)
    (spelled : SpelledStop stop mark rest)
    (stops : Stops (Expr.range offset .closed none stop).rank rest) :
    ReadsPast (optional (operationOf inner)) (afterBlanks mark) (AgreesOption stop) rest := by
  cases stop with
  | none =>
      cases spelled
      have misses := binaryOf_misses (stops.operands (Nat.le_refl _) (gap_afterBlanks _) inner)
        BinaryOp.layers
      refine ⟨_, gap_afterBlanks _, misses.optional.mono ?_⟩
      rintro _ rfl
      rfl
  | some value =>
      rcases spelled with ⟨begun, gap, spelled⟩
      have gap' : Gap (afterBlanks mark) begun :=
        (gap_afterBlanks mark).of_gap gap (spelled_solid (wellFormed value rfl) spelled)
      rcases operationOf_reads complete (wellFormed value rfl) (rank value rfl) nesting gap' spelled
        (stops.mono (by simp [Expr.rank])) with ⟨next, behind, reads⟩
      refine ⟨next, behind, reads.optional.mono ?_⟩
      rintro _ ⟨found, rfl, agrees⟩
      exact agrees

theorem expressionOf_reads_range [Advancing inner] (complete : CompleteInside limit inner)
    {kind : RangeKind} {begun stop : Option Expr}
    (wellFormed : (Expr.range offset kind begun stop).WellFormed IsReadable)
    (nesting : (Expr.range offset kind begun stop).nesting ≤ limit) (gap : Gap text start)
    (spelled : (Expr.range offset kind begun stop).Spelled start rest)
    (stops : Stops (Expr.range offset kind begun stop).rank rest) :
    Reads (expressionOf inner) text (Agrees (.range offset kind begun stop))
      (afterBlanks rest) := by
  apply (spaces_reads gap (spelled_solid wellFormed spelled)).bind
  intro _ _
  apply Reads.here.bind
  intro origin _
  rw [Expr.nesting] at nesting
  cases wellFormed with
  | range beginFormed beginRank stopFormed stopRank =>
      rcases spelled with ⟨last, mark, spelledStart, marked, spelledStop⟩
      rcases start_reads complete beginFormed beginRank (by omega) spelledStart marked with
        ⟨next, behind, readsStart⟩
      have stops : Stops (Expr.range offset .closed none stop).rank rest := by
        cases stop <;> exact stops
      rcases stop_reads complete stopFormed stopRank (by omega) spelledStop stops with
        ⟨closed, behind', readsStop⟩
      apply readsStart.bind
      intro left agreesLeft
      apply (rangeMark_reads (MarkAt.of_gap behind marked)).optional.bind
      rintro _ ⟨_, rfl, rfl⟩
      apply readsStop.bind
      intro right agreesRight
      have gap' : Gap closed (afterBlanks rest) :=
        behind'.of_gap (gap_afterBlanks rest) (solid_afterBlanks rest)
      apply (spaces_reads gap' (solid_afterBlanks rest)).bind
      intro _ _
      refine .pure ?_
      simp only [Agrees, same, beq_self_eq_true, Bool.true_and, Bool.and_eq_true]
      exact ⟨agreesLeft, agreesRight⟩

theorem expressionOf_reads_operation [Advancing inner] (complete : CompleteInside limit inner)
    (wellFormed : expression.WellFormed IsReadable) (rank : 2 ≤ expression.rank)
    (nesting : expression.nesting ≤ limit) (gap : Gap text start)
    (spelled : expression.Spelled start rest) (stops : Stops 1 rest) :
    Reads (expressionOf inner) text (Agrees expression) (afterBlanks rest) := by
  rcases operationOf_reads complete wellFormed rank nesting (.refl start) spelled
    (stops.mono (by omega)) with ⟨next, behind, reads⟩
  apply (spaces_reads gap (spelled_solid wellFormed spelled)).bind
  intro _ _
  apply Reads.here.bind
  intro origin _
  apply reads.optional.bind
  rintro _ ⟨value, rfl, agrees⟩
  apply (stops.marks (by omega) behind).optional.bind
  rintro _ rfl
  have gap' : Gap next (afterBlanks rest) :=
    behind.of_gap (gap_afterBlanks rest) (solid_afterBlanks rest)
  apply (spaces_reads gap' (solid_afterBlanks rest)).bind
  intro _ _
  exact .pure agrees

/-- An expression that is no range stops where no mark follows either, a range where it cannot
go on. -/
def StopsAfter (expression : Expr) (text : List Char) : Prop :=
  Stops (min expression.rank 1) text

theorem expressionOf_reads [Advancing inner] (complete : CompleteInside limit inner)
    (wellFormed : expression.WellFormed IsReadable) (nesting : expression.nesting ≤ limit)
    (gap : Gap text start) (spelled : expression.Spelled start rest)
    (stops : StopsAfter expression rest) :
    Reads (expressionOf inner) text (Agrees expression) (afterBlanks rest) := by
  by_cases operation : 2 ≤ expression.rank
  case pos =>
      exact expressionOf_reads_operation complete wellFormed operation nesting gap spelled
        (stops.mono (by omega))
  case neg =>
      cases expression with
      | range offset kind begun stop =>
          exact expressionOf_reads_range complete wellFormed nesting gap spelled
            (stops.mono (by omega))
      | _ => simp [rank] at operation

theorem expressionOf_misses
    (refused : ∀ first ∈ (afterBlanks text).head?, goesOn 0 first = false) :
    Misses (expressionOf inner) text := by
  have solid := solid_afterBlanks text
  have closes : Closes (afterBlanks text) := by
    apply closes_of_head
    rwa [afterBlanks_of_solid solid]
  have noOperation : Misses (operationOf inner) (afterBlanks text) :=
    binaryOf_misses (closes.stops.operands (by omega) (.refl _) inner) _
  have noMark : Misses rangeMark (afterBlanks text) := closes.stops.marks (by omega) (.refl _)
  apply (spaces_reads (gap_afterBlanks text) solid).bind_misses
  intro _ _
  apply Reads.here.bind_misses
  intro _ _
  apply noOperation.optional.bind_misses
  rintro _ rfl
  apply noMark.optional.bind_misses
  rintro _ rfl
  exact fun _ => rfl

/-! ## Whole expressions -/

theorem expressionWithin_complete (brackets : Nat) :
    CompleteInside brackets (expressionWithin brackets) := by
  -- What stands in brackets is read by the rule that may open one bracket fewer.
  induction brackets with
  | zero =>
      constructor
      · intro _ _ _ _ _ nesting
        omega
      · intro positive
        omega
  | succ brackets induction =>
      constructor
      · intro expression text start rest wellFormed nesting gap spelled stops
        exact expressionOf_reads induction wellFormed (Nat.le_of_lt_succ nesting) gap spelled
          (stops.mono (by omega))
      · intro _ text refused
        exact expressionOf_misses refused

/-- Where an expression is spelled and stops, it is read with the blanks around it. -/
theorem expression_reads (wellFormed : expression.WellFormed IsReadable)
    (nesting : expression.nesting < bracketLimit) (gap : Gap text start)
    (spelled : expression.Spelled start rest) (stops : StopsAfter expression rest) :
    Reads Grammar.expression text (Agrees expression) (afterBlanks rest) :=
  expressionOf_reads (expressionWithin_complete Room.brackets) wellFormed (Nat.le_of_lt_succ nesting) gap
    spelled stops

end Templating.Grammar

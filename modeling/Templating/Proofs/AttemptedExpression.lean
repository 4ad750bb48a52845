import Templating.Proofs.AttemptedItems

/-! # Expressions that are attempted

The rules of expressions as they are run with one cursor. An attempt that has gone on in vain puts
the cursor back where it began, or leaves that to the attempt around it. Each comes to what its rule
comes to. -/

namespace Templating.Attempt

variable {room : Room}

open Grammar (Consuming Certain token nameToken here nextOffset spaces exact ahead furtherItem)

section

variable (inner : Attempt Expr)

/-! ## Values and what follows them -/

def primaryOf : Attempt Expr := do
  let start ← scan here
  (do return .literal start .boolean (← scan Grammar.boolean)) <|>
    (do return .literal start .number (← scan Grammar.number)) <|>
    (do return .literal start .string (← scan Grammar.string)) <|>
    (do return .literal start .character (← scan Grammar.characterText)) <|>
    (do return .path start (← scan Grammar.path)) <|>
    branch (scan (ahead fun rest => rest.head? == some '[')) (fun _ => listOf inner)
      ((do return .var start (← scan Grammar.name)) <|>
        branch (scan (ahead fun rest => rest.head? == some '(')) (fun _ => groupOf inner) giveUp)

def postfixTurn (start : Nat) (value : Expr) : Attempt (Turn Expr Expr) := do
  let before ← mark
  branch (scan (token "."))
    (fun _ => (do return .again (.member start value (← scan nameToken))) <|>
      (do goTo before; return .done value)) <|
    branch (scan (token "["))
      (fun _ =>
        (do
          let key ← inner
          scan (token "]")
          return .again (.item start value key)) <|>
        (do goTo before; return .done value)) <|
    branch (scan (ahead fun rest => (Text.afterBlanks rest).head? == some '('))
      (fun _ => (do return .again (.call start value (← argumentsOf inner))) <|>
        return .done value) <|
    branch (scan (token "?")) (fun _ => return .again (.attempt start value)) (return .done value)

/-- Where it gives up, the blanks before the value have been read. -/
def postfixOf : Attempt Expr := do
  scan spaces
  let start ← scan here
  let value ← primaryOf inner
  loop (postfixTurn inner start) value

def filterTurn (start : Nat) (value : Expr) : Attempt (Turn Expr Expr) := do
  let before ← mark
  (do
    scan (token "|")
    scan (ahead fun rest => rest.head? != some '|')
    let filter ← scan nameToken
    let arguments ← argumentsOf inner <|> pure []
    return .again (.filter start value filter arguments)) <|>
  (do goTo before; return .done value)

/-- Where it gives up, the blanks before the value have been read. -/
def filteredOf : Attempt Expr := do
  let start ← scan nextOffset
  let value ← postfixOf inner
  loop (filterTurn inner start) value

/-! ## Operators -/

def unaryOf : Attempt Expr := do
  let before ← mark
  scan spaces
  let start ← scan here
  let op ← optional
    ((do scan (exact ['!']); return UnaryOp.not) <|> (do scan (exact ['-']); return UnaryOp.negate))
  let operand ← filteredOf inner <|> backTo before
  match op with
  | none => return operand
  | some op => return .unary start op operand

def operatorOf : List BinaryOp → Attempt BinaryOp
  | [] => giveUp
  | op :: others => scan (Grammar.operator op) <|> operatorOf others

/-- An operator of a layer and its right operand. -/
def binaryTurn (operand : Attempt Expr) (operators : List BinaryOp) (start : Nat) (left : Expr) :
    Attempt (Turn Expr Expr) := do
  let before ← mark
  branch (operatorOf operators)
    (fun op => branch operand (fun right => return .again (.binary start op left right))
      (do goTo before; return .done left))
    (return .done left)

def binaryOf (operand : Attempt Expr) : (layers : List (List BinaryOp)) → Attempt Expr
  | [] => operand
  | operators :: tighter => do
      let start ← scan nextOffset
      let left ← binaryOf operand tighter
      loop (binaryTurn (binaryOf operand tighter) operators start) left

/-- The operators from a layer on; behind the last layer stands an operand. -/
def operationFrom (level : Nat) : Attempt Expr :=
  binaryOf (unaryOf inner) (BinaryOp.layers.drop level)

def expressionOf : Attempt Expr := do
  let before ← mark
  scan spaces
  let start ← scan here
  let left ← optional (operationFrom inner 0)
  let kind ← optional
    ((do scan (token RangeKind.closed.symbol); return RangeKind.closed) <|>
      (do scan (token RangeKind.halfOpen.symbol); return RangeKind.halfOpen))
  match kind, left with
  | some kind, left => do
      let right ← optional (operationFrom inner 0)
      scan spaces
      return .range start kind left right
  | none, some value => do
      scan spaces
      return value
  | none, none => backTo before

end

def expressionWithin : (brackets : Nat) → Attempt Expr
  | 0 => scan Grammar.tooDeep
  | brackets + 1 => expressionOf (expressionWithin brackets)

def expression [Room] : Attempt Expr :=
  expressionWithin Grammar.bracketLimit

def arguments [Room] : Attempt (List Expr) :=
  argumentsOf expression

/-! ## What they come to -/

section

variable {inner : Attempt Expr} {inner' : Grammar Expr} [Consuming inner'] {cursor later : Cursor}
  (keeps : inner.Keeps inner') (stops : StopsAtBrackets inner')

include keeps stops

/-! ### Values and what follows them -/

omit keeps stops [Consuming inner'] in
theorem listOf_noMatch (noBracket : cursor.rest.head? ≠ some '[') :
    Grammar.listOf inner' cursor = .noMatch :=
  (Grammar.Reads.here.bind_misses fun _ _ =>
    (Grammar.exact_misses_of_head noBracket).bind).eq_noMatch

omit keeps stops [Consuming inner'] in
theorem groupOf_noMatch (noBracket : cursor.rest.head? ≠ some '(') :
    Grammar.groupOf inner' cursor = .noMatch :=
  (Grammar.Reads.here.bind_misses fun _ _ =>
    (Grammar.exact_misses_of_head noBracket).bind).eq_noMatch

theorem primaryOf_keeps : (primaryOf inner).Keeps (Grammar.primaryOf inner') := by
  intro cursor
  refine (scan_keeps _ cursor).bind fun start later begun => ?_
  cases begun
  have literal {α : Type} (rule : Grammar α) (embed : α → Expr) :
      (scan rule >>= fun value => pure (embed value)).Returns cursor
        (rule >>= fun value => pure (embed value)) cursor :=
    (scan_keeps rule cursor).bind fun _ _ _ => pure_returns ..
  refine (literal ..).orElse fun _ => (literal ..).orElse fun _ => (literal ..).orElse fun _ =>
    (literal ..).orElse fun _ => (literal ..).orElse fun _ => ?_
  refine .branch_ahead (fun atBracket => ⟨listOf_keeps keeps stops cursor, fun _ => ?_⟩)
    fun noBracket => ⟨?_, (literal ..).orElse fun _ => ?_⟩
  · rw [beq_iff_eq] at atBracket
    have noName : Grammar.name cursor = .noMatch := by
      apply (Grammar.name_misses _).eq_noMatch
      rw [atBracket]
      rintro _ ⟨⟩
      decide
    rw [Grammar.orElse_of_noMatch (Grammar.bind_of_noMatch noName)]
    exact groupOf_noMatch (by rw [atBracket]; decide)
  · exact listOf_noMatch (by simpa using noBracket)
  · have whole : Grammar.groupOf inner' cursor =
        (Grammar.groupOf inner' <|> Grammar.noMatch : Grammar Expr) cursor := by
      rw [Grammar.orElse_apply]
      cases Grammar.groupOf inner' cursor <;> rfl
    rw [Returns, whole]
    refine Returns.branch_ahead (fun _ => ⟨groupOf_keeps keeps stops cursor, fun _ => rfl⟩)
      fun noBracket => ⟨?_, giveUp_keeps cursor⟩
    exact groupOf_noMatch (by simpa using noBracket)

/-! ### Chains behind a value -/

omit stops in
/-- Arguments are tried where their bracket stands. -/
theorem callTurn_eq (start : Nat) (value : Expr) {other : Attempt (Turn Expr Expr)}
    {other' : Grammar Expr} {cursor : Cursor}
    (apart : (Text.afterBlanks cursor.rest).head? = some '(' → other' cursor = .noMatch)
    (no : other cursor = turned cursor value (other' cursor)) :
    branch (scan (ahead fun rest => (Text.afterBlanks rest).head? == some '('))
        (fun _ => (do return .again (.call start value (← argumentsOf inner))) <|>
          return .done value) other cursor =
      turned cursor value
        (((do return .call start value (← Grammar.argumentsOf inner')) <|> other') cursor) := by
  have ahead : Grammar.ahead (fun rest => (Text.afterBlanks rest).head? == some '(') cursor =
      if (Text.afterBlanks cursor.rest).head? == some '(' then .matched () cursor else .noMatch := rfl
  by_cases parenthesis : (Text.afterBlanks cursor.rest).head? = some '('
  · rw [if_pos (beq_iff_eq.mpr parenthesis)] at ahead
    have called := argumentsOf_keeps keeps cursor
    rw [Returns] at called
    rw [branch_of_got (scan_of_matched ahead), Grammar.orElse_apply]
    cases read : Grammar.argumentsOf inner' cursor with
    | matched arguments later =>
        rw [read] at called
        rw [orElse_of_got (bind_pure_of_got called), Grammar.bind_of_matched read]
        rfl
    | noMatch =>
        rw [read] at called
        rw [orElse_of_gaveUp (bind_of_gaveUp called), Grammar.bind_of_noMatch read, apart parenthesis]
        rfl
    | failed failure =>
        rw [read] at called
        rw [orElse_of_failed (bind_of_failed called), Grammar.bind_of_failed read]
        rfl
  · rw [if_neg (mt beq_iff_eq.mp parenthesis)] at ahead
    have missed : Grammar.argumentsOf inner' cursor = .noMatch :=
      (Grammar.argumentsOf_misses parenthesis).eq_noMatch
    rw [branch_of_gaveUp (scan_of_noMatch ahead),
      Grammar.orElse_of_noMatch (Grammar.bind_of_noMatch missed), no]

omit stops in
theorem postfixTurn_eq (start : Nat) (value : Expr) (cursor : Cursor) :
    postfixTurn inner start value cursor =
      turned cursor value (Grammar.postfixStep inner' start value cursor) := by
  have noCall {symbol : String} {later : Cursor} (isSymbol : Text.isSymbol symbol = true)
      (apart : some '(' ≠ symbol.toList.head?) (matched : token symbol cursor = .matched () later) :
      (Grammar.argumentsOf inner' >>= fun arguments => pure (.call start value arguments) :
        Grammar Expr) cursor = .noMatch :=
    Grammar.bind_of_noMatch (Grammar.bind_of_noMatch
      (noMatch_of_token "(" isSymbol (by decide) apart matched))
  refine branch_turned (scan_keeps _) (fun _ later dot => ⟨?_, ?_⟩) ?_
  · apply turned_of_follows
    rw [bind_assoc]
    exact (scan_keeps _ later).follows.bind fun _ _ _ => pure_follows ..
  · refine Grammar.orElse_eq_noMatch.mpr ⟨Grammar.bind_of_noMatch ?_,
      Grammar.orElse_eq_noMatch.mpr ⟨noCall rfl (by decide) dot, Grammar.bind_of_noMatch ?_⟩⟩
    · exact noMatch_of_token _ rfl (by decide) (by decide) dot
    · exact noMatch_of_token _ rfl (by decide) (by decide) dot
  refine branch_turned (scan_keeps _) (fun _ later bracket => ⟨?_, ?_⟩) ?_
  · apply turned_of_follows
    simp only [bind_assoc]
    refine (keeps later).follows.bind fun key middle _ => ?_
    exact (scan_keeps _ middle).follows.bind fun _ _ _ => pure_follows ..
  · refine Grammar.orElse_eq_noMatch.mpr ⟨noCall rfl (by decide) bracket, Grammar.bind_of_noMatch ?_⟩
    exact noMatch_of_token _ rfl (by decide) (by decide) bracket
  refine callTurn_eq keeps start value (fun parenthesis => ?_) ?_
  · apply Grammar.bind_of_noMatch
    exact (Grammar.token_misses_at (by decide) parenthesis (by decide)).eq_noMatch
  · rcases token_cases "?" cursor with noMark | ⟨later, marked⟩
    · rw [branch_of_gaveUp (scan_of_noMatch noMark), Grammar.bind_of_noMatch noMark]
      rfl
    · rw [branch_of_got (scan_of_matched marked), Grammar.bind_of_matched marked]
      rfl

theorem postfixOf_follows (cursor : Cursor) :
    (postfixOf inner).Follows (Grammar.postfixOf inner') cursor := by
  refine (scan_keeps _ cursor).follows.bind fun _ blanks _ => ?_
  refine (scan_keeps _ blanks).follows.bind fun start _ begun => ?_
  cases begun
  refine (primaryOf_keeps keeps stops blanks).follows.bind fun value later _ => ?_
  exact (loop_keeps_chain (fun _ _ => rfl) (postfixTurn_eq keeps _) value later).follows

omit stops in
theorem filterTurn_eq (start : Nat) (value : Expr) (cursor : Cursor) :
    filterTurn inner start value cursor =
      turned cursor value (Grammar.filterStep inner' start value cursor) := by
  apply turned_of_follows
  simp only [Grammar.filterStep, bind_assoc]
  refine (scan_keeps _ cursor).follows.bind fun _ bar _ => ?_
  refine (scan_keeps _ bar).follows.bind fun _ single _ => ?_
  refine (scan_keeps _ single).follows.bind fun name named _ => ?_
  refine ((argumentsOf_keeps keeps).orElse (pure_keeps [])).follows named |>.bind fun _ _ _ => ?_
  exact pure_follows ..

theorem filteredOf_follows (cursor : Cursor) :
    (filteredOf inner).Follows (Grammar.filteredOf inner') cursor := by
  refine (scan_keeps _ cursor).follows.bind fun start _ begun => ?_
  cases begun
  refine (postfixOf_follows keeps stops cursor).bind fun value later _ => ?_
  exact (loop_keeps_chain (fun _ _ => rfl) (filterTurn_eq keeps _) value later).follows

/-! ### Operators -/

theorem unaryOf_keeps : (unaryOf inner).Keeps (Grammar.unaryOf inner') := by
  have marks : (optional ((do scan (exact ['!']); return UnaryOp.not) <|>
      (do scan (exact ['-']); return UnaryOp.negate))).Keeps (Grammar.optional Grammar.unaryMark) :=
    .optional (.orElse
      (fun cursor => (scan_keeps _ cursor).bind fun _ _ _ => pure_returns ..)
      (fun cursor => (scan_keeps _ cursor).bind fun _ _ _ => pure_returns ..))
  refine keeps_of_mark fun cursor => (scan_keeps _ cursor).bind fun _ blanks _ => ?_
  refine ((scan_keeps _).returns cursor blanks).bind fun start _ begun => ?_
  cases begun
  refine (marks.returns cursor blanks).bind fun op marked _ => ?_
  refine ((filteredOf_follows keeps stops marked).orBackTo cursor).bind fun operand _ _ => ?_
  cases op <;> exact pure_returns ..

omit keeps stops [Consuming inner'] in
theorem operatorOf_keeps (operators : List BinaryOp) :
    (operatorOf operators).Keeps (Grammar.operatorOf operators) := by
  induction operators with
  | nil => exact giveUp_keeps
  | cons op others induction => exact (scan_keeps _).orElse induction

omit keeps stops [Consuming inner'] in
theorem binaryTurn_eq {operand : Attempt Expr} {operand' : Grammar Expr}
    (keeps : operand.Keeps operand') (operators : List BinaryOp) (start : Nat) (left : Expr)
    (cursor : Cursor) :
    binaryTurn operand operators start left cursor =
      turned cursor left (Grammar.binaryStep operand' operators start left cursor) := by
  have eaten := operatorOf_keeps operators cursor
  rw [Returns] at eaten
  rw [binaryTurn, mark_bind, Grammar.binaryStep]
  cases read : Grammar.operatorOf operators cursor with
  | noMatch =>
      rw [read] at eaten
      rw [branch_of_gaveUp eaten, Grammar.bind_of_noMatch read]
      rfl
  | failed failure =>
      rw [read] at eaten
      rw [branch_of_failed eaten, Grammar.bind_of_failed read]
      rfl
  | matched op behind =>
      rw [read] at eaten
      rw [branch_of_got eaten, Grammar.bind_of_matched read]
      have right := keeps behind
      rw [Returns] at right
      cases operandRead : operand' behind with
      | matched value later =>
          rw [operandRead] at right
          rw [branch_of_got right, Grammar.bind_of_matched operandRead]
          rfl
      | noMatch =>
          rw [operandRead] at right
          rw [branch_of_gaveUp right, Grammar.bind_of_noMatch operandRead]
          rfl
      | failed failure =>
          rw [operandRead] at right
          rw [branch_of_failed right, Grammar.bind_of_failed operandRead]
          rfl

omit keeps stops [Consuming inner'] in
theorem binaryStep_ends (operand' : Grammar Expr) (operators : List BinaryOp) (start : Nat)
    (left : Expr) (offset : Nat) :
    Grammar.binaryStep operand' operators start left ⟨offset, []⟩ = .noMatch := by
  have ends : Grammar.operatorOf operators ⟨offset, []⟩ = .noMatch := by
    induction operators with
    | nil => rfl
    | cons op others induction =>
        refine Grammar.orElse_eq_noMatch.mpr ⟨?_, induction⟩
        cases op <;> rfl
  exact Grammar.bind_of_noMatch ends

omit keeps stops [Consuming inner'] in
theorem binaryOf_keeps {operand : Attempt Expr} {operand' : Grammar Expr} [Consuming operand']
    (keeps : operand.Keeps operand') (layers : List (List BinaryOp)) :
    (binaryOf operand layers).Keeps (Grammar.binaryOf operand' layers) := by
  induction layers with
  | nil => exact keeps
  | cons operators tighter induction =>
      have := Grammar.consuming_binaryOf operand' tighter
      intro cursor
      refine (scan_keeps _ cursor).bind fun start _ begun => ?_
      cases begun
      refine (induction cursor).bind fun left later _ => ?_
      refine Keeps.returns ?_ cursor later
      exact loop_keeps_chain (binaryStep_ends _ _ _) (binaryTurn_eq induction operators _) left

theorem operationFrom_keeps (level : Nat) :
    (operationFrom inner level).Keeps
      (Grammar.binaryOf (Grammar.unaryOf inner') (BinaryOp.layers.drop level)) :=
  binaryOf_keeps (unaryOf_keeps keeps stops) _

theorem expressionOf_keeps : (expressionOf inner).Keeps (Grammar.expressionOf inner') := by
  have kinds : (optional ((do scan (token RangeKind.closed.symbol); return RangeKind.closed) <|>
      (do scan (token RangeKind.halfOpen.symbol); return RangeKind.halfOpen))).Keeps
        (Grammar.optional Grammar.rangeMark) :=
    .optional (.orElse
      (fun cursor => (scan_keeps _ cursor).bind fun _ _ _ => pure_returns ..)
      (fun cursor => (scan_keeps _ cursor).bind fun _ _ _ => pure_returns ..))
  have operation := (operationFrom_keeps keeps stops 0).optional
  refine keeps_of_mark fun cursor => (scan_keeps _ cursor).bind fun _ blanks _ => ?_
  refine ((scan_keeps _).returns cursor blanks).bind fun start _ begun => ?_
  cases begun
  refine (operation.returns cursor blanks).bind fun left behind _ => ?_
  refine (kinds.returns cursor behind).bind fun kind marked _ => ?_
  cases kind with
  | some kind =>
      refine (operation.returns cursor marked).bind fun right later _ => ?_
      exact ((scan_keeps _).returns cursor later).bind fun _ _ _ => pure_returns ..
  | none =>
      cases left with
      | some value => exact ((scan_keeps _).returns cursor marked).bind fun _ _ _ => pure_returns ..
      | none => exact backTo_returns ..

end

/-! ### Whole expressions -/

theorem stopsAtBrackets_expressionWithin (brackets : Nat) :
    StopsAtBrackets (Grammar.expressionWithin brackets) := by
  cases brackets with
  | zero => exact nofun
  | succ brackets =>
      intro cursor cursor' later later' value _ symbol among closed
      apply (Grammar.expressionOf_misses _).eq_noMatch
      simp only [List.mem_cons, List.not_mem_nil, or_false] at among
      rcases among with rfl | rfl
      all_goals
        rw [head?_of_token rfl closed]
        rintro _ ⟨⟩
        decide

theorem expressionWithin_keeps (brackets : Nat) :
    (expressionWithin brackets).Keeps (Grammar.expressionWithin brackets) := by
  induction brackets with
  | zero => exact scan_keeps _
  | succ brackets induction =>
      exact expressionOf_keeps induction (stopsAtBrackets_expressionWithin brackets)

theorem expression_keeps : expression.Keeps Grammar.expression :=
  expressionWithin_keeps _

theorem arguments_keeps : arguments.Keeps Grammar.arguments :=
  argumentsOf_keeps expression_keeps

end Templating.Attempt

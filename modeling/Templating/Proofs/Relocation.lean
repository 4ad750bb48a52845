import Templating.Proofs.Progress
import Templating.Tree.Node

/-! # Trees and rules at other places

A text that is moved within a source, with as many characters more in front of it, is read as it
was read before. Only the offsets in what is read and in what is reported grow. -/

namespace Templating

variable {room : Room}

/-! ## Trees that are moved -/

namespace Expr

mutual

def moved (count : Nat) : Expr → Expr
  | literal offset kind text => literal (count + offset) kind text
  | var offset name => var (count + offset) name
  | path offset segments => path (count + offset) segments
  | list offset items => list (count + offset) (movedAll count items)
  | tuple offset items => tuple (count + offset) (movedAll count items)
  | group offset inner => group (count + offset) (inner.moved count)
  | member offset object name => member (count + offset) (object.moved count) name
  | item offset object key => item (count + offset) (object.moved count) (key.moved count)
  | call offset function arguments =>
      call (count + offset) (function.moved count) (movedAll count arguments)
  | attempt offset value => attempt (count + offset) (value.moved count)
  | filter offset value name arguments =>
      filter (count + offset) (value.moved count) name (movedAll count arguments)
  | unary offset op operand => unary (count + offset) op (operand.moved count)
  | binary offset op left right =>
      binary (count + offset) op (left.moved count) (right.moved count)
  | range offset kind start stop =>
      range (count + offset) kind (movedOption count start) (movedOption count stop)
termination_by structural expression => expression

def movedAll (count : Nat) : List Expr → List Expr
  | [] => []
  | head :: tail => head.moved count :: movedAll count tail
termination_by structural expressions => expressions

def movedOption (count : Nat) : Option Expr → Option Expr
  | none => none
  | some expression => some (expression.moved count)
termination_by structural expression => expression

end

end Expr

mutual

def Pattern.moved (count : Nat) : Pattern → Pattern
  | .name offset name => .name (count + offset) name
  | .path offset segments => .path (count + offset) segments
  | .tuple offset path items => .tuple (count + offset) path (Pattern.movedAll count items)
  | .record offset path fields => .record (count + offset) path (Field.movedAll count fields)
  | .literal offset kind text => .literal (count + offset) kind text
termination_by structural pattern => pattern

def Pattern.movedAll (count : Nat) : List Pattern → List Pattern
  | [] => []
  | head :: tail => head.moved count :: Pattern.movedAll count tail
termination_by structural patterns => patterns

def Field.moved (count : Nat) : Field → Field
  | ⟨name, pattern⟩ => ⟨name, pattern.moved count⟩
termination_by structural field => field

def Field.movedAll (count : Nat) : List Field → List Field
  | [] => []
  | head :: tail => head.moved count :: Field.movedAll count tail
termination_by structural fields => fields

end

def Condition.moved (count : Nat) (condition : Condition) : Condition where
  offset := count + condition.offset
  pattern := condition.pattern.map (Pattern.moved count)
  expression := condition.expression.moved count

mutual

def Node.moved (count : Nat) : Node → Node
  | .text offset passage => .text (count + offset) passage
  | .comment offset edges => .comment (count + offset) edges
  | .output offset edges expression => .output (count + offset) edges (expression.moved count)
  | .raw offset opening passage closing => .raw (count + offset) opening passage closing
  | .conditional offset branches closing =>
      .conditional (count + offset) (Branch.movedAll count branches) closing
  | .loop offset opening pattern iterable guard body middle alternative closing =>
      .loop (count + offset) opening (pattern.moved count) (iterable.moved count)
        (guard.map (Expr.moved count)) (Node.movedAll count body) middle
        (Node.movedAll count alternative) closing
  | .choice offset opening subject arms closing =>
      .choice (count + offset) opening (subject.moved count) (Arm.movedAll count arms) closing
  | .breakLoop offset edges => .breakLoop (count + offset) edges
  | .continueLoop offset edges => .continueLoop (count + offset) edges
  | .macroDef offset name opening parameters body closing =>
      .macroDef (count + offset) name opening parameters (Node.movedAll count body) closing
  | .macroCall offset edges scope name arguments =>
      .macroCall (count + offset) edges scope name (Expr.movedAll count arguments)
  | .assign offset edges pattern value =>
      .assign (count + offset) edges (pattern.moved count) (value.moved count)
  | .declare offset edges pattern => .declare (count + offset) edges (pattern.moved count)
  | .extendTemplate offset template => .extendTemplate (count + offset) template
  | .block offset opening name body closing =>
      .block (count + offset) opening name (Node.movedAll count body) closing
  | .includeTemplate offset edges template => .includeTemplate (count + offset) edges template
  | .importMacros offset edges template scope =>
      .importMacros (count + offset) edges template scope
termination_by structural node => node

def Node.movedAll (count : Nat) : List Node → List Node
  | [] => []
  | head :: tail => head.moved count :: Node.movedAll count tail
termination_by structural nodes => nodes

def Branch.moved (count : Nat) : Branch → Branch
  | ⟨offset, edges, condition, body⟩ =>
      ⟨count + offset, edges, condition.map (Condition.moved count), Node.movedAll count body⟩
termination_by structural branch => branch

def Branch.movedAll (count : Nat) : List Branch → List Branch
  | [] => []
  | head :: tail => head.moved count :: Branch.movedAll count tail
termination_by structural branches => branches

def Arm.moved (count : Nat) : Arm → Arm
  | ⟨offset, edges, pattern, body⟩ =>
      ⟨count + offset, edges, pattern.moved count, Node.movedAll count body⟩
termination_by structural arm => arm

def Arm.movedAll (count : Nat) : List Arm → List Arm
  | [] => []
  | head :: tail => head.moved count :: Arm.movedAll count tail
termination_by structural arms => arms

end

attribute [simp] Expr.moved Pattern.moved Node.moved

/-! Lists of trees are moved one by one. -/

@[simp] theorem Expr.movedAll_eq (count : Nat) (expressions : List Expr) :
    Expr.movedAll count expressions = expressions.map (Expr.moved count) := by
  induction expressions with
  | nil => rfl
  | cons head tail induction => rw [Expr.movedAll, induction, List.map_cons]

@[simp] theorem Expr.movedOption_eq (count : Nat) (expression : Option Expr) :
    Expr.movedOption count expression = expression.map (Expr.moved count) := by
  cases expression <;> rfl

@[simp] theorem Pattern.movedAll_eq (count : Nat) (patterns : List Pattern) :
    Pattern.movedAll count patterns = patterns.map (Pattern.moved count) := by
  induction patterns with
  | nil => rfl
  | cons head tail induction => rw [Pattern.movedAll, induction, List.map_cons]

@[simp] theorem Field.movedAll_eq (count : Nat) (fields : List Field) :
    Field.movedAll count fields = fields.map (Field.moved count) := by
  induction fields with
  | nil => rfl
  | cons head tail induction => rw [Field.movedAll, induction, List.map_cons]

@[simp] theorem Node.movedAll_eq (count : Nat) (nodes : List Node) :
    Node.movedAll count nodes = nodes.map (Node.moved count) := by
  induction nodes with
  | nil => rfl
  | cons head tail induction => rw [Node.movedAll, induction, List.map_cons]

@[simp] theorem Branch.movedAll_eq (count : Nat) (branches : List Branch) :
    Branch.movedAll count branches = branches.map (Branch.moved count) := by
  induction branches with
  | nil => rfl
  | cons head tail induction => rw [Branch.movedAll, induction, List.map_cons]

@[simp] theorem Arm.movedAll_eq (count : Nat) (arms : List Arm) :
    Arm.movedAll count arms = arms.map (Arm.moved count) := by
  induction arms with
  | nil => rfl
  | cons head tail induction => rw [Arm.movedAll, induction, List.map_cons]

/-! ## Outcomes that are moved -/

def Cursor.moved (count : Nat) (cursor : Cursor) : Cursor :=
  ⟨count + cursor.offset, cursor.rest⟩

def Failure.moved (count : Nat) : Failure → Failure
  | .malformed problem offset => .malformed problem (count + offset)
  | .tooDeep offset => .tooDeep (count + offset)

/-- The outcome with as many characters more in front of the text, where it is given what becomes
of the value. -/
def Outcome.moved {α : Type} (value : α → α) (count : Nat) : Outcome α → Outcome α
  | .matched found cursor => .matched (value found) (cursor.moved count)
  | .noMatch => .noMatch
  | .failed failure => .failed (failure.moved count)

namespace Grammar

variable {α β : Type} {count : Nat}

/-- With as many characters more in front of a text, the second rule does there what the first one
does without them. -/
def Moves (count : Nat) (value : α → α) (rule rule' : Grammar α) : Prop :=
  ∀ cursor : Cursor, rule' (cursor.moved count) = (rule cursor).moved value count

/-! ## How rules that are moved compose -/

section

variable {value : α → α} {result : β → β} {rule rule' other other' : Grammar α}
  {next next' : α → Grammar β}

theorem Moves.bind (first : Moves count value rule rule')
    (second : ∀ found, Moves count result (next found) (next' (value found))) :
    Moves count result (rule >>= next) (rule' >>= next') := by
  intro cursor
  rw [bind_apply, bind_apply, first cursor]
  cases rule cursor with
  | matched found later => exact second found later
  | noMatch => rfl
  | failed failure => rfl

theorem Moves.orElse (first : Moves count value rule rule')
    (second : Moves count value other other') :
    Moves count value (rule <|> other) (rule' <|> other') := by
  intro cursor
  rw [orElse_apply, orElse_apply, first cursor]
  cases rule cursor with
  | matched found later => rfl
  | noMatch => exact second cursor
  | failed failure => rfl

theorem Moves.pure {found found' : α} (same : value found = found') :
    Moves count value (pure found) (pure found') := by
  subst same
  exact fun _ => rfl

theorem Moves.noMatch : Moves count value noMatch noMatch := fun _ => rfl

theorem Moves.failAt (problem : Problem) (offset : Nat) :
    Moves count value (failAt problem offset) (failAt problem (count + offset)) := fun _ => rfl

theorem skipSpaces_moved (cursor : Cursor) :
    (cursor.moved count).skipSpaces = cursor.skipSpaces.moved count := by
  simp [Cursor.skipSpaces, Cursor.moved, Cursor.advance, Nat.add_assoc]

theorem Moves.fail (problem : Problem) : Moves count value (fail problem) (fail problem) := by
  intro cursor
  simp only [Grammar.fail, skipSpaces_moved]
  rfl

theorem Moves.tooDeep : Moves count value tooDeep tooDeep := by
  intro cursor
  simp only [Grammar.tooDeep, skipSpaces_moved]
  rfl

theorem Moves.expect (moves : Moves count value rule rule') (problem : Problem) :
    Moves count value (expect rule problem) (expect rule' problem) :=
  moves.orElse (.fail problem)

theorem Moves.optional (moves : Moves count value rule rule') :
    Moves count (Option.map value) (optional rule) (optional rule') :=
  .orElse (.bind moves fun _ => .pure rfl) (.pure rfl)

theorem Moves.many (moves : Moves count value rule rule') :
    Moves count (List.map value) (many rule) (many rule') := by
  have turn (turns : List Char) :
      Moves count (List.map value) (manyFor rule turns) (manyFor rule' turns) := by
    induction turns with
    | nil => exact .pure rfl
    | cons _ turns induction =>
        exact .orElse (.bind moves fun _ => .bind induction fun _ => .pure rfl) (.pure rfl)
  exact fun cursor => turn cursor.rest cursor

theorem Moves.chain {step step' : α → Grammar α}
    (moves : ∀ found, Moves count value (step found) (step' (value found))) (found : α) :
    Moves count value (chain step found) (chain step' (value found)) := by
  have turn (turns : List Char) (found : α) :
      Moves count value (chainFor step turns found) (chainFor step' turns (value found)) := by
    induction turns generalizing found with
    | nil => exact fun _ => rfl
    | cons _ turns induction =>
        intro cursor
        rw [chainFor, chainFor, moves found cursor]
        cases step found cursor with
        | matched next later => exact induction next later
        | noMatch => rfl
        | failed failure => rfl
  exact fun cursor => turn cursor.rest found cursor

theorem Moves.ite (condition : Prop) [Decidable condition] (first : Moves count value rule rule')
    (second : Moves count value other other') :
    Moves count value (if condition then rule else other) (if condition then rule' else other') := by
  split
  · exact first
  · exact second

theorem Moves.here : Moves count (count + ·) here here := fun _ => rfl

end

/-! ## Rules that tell no offset -/

/-- The rule yields the same value wherever the text stands. -/
class Still (rule : Grammar α) : Prop where
  still (count : Nat) : Moves count id rule rule

section

variable {rule other : Grammar α} {next : α → Grammar β}

theorem Moves.still (rule : Grammar α) [Still rule] : Moves count id rule rule :=
  Still.still count

instance (value : α) : Still (pure value) := ⟨fun _ => .pure rfl⟩

instance [Still rule] [∀ value, Still (next value)] : Still (rule >>= next) :=
  ⟨fun _ => .bind (.still rule) fun value => .still (next value)⟩

instance [Still rule] [Still other] : Still (rule <|> other) :=
  ⟨fun _ => .orElse (.still rule) (.still other)⟩

instance : Still (noMatch : Grammar α) := ⟨fun _ => .noMatch⟩

instance [Still rule] (problem : Problem) : Still (expect rule problem) :=
  ⟨fun _ => .expect (.still rule) problem⟩

instance [Still rule] : Still (optional rule) :=
  ⟨fun count => by
    have moves : Moves count (Option.map id) (optional rule) (optional rule) :=
      .optional (.still rule)
    rwa [Option.map_id] at moves⟩

instance [Still rule] : Still (many rule) :=
  ⟨fun count => by
    have moves : Moves count (List.map id) (many rule) (many rule) := .many (.still rule)
    rwa [List.map_id_fun] at moves⟩

instance (condition : Prop) [Decidable condition] [Still rule] [Still other] :
    Still (if condition then rule else other) :=
  ⟨fun _ => .ite condition (.still rule) (.still other)⟩

theorem advance_moved (cursor : Cursor) (count taken : Nat) :
    (cursor.moved count).advance taken = (cursor.advance taken).moved count := by
  simp [Cursor.advance, Cursor.moved, Nat.add_assoc]

instance (test : List Char → Bool) : Still (ahead test) :=
  ⟨fun count cursor => by
    show (if test cursor.rest then _ else _) = Outcome.moved _ _ (if test cursor.rest then _ else _)
    split <;> rfl⟩

instance (accept : Char → Bool) : Still (character accept) :=
  ⟨fun count cursor => by
    rcases cursor with ⟨offset, _ | ⟨first, rest⟩⟩
    · rfl
    · unfold character
      dsimp only [Cursor.moved]
      split
      · exact congrArg (Outcome.matched first) (advance_moved ⟨offset, first :: rest⟩ count 1)
      · rfl⟩

instance (accept : Char → Bool) : Still (characters accept) :=
  ⟨fun count cursor => congrArg (Outcome.matched _) (advance_moved cursor count _)⟩

instance (test : List Char → Bool) : Still (upTo test) :=
  ⟨fun count cursor => congrArg (Outcome.matched _) (advance_moved cursor count _)⟩

instance (text : List Char) : Still (exact text) :=
  ⟨fun count cursor => by
    show (if text.isPrefixOf cursor.rest then .matched () ((cursor.moved count).advance text.length)
      else .noMatch) = Outcome.moved id count (if text.isPrefixOf cursor.rest then
        .matched () (cursor.advance text.length) else .noMatch)
    rw [advance_moved]
    split <;> rfl⟩

instance : Still spaces :=
  ⟨fun _ cursor => congrArg (Outcome.matched ()) (skipSpaces_moved cursor)⟩

instance [Still rule] : Still (spaced rule) :=
  inferInstanceAs (Still (spaces >>= fun _ => rule >>= fun value => spaces >>= fun _ =>
    pure value))

end

theorem Moves.spaced {value : α → α} {rule rule' : Grammar α} (moves : Moves count value rule rule') :
    Moves count value (spaced rule) (spaced rule') :=
  .bind (.still spaces) fun _ => .bind moves fun _ => .bind (.still spaces) fun _ => .pure rfl

/-! ## Lexemes -/

instance : Still endOfWord := inferInstanceAs (Still (ahead _))

instance : Still name := by
  unfold name
  infer_instance

instance (text : String) : Still (word text) := by
  unfold word
  infer_instance

instance (words : List String) : Still (wordOf words) := by
  induction words with
  | nil => exact inferInstanceAs (Still noMatch)
  | cons text others induction => exact inferInstanceAs (Still (word text <|> wordOf others))

instance : Still boolean := inferInstanceAs (Still (word "true" <|> word "false"))

instance : Still number := by
  rw [number_eq]
  unfold fraction
  infer_instance

instance (quote : Char) : Still (body quote) :=
  ⟨fun count cursor => by
    unfold body
    dsimp only [Cursor.moved]
    cases quotedBody? quote cursor.rest with
    | some found => exact congrArg (Outcome.matched found) (advance_moved cursor count _)
    | none => rfl⟩

instance (quote : Char) : Still (between quote) := by
  rw [between_eq]
  infer_instance

instance : Still string := inferInstanceAs (Still (between '"'))

instance : Still characterText := inferInstanceAs (Still (between '\''))

instance : Still separator := inferInstanceAs (Still (spaced _))

instance : Still path := by
  unfold path
  infer_instance

instance : Still marker :=
  ⟨fun count cursor => by
    rcases cursor with ⟨offset, _ | ⟨first, rest⟩⟩
    · rfl
    · unfold marker
      dsimp only [Cursor.moved]
      cases Trim.ofMark? first with
      | some trim =>
          exact congrArg (Outcome.matched trim) (advance_moved ⟨offset, first :: rest⟩ count 1)
      | none => rfl⟩

instance : Still edge := inferInstanceAs (Still (optional marker))

instance (text : String) : Still (token text) := inferInstanceAs (Still (spaced _))

instance (text : String) : Still (keyword text) := inferInstanceAs (Still (spaced _))

instance : Still nameToken := inferInstanceAs (Still (spaced _))

instance : Still stringToken := inferInstanceAs (Still (spaced _))

/-! ## Expressions -/

theorem Moves.nextOffset : Moves count (count + ·) nextOffset nextOffset := by
  intro cursor
  show Outcome.matched (cursor.moved count).skipSpaces.offset (cursor.moved count) = _
  rw [skipSpaces_moved]
  rfl

instance (op : BinaryOp) : Still (operator op) := by
  unfold operator
  infer_instance

instance (operators : List BinaryOp) : Still (operatorOf operators) := by
  induction operators with
  | nil => exact inferInstanceAs (Still noMatch)
  | cons op others induction => exact inferInstanceAs (Still (operator op <|> operatorOf others))

instance : Still unaryMark := by
  unfold unaryMark
  infer_instance

instance : Still rangeMark := by
  unfold rangeMark
  infer_instance

/-- The rule for expressions moves them. -/
def MovesExpr (count : Nat) (rule : Grammar Expr) : Prop :=
  Moves count (Expr.moved count) rule rule

section

variable {inner : Grammar Expr}

theorem argumentsOf_moves (moves : MovesExpr count inner) :
    Moves count (List.map (Expr.moved count)) (argumentsOf inner) (argumentsOf inner) :=
  .bind (.still (token "(")) fun _ => .orElse (.bind (.still (token ")")) fun _ => .pure rfl) <|
    .bind moves fun _ => .bind (.many (.bind (.still (token ",")) fun _ => moves)) fun _ =>
      .bind (.still (token ")")) fun _ => .pure rfl

theorem listOf_moves (moves : MovesExpr count inner) : MovesExpr count (listOf inner) :=
  .bind .here fun _ => .bind (.still (exact ['['])) fun _ =>
    .orElse (.bind (.still (token "]")) fun _ => .pure rfl) <|
      .bind moves fun _ => .bind (.many (.bind (.still (token ",")) fun _ => moves)) fun _ =>
        .bind (.still (optional (token ","))) fun _ => .bind (.still (token "]")) fun _ =>
          .pure (by simp [Expr.moved])

/-- The comma that a tuple of one item ends with, and a longer one may end with. -/
def tupleComma (others : List Expr) : Grammar Unit :=
  if others.isEmpty then token "," else optional (token ",") >>= fun _ => pure ()

theorem tupleComma_moves (others : List Expr) :
    Moves count id (tupleComma others) (tupleComma (others.map (Expr.moved count))) := by
  unfold tupleComma
  rw [List.isEmpty_map]
  exact .still _

theorem groupOf_eq (inner : Grammar Expr) : groupOf inner = (do
    let start ← here
    exact ['(']
    (do token ")"; return .tuple start []) <|> do
      let first ← inner
      (do token ")"; return .group start first) <|> do
        let others ← many (token "," >>= fun _ => inner)
        tupleComma others
        token ")"
        return .tuple start (first :: others)) := by
  have comma (others : List Expr) (next : Grammar Expr) :
      (if others.isEmpty then token "," >>= fun _ => next
        else optional (token ",") >>= fun _ => next) = (tupleComma others >>= fun _ => next) := by
    unfold tupleComma
    split
    · rfl
    · rw [bind_assoc]
      rfl
  simp only [groupOf, comma]

theorem groupOf_moves (moves : MovesExpr count inner) : MovesExpr count (groupOf inner) := by
  rw [groupOf_eq]
  exact .bind .here fun _ => .bind (.still (exact ['('])) fun _ =>
    .orElse (.bind (.still (token ")")) fun _ => .pure rfl) <| .bind moves fun _ =>
      .orElse (.bind (.still (token ")")) fun _ => .pure rfl) <|
        .bind (.many (.bind (.still (token ",")) fun _ => moves)) fun others =>
          .bind (tupleComma_moves others) fun _ => .bind (.still (token ")")) fun _ =>
            .pure (by simp [Expr.moved])

theorem primaryOf_moves (moves : MovesExpr count inner) : MovesExpr count (primaryOf inner) :=
  .bind .here fun _ =>
    .orElse (.bind (.still boolean) fun _ => .pure rfl) <|
    .orElse (.bind (.still number) fun _ => .pure rfl) <|
    .orElse (.bind (.still string) fun _ => .pure rfl) <|
    .orElse (.bind (.still characterText) fun _ => .pure rfl) <|
    .orElse (.bind (.still path) fun _ => .pure rfl) <|
    .orElse (listOf_moves moves) <|
    .orElse (.bind (.still name) fun _ => .pure rfl) (groupOf_moves moves)

theorem postfixStep_moves (moves : MovesExpr count inner) (start : Nat) (value : Expr) :
    Moves count (Expr.moved count) (postfixStep inner start value)
      (postfixStep inner (count + start) (value.moved count)) :=
  .orElse (.bind (.still (token ".")) fun _ => .bind (.still nameToken) fun _ => .pure rfl) <|
    .orElse (.bind (.still (token "[")) fun _ => .bind moves fun _ =>
      .bind (.still (token "]")) fun _ => .pure rfl) <|
    .orElse (.bind (argumentsOf_moves moves) fun _ => .pure (by simp [Expr.moved]))
      (.bind (.still (token "?")) fun _ => .pure rfl)

theorem postfixOf_moves (moves : MovesExpr count inner) : MovesExpr count (postfixOf inner) :=
  .bind (.still spaces) fun _ => .bind .here fun start => .bind (primaryOf_moves moves)
    (.chain (postfixStep_moves moves start))

theorem filterStep_moves (moves : MovesExpr count inner) (start : Nat) (value : Expr) :
    Moves count (Expr.moved count) (filterStep inner start value)
      (filterStep inner (count + start) (value.moved count)) :=
  .bind (.still (token "|")) fun _ => .bind (.still (ahead _)) fun _ =>
    .bind (.still nameToken) fun _ =>
      .bind (.orElse (argumentsOf_moves moves) (.pure rfl)) fun _ => .pure (by simp [Expr.moved])

theorem filteredOf_moves (moves : MovesExpr count inner) : MovesExpr count (filteredOf inner) :=
  .bind .nextOffset fun start => .bind (postfixOf_moves moves) (.chain (filterStep_moves moves start))

theorem unaryOf_moves (moves : MovesExpr count inner) : MovesExpr count (unaryOf inner) := by
  rw [unaryOf_eq]
  refine .bind (.still spaces) fun _ => .bind .here fun start =>
    .bind (.still (optional unaryMark)) fun op => .bind (filteredOf_moves moves) fun operand => ?_
  cases op with
  | none => exact .pure rfl
  | some op => exact .pure rfl

theorem binaryStep_moves {operand : Grammar Expr} (moves : MovesExpr count operand)
    (operators : List BinaryOp) (start : Nat) (left : Expr) :
    Moves count (Expr.moved count) (binaryStep operand operators start left)
      (binaryStep operand operators (count + start) (left.moved count)) :=
  .bind (.still (operatorOf operators)) fun _ => .bind moves fun _ => .pure rfl

theorem binaryOf_moves {operand : Grammar Expr} (moves : MovesExpr count operand)
    (layers : List (List BinaryOp)) : MovesExpr count (binaryOf operand layers) := by
  induction layers with
  | nil => exact moves
  | cons operators tighter induction =>
      exact .bind .nextOffset fun start =>
        .bind induction (.chain (binaryStep_moves induction operators start))

theorem operationOf_moves (moves : MovesExpr count inner) : MovesExpr count (operationOf inner) :=
  binaryOf_moves (unaryOf_moves moves) _

theorem expressionOf_moves (moves : MovesExpr count inner) : MovesExpr count (expressionOf inner) := by
  have operand := operationOf_moves moves
  refine .bind (.still spaces) fun _ => .bind .here fun _ => .bind (.optional operand) fun left =>
    .bind (.still (optional rangeMark)) fun kind => ?_
  cases kind with
  | some kind =>
      exact .bind (.optional operand) fun _ => .bind (.still spaces) fun _ =>
        .pure (by simp [Expr.moved])
  | none =>
      cases left with
      | some value => exact .bind (.still spaces) fun _ => .pure rfl
      | none => exact .noMatch

end

theorem expressionWithin_moves (brackets : Nat) : MovesExpr count (expressionWithin brackets) := by
  induction brackets with
  | zero => exact .tooDeep
  | succ brackets induction => exact expressionOf_moves induction

theorem expression_moves : MovesExpr count expression :=
  expressionWithin_moves bracketLimit

theorem arguments_moves : Moves count (List.map (Expr.moved count)) arguments arguments :=
  argumentsOf_moves expression_moves

/-! ## Patterns -/

/-- The rule for patterns moves them. -/
def MovesPattern (count : Nat) (rule : Grammar Pattern) : Prop :=
  Moves count (Pattern.moved count) rule rule

theorem literalPattern_moves : MovesPattern count literalPattern :=
  .bind .here fun _ =>
    .orElse (.bind (.still string) fun _ => .pure rfl) <|
    .orElse (.bind (.still characterText) fun _ => .pure rfl) <|
    .orElse (.bind (.still number) fun _ => .pure rfl)
      (.bind (.still boolean) fun _ => .pure rfl)

theorem namePattern_moves : MovesPattern count namePattern :=
  .bind .here fun _ => .bind (.still name) fun _ => .pure rfl

theorem payload_moves {value : α → α} {item : Grammar α} (closing : Char)
    (moves : Moves count value item item) :
    Moves count (List.map value) (payload closing item) (payload closing item) :=
  .orElse (.bind (.still (token (String.singleton closing))) fun _ => .pure rfl) <|
    .bind (.expect moves _) fun _ =>
      .bind (.many (.bind (.still (token ",")) fun _ => .bind (.still (ahead _)) fun _ =>
        .expect moves _)) fun _ =>
      .bind (.still (optional (token ","))) fun _ =>
        .bind (.still (expect (token (String.singleton closing)) _)) fun _ => .pure rfl

section

variable {inner : Grammar Pattern}

theorem groupPattern_moves (moves : MovesPattern count inner) :
    MovesPattern count (groupPattern inner) :=
  .bind .here fun _ => .bind (.still (token "(")) fun _ =>
    .orElse (.bind (.still (token ")")) fun _ => .pure rfl) <| .bind moves fun _ =>
      .orElse (.bind (.still (token ")")) fun _ => .pure rfl) <|
        .bind (.many (.bind (.still (token ",")) fun _ => moves)) fun _ =>
          .bind (.still (optional (token ","))) fun _ =>
            .bind (.still (expect (token ")") .tupleEnd)) fun _ => .pure (by simp [Pattern.moved])

theorem field_moves (moves : MovesPattern count inner) :
    Moves count (Field.moved count) (field inner) (field inner) :=
  .bind (.still spaces) fun _ => .bind .here fun _ => .bind (.still nameToken) fun _ =>
    .orElse (.bind (.still (token ":")) fun _ => .bind (.expect moves _) fun _ => .pure rfl)
      (.pure rfl)

theorem pathPattern_moves (moves : MovesPattern count inner) :
    MovesPattern count (pathPattern inner) :=
  .bind .here fun _ => .bind (.still path) fun _ =>
    .orElse (.bind (.still (optional (keyword "with"))) fun _ => .bind (.still (token "(")) fun _ =>
      .bind (payload_moves _ moves) fun _ => .pure (by simp [Pattern.moved])) <|
    .orElse (.bind (.still (optional (keyword "with"))) fun _ =>
      .bind (.still (token "\x7b")) fun _ =>
        .bind (payload_moves _ (field_moves moves)) fun _ => .pure (by simp [Pattern.moved]))
      (.pure rfl)

theorem patternOf_moves (moves : MovesPattern count inner) : MovesPattern count (patternOf inner) :=
  .spaced <| .orElse literalPattern_moves <| .orElse (groupPattern_moves moves) <|
    .orElse (pathPattern_moves moves) namePattern_moves

end

theorem patternWithin_moves (brackets : Nat) : MovesPattern count (patternWithin brackets) := by
  induction brackets with
  | zero => exact .tooDeep
  | succ brackets induction => exact patternOf_moves induction

theorem pattern_moves : MovesPattern count pattern :=
  patternWithin_moves bracketLimit

end Grammar

end Templating

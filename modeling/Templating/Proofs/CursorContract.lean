import Templating.Proofs.AttemptedBody
import Templating.Proofs.ExpressionGrammar

/-! # What an attempt does to the cursor

Wherever in a source an attempt begins, it gets a value and leaves the cursor further on in the
source, or gives up and leaves it where it was, or ends the parse. No loop runs out of turns: each
turn that is not the last reads something. -/

namespace Templating

variable {room : Room}

open Attempt
open Grammar (Advancing Consuming Certain)

/-! ## Three outcomes -/

/-- Nothing is said of what stands behind a value. -/
def Anywhere (_ : List Char) : Prop := True

/-- What has become of an attempt that began at an offset of a source leaves the cursor where it may
be; behind a value the rest of the source is `stopped`. -/
def Attempted.Obeys {α : Type} (source : List Char) (offset : Nat) (stopped : List Char → Prop) :
    Attempted α → Prop
  | .got _ later => ∃ further, offset < further ∧ further ≤ source.length ∧
      later = .after source further ∧ stopped later.rest
  | .gaveUp later => later = .after source offset
  | .failed _ => True
  | .outOfTurns => False

/-- The attempt leaves the cursor of any source where it may be, and comes to what the rule comes
to. -/
structure Attempt.Contract {α : Type} (attempt : Attempt α) (rule : Grammar α)
    (stopped : List Char → Prop) : Prop where
  obeys (source : List Char) (offset : Nat) (inside : offset ≤ source.length) :
    (attempt (.after source offset)).Obeys source offset stopped
  agrees : attempt.Keeps rule

/-- Begun at an offset of a source, the loop takes as many turns as characters are left and one more
at most. -/
def Attempt.Ends {σ β : Type} (turn : σ → Attempt (Turn σ β)) : Prop :=
  ∀ (state : σ) (source : List Char) (offset : Nat), offset ≤ source.length →
    loopFor turn (source.length - offset + 1) state (.after source offset) ≠ .outOfTurns

section

variable {α β σ : Type} {attempt : Attempt α} {rule : Grammar α} {stopped : List Char → Prop}

theorem Attempt.Keeps.contract [Consuming rule] (keeps : attempt.Keeps rule)
    (stops : ∀ {cursor value later}, rule cursor = .matched value later → stopped later.rest) :
    attempt.Contract rule stopped where
  obeys source offset inside := by
    have run := keeps (.after source offset)
    rw [Returns] at run
    rw [run]
    cases matched : rule (.after source offset) with
    | matched value later =>
        rcases Grammar.eq_after_of_reaches (Advancing.reaches matched) with ⟨consumed, read, rfl⟩
        have passed : offset < offset + consumed.length := (Consuming.passes matched).offset_lt
        have length := congrArg List.length read
        rw [List.length_append, List.length_drop] at length
        exact ⟨_, passed, by omega, rfl, stops matched⟩
    | noMatch => rfl
    | failed failure => trivial
  agrees := keeps

theorem Attempt.Keeps.contract_anywhere [Consuming rule] (keeps : attempt.Keeps rule) :
    attempt.Contract rule Anywhere :=
  keeps.contract fun _ => trivial

theorem Outcome.from_ne_outOfTurns (before : Cursor) (outcome : Outcome α) :
    outcome.from before ≠ .outOfTurns := by
  cases outcome <;> nofun

/-- A loop that comes to what a rule comes to does not run out of turns. -/
theorem Attempt.ends_of_eq {turn : σ → Attempt (Turn σ β)} {rule : σ → Grammar β}
    (before : Cursor → Cursor)
    (eq : ∀ state cursor, loop turn state cursor = (rule state cursor).from (before cursor)) :
    Ends turn := by
  intro state source offset _
  have looped := eq state (.after source offset)
  rw [loop, Cursor.after, List.length_drop] at looped
  rw [Cursor.after, looped]
  exact Outcome.from_ne_outOfTurns _ _

theorem Attempt.ends_of_keeps {turn : σ → Attempt (Turn σ β)} {rule : σ → Grammar β}
    (keeps : ∀ state, (loop turn state).Keeps (rule state)) : Ends turn :=
  ends_of_eq id keeps

end

/-! ## The whole grammar -/

/-- What holds of the attempts that the parse of a source is made of, in every dialect. Behind an
expression, arguments or a pattern no blank is left, so that what ends a tag is there or is not. -/
structure CursorContract [Room] (dialect : Dialect) : Prop where
  expression (brackets : Nat) :
    (expressionWithin brackets).Contract (Grammar.expressionWithin brackets) Text.Solid
  arguments (brackets : Nat) :
    (argumentsOf (expressionWithin brackets)).Contract
      (Grammar.argumentsOf (Grammar.expressionWithin brackets)) Text.Solid
  operation (brackets level : Nat) :
    (operationFrom (expressionWithin brackets) level).Contract
      (Grammar.binaryOf (Grammar.unaryOf (Grammar.expressionWithin brackets))
        (BinaryOp.layers.drop level)) Anywhere
  unary (brackets : Nat) :
    (unaryOf (expressionWithin brackets)).Contract
      (Grammar.unaryOf (Grammar.expressionWithin brackets)) Anywhere
  pattern (brackets : Nat) :
    (patternWithin brackets).Contract (Grammar.patternWithin brackets) Text.Solid
  text : (text dialect).Contract (Grammar.text dialect) Anywhere
  comment : (comment dialect).Contract (Grammar.comment dialect) Anywhere
  output : (output dialect).Contract (Grammar.output dialect) Anywhere
  statement (outside : Counters) (levels : Nat) (scope : List Part) :
    (statement dialect (outside.within scope).inLoop fun part =>
      nodesWithin dialect outside levels (part :: scope)).Contract
        (Scoped.statement dialect (outside.within scope).inLoop fun part =>
          Scoped.nodesWithin dialect outside levels (part :: scope)) Anywhere
  tag (words : List String) : (tag dialect words).Contract (Grammar.tag dialect words) Anywhere
  nameToken : (scan Grammar.nameToken).Contract Grammar.nameToken Anywhere
  stringToken : (scan Grammar.stringToken).Contract Grammar.stringToken Anywhere
  marker : (scan Grammar.marker).Contract Grammar.marker Anywhere
  exact (text : List Char) (nonempty : text ≠ []) :
    (scan (Grammar.exact text)).Contract (Grammar.exact text) Anywhere
  token (symbol : String) (nonempty : symbol ≠ "") :
    (scan (Grammar.token symbol)).Contract (Grammar.token symbol) Anywhere
  keyword (word : String) (nonempty : word ≠ "") :
    (scan (Grammar.keyword word)).Contract (Grammar.keyword word) Anywhere
  nodeLoop (outside : Counters) (levels : Nat) (scope : List Part) :
    Ends (nodeTurn dialect (outside.within scope).inLoop fun part =>
      nodesWithin dialect outside levels (part :: scope))
  commentLoop : Ends (commentTurn dialect)
  operatorLoop (brackets level start : Nat) (operators : List BinaryOp) :
    Ends (binaryTurn (operationFrom (expressionWithin brackets) level) operators start)
  postfixLoop (brackets start : Nat) : Ends (postfixTurn (expressionWithin brackets) start)
  filterLoop (brackets start : Nat) : Ends (filterTurn (expressionWithin brackets) start)
  argumentLoop (brackets : Nat) (before : Cursor) :
    Ends (argumentTurn (expressionWithin brackets) before)
  listLoop (brackets : Nat) (before : Cursor) : Ends (listTurn (expressionWithin brackets) before)
  groupLoop (brackets : Nat) : Ends (tupleTurn (expressionWithin brackets))
  groupPatternLoop (brackets : Nat) : Ends (furtherTurn (patternWithin brackets))
  payloadLoop (brackets : Nat) : Ends (payloadTurn ')' (patternWithin brackets))
  fieldLoop (brackets : Nat) : Ends (payloadTurn '\x7d' (field (patternWithin brackets)))
  branchLoop (outside : Counters) (levels : Nat) (scope : List Part) :
    Ends (branchTurn dialect (nodesWithin dialect outside levels scope))
  armLoop (outside : Counters) (levels : Nat) (scope : List Part) :
    Ends (armTurn dialect (nodesWithin dialect outside levels scope))
  parse (source : Source) :
    Template.parse dialect source = match document dialect (.start source.chars) with
      | .got body _ => .ok { body, name := source.name }
      | .failed failure => .error failure
      | _ => .error (.malformed .unexpectedInput 0)

section

variable {dialect : Dialect}

theorem solid_of_token {symbol : String} {cursor later : Cursor}
    (matched : Grammar.token symbol cursor = .matched () later) : Text.Solid later.rest := by
  rcases Grammar.token_yields matched with ⟨_, _, _, solid⟩
  exact solid

theorem solid_of_argumentsOf {inner : Grammar Expr} {values : List Expr} {cursor later : Cursor}
    (matched : Grammar.argumentsOf inner cursor = .matched values later) : Text.Solid later.rest := by
  simp only [Grammar.argumentsOf, Grammar.bind_eq_matched, Grammar.orElse_eq_matched,
    Grammar.pure_eq_matched] at matched
  rcases matched with ⟨_, _, _, ⟨_, _, closed, _, rfl⟩ |
    ⟨_, _, _, _, _, _, _, _, _, closed, _, rfl⟩⟩
  · exact solid_of_token closed
  · exact solid_of_token closed

theorem solid_of_patternWithin {brackets : Nat} {value : Pattern} {cursor later : Cursor}
    (matched : Grammar.patternWithin brackets cursor = .matched value later) :
    Text.Solid later.rest := by
  cases brackets with
  | zero => cases matched
  | succ brackets =>
      rcases Grammar.spaced_yields matched with ⟨_, _, _, _, _, _, solid⟩
      exact solid

/-- Where a bracket closes no expression begins. -/
theorem expressionOf_of_closed {inner : Grammar Expr} {cursor later : Cursor}
    (closed : Grammar.token ")" cursor = .matched () later) :
    Grammar.expressionOf inner cursor = .noMatch := by
  apply (Grammar.expressionOf_misses _).eq_noMatch
  rw [head?_of_token rfl closed]
  rintro _ ⟨⟩
  decide

instance : Consuming Grammar.marker :=
  ⟨fun {cursor value later} matched => by
    rcases cursor with ⟨offset, _ | ⟨first, rest⟩⟩
    · cases matched
    · refine ⟨Advancing.reaches matched, ?_⟩
      unfold Grammar.marker at matched
      dsimp only at matched
      split at matched
      · cases matched
        simp [Cursor.advance]
      · cases matched⟩

theorem tupleTurn_ends (brackets : Nat) : Ends (tupleTurn (expressionWithin brackets)) := by
  cases brackets with
  | zero =>
      -- Nothing is an item here, and the first turn is the last.
      intro items source offset _
      rw [loopFor, bind_apply, tupleTurn]
      generalize Cursor.after source offset = cursor
      rcases token_cases "," cursor with noComma | ⟨behind, comma⟩
      · rw [branch_of_gaveUp (scan_of_noMatch noComma)]
        exact fun ended => by cases ended
      · rw [branch_of_got (scan_of_matched comma)]
        rcases token_cases ")" behind with unclosed | ⟨last, closed⟩
        · rw [branch_of_gaveUp (scan_of_noMatch unclosed)]
          exact fun ended => by cases ended
        · rw [branch_of_got (scan_of_matched closed)]
          exact fun ended => by cases ended
  | succ brackets =>
      exact ends_of_keeps (tupleLoop_eq (expressionWithin_keeps (brackets + 1)) expressionOf_of_closed)

end

/-- Every attempt that a parse is made of obeys, and no loop of it runs out of turns. -/
theorem cursor_contract (dialect : Dialect) : CursorContract dialect where
  expression brackets := (expressionWithin_keeps brackets).contract Grammar.solid_of_expressionWithin
  arguments brackets := (argumentsOf_keeps (expressionWithin_keeps brackets)).contract
    solid_of_argumentsOf
  operation brackets level :=
    have := Grammar.consuming_binaryOf (Grammar.unaryOf (Grammar.expressionWithin brackets))
      (BinaryOp.layers.drop level)
    (operationFrom_keeps (expressionWithin_keeps brackets)
    (stopsAtBrackets_expressionWithin brackets) level).contract_anywhere
  unary brackets := (unaryOf_keeps (expressionWithin_keeps brackets)
    (stopsAtBrackets_expressionWithin brackets)).contract_anywhere
  pattern brackets := (patternWithin_keeps brackets).contract solid_of_patternWithin
  text := (text_keeps dialect).contract_anywhere
  comment := (comment_keeps dialect).contract_anywhere
  output := (output_keeps dialect).contract_anywhere
  statement outside levels scope :=
    (statement_keeps fun part => nodesWithin_keeps dialect outside levels (part :: scope)).contract_anywhere
  tag words := (tag_keeps dialect words).contract_anywhere
  nameToken := (scan_keeps _).contract_anywhere
  stringToken := (scan_keeps _).contract_anywhere
  marker := (scan_keeps _).contract_anywhere
  exact text nonempty :=
    have := Grammar.consuming_exact nonempty
    (scan_keeps _).contract_anywhere
  token symbol nonempty :=
    have := Grammar.consuming_exact (mt String.toList_eq_nil_iff.mp nonempty)
    have : Consuming (Grammar.token symbol) :=
      inferInstanceAs (Consuming (Grammar.spaced (Grammar.exact symbol.toList)))
    (scan_keeps _).contract_anywhere
  keyword word nonempty :=
    have := Grammar.consuming_exact (mt String.toList_eq_nil_iff.mp nonempty)
    have : Consuming (Grammar.word word) := inferInstanceAs (Consuming
      (Grammar.exact word.toList >>= fun _ => Grammar.endOfWord >>= fun _ => pure word))
    have : Consuming (Grammar.keyword word) :=
      inferInstanceAs (Consuming (Grammar.spaced (Grammar.word word)))
    (scan_keeps _).contract_anywhere
  nodeLoop outside levels scope := ends_of_keeps (nodeLoop_keeps dialect _
    fun part => nodesWithin_keeps dialect outside levels (part :: scope))
  commentLoop := ends_of_keeps fun _ => skipComments_keeps dialect
  operatorLoop brackets level start operators :=
    have := Grammar.consuming_binaryOf (Grammar.unaryOf (Grammar.expressionWithin brackets))
      (BinaryOp.layers.drop level)
    ends_of_keeps (loop_keeps_chain (binaryStep_ends _ operators start)
      (binaryTurn_eq (operationFrom_keeps (expressionWithin_keeps brackets)
        (stopsAtBrackets_expressionWithin brackets) level) operators start))
  postfixLoop brackets start := ends_of_keeps
    (loop_keeps_chain (fun _ _ => rfl) (postfixTurn_eq (expressionWithin_keeps brackets) start))
  filterLoop brackets start := ends_of_keeps
    (loop_keeps_chain (fun _ _ => rfl) (filterTurn_eq (expressionWithin_keeps brackets) start))
  argumentLoop brackets before :=
    ends_of_eq (fun _ => before) (argumentLoop_eq (expressionWithin_keeps brackets) before)
  listLoop brackets before := ends_of_eq (fun _ => before)
    (listLoop_eq (expressionWithin_keeps brackets) (stopsAtBrackets_expressionWithin brackets) before)
  groupLoop := tupleTurn_ends
  groupPatternLoop brackets := ends_of_keeps
    (loop_keeps_many (fun _ => rfl) (furtherTurn_eq (patternWithin_keeps brackets)))
  payloadLoop brackets := ends_of_keeps (payloadLoop_eq (patternWithin_keeps brackets))
  fieldLoop brackets :=
    ends_of_keeps (payloadLoop_eq (field_keeps (patternWithin_keeps brackets)))
  branchLoop outside levels scope := ends_of_keeps
    (branchLoop_keeps dialect (nodesWithin_keeps dialect outside levels scope))
  armLoop outside levels scope := ends_of_keeps
    (armLoop_keeps dialect (nodesWithin_keeps dialect outside levels scope))
  parse source := by
    rw [Template.parse_eq_scoped, document_keeps dialect]
    cases Scoped.document dialect (.start source.chars) <;> rfl

end Templating

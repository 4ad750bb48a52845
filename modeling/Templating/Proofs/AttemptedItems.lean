import Templating.Proofs.Attempt
import Templating.Proofs.ExpressionCompleteness

/-! # Items that are attempted

Arguments, lists and groups as they are run with one cursor. A loop that has gone on in vain puts the
cursor back to the bracket it began with, whichever item it has come to. -/

namespace Templating.Attempt

open Grammar (Consuming Certain token nameToken here nextOffset spaces exact ahead furtherItem)

/-! ## Items between brackets -/

section

variable (inner : Attempt Expr)

/-- One argument and the comma or the bracket behind it. -/
def argumentTurn (before : Cursor) (items : List Expr) :
    Attempt (Turn (List Expr) (List Expr)) := do
  let item ← inner <|> backTo before
  (do scan (token ","); return .again (items ++ [item])) <|>
    (do scan (token ")"); return .done (items ++ [item])) <|>
    backTo before

def argumentsOf : Attempt (List Expr) := do
  let before ← mark
  scan (token "(")
  (do scan (token ")"); return []) <|> loop (argumentTurn inner before) []

/-- One item of a list and what stands behind it: a bracket, a comma, or both. -/
def listTurn (before : Cursor) (items : List Expr) : Attempt (Turn (List Expr) (List Expr)) := do
  let item ← inner <|> backTo before
  branch (scan (token ","))
    (fun _ => (do scan (token "]"); return .done (items ++ [item])) <|>
      return .again (items ++ [item]))
    ((do scan (token "]"); return .done (items ++ [item])) <|> backTo before)

def listOf : Attempt Expr := do
  let before ← mark
  let start ← scan here
  scan (exact ['['])
  (do scan (token "]"); return .list start []) <|> do
    let items ← loop (listTurn inner before) []
    return .list start items

/-- A comma behind the items of a tuple and what stands behind it: the bracket, or another item.
Where the loop ends it is told whether the bracket has been read. -/
def tupleTurn (items : List Expr) : Attempt (Turn (List Expr) (Bool × List Expr)) :=
  branch (scan (token ","))
    (fun _ => branch (scan (token ")"))
      (fun _ => return .done (true, items))
      (branch inner (fun item => return .again (items ++ [item])) (return .done (false, items))))
    (return .done (false, items))

/-- The bracket behind a tuple if it has not been read yet; one item without a comma behind it is
none. -/
def tupleEnd (before : Cursor) (start : Nat) : Bool × List Expr → Attempt Expr
  | (true, items) => return .tuple start items
  | (false, items) =>
      if 1 < items.length then
        (do scan (token ")"); return .tuple start items) <|> backTo before
      else
        backTo before

def groupOf : Attempt Expr := do
  let before ← mark
  let start ← scan here
  scan (exact ['('])
  (do scan (token ")"); return .tuple start []) <|> do
    let first ← inner <|> backTo before
    (do scan (token ")"); return .group start first) <|> do
      let ended ← loop (tupleTurn inner) [first]
      tupleEnd before start ended

end

/-! ## Symbols -/

section

variable {inner : Attempt Expr} {inner' : Grammar Expr} [Consuming inner'] {cursor later : Cursor}

theorem furtherItem_ends (inner' : Grammar Expr) (offset : Nat) :
    furtherItem inner' ⟨offset, []⟩ = .noMatch := rfl

theorem token_cases (symbol : String) (cursor : Cursor) :
    token symbol cursor = .noMatch ∨ ∃ later, token symbol cursor = .matched () later := by
  rcases Grammar.Quiet.cases (token symbol) cursor with missed | ⟨_, later, matched⟩
  · exact .inl missed
  · exact .inr ⟨later, matched⟩

theorem head?_of_token {symbol : String} (isSymbol : Text.isSymbol symbol = true)
    (matched : token symbol cursor = .matched () later) :
    (Text.afterBlanks cursor.rest).head? = symbol.toList.head? := by
  rcases Grammar.token_yields matched with ⟨middle, spelled, _, _⟩
  rw [Text.Gap.afterBlanks_eq spelled (Text.solid_symbol isSymbol middle)]
  cases shape : symbol.toList with
  | nil => simp [Text.isSymbol, shape] at isSymbol
  | cons first others => rfl

/-- Where a symbol stands no other stands that begins with another character. -/
theorem noMatch_of_token {symbol : String} (other : String) (isSymbol : Text.isSymbol symbol = true)
    (nonempty : other.toList ≠ []) (apart : other.toList.head? ≠ symbol.toList.head?)
    (matched : token symbol cursor = .matched () later) : token other cursor = .noMatch := by
  apply (Grammar.token_misses_of_head _ nonempty).eq_noMatch
  intro first atHead begins
  rw [head?_of_token isSymbol matched] at atHead
  exact apart (begins.trans atHead.symm)

/-- A rule that matches somewhere does not match at a bracket that closes. -/
def StopsAtBrackets (inner' : Grammar Expr) : Prop :=
  ∀ {cursor cursor' later later' : Cursor} {value : Expr}, inner' cursor = .matched value later →
    ∀ symbol ∈ [")", "]"], token symbol cursor' = .matched () later' → inner' cursor' = .noMatch

/-! ## Arguments and lists -/

/-- The items from one on, behind those that have been read, and what ends them. -/
def itemsBehind (inner' : Grammar Expr) (ending : Grammar Unit) (items : List Expr) :
    Grammar (List Expr) := do
  let first ← inner'
  let others ← Grammar.many (furtherItem inner')
  ending
  return items ++ first :: others

section

variable {ending : Grammar Unit} {items : List Expr} {first : Expr} {middle behind : Cursor}
  (read : inner' cursor = .matched first middle)

include read

theorem itemsBehind_of_noComma (noComma : token "," middle = .noMatch) :
    itemsBehind inner' ending items cursor =
      (ending >>= fun _ => pure (items ++ [first])) middle := by
  rw [itemsBehind, Grammar.bind_of_matched read,
    Grammar.many_bind_unfold (furtherItem_ends inner'), furtherItem, Grammar.bind_of_noMatch noComma]

theorem itemsBehind_of_last (comma : token "," middle = .matched () behind)
    (last : inner' behind = .noMatch) :
    itemsBehind inner' ending items cursor =
      (ending >>= fun _ => pure (items ++ [first])) middle := by
  rw [itemsBehind, Grammar.bind_of_matched read,
    Grammar.many_bind_unfold (furtherItem_ends inner'), furtherItem, Grammar.bind_of_matched comma,
    last]

theorem itemsBehind_of_further (comma : token "," middle = .matched () behind)
    (further : inner' behind ≠ .noMatch) :
    itemsBehind inner' ending items cursor =
      itemsBehind inner' ending (items ++ [first]) behind := by
  rw [itemsBehind, Grammar.bind_of_matched read,
    Grammar.many_bind_unfold (furtherItem_ends inner'), furtherItem, Grammar.bind_of_matched comma]
  cases next : inner' behind with
  | matched second later =>
      rw [itemsBehind, Grammar.bind_of_matched next]
      simp only [List.append_assoc, List.singleton_append]
      rfl
  | noMatch => exact absurd next further
  | failed failure => rw [itemsBehind, Grammar.bind_of_failed next]

/-- If nothing ends the items before a comma or behind it, there has to be another item. -/
theorem itemsBehind_of_comma (comma : token "," middle = .matched () behind)
    (unended : ending middle = .noMatch) :
    itemsBehind inner' ending items cursor =
      itemsBehind inner' ending (items ++ [first]) behind := by
  by_cases last : inner' behind = .noMatch
  · rw [itemsBehind_of_last read comma last, Grammar.bind_of_noMatch unended, itemsBehind,
      Grammar.bind_of_noMatch last]
  · exact itemsBehind_of_further read comma last

end

variable (keeps : inner.Keeps inner')

include keeps

omit [Consuming inner'] in
theorem orBackTo_eq (before cursor : Cursor) :
    (inner <|> backTo before : Attempt Expr) cursor = (inner' cursor).from before :=
  (keeps.follows cursor).orBackTo before

theorem argumentLoop_eq (before : Cursor) (items : List Expr) (cursor : Cursor) :
    loop (argumentTurn inner before) items cursor =
      (itemsBehind inner' (token ")") items cursor).from before := by
  refine loop_eq
    (fun items cursor => (itemsBehind inner' (token ")") items cursor).from before)
    (fun items cursor => ?_) items cursor
  have item := orBackTo_eq keeps before cursor
  rw [argumentTurn]
  cases read : inner' cursor with
  | noMatch =>
      rw [read] at item
      rw [bind_of_gaveUp item, itemsBehind, Grammar.bind_of_noMatch read]
      rfl
  | failed failure =>
      rw [read] at item
      rw [bind_of_failed item, itemsBehind, Grammar.bind_of_failed read]
      rfl
  | matched first middle =>
      rw [read] at item
      rw [bind_of_got item]
      have shorter := (Consuming.passes read).2
      rcases token_cases "," middle with noComma | ⟨behind, comma⟩
      · rw [itemsBehind_of_noComma read noComma,
          orElse_of_gaveUp (bind_of_gaveUp (scan_of_noMatch noComma))]
        rcases token_cases ")" middle with unclosed | ⟨behind, closed⟩
        · rw [Grammar.bind_of_noMatch unclosed,
            orElse_of_gaveUp (bind_of_gaveUp (scan_of_noMatch unclosed))]
          rfl
        · rw [Grammar.bind_of_matched closed,
            orElse_of_got (bind_pure_of_got (scan_of_matched closed))]
          rfl
      · have unclosed := noMatch_of_token ")" rfl (by decide) (by decide) comma
        rw [itemsBehind_of_comma read comma unclosed,
          orElse_of_got (bind_pure_of_got (scan_of_matched comma))]
        have shorter' := (Consuming.passes comma).2
        exact ⟨by omega, rfl⟩

theorem argumentsOf_keeps : (argumentsOf inner).Keeps (Grammar.argumentsOf inner') := by
  refine keeps_of_mark fun cursor => (scan_keeps _ cursor).bind fun _ later _ => ?_
  refine ((scan_keeps _ later).bind fun _ _ _ => pure_returns ..).orElse fun _ => ?_
  exact argumentLoop_eq keeps cursor [] later

/-- What ends a list. -/
def listEnd : Grammar Unit := do
  let _ ← Grammar.optional (token ",")
  token "]"

variable (stops : StopsAtBrackets inner')

include stops

theorem listLoop_eq (before : Cursor) (items : List Expr) (cursor : Cursor) :
    loop (listTurn inner before) items cursor =
      (itemsBehind inner' listEnd items cursor).from before := by
  refine loop_eq
    (fun items cursor => (itemsBehind inner' listEnd items cursor).from before)
    (fun items cursor => ?_) items cursor
  have item := orBackTo_eq keeps before cursor
  rw [listTurn]
  cases read : inner' cursor with
  | noMatch =>
      rw [read] at item
      rw [bind_of_gaveUp item, itemsBehind, Grammar.bind_of_noMatch read]
      rfl
  | failed failure =>
      rw [read] at item
      rw [bind_of_failed item, itemsBehind, Grammar.bind_of_failed read]
      rfl
  | matched first middle =>
      rw [read] at item
      rw [bind_of_got item]
      have shorter := (Consuming.passes read).2
      rcases token_cases "," middle with noComma | ⟨behind, comma⟩
      · have ending : listEnd middle = token "]" middle :=
          Grammar.bind_of_matched (Grammar.optional_of_noMatch noComma)
        rw [itemsBehind_of_noComma read noComma, branch_of_gaveUp (scan_of_noMatch noComma)]
        rcases token_cases "]" middle with unclosed | ⟨behind, closed⟩
        · rw [Grammar.bind_of_noMatch (ending.trans unclosed),
            orElse_of_gaveUp (bind_of_gaveUp (scan_of_noMatch unclosed))]
          rfl
        · rw [Grammar.bind_of_matched (ending.trans closed),
            orElse_of_got (bind_pure_of_got (scan_of_matched closed))]
          rfl
      · have ending : listEnd middle = token "]" behind :=
          Grammar.bind_of_matched (Grammar.optional_of_matched comma)
        have shorter' := (Consuming.passes comma).2
        rw [branch_of_got (scan_of_matched comma)]
        rcases token_cases "]" behind with unclosed | ⟨last, closed⟩
        · rw [itemsBehind_of_comma read comma (ending.trans unclosed),
            orElse_of_gaveUp (bind_of_gaveUp (scan_of_noMatch unclosed))]
          exact ⟨by omega, rfl⟩
        · rw [itemsBehind_of_last read comma (stops read _ (by decide) closed),
            Grammar.bind_of_matched (ending.trans closed),
            orElse_of_got (bind_pure_of_got (scan_of_matched closed))]
          rfl

theorem listOf_keeps : (listOf inner).Keeps (Grammar.listOf inner') := by
  refine keeps_of_mark fun cursor => (scan_keeps _ cursor).bind fun start later begun => ?_
  cases begun
  refine (scan_keeps _ _).bind fun _ later _ => ?_
  refine ((scan_keeps _ later).bind fun _ _ _ => pure_returns ..).orElse fun _ => ?_
  have whole : (do
      let first ← inner'
      let others ← Grammar.many (furtherItem inner')
      let _ ← Grammar.optional (token ",")
      token "]"
      return .list cursor.offset (first :: others) : Grammar Expr) =
      itemsBehind inner' listEnd [] >>= fun items => pure (.list cursor.offset items) := by
    simp only [itemsBehind, listEnd, bind_assoc, pure_bind, List.nil_append]
  have items : (loop (listTurn inner cursor) []).Returns cursor (itemsBehind inner' listEnd []) later :=
    listLoop_eq keeps stops cursor [] later
  exact whole ▸ items.bind fun _ _ _ => pure_returns ..

/-! ## Groups -/

/-- Behind the items of a tuple a comma is read, and the bracket if it stands behind the comma. -/
def tupleStop (items : List Expr) : Grammar (Bool × List Expr) :=
  (do
    token ","
    (do token ")"; return (true, items)) <|> return (false, items)) <|>
  return (false, items)

/-- What stands behind the items of a tuple that have been read: other items, and what stops
them. -/
def tupleBehind (inner' : Grammar Expr) (items : List Expr) : Grammar (Bool × List Expr) := do
  let others ← Grammar.many (furtherItem inner')
  tupleStop (items ++ others)

instance (items : List Expr) : Certain (tupleStop items) := by
  unfold tupleStop
  infer_instance

instance (inner' : Grammar Expr) (items : List Expr) : Certain (tupleBehind inner' items) := by
  unfold tupleBehind
  infer_instance

omit stops in
theorem tupleLoop_eq
    (stopped : ∀ {cursor later}, token ")" cursor = .matched () later → inner' cursor = .noMatch)
    (items : List Expr) (cursor : Cursor) :
    loop (tupleTurn inner) items cursor = (tupleBehind inner' items cursor).from cursor := by
  refine loop_eq
    (fun items cursor => (tupleBehind inner' items cursor).from cursor)
    (fun items cursor => ?_) items cursor
  rw [tupleTurn, tupleBehind, Grammar.many_bind_unfold (furtherItem_ends inner'), furtherItem]
  rcases token_cases "," cursor with noComma | ⟨behind, comma⟩
  · rw [branch_of_gaveUp (scan_of_noMatch noComma), Grammar.bind_of_noMatch noComma, List.append_nil,
      tupleStop, Grammar.orElse_of_noMatch (Grammar.bind_of_noMatch noComma)]
    rfl
  · rw [branch_of_got (scan_of_matched comma), Grammar.bind_of_matched comma]
    have shorter := (Consuming.passes comma).2
    rcases token_cases ")" behind with unclosed | ⟨last, closed⟩
    · rw [branch_of_gaveUp (scan_of_noMatch unclosed)]
      have itemRead := keeps behind
      cases item : inner' behind with
      | matched value later =>
          rw [Returns, item] at itemRead
          have shorter' := (Consuming.passes item).2
          have same : tupleBehind inner' (items ++ [value]) later = (do
              let others ← Grammar.many (furtherItem inner')
              tupleStop (items ++ value :: others) : Grammar (Bool × List Expr)) later := by
            simp only [tupleBehind, List.append_assoc, List.singleton_append]
          rw [branch_of_got itemRead]
          refine ⟨by omega, ?_⟩
          exact (from_eq_from (Certain.ne_noMatch later)).trans (congrArg (Outcome.from cursor) same)
      | noMatch =>
          rw [Returns, item] at itemRead
          rw [branch_of_gaveUp itemRead, List.append_nil, tupleStop,
            Grammar.orElse_of_matched ((Grammar.bind_of_matched comma).trans
              (Grammar.orElse_of_noMatch (Grammar.bind_of_noMatch unclosed)))]
          rfl
      | failed failure =>
          rw [Returns, item] at itemRead
          rw [branch_of_failed itemRead]
          rfl
    · rw [branch_of_got (scan_of_matched closed), stopped closed, List.append_nil,
        tupleStop, Grammar.orElse_of_matched ((Grammar.bind_of_matched comma).trans
          (Grammar.orElse_of_matched (Grammar.bind_pure_of_matched closed)))]
      rfl

omit keeps stops [Consuming inner'] in
/-- Behind the items of a tuple a comma has to stand if there is only one, and then the bracket. -/
theorem tupleEnd_returns (before : Cursor) (start : Nat) (first : Expr) (others : List Expr)
    (cursor : Cursor) :
    (scan (tupleStop (first :: others)) >>= tupleEnd before start).Returns before (do
        if others.isEmpty then
          token ","
        else
          let _ ← Grammar.optional (token ",")
        token ")"
        return .tuple start (first :: others)) cursor := by
  let closing : Grammar Expr := do
    token ")"
    return .tuple start (first :: others)
  rw [Returns, bind_apply, scan_apply, tupleStop]
  rcases token_cases "," cursor with noComma | ⟨behind, comma⟩
  · rw [Grammar.orElse_of_noMatch (Grammar.bind_of_noMatch noComma)]
    cases others with
    | nil => exact congrArg (Outcome.from before) (Grammar.bind_of_noMatch noComma).symm
    | cons second others =>
        have ending : (Grammar.optional (token ",") >>= fun _ => closing) cursor = closing cursor :=
          Grammar.bind_of_matched (Grammar.optional_of_noMatch noComma)
        refine Eq.trans ?_ (congrArg (Outcome.from before) ending.symm)
        exact ((scan_keeps _ cursor).follows.bind fun _ _ _ => pure_follows ..).orBackTo before
  · have ending : (do
        if others.isEmpty then
          token ","
        else
          let _ ← Grammar.optional (token ",")
        closing : Grammar Expr) cursor = closing behind := by
      cases others with
      | nil => exact Grammar.bind_of_matched comma
      | cons second others => exact Grammar.bind_of_matched (Grammar.optional_of_matched comma)
    refine Eq.trans ?_ (congrArg (Outcome.from before) ending.symm)
    rcases token_cases ")" behind with unclosed | ⟨last, closed⟩
    · rw [Grammar.orElse_of_matched ((Grammar.bind_of_matched comma).trans
        (Grammar.orElse_of_noMatch (Grammar.bind_of_noMatch unclosed)))]
      have missed : closing behind = .noMatch := Grammar.bind_of_noMatch unclosed
      rw [missed]
      cases others with
      | nil => rfl
      | cons second others =>
          exact orElse_of_gaveUp (bind_of_gaveUp (scan_of_noMatch unclosed))
    · rw [Grammar.orElse_of_matched ((Grammar.bind_of_matched comma).trans
        (Grammar.orElse_of_matched (Grammar.bind_pure_of_matched closed)))]
      have matched : closing behind = .matched (.tuple start (first :: others)) last :=
        Grammar.bind_pure_of_matched closed
      rw [matched]
      rfl

theorem groupOf_keeps : (groupOf inner).Keeps (Grammar.groupOf inner') := by
  refine keeps_of_mark fun cursor => (scan_keeps _ cursor).bind fun start later begun => ?_
  cases begun
  refine (scan_keeps _ _).bind fun _ opened _ => ?_
  refine ((scan_keeps _ opened).bind fun _ _ _ => pure_returns ..).orElse fun _ => ?_
  refine ((keeps.follows opened).orBackTo cursor).bind fun first middle read => ?_
  refine ((scan_keeps _ middle).bind fun _ _ _ => pure_returns ..).orElse fun unclosed => ?_
  have looped := tupleLoop_eq keeps (fun closed => stops read ")" (by decide) closed) [first] middle
  rw [tupleBehind, furtherItem] at looped
  rw [Returns, bind_apply, looped]
  cases run : Grammar.many (furtherItem inner') middle with
  | noMatch => exact absurd run (Certain.ne_noMatch middle)
  | failed failure =>
      rw [furtherItem] at run
      rw [Grammar.bind_of_failed run, Grammar.bind_of_failed run]
      rfl
  | matched others later =>
      rw [furtherItem] at run
      rw [Grammar.bind_of_matched run, Grammar.bind_of_matched run]
      have ended := tupleEnd_returns cursor cursor.offset first others later
      rw [Returns, bind_apply, scan_apply] at ended
      have certain : tupleStop (first :: others) later ≠ .noMatch := Certain.ne_noMatch later
      rw [← ended, ← from_eq_from certain]
      rfl

end

end Templating.Attempt

import Templating.Proofs.ExpressionStop
import Templating.Proofs.ListEnd

/-! # Expressions in brackets

The rules for lists, parentheses and arguments read whatever is spelled like one, as long as the
rule for what stands inside reads every item. A comma that no item follows is read only where
it may stand. -/

namespace Templating.Grammar

open Text Templating.Expr

variable {limit level layer : Nat} {inner : Grammar Expr} {text middle start next rest : List Char}

/-- The value differs from the expression in its offsets at most. -/
def Agrees (expression value : Expr) : Prop :=
  expression.same value = true

def AgreesAll (expressions values : List Expr) : Prop :=
  sameAll expressions values = true

/-- The rule reads every expression that may stand in one more pair of brackets, and it misses
where brackets close. -/
structure CompleteInside (limit : Nat) (inner : Grammar Expr) : Prop where
  reads {expression : Expr} {text start rest : List Char} :
    expression.WellFormed IsReadable → expression.nesting < limit → Gap text start →
      expression.Spelled start rest → Stops 0 rest →
        Reads inner text (Agrees expression) (afterBlanks rest)
  misses {text : List Char} : 0 < limit →
    (∀ first ∈ (afterBlanks text).head?, goesOn 0 first = false) → Misses inner text

/-- A comma or a closing bracket follows, behind blanks at most. -/
def ItemEnds (text : List Char) : Prop :=
  ∃ first, (afterBlanks text).head? = some first ∧ [',', ')', ']'].contains first = true

theorem itemEnds_of_symbol {symbol : String} (among : [",", ")", "]"].contains symbol = true)
    (spelled : SymbolAt symbol text rest) : ItemEnds text := by
  have cases : symbol = "," ∨ symbol = ")" ∨ symbol = "]" := by simpa using among
  rcases cases with rfl | rfl | rfl
  · exact ⟨',', by rw [spelled.afterBlanks_eq (solid_symbol rfl rest)]; rfl, by decide⟩
  · exact ⟨')', by rw [spelled.afterBlanks_eq (solid_symbol rfl rest)]; rfl, by decide⟩
  · exact ⟨']', by rw [spelled.afterBlanks_eq (solid_symbol rfl rest)]; rfl, by decide⟩

theorem ItemEnds.refused (ends : ItemEnds text) :
    ∀ first ∈ (afterBlanks text).head?, goesOn 0 first = false := by
  rcases ends with ⟨first, atHead, among⟩
  rw [atHead]
  rintro _ ⟨⟩
  have cases : first = ',' ∨ first = ')' ∨ first = ']' := by simpa using among
  rcases cases with rfl | rfl | rfl <;> decide

theorem ItemEnds.stops (ends : ItemEnds text) : Stops 0 text :=
  stops_of_head ends.refused

theorem itemEnds_of_tail {items : List Expr} (spelled : SpelledTail items text rest)
    (ends : ItemEnds rest) : ItemEnds text := by
  cases items with
  | nil =>
      cases spelled
      exact ends
  | cons item items =>
      rcases spelled with ⟨comma, _, _, symbol, _⟩
      exact itemEnds_of_symbol rfl symbol

theorem furtherItems_reads (complete : CompleteInside limit inner) {items : List Expr}
    (wellFormed : ∀ item ∈ items, item.WellFormed IsReadable) (nesting : nestingAll items ≤ limit)
    (spelled : SpelledTail items middle rest) (gap : Gap middle next) (solid : Solid next)
    (ends : ItemEnds rest) :
    ReadsEach (furtherItem inner) next (AgreesAll items) (afterBlanks rest) := by
  induction items generalizing middle next with
  | nil =>
      cases spelled
      rw [gap.afterBlanks_eq solid]
      exact .nil rfl
  | cons item items induction =>
      rcases spelled with ⟨comma, start, last, symbol, behind, spelledItem, spelled⟩
      rw [List.forall_mem_cons] at wellFormed
      rw [nestingAll] at nesting
      have itemEnds := itemEnds_of_tail spelled ends
      have commaAt : SymbolAt "," next comma := gap.of_gap symbol (solid_symbol rfl comma)
      have first : Reads (furtherItem inner) next (Agrees item) (afterBlanks last) :=
        (token_reads rfl commaAt behind (spelled_solid wellFormed.1 spelledItem)).bind fun _ _ =>
          complete.reads wellFormed.1 (by omega) (.refl _) spelledItem itemEnds.stops
      refine ReadsEach.cons first (induction wellFormed.2 (by omega) spelled (gap_afterBlanks last)
        (solid_afterBlanks last)) ?_
      intro value values agrees agreesAll
      simp only [AgreesAll, sameAll, Bool.and_eq_true]
      exact ⟨agrees, agreesAll⟩

/-- A bracket closes behind the items and perhaps a comma. -/
structure Closing (close : String) (last rest : List Char) : Prop where
  among : [")", "]"].contains close = true
  spelled : ∃ closing, TrailingComma false true last closing ∧ SymbolAt close closing rest

theorem Closing.itemEnds {close : String} {last : List Char} (closing : Closing close last rest) :
    ItemEnds last := by
  rcases closing with ⟨among, after, ⟨_, rfl⟩ | ⟨_, comma⟩, symbol⟩
  · refine itemEnds_of_symbol ?_ symbol
    have cases : close = ")" ∨ close = "]" := by simpa using among
    rcases cases with rfl | rfl <;> decide
  · exact itemEnds_of_symbol rfl comma

theorem Closing.closes {close : String} {last : List Char} (closing : Closing close last rest) :
    [")", "]", "\x7d"].contains close = true := by
  have cases : close = ")" ∨ close = "]" := by simpa using closing.among
  rcases cases with rfl | rfl <;> rfl

theorem goesOn_eq_false_of_closes {close : String} (closes : [")", "]", "\x7d"].contains close = true) :
    ∀ first ∈ close.toList.head?, goesOn 0 first = false := by
  rcases close_cases closes with rfl | rfl | rfl
  all_goals
    intro first atHead
    cases atHead
    rfl

theorem Closing.furtherItem_misses {close : String} {last : List Char}
    (complete : CompleteInside limit inner) (closing : Closing close last rest)
    (positive : 0 < limit) : Misses (furtherItem inner) (afterBlanks last) := by
  have closes := closing.closes
  rcases closing.spelled with ⟨after, comma, symbol⟩
  refine further_misses closes comma symbol (complete.misses positive ?_)
  rw [afterBlanks_afterBlanks, symbol_head (isSymbol_close closes) symbol]
  exact goesOn_eq_false_of_closes closes

/-- At an expression no bracket closes. -/
theorem close_misses {close : String} {expression : Expr}
    (wellFormed : expression.WellFormed IsReadable)
    (closes : [")", "]", "\x7d"].contains close = true)
    (gap : Gap text start) (spelled : expression.Spelled start rest) :
    Misses (token close) text := by
  rcases spelled_head wellFormed spelled with ⟨first, atHead, _, _, either⟩
  apply token_misses_of_head
  · rw [gap.afterBlanks_eq (spelled_solid wellFormed spelled), atHead]
    rintro _ ⟨⟩ closing
    have := goesOn_eq_false_of_closes closes first closing
    simp only [goesOn, Bool.or_eq_false_iff] at this
    rcases either with starts | rfl
    · simp [starts] at this
    · simp at this
  · rcases close_cases closes with rfl | rfl | rfl <;> decide

/-- The items have been read up to the blanks behind the last one. -/
theorem items_reads [Advancing inner] (complete : CompleteInside limit inner) {item : Expr} {items : List Expr}
    {close : String} {last : List Char}
    (wellFormed : ∀ other ∈ item :: items, other.WellFormed IsReadable)
    (nesting : nestingAll (item :: items) ≤ limit)
    (spelled : SpelledItems (item :: items) text last) (closing : Closing close last rest) :
    ∃ stop, Reads inner text (Agrees item) (afterBlanks stop) ∧ SpelledTail items stop last ∧
      Reads (many (furtherItem inner)) (afterBlanks stop) (AgreesAll items) (afterBlanks last) := by
  rcases spelled with ⟨start, stop, gap, spelledItem, spelledTail⟩
  rw [List.forall_mem_cons] at wellFormed
  rw [nestingAll] at nesting
  have itemEnds := itemEnds_of_tail spelledTail closing.itemEnds
  refine ⟨stop, complete.reads wellFormed.1 (by omega) gap spelledItem itemEnds.stops,
    spelledTail, ?_⟩
  exact (furtherItems_reads complete wellFormed.2 (by omega) spelledTail (gap_afterBlanks stop)
    (solid_afterBlanks stop) closing.itemEnds).stop
      (closing.furtherItem_misses complete (by omega))

theorem agreesAll_cons {item value : Expr} {items values : List Expr} (agrees : Agrees item value)
    (agreesAll : AgreesAll items values) : AgreesAll (item :: items) (value :: values) := by
  simp only [AgreesAll, sameAll, Bool.and_eq_true]
  exact ⟨agrees, agreesAll⟩

/-- At the first of several items no bracket closes. -/
theorem close_misses_at_items {close : String} {item : Expr} {items : List Expr} {last : List Char}
    (wellFormed : ∀ other ∈ item :: items, other.WellFormed IsReadable)
    (closes : [")", "]", "\x7d"].contains close = true)
    (spelled : SpelledItems (item :: items) text last) : Misses (token close) text := by
  rcases spelled with ⟨start, stop, gap, spelledItem, _⟩
  exact close_misses (wellFormed item List.mem_cons_self) closes gap spelledItem

theorem SpelledItems.of_gap {items : List Expr} {last : List Char} (nonempty : items ≠ [])
    (wellFormed : ∀ item ∈ items, item.WellFormed IsReadable) (gap : Gap text next)
    (spelled : SpelledItems items text last) : SpelledItems items next last := by
  cases items with
  | nil => exact absurd rfl nonempty
  | cons item items =>
      rcases spelled with ⟨start, stop, before, spelledItem, spelledTail⟩
      have solid := spelled_solid (wellFormed item List.mem_cons_self) spelledItem
      exact ⟨start, stop, gap.of_gap before solid, spelledItem, spelledTail⟩

theorem argumentsOf_reads [Advancing inner] (complete : CompleteInside limit inner)
    {arguments : List Expr} {opened closing : List Char}
    (wellFormed : ∀ argument ∈ arguments, argument.WellFormed IsReadable)
    (nesting : nestingAll arguments ≤ limit) (opening : SymbolAt "(" text opened)
    (spelled : SpelledItems arguments opened closing) (symbol : SymbolAt ")" closing rest) :
    Reads (argumentsOf inner) text (AgreesAll arguments) (afterBlanks rest) := by
  apply (token_reads rfl opening (gap_afterBlanks opened) (solid_afterBlanks opened)).bind
  intro _ _
  cases arguments with
  | nil =>
      cases spelled
      refine .orElse ((close_reads rfl symbol).bind ?_)
      intro _ _
      exact .pure rfl
  | cons argument arguments =>
      have spelled := SpelledItems.of_gap (by simp) wellFormed (gap_afterBlanks opened) spelled
      have misses : Misses (token ")") _ := close_misses_at_items wellFormed rfl spelled
      rcases items_reads complete wellFormed nesting spelled ⟨rfl, closing, .inl ⟨rfl, rfl⟩, symbol⟩
        with ⟨stop, reads, _, readsTail⟩
      refine .orElse_of_misses ?_ misses.bind
      apply reads.bind
      intro value agrees
      apply readsTail.bind
      intro values agreesAll
      apply (close_reads rfl symbol).bind
      intro _ _
      exact .pure (agreesAll_cons agrees agreesAll)

theorem listOf_reads [Advancing inner] (complete : CompleteInside limit inner) {offset : Nat}
    {items : List Expr} (wellFormed : ∀ item ∈ items, item.WellFormed IsReadable)
    (nesting : nestingAll items ≤ limit) (spelled : (Expr.list offset items).Spelled text rest) :
    Reads (listOf inner) text (Agrees (.list offset items)) (afterBlanks rest) := by
  rcases spelled with ⟨opened, last, closing, rfl, spelled, comma, symbol⟩
  apply Reads.here.bind
  intro start _
  apply (exact_reads ['['] opened).bind
  intro _ _
  cases items with
  | nil =>
      cases spelled
      rcases comma with ⟨_, rfl⟩ | ⟨⟨⟩, _⟩
      refine .orElse ((token_reads rfl symbol (gap_afterBlanks rest)
        (solid_afterBlanks rest)).bind ?_)
      intro _ _
      exact .pure rfl
  | cons item items =>
      have misses : Misses (token "]") _ := close_misses_at_items wellFormed rfl spelled
      rcases items_reads complete wellFormed nesting spelled ⟨rfl, closing, comma, symbol⟩
        with ⟨stop, reads, _, readsTail⟩
      refine .orElse_of_misses ?_ misses.bind
      apply reads.bind
      intro value agrees
      apply readsTail.bind
      intro values agreesAll
      apply (trailingComma_reads rfl comma symbol).bind
      intro _ _
      apply (close_reads rfl symbol).bind
      intro _ _
      exact .pure (agreesAll_cons agrees agreesAll)

theorem groupOf_reads_group (complete : CompleteInside limit inner) {offset : Nat} {value : Expr}
    (wellFormed : value.WellFormed IsReadable) (nesting : value.nesting < limit)
    (spelled : (Expr.group offset value).Spelled text rest) :
    Reads (groupOf inner) text (Agrees (.group offset value)) (afterBlanks rest) := by
  rcases spelled with ⟨opened, start, closing, rfl, gap, spelled, symbol⟩
  have misses : Misses (token ")") opened := close_misses wellFormed rfl gap spelled
  have stops := (itemEnds_of_symbol rfl symbol).stops
  apply Reads.here.bind
  intro origin _
  apply (exact_reads ['('] opened).bind
  intro _ _
  refine .orElse_of_misses ?_ misses.bind
  apply (complete.reads wellFormed nesting gap spelled stops).bind
  intro found agrees
  refine .orElse ((close_reads rfl symbol).bind ?_)
  intro _ _
  exact .pure agrees

theorem agreesAll_isEmpty {items values : List Expr} (agrees : AgreesAll items values) :
    values.isEmpty = items.isEmpty := by
  cases items <;> cases values <;> first | rfl | cases agrees

/-- A comma has to stand behind a single item, and may stand behind several. -/
theorem tupleClose_reads {items : List Expr} {tuple : Expr} {accept : Expr → Prop}
    {last after : List Char} (comma : TrailingComma items.isEmpty true last after)
    (symbol : SymbolAt ")" after rest) (accepted : accept tuple) :
    Reads (if items.isEmpty = true then token "," >>= fun _ => token ")" >>= fun _ => pure tuple
      else optional (token ",") >>= fun _ => token ")" >>= fun _ => pure tuple)
      (afterBlanks last) accept (afterBlanks rest) := by
  have closed : Reads (token ")" >>= fun _ => pure tuple) (afterBlanks after) accept
      (afterBlanks rest) := (close_reads rfl symbol).bind fun _ _ => .pure accepted
  split
  case isTrue single =>
      rw [single] at comma
      rcases comma with ⟨⟨⟩, _⟩ | ⟨_, comma⟩
      exact (comma_reads comma).bind fun _ _ => closed
  case isFalse => exact (trailingComma_reads rfl comma symbol).bind fun _ _ => closed

theorem groupOf_reads_tuple [Advancing inner] (complete : CompleteInside limit inner)
    {offset : Nat} {items : List Expr} (wellFormed : ∀ item ∈ items, item.WellFormed IsReadable)
    (nesting : nestingAll items ≤ limit) (spelled : (Expr.tuple offset items).Spelled text rest) :
    Reads (groupOf inner) text (Agrees (.tuple offset items)) (afterBlanks rest) := by
  rcases spelled with ⟨opened, last, closing, rfl, spelled, comma, symbol⟩
  apply Reads.here.bind
  intro start _
  apply (exact_reads ['('] opened).bind
  intro _ _
  cases items with
  | nil =>
      cases spelled
      rcases comma with ⟨_, rfl⟩ | ⟨⟨⟩, _⟩
      refine .orElse ((token_reads rfl symbol (gap_afterBlanks rest)
        (solid_afterBlanks rest)).bind ?_)
      intro _ _
      exact .pure rfl
  | cons item items =>
      have comma : TrailingComma items.isEmpty true last closing := by
        cases items <;> exact comma
      have misses : Misses (token ")") _ := close_misses_at_items wellFormed rfl spelled
      have optionalComma : TrailingComma false true last closing :=
        comma.imp (fun ⟨_, same⟩ => ⟨rfl, same⟩) id
      rcases items_reads complete wellFormed nesting spelled ⟨rfl, closing, optionalComma, symbol⟩
        with ⟨stop, reads, spelledTail, readsTail⟩
      -- Behind the first item there is a comma in any case, so that no single expression in
      -- parentheses is read.
      have noGroup : Misses (token ")") (afterBlanks stop) := by
        have tail := listedTail_of_spelledTail spelledTail
        rcases end_or_comma_of_tail tail comma with ⟨rfl, ⟨⟩, _⟩ | ⟨behind, commaAt⟩
        exact close_misses_at_comma rfl (symbolAt_afterBlanks rfl commaAt)
      refine .orElse_of_misses ?_ misses.bind
      apply reads.bind
      intro value agrees
      refine .orElse_of_misses ?_ noGroup.bind
      apply readsTail.bind
      intro values agreesAll
      rw [← agreesAll_isEmpty agreesAll] at comma
      exact tupleClose_reads comma symbol (agreesAll_cons agrees agreesAll)

end Templating.Grammar

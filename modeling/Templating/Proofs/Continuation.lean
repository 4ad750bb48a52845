import Templating.Proofs.ExpressionStop
import Templating.Proofs.NameEnd
import Templating.Proofs.Relocation

/-! # What goes on with an expression

A text goes on with an expression that a name has been read of if an attribute, an item, a call, an
error mark, a filter, an operator with its operand, a range mark or a further name stands there.
These are all the ways: behind a name where none of them stands, the name is the expression. -/

namespace Templating

namespace Grammar

open Text Templating.Expr

variable {α : Type} {rule : Grammar α} {cursor later : Cursor} {text rest : List Char}

/-! ## Rules that miss wherever the text stands -/

/-- Whether the rule matches depends on the text alone. -/
class Placeless (rule : Grammar α) : Prop where
  misses {cursor : Cursor} (missed : rule cursor = .noMatch) : Misses rule cursor.rest

theorem Placeless.of_moves {value : Nat → α → α}
    (moves : ∀ count, Moves count (value count) rule rule) : Placeless rule where
  misses {cursor} missed offset := by
    have same (count : Nat) :
        rule ⟨count, cursor.rest⟩ = (rule ⟨0, cursor.rest⟩).moved (value count) count :=
      moves count ⟨0, cursor.rest⟩
    have missed₀ : rule ⟨0, cursor.rest⟩ = .noMatch := by
      have moved := (same cursor.offset).symm.trans missed
      cases found : rule ⟨0, cursor.rest⟩ with
      | noMatch => rfl
      | matched | failed =>
          rw [found] at moved
          cases moved
    rw [same offset, missed₀]
    rfl

instance [Still rule] : Placeless rule :=
  .of_moves fun count => (Moves.still rule : Moves count id rule rule)

theorem misses_iff (rule : Grammar α) [Placeless rule] :
    rule cursor = .noMatch ↔ Misses rule cursor.rest :=
  ⟨Placeless.misses, fun misses => misses.eq_noMatch⟩

/-- Blanks in front of a rule that passes over them do not tell whether it matches. -/
theorem misses_afterBlanks_iff (rule : Grammar α) [Skipping rule] [Placeless rule] :
    Misses rule (afterBlanks text) ↔ Misses rule text := by
  have same (offset : Nat) : rule (Cursor.mk offset text).skipSpaces = rule ⟨offset, text⟩ :=
    apply_skipSpaces rule ⟨offset, text⟩
  have rest (offset : Nat) : (Cursor.mk offset text).skipSpaces.rest = afterBlanks text :=
    skipSpaces_rest ⟨offset, text⟩
  constructor
  · intro misses offset
    rw [← same offset]
    exact (misses_iff rule).mpr ((rest offset).symm ▸ misses)
  · intro misses
    rw [← rest 0]
    exact Placeless.misses ((same 0).trans (misses 0))

theorem misses_iff_of_gap (rule : Grammar α) [Skipping rule] [Placeless rule]
    (gap : Gap text rest) : Misses rule text ↔ Misses rule rest := by
  rw [← misses_afterBlanks_iff, ← gap.afterBlanks_eq_afterBlanks, misses_afterBlanks_iff]

/-! ## What goes on with an expression -/

/-- The symbol stands in front of a name. -/
def NamedAt (symbol : String) (text : List Char) : Prop :=
  ∃ behind start name rest, SymbolAt symbol text behind ∧ Gap behind start ∧ NameAt name start rest

/-- An expression in square brackets. -/
def itemOf (inner : Grammar Expr) : Grammar Expr := do
  token "["
  let key ← inner
  token "]"
  return key

/-- An expression that a name has been read of goes on with the text. Brackets go on with it if
they are read, and also if they are nested too deeply to be. -/
inductive GoesOn (inner : Grammar Expr) (text : List Char) : Prop
  | segment : NamedAt "::" text → GoesOn inner text
  | member : NamedAt "." text → GoesOn inner text
  | filter : NamedAt "|" text → GoesOn inner text
  | attempt {rest : List Char} : SymbolAt "?" text rest → GoesOn inner text
  | range {kind : RangeKind} {rest : List Char} : SymbolAt kind.symbol text rest → GoesOn inner text
  | item : ¬ Misses (itemOf inner) text → GoesOn inner text
  | call : ¬ Misses (argumentsOf inner) text → GoesOn inner text
  | operation {op : BinaryOp} {behind : List Char} :
      OperatorAt op text behind → ¬ Misses (unaryOf inner) behind → GoesOn inner text

/-! ## Names behind symbols -/

theorem Reads.not_misses {accept : α → Prop} (reads : Reads rule text accept rest) :
    ¬ Misses rule text := by
  intro misses
  rcases reads 0 with ⟨value, offset, matched, _⟩
  cases matched.symm.trans (misses 0)

theorem misses_name_iff :
    Misses name text ↔ ∀ value rest, ¬ NameAt value text rest := by
  constructor
  · intro misses value rest named
    exact (name_reads named).not_misses misses
  · intro unnamed offset
    rcases Quiet.cases name ⟨offset, text⟩ with missed | ⟨value, later, matched⟩
    · exact missed
    · exact absurd (name_yields matched) (unnamed value later.rest)

/-- A rule behind a symbol does not match if and only if it does not match behind the blanks that
the symbol leaves. -/
theorem token_bind_eq_noMatch {symbol : String} (isSymbol : isSymbol symbol = true)
    [Placeless rule] :
    (token symbol >>= fun _ => rule) cursor = .noMatch ↔
      ∀ behind, SymbolAt symbol cursor.rest behind → Misses rule (afterBlanks behind) := by
  constructor
  · intro missed behind spelled
    rcases token_reads isSymbol spelled (gap_afterBlanks behind) (solid_afterBlanks behind)
      cursor.offset with ⟨_, offset, matched, _⟩
    rw [bind_of_matched matched] at missed
    exact Placeless.misses missed
  · intro each
    rcases Quiet.cases (token symbol) cursor with missed | ⟨_, later, matched⟩
    · exact bind_of_noMatch missed
    · rcases token_yields matched with ⟨behind, spelled, gap, solid⟩
      have misses := each behind spelled
      rw [gap.afterBlanks_eq solid] at misses
      rw [bind_of_matched matched, misses.eq_noMatch]

/-- Behind a symbol a rule that begins with a name does not match if and only if no name stands
there. -/
theorem token_bind_name_eq_noMatch {symbol : String} (isSymbol : isSymbol symbol = true)
    [Placeless rule] (named : ∀ text, Solid text → (Misses rule text ↔ Misses name text)) :
    (token symbol >>= fun _ => rule) cursor = .noMatch ↔ ¬ NamedAt symbol cursor.rest := by
  rw [token_bind_eq_noMatch isSymbol]
  constructor
  · rintro each ⟨behind, start, value, rest, spelled, gap, nameAt⟩
    have misses := (named _ (solid_afterBlanks behind)).mp (each behind spelled)
    rw [gap.afterBlanks_eq nameAt.solid] at misses
    exact misses_name_iff.mp misses value rest nameAt
  · intro unnamed behind spelled
    have noName : Misses name (afterBlanks behind) := misses_name_iff.mpr fun value rest nameAt =>
      unnamed ⟨behind, _, value, rest, spelled, gap_afterBlanks behind, nameAt⟩
    exact (named _ (solid_afterBlanks behind)).mpr noName

theorem misses_nameToken_iff (solid : Solid text) : Misses nameToken text ↔ Misses name text := by
  constructor
  · intro misses
    refine misses_name_iff.mpr fun value rest named => ?_
    have reads := nameToken_reads (.refl text) named (gap_afterBlanks rest) (solid_afterBlanks rest)
    exact reads.not_misses misses
  · intro misses
    rw [← afterBlanks_of_solid solid] at misses
    exact spaced_misses misses

/-- A name behind a bar is a filter. No second bar is a name. -/
theorem misses_filterName_iff (solid : Solid text) :
    Misses (ahead (fun rest => rest.head? != some '|') >>= fun _ => nameToken) text ↔
      Misses name text := by
  rw [← misses_nameToken_iff solid]
  by_cases bar : text.head? = some '|'
  · have missed : Misses (ahead fun rest => rest.head? != some '|') text := fun offset => by
      simp [ahead, bar]
    have noName : Misses nameToken text := by
      apply nameToken_misses
      rw [afterBlanks_of_solid solid, bar]
      rintro _ ⟨⟩
      decide
    exact ⟨fun _ => noName, fun _ => missed.bind⟩
  · have passed (offset : Nat) : ahead (fun rest => rest.head? != some '|') ⟨offset, text⟩ =
        .matched () ⟨offset, text⟩ := by
      simp [ahead, bar]
    exact forall_congr' fun offset => by rw [bind_of_matched (passed offset)]

/-! ## Each way of going on -/

theorem furtherName_eq_noMatch : furtherName cursor = .noMatch ↔ ¬ NamedAt "::" cursor.rest := by
  have shape : furtherName = (token "::" >>= fun _ => name) := rfl
  rw [shape]
  exact token_bind_name_eq_noMatch rfl fun _ _ => .rfl

theorem token_eq_noMatch {symbol : String} (isSymbol : isSymbol symbol = true) :
    token symbol cursor = .noMatch ↔ ∀ rest, ¬ SymbolAt symbol cursor.rest rest := by
  constructor
  · intro missed rest spelled
    exact (token_reads isSymbol spelled (gap_afterBlanks rest) (solid_afterBlanks rest)).ne_noMatch
      missed
  · intro apart
    rcases Quiet.cases (token symbol) cursor with missed | ⟨_, later, matched⟩
    · exact missed
    · rcases token_yields matched with ⟨rest, spelled, _, _⟩
      exact absurd spelled (apart rest)

section

variable (inner : Grammar Expr) (start : Nat) (value : Expr)

theorem postfixStep_eq_noMatch :
    postfixStep inner start value cursor = .noMatch ↔
      ¬ NamedAt "." cursor.rest ∧ itemOf inner cursor = .noMatch ∧
        argumentsOf inner cursor = .noMatch ∧ ∀ rest, ¬ SymbolAt "?" cursor.rest rest := by
  have shape : postfixStep inner start value =
      (((token "." >>= fun _ => nameToken) >>= fun name => pure (.member start value name)) <|>
        (itemOf inner >>= fun key => pure (.item start value key)) <|>
        (argumentsOf inner >>= fun arguments => pure (.call start value arguments)) <|>
        (token "?" >>= fun _ => pure (.attempt start value))) := by
    simp only [postfixStep, itemOf, bind_assoc, pure_bind]
  rw [shape]
  simp only [orElse_eq_noMatch, bind_certain_eq_noMatch]
  rw [token_bind_name_eq_noMatch rfl fun _ => misses_nameToken_iff, token_eq_noMatch rfl]

theorem filterStep_eq_noMatch :
    filterStep inner start value cursor = .noMatch ↔ ¬ NamedAt "|" cursor.rest := by
  have shape : filterStep inner start value =
      ((token "|" >>= fun _ => ahead (fun rest => rest.head? != some '|') >>= fun _ => nameToken) >>=
        fun filter => (argumentsOf inner <|> pure []) >>= fun arguments =>
          pure (.filter start value filter arguments)) := by
    simp only [filterStep, bind_assoc]
  rw [shape, bind_certain_eq_noMatch,
    token_bind_name_eq_noMatch rfl fun _ => misses_filterName_iff]

theorem rangeMark_eq_noMatch :
    rangeMark cursor = .noMatch ↔
      ∀ (kind : RangeKind) rest, ¬ SymbolAt kind.symbol cursor.rest rest := by
  unfold rangeMark
  rw [orElse_eq_noMatch, bind_certain_eq_noMatch, bind_certain_eq_noMatch,
    token_eq_noMatch rfl, token_eq_noMatch rfl]
  constructor
  · rintro ⟨closed, halfOpen⟩ kind
    cases kind with
    | closed => exact closed
    | halfOpen => exact halfOpen
  · exact fun each => ⟨each .closed, each .halfOpen⟩

end

section

variable {inner : Grammar Expr} (moves : ∀ count, MovesExpr count inner)

include moves

theorem placeless_argumentsOf : Placeless (argumentsOf inner) :=
  .of_moves fun count => argumentsOf_moves (moves count)

theorem placeless_itemOf : Placeless (itemOf inner) :=
  .of_moves fun count => .bind (.still (token "[")) fun _ => .bind (moves count) fun _ =>
    .bind (.still (token "]")) fun _ => .pure rfl

theorem placeless_unaryOf : Placeless (unaryOf inner) :=
  .of_moves fun count => unaryOf_moves (moves count)

/-- No layer of operators goes on with an expression if and only if no operand stands behind any
operator. -/
theorem operators_eq_noMatch :
    (∀ operators ∈ BinaryOp.layers, ∀ op behind,
        operatorOf operators cursor = .matched op behind → unaryOf inner behind = .noMatch) ↔
      ∀ op behind, OperatorAt op cursor.rest behind → Misses (unaryOf inner) behind := by
  have placeless := placeless_unaryOf moves
  have skipping : Skipping (unaryOf inner) := inferInstanceAs (Skipping (spaces >>= _))
  constructor
  · intro each op behind spelled
    by_cases follows : OperandFollows behind
    · rcases List.mem_flatten.mp (mem_layers op) with ⟨operators, layer, member⟩
      rcases operatorOf_reads member (layers_apart operators layer) spelled (gap_afterBlanks behind)
        (solid_afterBlanks behind) follows cursor.offset with ⟨_, offset, matched, rfl⟩
      rw [← misses_afterBlanks_iff]
      exact Placeless.misses (each operators layer _ _ matched)
    · refine unaryOf_misses_of_head fun first atHead => Bool.eq_false_iff.mpr fun starts => ?_
      exact follows ⟨_, gap_afterBlanks behind, first, atHead, starts⟩
  · intro each operators _ op behind matched
    rcases operatorOf_yields matched with ⟨_, mark, spelled, gap⟩
    exact ((misses_iff_of_gap (unaryOf inner) gap).mp (each op mark spelled)).eq_noMatch

/-- The rules that are tried behind a name all miss if and only if nothing there goes on with an
expression. -/
theorem not_goesOn_iff {start : Nat} {value : Expr} :
    ¬ GoesOn inner cursor.rest ↔
      furtherName cursor = .noMatch ∧ postfixStep inner start value cursor = .noMatch ∧
        filterStep inner start value cursor = .noMatch ∧
        (∀ operators ∈ BinaryOp.layers, ∀ op behind,
          operatorOf operators cursor = .matched op behind → unaryOf inner behind = .noMatch) ∧
        rangeMark cursor = .noMatch := by
  have placeless := placeless_itemOf moves
  have placeless' := placeless_argumentsOf moves
  rw [furtherName_eq_noMatch, postfixStep_eq_noMatch, filterStep_eq_noMatch,
    operators_eq_noMatch moves, rangeMark_eq_noMatch, misses_iff (itemOf inner),
    misses_iff (argumentsOf inner)]
  constructor
  · intro stops
    have noItem : Misses (itemOf inner) cursor.rest :=
      Classical.byContradiction fun read => stops (.item read)
    have noCall : Misses (argumentsOf inner) cursor.rest :=
      Classical.byContradiction fun read => stops (.call read)
    have noOperator : ∀ op behind, OperatorAt op cursor.rest behind →
        Misses (unaryOf inner) behind := fun op behind spelled =>
      Classical.byContradiction fun operand => stops (.operation spelled operand)
    exact ⟨fun named => stops (.segment named),
      ⟨fun named => stops (.member named), noItem, noCall, fun _ spelled => stops (.attempt spelled)⟩,
      fun named => stops (.filter named), noOperator, fun _ _ spelled => stops (.range spelled)⟩
  · rintro ⟨noName, ⟨noMember, noItem, noCall, noMark⟩, noFilter, noOperator, noRange⟩ goesOn
    cases goesOn with
    | segment named => exact noName named
    | member named => exact noMember named
    | filter named => exact noFilter named
    | attempt spelled => exact noMark _ spelled
    | range spelled => exact noRange _ _ spelled
    | item read => exact read noItem
    | call read => exact read noCall
    | operation spelled operand => exact operand (noOperator _ _ spelled)

/-- A name is all that an expression reads if and only if nothing behind it goes on with it. -/
theorem expressionOf_eq_name_iff [Advancing inner] {place : Nat} {value : String} {middle : Cursor}
    (read : name cursor.skipSpaces = .matched value middle)
    (small : value.toList.any isUppercase = false) (apart : value ≠ "true" ∧ value ≠ "false")
    (more : middle.rest ≠ []) (further : later.rest ≠ []) :
    expressionOf inner cursor = .matched (.var place value) later ↔
      place = cursor.skipSpaces.offset ∧ later = middle.skipSpaces ∧ ¬ GoesOn inner later.rest := by
  rw [expressionOf_eq_name_iff_noMatch inner read small apart more further, not_goesOn_iff moves]

end

end Grammar

end Templating

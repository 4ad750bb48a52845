import Templating.Proofs.ExpressionForm
import Templating.Proofs.Progress

/-! # What may stand around an expression

The first character of an expression tells what kind it is, and what stands behind an
expression must not go on with it. How much that excludes depends on how tightly the expression
binds: behind an operand an operator may stand, behind a name with its arguments a filter. -/

namespace Templating.Grammar

open Text Templating.Expr

variable {inner : Grammar Expr} {text middle next rest : List Char} {first : Char}

/-- A primary expression begins with the character. -/
def startsPrimary (first : Char) : Bool :=
  continuesName first || ['"', '\'', '[', '(', ':'].contains first

/-- An operand begins with the character. -/
def startsOperand (first : Char) : Bool :=
  startsPrimary first || first == '!' || first == '-'

theorem isWord_eq (op : BinaryOp) : op.isWord = op.symbol.toList.all continuesName := by
  cases op <;> decide

theorem mem_layers (op : BinaryOp) : op ∈ BinaryOp.layers.flatten := by
  cases op <;> decide

/-- The lists of operators are the layers from the given one to the tightest. -/
def LayersFrom : Nat → List (List BinaryOp) → Prop
  | layer, [] => layer = 9
  | layer, operators :: tighter =>
      operators ∈ BinaryOp.layers ∧ (∀ op, op ∈ operators ↔ op.layer = layer) ∧
        LayersFrom (layer + 1) tighter

theorem layersFrom_layers : LayersFrom 0 BinaryOp.layers := by
  have layer_iff : ∀ {operators : List BinaryOp} {layer : Nat},
      BinaryOp.layers.flatten.all (fun op => operators.contains op == (op.layer == layer)) = true →
        ∀ op, op ∈ operators ↔ op.layer = layer := by
    intro operators layer all op
    have := List.all_eq_true.mp all op (mem_layers op)
    rw [beq_iff_eq] at this
    rw [← List.contains_iff_mem, this, beq_iff_eq]
  refine ⟨by decide, layer_iff (by decide), by decide, layer_iff (by decide), by decide,
    layer_iff (by decide), by decide, layer_iff (by decide), by decide, layer_iff (by decide),
    by decide, layer_iff (by decide), by decide, layer_iff (by decide), by decide,
    layer_iff (by decide), by decide, layer_iff (by decide), rfl⟩

/-! ## Rules that do not match -/

theorem word_misses_of_head {word : String} (nonempty : word.toList ≠ [])
    (apart : ∀ first ∈ text.head?, word.toList.head? ≠ some first) :
    Misses (Grammar.word word) text := by
  apply word_misses
  rintro rest ⟨rfl, _⟩
  cases shape : word.toList with
  | nil => exact nonempty shape
  | cons first others =>
      apply apart first
      · rw [shape]
        rfl
      · rw [shape]
        rfl

theorem keyword_misses_of_head {word : String} (nonempty : word.toList ≠ [])
    (apart : ∀ first ∈ (afterBlanks text).head?, word.toList.head? ≠ some first) :
    Misses (keyword word) text :=
  spaced_misses (word_misses_of_head nonempty apart)

theorem boolean_misses (apart : ∀ first ∈ text.head?, first ≠ 't' ∧ first ≠ 'f') :
    Misses boolean text := by
  apply Misses.orElse
  · apply word_misses_of_head (by decide)
    rintro first atHead ⟨⟩
    exact (apart 't' atHead).1 rfl
  · apply word_misses_of_head (by decide)
    rintro first atHead ⟨⟩
    exact (apart 'f' atHead).2 rfl

theorem exact_misses_of_head {expected : Char} {others : List Char}
    (apart : expected ∉ text.head?) : Misses (exact (expected :: others)) text := by
  apply exact_misses
  rintro ⟨rest, rfl⟩
  exact apart rfl

theorem token_misses_at {symbol : String} (nonempty : symbol.toList ≠ [])
    (atHead : (afterBlanks text).head? = some first) (apart : symbol.toList.head? ≠ some first) :
    Misses (token symbol) text := by
  apply token_misses_of_head _ nonempty
  intro first' atHead'
  rw [Option.mem_def, atHead] at atHead'
  cases atHead'
  exact apart

theorem argumentsOf_misses (refused : '(' ∉ (afterBlanks text).head?) :
    Misses (argumentsOf inner) text := by
  apply Misses.bind
  apply token_misses_of_head _ (by decide)
  rintro _ atHead ⟨⟩
  exact refused atHead

theorem primaryOf_misses (refused : ∀ first ∈ text.head?, startsPrimary first = false)
    (solid : Solid text) : Misses (primaryOf inner) text := by
  have small : ∀ first ∈ text.head?, continuesName first = false := fun first atHead =>
    (Bool.or_eq_false_iff.mp (refused first atHead)).1
  have apart : ∀ first, startsPrimary first = true → first ∉ text.head? := by
    intro first starts atHead
    rw [refused first atHead] at starts
    cases starts
  have noName : ∀ first ∈ text.head?, startsName first = false := fun first atHead =>
    (Bool.or_eq_false_iff.mp (small first atHead)).1
  apply Reads.here.bind_misses
  intro start _
  refine .orElse (.bind (boolean_misses ?_)) (.orElse (.bind (number_misses ?_)) (.orElse
    (.bind (between_misses (apart _ (by decide)))) (.orElse
    (.bind (between_misses (apart _ (by decide)))) (.orElse (.bind (path_misses solid ?_)) (.orElse
    ?_ (.orElse (.bind (name_misses noName)) ?_))))))
  · intro first atHead
    constructor
    · rintro rfl
      exact apart _ (by decide) atHead
    · rintro rfl
      exact apart _ (by decide) atHead
  · exact fun first atHead => (Bool.or_eq_false_iff.mp (small first atHead)).2
  · refine fun first atHead => ⟨noName first atHead, ?_⟩
    rintro rfl
    exact apart _ (by decide) atHead
  · exact Reads.here.bind_misses fun _ _ => .bind (exact_misses_of_head (apart _ (by decide)))
  · exact Reads.here.bind_misses fun _ _ => .bind (exact_misses_of_head (apart _ (by decide)))

theorem filteredOf_misses (refused : ∀ first ∈ (afterBlanks text).head?,
    startsPrimary first = false) : Misses (filteredOf inner) text := by
  apply (nextOffset_reads text).bind_misses
  intro _ _
  apply Misses.bind
  apply (spaces_reads (gap_afterBlanks text) (solid_afterBlanks text)).bind_misses
  intro _ _
  apply Reads.here.bind_misses
  intro _ _
  exact (primaryOf_misses refused (solid_afterBlanks text)).bind

theorem unaryMark_reads (op : UnaryOp) (rest : List Char) :
    Reads unaryMark (op.symbol.toList ++ rest) (· = op) rest := by
  cases op with
  | not =>
      refine .orElse ?_
      apply (exact_reads ['!'] rest).bind
      intro _ _
      exact .pure rfl
  | negate =>
      have notNegated : '!' ∉ ('-' :: rest).head? := by simp
      refine .orElse_of_misses ?_ (exact_misses_of_head notNegated).bind
      apply (exact_reads ['-'] rest).bind
      intro _ _
      exact .pure rfl

theorem unaryMark_reads_or_misses (text : List Char) :
    (∃ op behind, text = op.symbol.toList ++ behind ∧ Reads unaryMark text (· = op) behind) ∨
      '!' ∉ text.head? ∧ '-' ∉ text.head? ∧ Misses unaryMark text := by
  by_cases negated : '!' ∈ text.head?
  case pos =>
      rcases List.head?_eq_some_iff.mp negated with ⟨behind, rfl⟩
      exact .inl ⟨.not, behind, rfl, unaryMark_reads .not behind⟩
  by_cases minus : '-' ∈ text.head?
  case pos =>
      rcases List.head?_eq_some_iff.mp minus with ⟨behind, rfl⟩
      exact .inl ⟨.negate, behind, rfl, unaryMark_reads .negate behind⟩
  case neg =>
      exact .inr ⟨negated, minus, .orElse (exact_misses_of_head negated).bind
        (exact_misses_of_head minus).bind⟩

/-- No operand stands at the text, nor behind an operator there. -/
theorem unaryOf_misses (refused : ∀ first ∈ (afterBlanks text).head?, startsPrimary first = false)
    (behind : ∀ (op : UnaryOp) behind, afterBlanks text = op.symbol.toList ++ behind →
      ∀ first ∈ (afterBlanks behind).head?, startsPrimary first = false) :
    Misses (unaryOf inner) text := by
  rw [unaryOf_eq]
  apply (spaces_reads (gap_afterBlanks text) (solid_afterBlanks text)).bind_misses
  intro _ _
  apply Reads.here.bind_misses
  intro _ _
  rcases unaryMark_reads_or_misses (afterBlanks text) with ⟨op, after, shape, reads⟩ | ⟨_, _, misses⟩
  · apply reads.optional.bind_misses
    intro _ _
    exact (filteredOf_misses (behind op after shape)).bind
  · apply misses.optional.bind_misses
    intro _ _
    apply (filteredOf_misses _).bind
    rwa [afterBlanks_of_solid (solid_afterBlanks text)]

theorem unaryOf_misses_of_head
    (refused : ∀ first ∈ (afterBlanks text).head?, startsOperand first = false) :
    Misses (unaryOf inner) text := by
  apply unaryOf_misses
  · intro first atHead
    have := refused first atHead
    simp only [startsOperand, Bool.or_eq_false_iff] at this
    exact this.1.1
  · intro op behind shape
    have := refused (op.symbol.toList.headD ' ') (by rw [shape]; cases op <;> rfl)
    cases op <;> cases this

theorem binaryOf_misses {operand : Grammar Expr} (misses : Misses operand text)
    (layers : List (List BinaryOp)) : Misses (binaryOf operand layers) text := by
  induction layers with
  | nil => exact misses
  | cons operators tighter induction =>
      apply (nextOffset_reads text).bind_misses
      intro _ _
      exact induction.bind

theorem operator_misses {op : BinaryOp} (apart : ¬ op.symbol.toList <+: afterBlanks text) :
    Misses (operator op) text := by
  unfold operator
  split
  · apply Misses.bind
    apply keyword_misses
    rintro rest ⟨shape, _⟩
    exact apart ⟨rest, shape.symm⟩
  · exact (token_misses apart).bind

theorem operator_reads {op : BinaryOp} (spelled : OperatorAt op text middle)
    (gap : Gap middle rest) (solid : Solid rest) : Reads (operator op) text (· = op) rest := by
  rcases spelled with ⟨symbol, ends⟩
  have isSymbol : isSymbol op.symbol = true := by cases op <;> rfl
  unfold operator
  split
  case isTrue isWord =>
      rw [isWord_eq] at isWord
      apply (keyword_reads symbol (solid_symbol isSymbol middle) ⟨rfl, ends isWord⟩ gap solid).bind
      intro _ _
      exact .pure rfl
  case isFalse =>
      apply (token_reads isSymbol symbol gap solid).bind
      intro _ _
      exact .pure rfl

theorem postfixStep_misses {start : Nat} {value : Expr}
    (refused : ∀ first ∈ (afterBlanks text).head?, first ∉ ['.', '[', '(', '?']) :
    Misses (postfixStep inner start value) text := by
  have apart : ∀ {symbol : String}, symbol.toList ≠ [] →
      (∀ first, symbol.toList.head? = some first → first ∈ ['.', '[', '(', '?']) →
        Misses (token symbol) text := by
    intro symbol nonempty among
    apply token_misses_of_head _ nonempty
    exact fun first atHead same => refused first atHead (among first same)
  refine .orElse (apart (by decide) (by rintro _ ⟨⟩; decide)).bind (.orElse
    (apart (by decide) (by rintro _ ⟨⟩; decide)).bind (.orElse (argumentsOf_misses ?_).bind
    (apart (by decide) (by rintro _ ⟨⟩; decide)).bind))
  exact fun atHead => refused '(' atHead (by decide)

theorem filterStep_misses {start : Nat} {value : Expr}
    (refused : '|' ∉ (afterBlanks text).head?) :
    Misses (filterStep inner start value) text := by
  apply Misses.bind
  apply token_misses_of_head _ (by decide)
  rintro _ atHead ⟨⟩
  exact refused atHead

theorem rangeMark_misses (refused : '.' ∉ (afterBlanks text).head?) : Misses rangeMark text := by
  have apart : ∀ kind : RangeKind, Misses (token kind.symbol) text := by
    intro kind
    apply token_misses_of_head
    · intro first atHead same
      have : first = '.' := by cases kind <;> cases same <;> rfl
      exact refused (this ▸ atHead)
    · cases kind <;> decide
  exact .orElse (apart .closed).bind (apart .halfOpen).bind

end Templating.Grammar

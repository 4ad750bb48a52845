import Templating.Proofs.ExpressionFollow

/-! # How expressions begin

The first character of an expression tells what kind it is. Nothing but an operand begins like
one, except that a range may begin with its mark. -/

namespace Templating.Grammar

open Text Templating.Expr

variable {text rest : List Char} {first : Char}

theorem startsOperand_of_startsPrimary (starts : startsPrimary first = true) :
    startsOperand first = true := by
  simp [startsOperand, starts]

theorem startsPrimary_of_startsName (starts : startsName first = true) :
    startsPrimary first = true := by
  simp [startsPrimary, continuesName_of_startsName starts]

theorem startsPrimary_of_isDigit (digit : isDigit first = true) : startsPrimary first = true := by
  simp [startsPrimary, continuesName, digit]

theorem number_head {number : List Char} (isNumber : IsNumber number) :
    ∃ first others, number = first :: others ∧ isDigit first = true := by
  rcases isNumber with digits | ⟨whole, fraction, digits, _, rfl⟩
  · rcases isDigits_cons digits with ⟨first, others, shape, digit, _⟩
    exact ⟨first, others, shape, digit⟩
  · rcases isDigits_cons digits with ⟨first, others, rfl, digit, _⟩
    exact ⟨first, _, rfl, digit⟩

/-- The kind of literals that begin with the character. -/
def literalKindOf (first : Char) : Option LiteralKind :=
  if isDigit first = true then some .number
  else if first = 't' ∨ first = 'f' then some .boolean
  else if first = '"' then some .string
  else if first = '\'' then some .character
  else none

theorem literal_begins {kind : LiteralKind} {value : String} (lexical : kind.Lexical value)
    (spelled : kind.LiteralAt value text rest) :
    ∃ first, text.head? = some first ∧ literalKindOf first = some kind := by
  rcases spelled with ⟨rfl, _⟩
  cases kind with
  | boolean =>
      rcases lexical with rfl | rfl
      · exact ⟨'t', rfl, rfl⟩
      · exact ⟨'f', rfl, rfl⟩
  | number =>
      rcases number_head lexical with ⟨first, others, shape, digit⟩
      exact ⟨first, by simp [LiteralKind.written, shape], if_pos digit⟩
  | string => exact ⟨'"', rfl, rfl⟩
  | character => exact ⟨'\'', rfl, rfl⟩

theorem startsPrimary_of_literalKindOf {kind : LiteralKind}
    (begins : literalKindOf first = some kind) : startsPrimary first = true := by
  unfold literalKindOf at begins
  split at begins
  case isTrue digit => exact startsPrimary_of_isDigit digit
  split at begins
  case isTrue either => rcases either with rfl | rfl <;> decide
  split at begins
  case isTrue quote =>
      rw [quote]
      decide
  split at begins
  case isTrue quote =>
      rw [quote]
      decide
  case isFalse => cases begins

theorem literal_head {kind : LiteralKind} {value : String} (lexical : kind.Lexical value)
    (spelled : kind.LiteralAt value text rest) :
    ∃ first, text.head? = some first ∧ startsPrimary first = true := by
  rcases literal_begins lexical spelled with ⟨first, atHead, begins⟩
  exact ⟨first, atHead, startsPrimary_of_literalKindOf begins⟩

theorem literal_misses_of_head {kind : LiteralKind}
    (refused : ∀ first ∈ text.head?, literalKindOf first ≠ some kind) :
    Misses (literal kind) text := by
  cases kind with
  | boolean =>
      apply boolean_misses
      intro first atHead
      constructor <;> (rintro rfl; exact refused _ atHead rfl)
  | number =>
      apply number_misses
      intro first atHead
      cases digit : isDigit first with
      | false => rfl
      | true => exact absurd (if_pos digit) (refused first atHead)
  | string => exact between_misses fun atHead => refused _ atHead rfl
  | character => exact between_misses fun atHead => refused _ atHead rfl

/-- Where a literal is written, none of another kind is read. -/
theorem literal_misses_at_literal {kind other : LiteralKind} {value : String}
    (lexical : kind.Lexical value) (spelled : kind.LiteralAt value text rest)
    (apart : other ≠ kind) : Misses (literal other) text := by
  rcases literal_begins lexical spelled with ⟨first, atHead, begins⟩
  apply literal_misses_of_head
  rw [atHead]
  rintro _ ⟨⟩ begins'
  exact apart (Option.some.inj (begins'.symm.trans begins))

theorem path_head {segments : List String} (qualified : IsQualified segments)
    (spelled : PathAt segments text rest) :
    ∃ first, text.head? = some first ∧ (startsName first = true ∨ first = ':') := by
  cases segments with
  | nil => cases qualified
  | cons segment others =>
      rcases spelled with ⟨solid, middle, begun, spelled⟩
      rcases qualified with ⟨⟨rfl, nonempty⟩ | ⟨named, _⟩, _⟩
      · cases others with
        | nil => exact absurd rfl nonempty
        | cons name others =>
            rcases spelled with ⟨separated, _, _, symbol, _⟩
            have same : text = middle := begun.1
            rw [← same] at symbol
            rw [symbol.eq_of_solid solid]
            exact ⟨':', rfl, .inr rfl⟩
      · have nameAt : NameAt segment text middle := ⟨named, begun⟩
        rcases nameAt.head? with ⟨first, atHead, starts⟩
        exact ⟨first, atHead, .inl starts⟩

/-- The text begins like an expression of the rank. Only a range without a start does not begin
like an operand. -/
def BeginsAs (rank : Nat) (text : List Char) : Prop :=
  ∃ first, text.head? = some first ∧ (12 ≤ rank → startsPrimary first = true) ∧
    (2 ≤ rank → startsOperand first = true) ∧ (startsOperand first = true ∨ first = '.')

namespace BeginsAs

variable {rank tighter : Nat}

theorem of_startsPrimary (begins : ∃ first, text.head? = some first ∧ startsPrimary first = true) :
    BeginsAs rank text := by
  rcases begins with ⟨first, atHead, starts⟩
  have operand := startsOperand_of_startsPrimary starts
  exact ⟨first, atHead, fun _ => starts, fun _ => operand, .inl operand⟩

/-- Behind an operand that binds this tightly anything may follow. -/
theorem of_primary (begins : BeginsAs tighter text) (tight : 12 ≤ tighter) :
    BeginsAs rank text := by
  rcases begins with ⟨first, atHead, starts, _⟩
  exact .of_startsPrimary ⟨first, atHead, starts tight⟩

/-- What binds more loosely than a unary operator begins like its left operand. -/
theorem of_operand (begins : BeginsAs tighter text) (operand : 2 ≤ tighter) (loose : rank < 12) :
    BeginsAs rank text := by
  rcases begins with ⟨first, atHead, _, starts, either⟩
  exact ⟨first, atHead, fun tight => absurd tight (by omega), fun _ => starts operand, either⟩

theorem of_point (atHead : text.head? = some '.') (low : rank ≤ 1) : BeginsAs rank text :=
  ⟨'.', atHead, fun tight => absurd tight (by omega), fun operand => absurd operand (by omega),
    .inr rfl⟩

end BeginsAs

theorem rank_range_le {offset : Nat} {kind : RangeKind} {start stop : Option Expr} :
    (Expr.range offset kind start stop).rank ≤ 1 := by
  cases stop <;> simp [Expr.rank]

theorem spelled_head {expression : Expr} (wellFormed : expression.WellFormed IsReadable)
    (spelled : expression.Spelled text rest) : BeginsAs expression.rank text := by
  induction wellFormed generalizing text rest with
  | literal lexical => exact .of_startsPrimary (literal_head lexical spelled)
  | var isName =>
      rcases NameAt.head? spelled with ⟨first, atHead, starts⟩
      exact .of_startsPrimary ⟨first, atHead, startsPrimary_of_startsName starts⟩
  | path readable =>
      rcases path_head readable.1 spelled with ⟨first, atHead, starts | rfl⟩
      · exact .of_startsPrimary ⟨first, atHead, startsPrimary_of_startsName starts⟩
      · exact .of_startsPrimary ⟨':', atHead, by decide⟩
  | list =>
      rcases spelled with ⟨_, _, _, rfl, _⟩
      exact .of_startsPrimary ⟨'[', rfl, by decide⟩
  | tuple =>
      rcases spelled with ⟨_, _, _, rfl, _⟩
      exact .of_startsPrimary ⟨'(', rfl, by decide⟩
  | group =>
      rcases spelled with ⟨_, _, _, rfl, _⟩
      exact .of_startsPrimary ⟨'(', rfl, by decide⟩
  | member _ rank _ induction =>
      rcases spelled with ⟨_, _, _, spelled, _⟩
      exact (induction spelled).of_primary (by omega)
  | item _ rank _ induction =>
      rcases spelled with ⟨_, _, _, _, spelled, _⟩
      exact (induction spelled).of_primary (by omega)
  | call _ rank _ induction =>
      rcases spelled with ⟨_, _, _, spelled, _⟩
      exact (induction spelled).of_primary (by omega)
  | attempt _ rank induction =>
      rcases spelled with ⟨_, spelled, _⟩
      exact (induction spelled).of_primary (by omega)
  | filter _ rank _ _ induction =>
      rcases spelled with ⟨_, _, _, _, spelled, _⟩
      exact (induction spelled).of_primary rank
  | @unary _ op =>
      rcases spelled with ⟨_, _, rfl, _⟩
      cases op with
      | not => exact ⟨'!', rfl, by simp [Expr.rank], fun _ => rfl, .inl rfl⟩
      | negate => exact ⟨'-', rfl, by simp [Expr.rank], fun _ => rfl, .inl rfl⟩
  | @binary _ op _ _ _ rank _ _ induction _ =>
      rcases spelled with ⟨_, _, _, spelled, _⟩
      have layer : op.layer ≤ 8 := by cases op <;> decide
      exact (induction spelled).of_operand (by omega) (by rw [Expr.rank]; omega)
  | @range _ kind begun stop _ rank _ _ induction _ =>
      rcases spelled with ⟨last, mark, spelled, marked, _⟩
      cases begun with
      | none =>
          rcases spelled with ⟨solid, rfl⟩
          have atHead : text.head? = some '.' := by
            rw [marked.1.eq_of_solid solid]
            cases kind <;> rfl
          exact .of_point atHead rank_range_le
      | some value =>
          exact (induction value rfl spelled).of_operand (rank value rfl)
            (Nat.lt_of_le_of_lt rank_range_le (by decide))

theorem isSpace_eq_false_of_startsOperand (starts : startsOperand first = true) :
    isSpace first = false := by
  cases space : isSpace first with
  | false => rfl
  | true =>
      simp only [isSpace, Bool.or_eq_true, beq_iff_eq] at space
      rcases space with ((rfl | rfl) | rfl) | rfl <;> cases starts

theorem spelled_solid {expression : Expr} (wellFormed : expression.WellFormed IsReadable)
    (spelled : expression.Spelled text rest) : Solid text := by
  rcases spelled_head wellFormed spelled with ⟨first, atHead, _, _, either⟩
  intro first' atHead'
  rw [Option.mem_def, atHead] at atHead'
  cases atHead'
  rcases either with starts | rfl
  · exact isSpace_eq_false_of_startsOperand starts
  · decide

end Templating.Grammar

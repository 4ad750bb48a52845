import Templating.Proofs.ExpressionFollow
import Templating.Proofs.PatternForm

/-! # Where lists end

Commas separate the items of a list. Behind the last one a bracket closes, or a comma stands that no
item follows. -/

namespace Templating.Grammar

open Text
open Templating.Expr (TrailingComma SpelledTail)

variable {α : Type} {text middle last after rest : List Char} {required permitted : Bool}

theorem afterBlanks_afterBlanks (text : List Char) :
    afterBlanks (afterBlanks text) = afterBlanks text :=
  afterBlanks_of_solid (solid_afterBlanks text)

theorem symbol_head {symbol : String} (isSymbol : isSymbol symbol = true)
    (spelled : SymbolAt symbol text rest) : (afterBlanks text).head? = symbol.toList.head? := by
  rw [spelled.afterBlanks_eq (solid_symbol isSymbol rest)]
  cases shape : symbol.toList with
  | nil => simp [Text.isSymbol, shape] at isSymbol
  | cons first others => rfl

theorem token_misses_at_symbol {symbol other : String} (isSymbol : isSymbol symbol = true)
    (spelled : SymbolAt symbol text rest) (nonempty : other.toList ≠ [])
    (apart : other.toList.head? ≠ symbol.toList.head?) : Misses (token other) text := by
  apply token_misses_of_head _ nonempty
  rw [symbol_head isSymbol spelled]
  rintro first atHead same
  exact apart (same.trans atHead.symm)

/-- A symbol that is read behind blanks is read from the blanks on as well. -/
theorem symbolAt_afterBlanks {symbol : String} (isSymbol : isSymbol symbol = true)
    (spelled : SymbolAt symbol text rest) : SymbolAt symbol (afterBlanks text) rest :=
  (gap_afterBlanks text).of_gap spelled (solid_symbol isSymbol rest)

theorem comma_reads (comma : SymbolAt "," last after) :
    Reads (token ",") (afterBlanks last) (fun _ => True) (afterBlanks after) :=
  token_reads rfl (symbolAt_afterBlanks rfl comma) (gap_afterBlanks after) (solid_afterBlanks after)

/-! ## Brackets that close -/

section

variable {close : String} (closes : [")", "]", "\x7d"].contains close = true)

include closes

theorem close_cases : close = ")" ∨ close = "]" ∨ close = "\x7d" := by
  simpa using closes

theorem isSymbol_close : isSymbol close = true := by
  rcases close_cases closes with rfl | rfl | rfl <;> rfl

theorem close_reads (symbol : SymbolAt close text rest) :
    Reads (token close) (afterBlanks text) (fun _ => True) (afterBlanks rest) :=
  token_reads (isSymbol_close closes) (symbolAt_afterBlanks (isSymbol_close closes) symbol)
    (gap_afterBlanks rest) (solid_afterBlanks rest)

theorem comma_misses_at_close (symbol : SymbolAt close text rest) : Misses (token ",") text := by
  apply token_misses_at_symbol (isSymbol_close closes) symbol (by decide)
  rcases close_cases closes with rfl | rfl | rfl <;> decide

theorem close_misses_at_comma (comma : SymbolAt "," text rest) : Misses (token close) text := by
  rcases close_cases closes with rfl | rfl | rfl
  all_goals exact token_misses_at_symbol rfl comma (by decide) (by decide)

/-- A comma that may stand at the end of a list is read. -/
theorem trailingComma_reads (comma : TrailingComma required permitted last after)
    (symbol : SymbolAt close after rest) :
    Reads (optional (token ",")) (afterBlanks last) (fun _ => True) (afterBlanks after) := by
  rcases comma with ⟨_, rfl⟩ | ⟨_, comma⟩
  · have misses : Misses (token ",") (afterBlanks last) :=
      comma_misses_at_close closes (symbolAt_afterBlanks (isSymbol_close closes) symbol)
    exact misses.optional.mono fun _ _ => trivial
  · exact (comma_reads comma).optional.mono fun _ _ => trivial

/-- At the end of a list no further item stands, though a comma may. -/
theorem further_misses {rule : Grammar α} (comma : TrailingComma required permitted last after)
    (symbol : SymbolAt close after rest) (missed : Misses rule (afterBlanks after)) :
    Misses (token "," >>= fun _ => rule) (afterBlanks last) := by
  rcases comma with ⟨_, rfl⟩ | ⟨_, comma⟩
  · have misses : Misses (token ",") (afterBlanks last) :=
      comma_misses_at_close closes (symbolAt_afterBlanks (isSymbol_close closes) symbol)
    exact misses.bind
  · exact (comma_reads comma).bind_misses fun _ _ => missed

end

/-! ## Behind an item -/

theorem listedTail_of_spelledTail {items : List Expr} (tail : SpelledTail items text rest) :
    ListedTail Expr.Spelled items text rest := by
  induction items generalizing text with
  | nil => exact tail
  | cons item items induction =>
      rcases tail with ⟨comma, start, last, symbol, gap, spelled, tail⟩
      exact ⟨comma, start, last, symbol, gap, spelled, induction tail⟩

/-- The end of an item is the end of its list, or a comma stands there. -/
theorem end_or_comma_of_tail {spelled : α → (text rest : List Char) → Prop} {items : List α}
    (tail : ListedTail spelled items middle last)
    (comma : TrailingComma required permitted last after) :
    items = [] ∧ required = false ∧ middle = after ∨ ∃ behind, SymbolAt "," middle behind := by
  cases items with
  | nil =>
      cases tail
      rcases comma with ⟨optional, rfl⟩ | ⟨_, comma⟩
      · exact .inl ⟨rfl, optional, rfl⟩
      · exact .inr ⟨after, comma⟩
  | cons =>
      rcases tail with ⟨behind, _, _, comma, _⟩
      exact .inr ⟨behind, comma⟩

end Templating.Grammar

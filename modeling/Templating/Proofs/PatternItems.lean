import Templating.Proofs.ExpressionSteps
import Templating.Proofs.PatternForm
import Templating.Proofs.Progress

/-! # Entries in brackets

The items of a tuple or payload and the fields of a payload are read one by one. Behind each of
them stands a comma or the bracket that closes. -/

namespace Templating.Grammar

open Text Templating.Pattern
open Templating.Expr (TrailingComma)

variable {α : Type} {brackets offset : Nat} {rule : Grammar Pattern} {pattern : Pattern}
  {text middle start next rest : List Char} {first : Char}

/-- No pattern goes on with the text. The word before a payload is told by its first letter. -/
def EndsPattern (text : List Char) : Prop :=
  ∀ first ∈ (afterBlanks text).head?, [':', '(', '\x7b', 'w'].contains first = false

/-- A comma or a closing bracket follows, behind blanks at most. -/
def EndsEntry (text : List Char) : Prop :=
  ∃ first, (afterBlanks text).head? = some first ∧ [',', ')', '\x7d'].contains first = true

theorem EndsEntry.endsPattern (ends : EndsEntry text) : EndsPattern text := by
  rcases ends with ⟨first, atHead, among⟩
  intro first' atHead'
  rw [Option.mem_def, atHead] at atHead'
  cases atHead'
  have cases : first = ',' ∨ first = ')' ∨ first = '\x7d' := by simpa using among
  rcases cases with rfl | rfl | rfl <;> decide

theorem endsEntry_of_symbol {symbol : String} (among : [",", ")", "\x7d"].contains symbol = true)
    (spelled : SymbolAt symbol text rest) : EndsEntry text := by
  have cases : symbol = "," ∨ symbol = ")" ∨ symbol = "\x7d" := by simpa using among
  rcases cases with rfl | rfl | rfl
  · exact ⟨',', by rw [spelled.afterBlanks_eq (solid_symbol rfl rest)]; rfl, by decide⟩
  · exact ⟨')', by rw [spelled.afterBlanks_eq (solid_symbol rfl rest)]; rfl, by decide⟩
  · exact ⟨'\x7d', by rw [spelled.afterBlanks_eq (solid_symbol rfl rest)]; rfl, by decide⟩

theorem EndsPattern.not_mem_head (ends : EndsPattern text)
    (among : [':', '(', '\x7b', 'w'].contains first = true) :
    first ∉ (Text.afterBlanks text).head? := by
  intro atHead
  rw [ends first atHead] at among
  cases among

theorem EndsPattern.furtherName_misses (ends : EndsPattern text) : Misses furtherName text := by
  apply Misses.bind
  apply separator_misses
  rintro _ atHead rfl
  exact ends.not_mem_head rfl atHead

/-! ## Lists -/

/-- Values that agree one by one. -/
def AgreeAll (agrees : α → α → Prop) : List α → List α → Prop
  | [], [] => True
  | value :: values, value' :: values' => agrees value value' ∧ AgreeAll agrees values values'
  | _, _ => False

/-- The rule reads every entry of a list that is spelled in a given way. -/
structure CompleteEntry (spelled : α → (text rest : List Char) → Prop) (agrees : α → α → Prop)
    (rule : Grammar α) : Prop where
  reads {value : α} {text start rest : List Char} : Gap text start → spelled value start rest →
    EndsEntry rest → Reads rule text (agrees value) (afterBlanks rest)
  head {value : α} {start rest : List Char} : spelled value start rest →
    ∃ first, start.head? = some first ∧ startsPrimary first = true

section

variable {spelled : α → (text rest : List Char) → Prop} {agrees : α → α → Prop}
  {entry further : Grammar α} {value : α} {values : List α}

theorem CompleteEntry.solid (complete : CompleteEntry spelled agrees entry)
    (written : spelled value start rest) : Solid start := by
  rcases complete.head written with ⟨first, atHead, starts⟩
  intro first' atHead'
  rw [Option.mem_def, atHead] at atHead'
  cases atHead'
  exact isSpace_eq_false_of_startsOperand (startsOperand_of_startsPrimary starts)

theorem endsEntry_of_listedTail (listed : ListedTail spelled values text rest)
    (ends : EndsEntry rest) : EndsEntry text := by
  cases values with
  | nil =>
      cases listed
      exact ends
  | cons value values =>
      rcases listed with ⟨_, _, _, symbol, _⟩
      exact endsEntry_of_symbol rfl symbol

theorem listedTail_reads
    (one : ∀ {value : α} {text comma start last : List Char}, SymbolAt "," text comma →
      Gap comma start → spelled value start last → EndsEntry last →
        Reads further text (agrees value) (afterBlanks last))
    (listed : ListedTail spelled values middle rest) (gap : Gap middle next) (solid : Solid next)
    (ends : EndsEntry rest) :
    ReadsEach further next (AgreeAll agrees values) (afterBlanks rest) := by
  induction values generalizing middle next with
  | nil =>
      cases listed
      rw [gap.afterBlanks_eq solid]
      exact .nil trivial
  | cons value values induction =>
      rcases listed with ⟨comma, start, last, symbol, behind, written, listed⟩
      have symbol : SymbolAt "," next comma := gap.of_gap symbol (solid_symbol rfl comma)
      apply ReadsEach.cons (one symbol behind written (endsEntry_of_listedTail listed ends))
        (induction listed (gap_afterBlanks last) (solid_afterBlanks last))
      intro found others agree agreeAll
      exact ⟨agree, agreeAll⟩

/-- A closing bracket is no entry. -/
theorem close_misses_at_entry (complete : CompleteEntry spelled agrees entry) {close : String}
    (closes : [")", "]", "\x7d"].contains close = true) (gap : Gap text start)
    (written : spelled value start rest) : Misses (token close) text := by
  rcases complete.head written with ⟨first, atHead, starts⟩
  have refused : close.toList ≠ [] ∧ close.toList.head? ≠ some first := by
    rcases close_cases closes with rfl | rfl | rfl <;>
      exact ⟨by decide, fun same => by cases same; cases starts⟩
  apply token_misses_at refused.1 _ refused.2
  rw [gap.afterBlanks_eq (complete.solid written)]
  exact atHead

theorem closes_of_among {close : String} (among : [")", "\x7d"].contains close = true) :
    [")", "]", "\x7d"].contains close = true := by
  have cases : close = ")" ∨ close = "\x7d" := by simpa using among
  rcases cases with rfl | rfl <;> rfl

theorem endsEntry_of_comma {close : String} (among : [")", "\x7d"].contains close = true)
    {required permitted : Bool} {last closing : List Char}
    (comma : TrailingComma required permitted last closing)
    (symbol : SymbolAt close closing rest) : EndsEntry last := by
  rcases comma with ⟨_, rfl⟩ | ⟨_, comma⟩
  · apply endsEntry_of_symbol _ symbol
    have cases : close = ")" ∨ close = "\x7d" := by simpa using among
    rcases cases with rfl | rfl <;> decide
  · exact endsEntry_of_symbol rfl comma

/-- Another entry of a payload. Behind a comma a payload may close instead. -/
def furtherEntry (close : Char) (entry : Grammar α) : Grammar α := do
  token ","
  ahead fun rest => rest.head? != some close
  expect entry (.payloadItem close)

instance (close : Char) [Advancing entry] : Consuming (furtherEntry close entry) :=
  inferInstanceAs (Consuming (token "," >>= fun _ => (ahead _ >>= fun _ => expect entry _)))

theorem furtherEntry_reads (complete : CompleteEntry spelled agrees entry) {close : Char}
    (refused : startsPrimary close = false) {comma last : List Char}
    (symbol : SymbolAt "," text comma) (gap : Gap comma start) (written : spelled value start last)
    (ends : EndsEntry last) :
    Reads (furtherEntry close entry) text (agrees value) (afterBlanks last) := by
  apply (token_reads rfl symbol gap (complete.solid written)).bind
  intro _ _
  have goesOn : Reads (ahead fun rest => rest.head? != some close) start (fun _ => True) start := by
    rcases complete.head written with ⟨first, atHead, starts⟩
    have apart : first ≠ close := by
      rintro rfl
      rw [starts] at refused
      cases refused
    exact fun offset => ⟨(), offset, by simp [ahead, atHead, apart], trivial⟩
  apply goesOn.bind
  intro _ _
  exact (complete.reads (.refl start) written ends).expect

theorem furtherEntry_misses {close : Char}
    (closes : [")", "]", "\x7d"].contains (String.singleton close) = true)
    {required permitted : Bool} {last closing : List Char}
    (comma : TrailingComma required permitted last closing)
    (symbol : SymbolAt (String.singleton close) closing rest) :
    Misses (furtherEntry close entry) (afterBlanks last) := by
  have atHead : (afterBlanks closing).head? = some close := by
    rw [symbol_head (isSymbol_close closes) symbol]
    simp
  have closed : Misses (ahead fun rest => rest.head? != some close) (afterBlanks closing) :=
    fun offset => by simp [ahead, atHead]
  exact further_misses closes comma symbol closed.bind

theorem payload_reads (complete : CompleteEntry spelled agrees entry) [Advancing entry]
    (close : Char) (among : [")", "\x7d"].contains (String.singleton close) = true)
    (refused : startsPrimary close = false) {required : Bool}
    (written : PayloadAt spelled (String.singleton close) required values text rest) :
    Reads (payload close entry) (afterBlanks text) (AgreeAll agrees values) (afterBlanks rest) := by
  rcases written with ⟨last, closing, listed, comma, symbol⟩
  have closes := closes_of_among among
  cases values with
  | nil =>
      cases listed
      rcases comma with ⟨_, rfl⟩ | ⟨⟨⟩, _⟩
      refine .orElse ((close_reads closes symbol).bind ?_)
      intro _ _
      exact .pure trivial
  | cons value values =>
      rcases listed with ⟨start, middle, gap, written, listed⟩
      have ends := endsEntry_of_comma among comma symbol
      have misses := close_misses_at_entry complete closes (.refl start) written
      rw [gap.afterBlanks_eq (complete.solid written)]
      refine .orElse_of_misses ?_ misses.bind
      apply (complete.reads (.refl start) written
        (endsEntry_of_listedTail listed ends)).expect.bind
      intro first agree
      have others : ReadsEach (furtherEntry close entry) (afterBlanks middle)
          (AgreeAll agrees values) (afterBlanks last) := by
        apply listedTail_reads _ listed (gap_afterBlanks middle) (solid_afterBlanks middle) ends
        intro value text comma start last
        exact furtherEntry_reads complete refused
      apply (others.stop (furtherEntry_misses closes comma symbol)).bind
      intro rest' agreeAll
      apply (trailingComma_reads closes comma symbol).bind
      intro _ _
      apply (close_reads closes symbol).expect.bind
      intro _ _
      exact .pure ⟨agree, agreeAll⟩

end

end Templating.Grammar

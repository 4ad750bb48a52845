import Templating.Proofs.Lexeme
import Templating.Statement.Text

/-! # Runs of text

A run of characters ends where a test holds for the first time, or with the text. For the text
between tags the test asks for an opening delimiter. -/

namespace Templating.Grammar

variable {dialect : Dialect} {test : List Char → Bool} {cursor later : Cursor}

theorem untilText_append {run rest : List Char} (ends : rest = [] ∨ test rest = true)
    (within : ∀ first others, first :: others <:+ run → test (first :: (others ++ rest)) = false) :
    untilText test (run ++ rest) = run := by
  induction run with
  | nil =>
      rcases ends with rfl | ends
      · rfl
      · cases rest with
        | nil => rfl
        | cons first rest => simp [untilText, ends]
  | cons first run induction =>
      rw [List.cons_append, untilText, if_neg]
      · rw [induction fun first' others suffix =>
          within first' others (suffix.trans (List.suffix_cons first run))]
      · rw [within first run (List.suffix_refl _)]
        exact Bool.false_ne_true

/-- What a run is followed by, and what stands nowhere inside it. -/
theorem exists_untilText_append (test : List Char → Bool) (text : List Char) :
    ∃ rest, text = untilText test text ++ rest ∧ (rest = [] ∨ test rest = true) ∧
      ∀ first others, first :: others <:+ untilText test text →
        test (first :: (others ++ rest)) = false := by
  induction text with
  | nil =>
      refine ⟨[], rfl, .inl rfl, ?_⟩
      intro first others suffix
      cases List.suffix_nil.mp suffix
  | cons first text induction =>
      rw [untilText]
      split
      case isTrue ends =>
          refine ⟨first :: text, rfl, .inr ends, ?_⟩
          intro first others suffix
          cases List.suffix_nil.mp suffix
      case isFalse goesOn =>
          rcases induction with ⟨rest, shape, ends, within⟩
          refine ⟨rest, ?_, ends, ?_⟩
          · rw [List.cons_append, ← shape]
          · intro first' others suffix
            rcases List.suffix_cons_iff.mp suffix with same | suffix
            · cases same
              rw [← shape]
              exact Bool.eq_false_iff.mpr goesOn
            · exact within first' others suffix

theorem advance_length {run rest : List Char} (shape : cursor.rest = run ++ rest) :
    cursor.advance run.length = ⟨cursor.offset + run.length, rest⟩ := by
  simp [Cursor.advance, shape]

theorem upTo_eq_matched {run : List Char} :
    upTo test cursor = .matched run later ↔
      cursor.rest = run ++ later.rest ∧ later.offset = cursor.offset + run.length ∧
        (later.rest = [] ∨ test later.rest = true) ∧
          ∀ first others, first :: others <:+ run →
            test (first :: (others ++ later.rest)) = false := by
  constructor
  · intro matched
    cases matched
    rcases exists_untilText_append test cursor.rest with ⟨rest, shape, ends, within⟩
    rw [advance_length shape]
    exact ⟨shape, rfl, ends, within⟩
  · rintro ⟨shape, moved, ends, within⟩
    have run_eq := untilText_append ends within
    rw [← shape] at run_eq
    unfold upTo
    rw [run_eq]
    dsimp only
    rw [advance_length shape, ← moved]

theorem upTo_reads {run rest : List Char} (whole : untilText test (run ++ rest) = run) :
    Reads (upTo test) (run ++ rest) (· = run) rest := by
  intro offset
  refine ⟨run, offset + run.length, ?_, rfl⟩
  unfold upTo
  dsimp only
  rw [whole, advance_length rfl]

theorem opensTag_of_start {delimiter : Delimiter} {text : List Char}
    (member : delimiter ∈ dialect.starts) (starts : delimiter.chars <+: text) :
    opensTag dialect text = true :=
  List.any_eq_true.mpr ⟨delimiter, member, List.isPrefixOf_iff_prefix.mpr starts⟩

/-- Text is read if an opening delimiter does not stand at its beginning. -/
theorem text_eq_matched {node : Node} :
    text dialect cursor = .matched node later ↔
      ∃ run, run ≠ [] ∧ node = .text cursor.offset (Passage.ofChars run) ∧
        upTo (opensTag dialect) cursor = .matched run later := by
  simp only [text, bind_eq_matched, here_eq_matched]
  constructor
  · rintro ⟨_, _, ⟨rfl, rfl⟩, run, middle, read, matched⟩
    cases run with
    | nil => cases matched
    | cons first run =>
        cases matched
        exact ⟨first :: run, List.cons_ne_nil _ _, rfl, read⟩
  · rintro ⟨run, nonempty, rfl, read⟩
    refine ⟨_, _, ⟨rfl, rfl⟩, run, later, read, ?_⟩
    cases run with
    | nil => exact absurd rfl nonempty
    | cons first run => rfl

theorem text_eq_noMatch :
    text dialect cursor = .noMatch ↔ cursor.rest = [] ∨ opensTag dialect cursor.rest = true := by
  have stops : untilText (opensTag dialect) cursor.rest = [] ↔
      cursor.rest = [] ∨ opensTag dialect cursor.rest = true := by
    cases cursor.rest with
    | nil => simp [untilText]
    | cons first rest =>
        rw [untilText]
        split <;> simp [*]
  rw [← stops]
  simp only [text, bind_apply, here, upTo]
  split <;> simp_all [noMatch]

end Templating.Grammar

import Templating.Proofs.NestingLimit
import Templating.Proofs.NodeBodies
import Templating.Proofs.Reprinting

/-! # Delimiters that are foreign to tags

Which delimiters a template is written with does not matter, as long as they are told from what
stands in tags and from the text of the template. A template of the standard dialect is regular in
every such dialect, and is read back there from how it is printed. -/

namespace Templating

/-! ## Characters that tags leave to delimiters -/

namespace Text

/-- The marks of operators, brackets, quotes and trim markers, and those between the parts of
names, numbers and lists. -/
def tagMarks : List Char :=
  "|&=!<>+-*/%~.,:?\"'()[]\x7b\x7d".toList

/-- The character has a use in tags. -/
def isOfTags (character : Char) : Bool :=
  continuesName character || isSpace character || tagMarks.contains character

variable {character : Char}

theorem isOfTags_mark (trim : Trim) : isOfTags trim.mark = true := by
  cases trim <;> decide

theorem isOfTags_of_startsPrimary (starts : Grammar.startsPrimary character = true) :
    isOfTags character = true := by
  simp only [Grammar.startsPrimary, Bool.or_eq_true, List.contains_iff_mem, List.mem_cons,
    List.not_mem_nil, or_false] at starts
  rcases starts with continues | rfl | rfl | rfl | rfl | rfl
  · simp [isOfTags, continues]
  all_goals decide

theorem isOfTags_of_startsOperand (starts : Grammar.startsOperand character = true) :
    isOfTags character = true := by
  simp only [Grammar.startsOperand, Bool.or_eq_true, beq_iff_eq] at starts
  rcases starts with (starts | rfl) | rfl
  · exact isOfTags_of_startsPrimary starts
  all_goals decide

theorem isOfTags_of_startsPattern (starts : Grammar.startsPattern character = true) :
    isOfTags character = true := by
  have starts := Grammar.startsPrimary_of_startsPattern starts
  exact isOfTags_of_startsPrimary starts

/-- Whatever an expression goes on with is a character of tags. -/
theorem isOfTags_of_goesOn (goes : Grammar.goesOn 0 character = true) :
    isOfTags character = true := by
  have marks : ∀ mark ∈ [':', '.', '[', '(', '?', '|'], isOfTags mark = true :=
    List.all_eq_true.mp (by decide)
  have operators : ∀ op : BinaryOp, ∀ first ∈ op.symbol.toList.head?, isOfTags first = true := by
    intro op first atHead
    cases op <;> cases atHead <;> decide
  simp only [Grammar.goesOn, Nat.zero_le, decide_true, Bool.true_and, Bool.or_eq_true, beq_iff_eq,
    List.contains_iff_mem, List.any_eq_true] at goes
  rcases goes with ((((rfl | among) | rfl) | ⟨op, _, begins⟩) | rfl) | starts
  · exact marks _ (by decide)
  · exact marks character (List.mem_cons_of_mem _ (List.mem_append_left ['|'] among))
  · exact marks _ (by decide)
  · exact operators op character begins
  · exact marks _ (by decide)
  · exact isOfTags_of_startsOperand starts

end Text

open Text Grammar

/-! ## Foreign delimiters -/

/-- No character of the delimiter has a use in tags. -/
def Delimiter.Foreign (delimiter : Delimiter) : Prop :=
  ∀ character ∈ delimiter.chars, isOfTags character = false

instance (delimiter : Delimiter) : Decidable delimiter.Foreign :=
  List.decidableBAll (fun character => isOfTags character = false) delimiter.chars

/-- No character of the delimiters has a use in tags. -/
def Dialect.Foreign (dialect : Dialect) : Prop :=
  ∀ role, (dialect.delimiter role).Foreign

namespace Delimiter

variable {delimiter : Delimiter}

theorem exists_cons (delimiter : Delimiter) :
    ∃ first others, delimiter.chars = first :: others := by
  have long := delimiter.long
  cases shape : delimiter.chars with
  | nil => simp [shape] at long
  | cons first others => exact ⟨first, others, rfl⟩

namespace Foreign

variable (foreign : delimiter.Foreign)

include foreign

/-- The delimiter begins with nothing that has a use in tags. -/
theorem head {uses : Char → Bool}
    (ofTags : ∀ character, uses character = true → isOfTags character = true) {rest : List Char} :
    ∀ first ∈ (delimiter.chars ++ rest).head?, uses first = false := by
  rcases delimiter.exists_cons with ⟨first, others, shape⟩
  rw [shape]
  rintro _ ⟨⟩
  have free := foreign first (shape ▸ List.mem_cons_self)
  apply Bool.eq_false_iff.mpr
  intro used
  rw [ofTags first used] at free
  cases free

theorem unmarked : delimiter.Unmarked := by
  intro first atHead
  cases marked : Trim.ofMark? first with
  | none => rfl
  | some trim =>
      have unused := foreign first (List.mem_of_mem_head? atHead)
      rw [Trim.ofMark?_eq_some_iff.mp marked, isOfTags_mark] at unused
      cases unused

theorem goesOn_head {rest : List Char} :
    ∀ first ∈ (afterBlanks (delimiter.chars ++ rest)).head?, goesOn 0 first = false := by
  rw [afterBlanks_of_solid (solid_delimiter delimiter rest)]
  exact foreign.head fun _ => isOfTags_of_goesOn

/-- Nothing that stands in a tag goes on with the delimiter, nor with a marker before it. -/
theorem halts (right : Option Trim) (rest : List Char) :
    Halts (Trim.printOnto right (delimiter.chars ++ rest)) := by
  have solid : Solid (delimiter.chars ++ rest) := solid_delimiter delimiter rest
  cases right with
  | none =>
      refine ⟨solid, fun gap => ?_, fun first atHead => ?_⟩
      · apply stops_of_head
        rw [gap.afterBlanks_eq solid, ← afterBlanks_of_solid solid]
        exact foreign.goesOn_head
      · have opening (character : Char) (among : ['{', '='].contains character = true) :
            isOfTags character = true := by
          simp only [List.contains_iff_mem, List.mem_cons, List.not_mem_nil, or_false] at among
          rcases among with rfl | rfl <;> decide
        exact ⟨foreign.head (fun _ => isOfTags_of_startsPattern) first atHead,
          foreign.head opening first atHead⟩
  | some trim =>
      have marked : isSpace trim.mark = false ∧ startsPattern trim.mark = false ∧
          ['{', '='].contains trim.mark = false := by
        cases trim <;> decide
      have solid : Solid (trim.mark :: (delimiter.chars ++ rest)) := solid_cons.mpr marked.1
      refine ⟨solid, fun gap => ?_, ?_⟩
      · exact stops_of_marker (gap.afterBlanks_eq solid) (closes_of_head foreign.goesOn_head)
      · rintro _ ⟨⟩
        exact marked.2

end Foreign

end Delimiter

theorem Dialect.Foreign.legible {dialect : Dialect} (foreign : dialect.Foreign) :
    dialect.Legible where
  blockEnd := (foreign .blockEnd).unmarked
  exprEnd := (foreign .exprEnd).unmarked
  commentStart := (foreign .commentStart).unmarked
  commentEnd := (foreign .commentEnd).unmarked
  blockHalts := (foreign .blockEnd).halts
  exprHalts := (foreign .exprEnd).halts

end Templating

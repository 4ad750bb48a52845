import Mathlib.Data.List.DropRight
import Templating.Proofs.Regular

/-! # Literal text

What a text of a template says of its source: it stands there, letter by letter, no opening
delimiter begins in it, and it goes on up to one or to the end. Its outer blanks are cut off and
kept. -/

namespace Templating

/-! ## Passages -/

/-- The passage is cut at its outer blanks. -/
structure Passage.Trimmed (passage : Passage) : Prop where
  lead : ∀ character ∈ passage.lead.toList, Text.isSpace character = true
  trail : ∀ character ∈ passage.trail.toList, Text.isSpace character = true
  first : ∀ character ∈ passage.core.toList.head?, Text.isSpace character = false
  last : ∀ character ∈ passage.core.toList.getLast?, Text.isSpace character = false
  blank : passage.core = "" → passage.trail = ""

namespace Passage

theorem ofChars_eq (characters : List Char) :
    ofChars characters =
      ⟨String.ofList (characters.takeWhile Text.isSpace),
        String.ofList ((characters.dropWhile Text.isSpace).rdropWhile Text.isSpace),
        String.ofList ((characters.dropWhile Text.isSpace).rtakeWhile Text.isSpace)⟩ := by
  have dropped (inner : List Char) : inner.drop (inner.rdropWhile Text.isSpace).length =
      inner.rtakeWhile Text.isSpace := by
    have whole : inner.rdropWhile Text.isSpace ++ inner.rtakeWhile Text.isSpace = inner :=
      List.rdropWhile_append_rtakeWhile
    calc
      inner.drop (inner.rdropWhile Text.isSpace).length
        = (inner.rdropWhile Text.isSpace ++ inner.rtakeWhile Text.isSpace).drop
            (inner.rdropWhile Text.isSpace).length := by rw [whole]
      _ = inner.rtakeWhile Text.isSpace := List.drop_left
  rw [← dropped]
  rfl

theorem trimmed_ofChars (characters : List Char) : (ofChars characters).Trimmed := by
  rw [ofChars_eq]
  generalize inner_eq : characters.dropWhile Text.isSpace = inner
  constructor
  · intro character among
    rw [String.toList_ofList] at among
    exact List.mem_takeWhile_imp among
  · intro character among
    rw [String.toList_ofList] at among
    exact List.mem_rtakeWhile_imp among
  · intro character among
    rw [String.toList_ofList] at among
    have begins : inner.head? = some character := by
      rcases List.rdropWhile_prefix Text.isSpace inner with ⟨tail, shape⟩
      rw [← shape, List.head?_append, among]
      rfl
    have := List.head?_dropWhile_not Text.isSpace characters
    rwa [inner_eq, begins] at this
  · intro character among
    rw [String.toList_ofList] at among
    rcases List.getLast?_eq_some_iff.mp among with ⟨others, shape⟩
    have nonempty : inner.rdropWhile Text.isSpace ≠ [] := by simp [shape]
    have := List.rdropWhile_last_not Text.isSpace inner nonempty
    simpa [shape] using this
  · intro empty
    have blank : inner.rdropWhile Text.isSpace = [] := String.ofList_inj.mp empty
    have unblank : inner.dropWhile Text.isSpace = inner := by
      rw [← inner_eq, List.dropWhile_idempotent]
    rw [List.rdropWhile_eq_nil_iff, ← List.dropWhile_eq_nil_iff, unblank] at blank
    rw [blank]
    rfl

end Passage

/-! ## Texts in a source -/

/-- The passage stands at this offset of a source as the text between two tags. -/
structure TextAt (dialect : Dialect) (source : List Char) (offset : Nat) (passage : Passage) :
    Prop where
  nonempty : passage.text ≠ ""
  present : (source.drop offset).take passage.text.length = passage.text.toList
  closed : ∀ place, offset ≤ place → place < offset + passage.text.length →
    Grammar.opensTag dialect (source.drop place) = false
  bounded : offset + passage.text.length = source.length ∨
    Grammar.opensTag dialect (source.drop (offset + passage.text.length)) = true
  trimmed : passage.Trimmed

/-- What the rule for text reads is a text of the source, and it is read to its end. -/
theorem textAt_of_text {dialect : Dialect} {source : List Char} {offset : Nat} {node : Node}
    {later : Cursor} (matched : Grammar.text dialect (.after source offset) = .matched node later) :
    ∃ passage, node = .text offset passage ∧ TextAt dialect source offset passage ∧
      later = .after source (offset + passage.text.length) := by
  rcases Grammar.text_eq_matched.mp matched with ⟨run, nonempty, rfl, read⟩
  rcases Grammar.upTo_eq_matched.mp read with ⟨shape, moved, ends, within⟩
  have shape : source.drop offset = run ++ later.rest := shape
  have moved : later.offset = offset + run.length := moved
  have length_eq : (Passage.ofChars run).text.length = run.length := by
    rw [← String.length_toList, Passage.chars_ofChars]
  have rest_eq : later.rest = source.drop (offset + run.length) := by
    rw [← List.drop_drop, shape, List.drop_left]
  refine ⟨_, rfl, ?_, ?_⟩
  · constructor
    · rw [Passage.text_ofChars]
      simpa using nonempty
    · rw [length_eq, shape, List.take_left, Passage.chars_ofChars]
    · intro place behind inside
      rw [length_eq] at inside
      have inner : source.drop place = run.drop (place - offset) ++ later.rest := by
        rw [show place = offset + (place - offset) by omega, ← List.drop_drop, shape,
          List.drop_append_of_le_length (by omega), Nat.add_sub_cancel_left]
      rcases List.exists_cons_of_length_pos
        (show 0 < (run.drop (place - offset)).length by rw [List.length_drop]; omega) with
        ⟨first, others, split⟩
      rw [inner, split]
      exact within first others (split ▸ List.drop_suffix _ _)
    · rw [length_eq, ← rest_eq]
      refine ends.imp (fun empty => ?_) id
      have := congrArg List.length shape
      have := List.length_pos_iff.mpr nonempty
      rw [empty, List.append_nil, List.length_drop] at *
      omega
    · exact Passage.trimmed_ofChars run
  · rw [length_eq, Cursor.after, ← rest_eq, ← moved]

end Templating

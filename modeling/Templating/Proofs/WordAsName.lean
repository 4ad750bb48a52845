import Templating.Proofs.AttemptedTag
import Templating.Proofs.TagForm

/-! # Words that are names

The word of a tag is read in two ways: as one of the words that are waited for, or as whatever name
stands there. A word that is itself a name stands exactly where it is the name, so both ways come to
the same. -/

namespace Templating.Grammar

open Text

variable {dialect : Dialect} {cursor later behind : Cursor} {word first second value : String}
  {words : List String} {opened : OpenedTag}

/-- A name is the text that the cursor moves over. -/
theorem eq_advance_of_name (matched : name cursor = .matched value later) :
    cursor.rest = value.toList ++ later.rest ∧ later = cursor.advance value.length := by
  rcases name_yields matched with ⟨_, read, _⟩
  have reaches : cursor.Reaches later := Advancing.reaches matched
  refine ⟨read, ?_⟩
  rw [reaches.eq_advance, read, List.length_append, Nat.add_sub_cancel, String.length_toList]

/-- A word that is a name stands where the name is that word. -/
theorem word_eq_matched (isName : isName word.toList = true) :
    Grammar.word word cursor = .matched value later ↔
      name cursor = .matched value later ∧ value = word := by
  constructor
  · intro matched
    rcases word_yields matched with ⟨rfl, written⟩
    rcases name_reads ⟨isName, written⟩ cursor.offset with ⟨_, offset, named, rfl⟩
    have named : name cursor = .matched _ ⟨offset, later.rest⟩ := named
    rw [named, (Advancing.reaches named).unique (Advancing.reaches matched) rfl]
    exact ⟨rfl, rfl⟩
  · rintro ⟨named, rfl⟩
    rcases word_reads (name_yields named).2 cursor.offset with ⟨_, offset, matched, rfl⟩
    have matched : Grammar.word _ cursor = .matched _ ⟨offset, later.rest⟩ := matched
    rw [matched, (Advancing.reaches matched).unique (Advancing.reaches named) rfl]

/-- At most one word of several stands at a cursor. -/
theorem word_unique {value' : String} {later' : Cursor} (isName : isName first.toList = true)
    (isName' : Text.isName second.toList = true)
    (matched : Grammar.word first cursor = .matched value later)
    (matched' : Grammar.word second cursor = .matched value' later') : first = second := by
  rcases (word_eq_matched isName).mp matched with ⟨named, rfl⟩
  rcases (word_eq_matched isName').mp matched' with ⟨named', rfl⟩
  rw [named] at named'
  cases named'
  rfl

theorem wordOf_eq_matched (areNames : ∀ word ∈ words, isName word.toList = true) :
    wordOf words cursor = .matched value later ↔
      name cursor = .matched value later ∧ value ∈ words := by
  induction words with
  | nil => exact iff_of_false nofun fun both => List.not_mem_nil both.2
  | cons word words induction =>
      rcases List.forall_mem_cons.mp areNames with ⟨isName, areNames⟩
      rw [wordOf, orElse_eq_matched, word_eq_matched isName, induction areNames, List.mem_cons]
      constructor
      · rintro (⟨named, same⟩ | ⟨_, named, among⟩)
        · exact ⟨named, .inl same⟩
        · exact ⟨named, .inr among⟩
      · rintro ⟨named, same | among⟩
        · exact .inl ⟨named, same⟩
        · -- The word may be in the list twice.
          rcases Quiet.cases (Grammar.word word) cursor with missed | ⟨_, _, matched⟩
          · exact .inr ⟨missed, named, among⟩
          · rcases (word_eq_matched isName).mp matched with ⟨named', rfl⟩
            rw [named] at named'
            cases named'
            exact .inl ⟨named, rfl⟩

/-! ## Tags -/

/-- A tag up to its name, whatever that is. -/
def tagName (dialect : Dialect) : Grammar OpenedTag := do
  let start ← tagStart dialect
  let word ← name
  return ⟨start.1, start.2, word⟩

/-- The beginning of a statement is a tag whose name is the word of a statement. -/
theorem statementStart_eq_tagName : Parser.statementStart dialect = (do
    let opened ← tagName dialect
    match Keyword.ofWord? opened.word with
    | none => noMatch
    | some keyword =>
        spaces
        return (opened, keyword)) := by
  rw [statementStart_eq, tagName, bind_assoc]
  refine bind_congr fun start => ?_
  rw [bind_assoc]
  exact bind_congr fun word => (pure_bind _ _).symm

/-- A tag with one of several words is one whose name is among them. -/
theorem tag_eq_matched (areNames : ∀ word ∈ words, isName word.toList = true) :
    tag dialect words cursor = .matched opened later ↔
      opened.word ∈ words ∧
        ∃ behind, tagName dialect cursor = .matched opened behind ∧ later = behind.skipSpaces := by
  simp only [tag_eq, tagName, bind_eq_matched, wordOf_eq_matched areNames, pure_eq_matched]
  constructor
  · rintro ⟨start, middle, begun, word, behind, ⟨named, among⟩, _, _, ⟨⟩, rfl, rfl⟩
    exact ⟨among, behind, ⟨start, middle, begun, word, behind, named, rfl, rfl⟩, rfl⟩
  · rintro ⟨among, _, ⟨start, middle, begun, word, behind, named, rfl, rfl⟩, rfl⟩
    exact ⟨start, middle, begun, word, behind, ⟨named, among⟩, (), _, rfl, rfl, rfl⟩

/-- A tag whose name is none of the words is left alone. -/
theorem tag_eq_noMatch (areNames : ∀ word ∈ words, isName word.toList = true) :
    tag dialect words cursor = .noMatch ↔
      ∀ opened later, tagName dialect cursor = .matched opened later → opened.word ∉ words := by
  constructor
  · intro missed opened later named among
    rw [(tag_eq_matched areNames).mpr ⟨among, later, named, rfl⟩] at missed
    cases missed
  · intro apart
    rcases Quiet.cases (tag dialect words) cursor with missed | ⟨opened, later, matched⟩
    · exact missed
    · rcases (tag_eq_matched areNames).mp matched with ⟨among, behind, named, _⟩
      exact absurd among (apart opened behind named)

/-- The name of a tag is what is told to stand there. -/
theorem found_of_tagName (named : tagName dialect cursor = .matched opened later) :
    found dialect cursor = .matched (.tag opened.word) cursor := by
  simp only [tagName, tagStart, bind_eq_matched, here_eq_matched, pure_eq_matched] at named
  rcases named with ⟨_, _, ⟨_, _, ⟨rfl, rfl⟩, _, first, begun, trim, second, marked, _, third, blanks,
    rfl, rfl⟩, word, last, named, rfl, rfl⟩
  have head : tagHead dialect cursor = .matched (third.offset, some word) last := by
    rw [tagHead, bind_of_matched begun, bind_of_matched marked, bind_of_matched blanks, here_bind,
      bind_of_matched (optional_of_matched named)]
    rfl
  rw [found, head]

end Templating.Grammar

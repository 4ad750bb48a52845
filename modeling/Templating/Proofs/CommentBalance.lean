import Mathlib.Data.Nat.Count
import Templating.Proofs.TagForm

/-! # Comments inside comments

A comment ends at the first closing delimiter up to which one more comment has been closed than
opened, as long as the delimiters in its text can be told from each other. The scan keeps count of
the delimiters that it has passed, and it passes each of them whole. -/

namespace Templating

/-- A delimiter of comments. -/
inductive CommentMark where
  | opening
  | closing
  deriving DecidableEq

namespace CommentMark

variable (dialect : Dialect)

def chars : CommentMark → List Char
  | opening => dialect.commentStart.chars
  | closing => dialect.commentEnd.chars

/-- The delimiter stands at a place of a text. -/
def StandsAt (mark : CommentMark) (text : List Char) (place : Nat) : Prop :=
  mark.chars dialect <+: text.drop place

instance (mark : CommentMark) (text : List Char) : DecidablePred (mark.StandsAt dialect text) :=
  fun place => inferInstanceAs (Decidable (_ <+: text.drop place))

/-- At how many of the first places of a text the delimiter stands. -/
def count (mark : CommentMark) (text : List Char) (places : Nat) : Nat :=
  Nat.count (mark.StandsAt dialect text) places

end CommentMark

namespace Grammar

open CommentMark

/-! ## Where a comment ends -/

section

variable (dialect : Dialect) (text : List Char)

/-- No two delimiters of comments in the text have a character in common. -/
def Separate : Prop :=
  ∀ {mark mark' : CommentMark} {place place' : Nat}, mark.StandsAt dialect text place →
    mark'.StandsAt dialect text place' → place ≤ place' →
      (mark = mark' ∧ place = place') ∨ place + (mark.chars dialect).length ≤ place'

/-- A closing delimiter stands at the place, and up to it there is one more of them than there are
opening ones. -/
def ClosesAt (place : Nat) : Prop :=
  closing.StandsAt dialect text place ∧
    closing.count dialect text (place + 1) = opening.count dialect text (place + 1) + 1

/-- The character stands right before the place, and behind every delimiter before the place. -/
def StandsBefore (place : Nat) (character : Char) : Prop :=
  ∃ before, place = before + 1 ∧ text[before]? = some character ∧
    ∀ {mark : CommentMark} {earlier : Nat}, mark.StandsAt dialect text earlier → earlier < place →
      earlier + (mark.chars dialect).length ≤ before

/-- The scan of a comment's text has come to a place: no delimiter lies across it, the delimiters
before it are counted, and none of them ends the comment. -/
structure Scanned (state : CommentState) (place : Nat) : Prop where
  whole {mark : CommentMark} {earlier : Nat} : mark.StandsAt dialect text earlier →
    earlier < place → earlier + (mark.chars dialect).length ≤ place
  level : state.level + closing.count dialect text place = opening.count dialect text place
  last (character : Char) :
    state.last = some character ↔ StandsBefore dialect text place character
  goesOn : ∀ earlier < place, ¬ ClosesAt dialect text earlier

end

variable {dialect : Dialect} {text : List Char} {mark : CommentMark} {place : Nat}
  {state : CommentState}

theorem chars_pos (dialect : Dialect) (mark : CommentMark) : 0 < (mark.chars dialect).length := by
  have := dialect.commentStart.long
  have := dialect.commentEnd.long
  cases mark <;> simp only [CommentMark.chars] <;> omega

theorem standsAt_lt (stands : mark.StandsAt dialect text place) : place < text.length := by
  have := stands.length_le
  have := chars_pos dialect mark
  rw [List.length_drop] at *
  omega

theorem separate_iff : Separate dialect text ↔
    ∀ mark ∈ [opening, closing], ∀ mark' ∈ [opening, closing], ∀ place < text.length,
      ∀ place' < text.length, mark.StandsAt dialect text place →
        mark'.StandsAt dialect text place' → place ≤ place' →
          (mark = mark' ∧ place = place') ∨ place + (mark.chars dialect).length ≤ place' := by
  have among : ∀ mark : CommentMark, mark ∈ [opening, closing] := by
    intro mark
    cases mark <;> simp
  constructor
  · intro separate mark _ mark' _ place _ place' _
    exact separate
  · intro separate mark mark' place place' stands stands'
    exact separate mark (among mark) mark' (among mark') place (standsAt_lt stands) place'
      (standsAt_lt stands') stands stands'

set_option synthInstance.maxSize 256 in
instance : Decidable (Separate dialect text) :=
  decidable_of_iff _ separate_iff.symm

instance : Decidable (ClosesAt dialect text place) :=
  inferInstanceAs (Decidable (_ ∧ _))

/-! ## Counting -/

theorem count_succ (mark : CommentMark) (text : List Char) (place : Nat) :
    mark.count dialect text (place + 1) =
      mark.count dialect text place + if mark.StandsAt dialect text place then 1 else 0 :=
  Nat.count_succ _ place

/-- Where a delimiter stands there is no other one up to its end. -/
theorem Separate.not_standsAt (separate : Separate dialect text)
    (stands : mark.StandsAt dialect text place) {mark' : CommentMark} {further : Nat}
    (inside : further < (mark.chars dialect).length) (apart : mark = mark' → further ≠ 0) :
    ¬ mark'.StandsAt dialect text (place + further) := by
  intro stands'
  rcases separate stands stands' (Nat.le_add_right _ _) with ⟨same, together⟩ | behind
  · exact apart same (by omega)
  · omega

/-- Behind a delimiter, it alone has been counted. -/
theorem Separate.count_behind (separate : Separate dialect text)
    (stands : mark.StandsAt dialect text place) (mark' : CommentMark) :
    mark'.count dialect text (place + (mark.chars dialect).length) =
      mark'.count dialect text place + if mark = mark' then 1 else 0 := by
  rcases Nat.exists_eq_succ_of_ne_zero (Nat.ne_of_gt (chars_pos dialect mark)) with
    ⟨others, length_eq⟩
  have none_inside : Nat.count (fun further => mark'.StandsAt dialect text (place + (further + 1)))
      others = 0 := by
    rw [Nat.count_iff_forall_not]
    intro further inside
    exact separate.not_standsAt stands (by omega) fun _ => Nat.succ_ne_zero _
  have first_eq : mark'.StandsAt dialect text (place + 0) ↔ mark = mark' := by
    constructor
    · intro stands'
      by_contra apart
      exact separate.not_standsAt stands (by omega) (fun same => absurd same apart) stands'
    · rintro rfl
      exact stands
  rw [length_eq, CommentMark.count, Nat.count_add, Nat.count_succ', none_inside, Nat.zero_add]
  simp only [first_eq, CommentMark.count]

/-! ## The scan -/

theorem scanned_start : Scanned dialect text ⟨0, none⟩ 0 where
  whole _ before := absurd before (Nat.not_lt_zero _)
  level := rfl
  last character := by
    constructor
    · nofun
    · rintro ⟨before, ⟨⟩, _⟩
  goesOn _ before := absurd before (Nat.not_lt_zero _)

/-- A comment that is at its end ends where the closing delimiter stands. -/
theorem Scanned.closesAt_iff (scanned : Scanned dialect text state place)
    (separate : Separate dialect text) (stands : closing.StandsAt dialect text place) :
    ClosesAt dialect text place ↔ state.level = 0 := by
  have noOpening : ¬ opening.StandsAt dialect text place :=
    separate.not_standsAt stands (chars_pos _ _) nofun
  have level := scanned.level
  rw [ClosesAt, count_succ, count_succ, if_pos stands, if_neg noOpening]
  simp only [stands, true_and]
  omega

/-- The scan passes a delimiter that does not end the comment. -/
theorem Scanned.delimiter (scanned : Scanned dialect text state place)
    (separate : Separate dialect text) (stands : mark.StandsAt dialect text place)
    (notLast : ¬ ClosesAt dialect text place) {level : Nat}
    (counted : level + (if mark = closing then 1 else 0) =
      state.level + if mark = opening then 1 else 0) :
    Scanned dialect text ⟨level, none⟩ (place + (mark.chars dialect).length) where
  whole {mark' earlier} stands' before := by
    rcases Nat.lt_or_ge earlier place with inside | behind
    · exact Nat.le_trans (scanned.whole stands' inside) (Nat.le_add_right _ _)
    · rcases separate stands stands' behind with ⟨rfl, rfl⟩ | beyond
      · exact Nat.le_refl _
      · omega
  level := by
    have before := scanned.level
    have closed := separate.count_behind stands closing
    have opened := separate.count_behind stands opening
    simp only at counted ⊢
    omega
  last character := by
    constructor
    · nofun
    · rintro ⟨before, place_eq, _, clear⟩
      have := clear stands (by have := chars_pos dialect mark; omega)
      omega
  goesOn earlier before closes := by
    rcases Nat.lt_trichotomy earlier place with inside | rfl | behind
    · exact scanned.goesOn earlier inside closes
    · exact notLast closes
    · rcases Nat.exists_eq_add_of_lt behind with ⟨further, rfl⟩
      exact separate.not_standsAt stands (by omega) (fun _ => Nat.succ_ne_zero _) closes.1

/-- The scan passes a character where no delimiter stands. -/
theorem Scanned.character (scanned : Scanned dialect text state place) {first : Char}
    (atHead : text[place]? = some first)
    (noMark : ∀ mark : CommentMark, ¬ mark.StandsAt dialect text place) :
    Scanned dialect text ⟨state.level, some first⟩ (place + 1) where
  whole {mark' earlier} stands before := by
    rcases Nat.lt_succ_iff_lt_or_eq.mp before with inside | rfl
    · exact Nat.le_succ_of_le (scanned.whole stands inside)
    · exact absurd stands (noMark _)
  level := by
    rw [count_succ, count_succ, if_neg (noMark _), if_neg (noMark _)]
    exact scanned.level
  last character := by
    constructor
    · rintro ⟨⟩
      refine ⟨place, rfl, atHead, ?_⟩
      intro mark earlier stands before
      rcases Nat.lt_succ_iff_lt_or_eq.mp before with inside | rfl
      · exact scanned.whole stands inside
      · exact absurd stands (noMark _)
    · rintro ⟨before, place_eq, found, _⟩
      cases Nat.succ.inj place_eq
      exact atHead.symm.trans found
  goesOn earlier before closes := by
    rcases Nat.lt_succ_iff_lt_or_eq.mp before with inside | rfl
    · exact scanned.goesOn earlier inside closes
    · exact noMark _ closes.1

/-! ## Steps -/

section

variable {cursor later : Cursor} {expected : List Char} {count : Nat} {next : CommentState}

theorem startsWithin_eq_true : startsWithin expected count text = true ↔
    ∃ place < count, expected <+: text.drop place := by
  induction count generalizing text with
  | zero => simp [startsWithin]
  | succ count induction =>
      rw [startsWithin, Bool.or_eq_true, List.isPrefixOf_iff_prefix, induction]
      constructor
      · rintro (stands | ⟨place, within, stands⟩)
        · exact ⟨0, Nat.succ_pos _, stands⟩
        · exact ⟨place + 1, Nat.succ_lt_succ within, by rwa [List.drop_tail] at stands⟩
      · rintro ⟨_ | place, within, stands⟩
        · exact .inl stands
        · exact .inr ⟨place, Nat.lt_of_succ_lt_succ within, by rwa [List.drop_tail]⟩

theorem closingStep_misses (closes : ¬ closing.StandsAt dialect cursor.rest place) :
    closingStep dialect state (cursor.advance place) = .noMatch := by
  unfold closingStep
  cases state.level with
  | zero => rfl
  | succ level => exact bind_of_noMatch (exact_misses closes _)

/-- An opening delimiter is never taken for something else: no closing one begins inside it. -/
theorem openingStep_eq (separate : Separate dialect cursor.rest) :
    openingStep dialect state (cursor.advance place) =
      if opening.StandsAt dialect cursor.rest place then
        .matched ⟨state.level + 1, none⟩ (cursor.advance (place + (opening.chars dialect).length))
      else .noMatch := by
  have within : startsWithin (closing.chars dialect) (opening.chars dialect).length
      (cursor.rest.drop place) = true ↔
        ∃ further < (opening.chars dialect).length,
          closing.StandsAt dialect cursor.rest (place + further) := by
    simp only [startsWithin_eq_true, List.drop_drop]
    rfl
  split
  case isTrue opens =>
      have outside : startsWithin (closing.chars dialect) (opening.chars dialect).length
          (cursor.rest.drop place) = false := by
        rw [← Bool.not_eq_true, within]
        rintro ⟨further, inside, closes⟩
        exact separate.not_standsAt opens inside (by rintro ⟨⟩) closes
      rw [← Cursor.advance_advance]
      exact (bind_of_matched (ahead_of_true (congrArg Bool.not outside))).trans
        (bind_of_matched (exact_of_stands opens))
  case isFalse opens =>
      cases outside : startsWithin (closing.chars dialect) (opening.chars dialect).length
          (cursor.rest.drop place) with
      | true => exact bind_of_noMatch (ahead_of_false (congrArg Bool.not outside))
      | false =>
          exact (bind_of_matched (ahead_of_true (congrArg Bool.not outside))).trans
            (bind_of_noMatch (exact_misses opens _))

theorem characterStep_eq (closes : ¬ closing.StandsAt dialect cursor.rest place) :
    characterStep dialect state (cursor.advance place) =
      match cursor.rest[place]? with
      | none => .noMatch
      | some first => .matched ⟨state.level, some first⟩ (cursor.advance (place + 1)) := by
  have noEnd : (closing.chars dialect).isPrefixOf (cursor.rest.drop place) = false := by
    rw [← Bool.not_eq_true, List.isPrefixOf_iff_prefix]
    exact closes
  refine (bind_of_matched (ahead_of_true (congrArg Bool.not noEnd))).trans ?_
  have atHead : (cursor.rest.drop place).head? = cursor.rest[place]? := by simp
  rw [← Cursor.advance_advance, ← atHead]
  cases shape : cursor.rest.drop place with
  | nil =>
      have missed : character (fun _ => true) (cursor.advance place) = .noMatch := by
        simp [character, Cursor.advance, shape]
      exact bind_of_noMatch missed
  | cons first rest =>
      have read : character (fun _ => true) (cursor.advance place) =
          .matched first ((cursor.advance place).advance 1) := by
        simp [character, Cursor.advance, shape]
      exact bind_of_matched read

/-- A closing delimiter is passed inside an inner comment only, and an opening one always. Between
delimiters a single character is passed. -/
theorem commentStep_eq (separate : Separate dialect cursor.rest) :
    commentStep dialect state (cursor.advance place) =
      if closing.StandsAt dialect cursor.rest place then
        match state.level with
        | 0 => .noMatch
        | level + 1 =>
            .matched ⟨level, none⟩ (cursor.advance (place + (closing.chars dialect).length))
      else if opening.StandsAt dialect cursor.rest place then
        .matched ⟨state.level + 1, none⟩ (cursor.advance (place + (opening.chars dialect).length))
      else
        match cursor.rest[place]? with
        | none => .noMatch
        | some first => .matched ⟨state.level, some first⟩ (cursor.advance (place + 1)) := by
  by_cases closes : closing.StandsAt dialect cursor.rest place
  · rw [if_pos closes]
    cases shape : state.level with
    | zero =>
        rcases state with ⟨level, last⟩
        cases shape
        rcases closes with ⟨rest, stands⟩
        rw [Cursor.advance, ← stands]
        exact commentStep_misses ⟨0, last⟩ rfl _
    | succ level =>
        rw [← Cursor.advance_advance, commentStep, shape]
        exact orElse_of_matched (bind_of_matched (exact_of_stands closes))
  · rw [if_neg closes, commentStep_eq_orElse, orElse_of_noMatch (closingStep_misses closes),
      orElse_apply, openingStep_eq separate]
    by_cases opens : opening.StandsAt dialect cursor.rest place
    · simp only [if_pos opens]
    · simp only [if_neg opens]
      exact characterStep_eq closes

theorem Scanned.step (scanned : Scanned dialect cursor.rest state place)
    (separate : Separate dialect cursor.rest)
    (matched : commentStep dialect state (cursor.advance place) = .matched next later) :
    ∃ place', later = cursor.advance place' ∧ Scanned dialect cursor.rest next place' := by
  rw [commentStep_eq separate] at matched
  split at matched
  case isTrue closes =>
      have ends := scanned.closesAt_iff separate closes
      cases level : state.level with
      | zero =>
          rw [level] at matched
          cases matched
      | succ level' =>
          rw [level] at matched
          cases matched
          exact ⟨_, rfl, scanned.delimiter separate closes (by simp [ends, level]) (by simp [level])⟩
  split at matched
  case isTrue noEnd opens =>
      cases matched
      exact ⟨_, rfl, scanned.delimiter separate opens (fun closes => noEnd closes.1) (by simp)⟩
  case isFalse noEnd noStart =>
      split at matched
      · cases matched
      case h_2 first atHead =>
          cases matched
          refine ⟨_, rfl, scanned.character atHead ?_⟩
          rintro (_ | _)
          · exact noStart
          · exact noEnd

/-- The scan stops only where the comment ends, or the source does. -/
theorem Scanned.stop (scanned : Scanned dialect cursor.rest state place)
    (separate : Separate dialect cursor.rest)
    (stopped : commentStep dialect state (cursor.advance place) = .noMatch) :
    ClosesAt dialect cursor.rest place ∨ cursor.rest.length ≤ place := by
  rw [commentStep_eq separate] at stopped
  split at stopped
  case isTrue closes =>
      cases level : state.level with
      | zero => exact .inl ((scanned.closesAt_iff separate closes).mpr level)
      | succ level' =>
          rw [level] at stopped
          cases stopped
  split at stopped
  · cases stopped
  split at stopped
  case h_1 atEnd => exact .inr (List.getElem?_eq_none_iff.mp atEnd)
  case h_2 => cases stopped

/-- The scan of a comment's text comes to the first place that ends the comment, or to the end of
the source. -/
theorem chain_commentStep (separate : Separate dialect cursor.rest) :
    ∃ state place, chain (commentStep dialect) ⟨0, none⟩ cursor =
        .matched state (cursor.advance place) ∧ Scanned dialect cursor.rest state place ∧
      (ClosesAt dialect cursor.rest place ∨ cursor.rest.length ≤ place) := by
  rcases Quiet.cases (chain (commentStep dialect) ⟨0, none⟩) cursor with
    missed | ⟨state, later, matched⟩
  · exact absurd missed (Certain.ne_noMatch cursor)
  have scanned : ∃ place, later = cursor.advance place ∧ Scanned dialect cursor.rest state place := by
    -- The invariant of the scan holds at its start, and each step keeps it.
    refine chain_preserves (motive := fun state later => ∃ place,
      later = cursor.advance place ∧ Scanned dialect cursor.rest state place) matched ?_ ?_
    · rintro _ _ _ _ ⟨place, rfl, scanned⟩ stepped
      exact scanned.step separate stepped
    · exact ⟨0, cursor.advance_zero.symm, scanned_start⟩
  rcases scanned with ⟨place, rfl, scanned⟩
  refine ⟨state, place, matched, scanned, ?_⟩
  by_cases further : (cursor.advance place).rest = []
  · exact .inr (List.drop_eq_nil_iff.mp further)
  · exact scanned.stop separate (noMatch_of_chain matched further)

/-! ## Comments -/

variable {left : Option Trim} {marked inside : List Char}

/-- What stands behind the opening delimiter and the marker of a comment. -/
def scannedComment (dialect : Dialect) (start : Nat) (left : Option Trim) : Grammar Node := do
  let state ← chain (commentStep dialect) ⟨0, none⟩
  exact dialect.commentEnd.chars <|> failAt (.openComment dialect.commentEnd.text) start
  return .comment start ⟨left, state.last.bind Trim.ofMark?⟩

theorem comment_eq (stands : cursor.rest = dialect.commentStart.chars ++ marked)
    (edged : EdgeAt left marked inside) :
    comment dialect cursor = scannedComment dialect cursor.offset left
      (cursor.advance (dialect.commentStart.chars.length + left.toList.length)) ∧
    (cursor.advance (dialect.commentStart.chars.length + left.toList.length)).rest = inside := by
  have opened : dialect.commentStart.chars <+: cursor.rest := ⟨_, stands.symm⟩
  have begun : (cursor.advance dialect.commentStart.chars.length).rest = marked := by
    rw [Cursor.advance, stands, List.drop_left]
  have rest_eq : (cursor.advance (dialect.commentStart.chars.length + left.toList.length)).rest =
      inside := by
    rw [← Cursor.advance_advance, Cursor.advance, begun, edged.1]
    cases left <;> rfl
  have marked_read : edge (cursor.advance dialect.commentStart.chars.length) =
      .matched left (cursor.advance (dialect.commentStart.chars.length + left.toList.length)) := by
    rw [edge_eq_matched, rest_eq, begun]
    exact ⟨edged, (Cursor.advance_advance _ _ _).symm⟩
  refine ⟨?_, rest_eq⟩
  rw [comment, here_bind, bind_of_matched (exact_of_stands opened), bind_of_matched marked_read]
  rfl

/-- A comment ends at the first place that ends it, with the marker before it. If there is none the
parse ends. -/
theorem scannedComment_outcome (separate : Separate dialect cursor.rest) (start : Nat) :
    (∃ place right, ClosesAt dialect cursor.rest place ∧
      (∀ earlier < place, ¬ ClosesAt dialect cursor.rest earlier) ∧
      scannedComment dialect start left cursor = .matched (.comment start ⟨left, right⟩)
        (cursor.advance (place + dialect.commentEnd.chars.length)) ∧
      ∀ trim, right = some trim ↔ StandsBefore dialect cursor.rest place trim.mark) ∨
    (∀ place, ¬ ClosesAt dialect cursor.rest place) ∧ scannedComment dialect start left cursor =
      .failed (.malformed (.openComment dialect.commentEnd.text) start) := by
  rcases chain_commentStep separate with ⟨state, place, scan, scanned, ends⟩
  rw [scannedComment, bind_of_matched scan]
  by_cases closes : ClosesAt dialect cursor.rest place
  · refine .inl ⟨place, state.last.bind Trim.ofMark?, closes, scanned.goesOn, ?_, ?_⟩
    · have ended : dialect.commentEnd.chars <+: (cursor.advance place).rest := closes.1
      rw [bind_of_matched (orElse_of_matched (exact_of_stands ended)), Cursor.advance_advance]
      rfl
    · intro trim
      rw [← scanned.last]
      cases state.last with
      | none => simp
      | some character => simp [Trim.ofMark?_eq_some_iff]
  · have atEnd := ends.resolve_left closes
    refine .inr ⟨?_, ?_⟩
    · intro place' closes'
      have := standsAt_lt closes'.1
      exact scanned.goesOn place' (by omega) closes'
    · have missed : exact dialect.commentEnd.chars (cursor.advance place) = .noMatch := by
        apply exact_misses
        rw [List.drop_eq_nil_of_le atEnd, List.prefix_nil]
        exact List.ne_nil_of_length_pos (chars_pos dialect closing)
      rw [bind_apply, orElse_of_noMatch missed]
      rfl

/-- Comments balance. In a text in which no two delimiters of comments overlap a comment ends, if
it does, at the first closing delimiter up to which there is one more of them than of opening ones.
The marker on its left is the one behind the opening delimiter, and the marker on its right is the
character before the closing one, if that is a marker and belongs to nothing else. If there is no
such delimiter, the comment is reported at its beginning. -/
theorem comment_ends_at_first_balance
    (stands : cursor.rest = dialect.commentStart.chars ++ marked) (edged : EdgeAt left marked inside)
    (separate : Separate dialect inside) :
    ((∃ node later, comment dialect cursor = .matched node later) ↔
      ∃ place, ClosesAt dialect inside place) ∧
    (∀ place, ClosesAt dialect inside place →
      (∀ earlier < place, ¬ ClosesAt dialect inside earlier) →
        ∃ right, comment dialect cursor = .matched (.comment cursor.offset ⟨left, right⟩)
            (cursor.advance (dialect.commentStart.chars.length + left.toList.length +
              (place + dialect.commentEnd.chars.length))) ∧
          ∀ trim, right = some trim ↔ StandsBefore dialect inside place trim.mark) ∧
    ((¬ ∃ place, ClosesAt dialect inside place) → ∃ problem,
      comment dialect cursor = .failed (.malformed problem cursor.offset) ∧
        problem.code = .unclosedComment) := by
  rcases comment_eq stands edged with ⟨equation, begun⟩
  rw [equation]
  subst begun
  rcases scannedComment_outcome separate cursor.offset with
    ⟨place, right, closes, first, matched, marked⟩ | ⟨none_closes, failed⟩
  · refine ⟨⟨fun _ => ⟨place, closes⟩, fun _ => ⟨_, _, matched⟩⟩, ?_, fun no => absurd ⟨_, closes⟩ no⟩
    intro place' closes' first'
    have same : place' = place := by
      rcases Nat.lt_trichotomy place' place with before | same | behind
      · exact absurd closes' (first place' before)
      · exact same
      · exact absurd closes (first' place behind)
    subst same
    rw [Cursor.advance_advance] at matched
    exact ⟨right, matched, marked⟩
  · rw [failed]
    refine ⟨⟨nofun, ?_⟩, ?_, fun _ => ⟨_, rfl, rfl⟩⟩
    · rintro ⟨place, closes⟩
      exact absurd closes (none_closes place)
    · exact fun place closes => absurd closes (none_closes place)

end

/-- Behind the inner comment, the character before the last delimiter is a marker. -/
theorem comment_ends_at_first_balance_nested :
    ∃ right, comment .standard (.after "a\x7b#+\x7b% \x7b# #\x7d-#\x7d #\x7d".toList 1) =
        .matched (.comment 1 ⟨some .preserve, right⟩)
          (.after "a\x7b#+\x7b% \x7b# #\x7d-#\x7d #\x7d".toList 15) ∧
      right = some .suppress := by
  have stands : (Cursor.after "a\x7b#+\x7b% \x7b# #\x7d-#\x7d #\x7d".toList 1).rest =
      Dialect.standard.commentStart.chars ++ "+\x7b% \x7b# #\x7d-#\x7d #\x7d".toList := rfl
  have edged : EdgeAt (some .preserve) "+\x7b% \x7b# #\x7d-#\x7d #\x7d".toList
      "\x7b% \x7b# #\x7d-#\x7d #\x7d".toList := ⟨rfl, nofun⟩
  have separate : Separate .standard "\x7b% \x7b# #\x7d-#\x7d #\x7d".toList := by decide +kernel
  have closes : ClosesAt .standard "\x7b% \x7b# #\x7d-#\x7d #\x7d".toList 9 := by decide +kernel
  have first : ∀ earlier < 9,
      ¬ ClosesAt .standard "\x7b% \x7b# #\x7d-#\x7d #\x7d".toList earlier := by decide +kernel
  have clear : ∀ mark ∈ [opening, closing], ∀ earlier < 9,
      mark.StandsAt .standard "\x7b% \x7b# #\x7d-#\x7d #\x7d".toList earlier →
        earlier + (mark.chars .standard).length ≤ 8 := by decide +kernel
  rcases (comment_ends_at_first_balance stands edged separate).2.1 9 closes first with
    ⟨right, matched, marked⟩
  refine ⟨right, matched, (marked .suppress).mpr ⟨8, rfl, rfl, ?_⟩⟩
  rintro (_ | _) earlier stands before
  · exact clear opening (by decide) earlier before stands
  · exact clear closing (by decide) earlier before stands

end Grammar

end Templating

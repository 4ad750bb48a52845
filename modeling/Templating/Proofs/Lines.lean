import Templating.Text.Position

/-! # The line of an offset

The line that an offset lies on is found by a binary search over the offsets at which lines begin.
It is the line that has the offset between its ends, and it is numbered by the line feeds before
it. -/

namespace Templating.Text

/-! ## Binary search -/

/-- How many of the numbers, which increase, are not above a bound, if it is from `low` to `high`
of them. -/
def bisect (numbers : List Nat) (bound low high : Nat) : Nat :=
  if low < high then
    let middle := (low + high) / 2
    if bound < numbers.getD middle 0 then bisect numbers bound low middle
    else bisect numbers bound (middle + 1) high
  else low
termination_by high - low

/-- The answer stays between the ends of what is still to be searched. -/
theorem bisect_eq {numbers : List Nat} {bound low high count : Nat}
    (sorted : ∀ index < numbers.length, numbers.getD index 0 ≤ bound ↔ index < count)
    (above : low ≤ count) (below : count ≤ high) (within : high ≤ numbers.length) :
    bisect numbers bound low high = count := by
  fun_induction bisect numbers bound low high with
  | case1 low high open_ middle passed induction =>
      have side := sorted middle (by omega)
      exact induction above (by omega) (by omega)
  | case2 low high open_ middle passed induction =>
      have side := sorted middle (by omega)
      exact induction (by omega) below within
  | case3 low high closed => omega

/-! ## Where lines begin -/

theorem breaksFrom_append (offset : Nat) (text further : List Char) :
    breaksFrom offset (text ++ further) =
      breaksFrom offset text ++ breaksFrom (offset + text.length) further := by
  induction text generalizing offset with
  | nil => rfl
  | cons character text induction =>
      rw [List.cons_append, breaksFrom, breaksFrom, induction, List.length_cons,
        Nat.add_right_comm, Nat.add_assoc]
      split <;> rfl

theorem mem_breaksFrom {offset start : Nat} {text : List Char}
    (isBreak : start ∈ breaksFrom offset text) : offset < start ∧ start ≤ offset + text.length := by
  induction text generalizing offset with
  | nil => cases isBreak
  | cons character text induction =>
      rw [breaksFrom] at isBreak
      rw [List.length_cons]
      split at isBreak
      · rcases List.mem_cons.mp isBreak with rfl | isBreak
        · omega
        · have := induction isBreak
          omega
      · have := induction isBreak
        omega

theorem length_breaksFrom (offset : Nat) (text : List Char) :
    (breaksFrom offset text).length = text.count '\n' := by
  induction text generalizing offset with
  | nil => rfl
  | cons character text induction =>
      rw [breaksFrom, List.count_cons, ← induction (offset + 1)]
      split <;> rfl

theorem lineStarts_append (before after : List Char) :
    lineStarts (before ++ after) = lineStarts before ++ breaksFrom before.length after := by
  simp [lineStarts, breaksFrom_append]

theorem length_lineStarts (text : List Char) : (lineStarts text).length = 1 + text.count '\n' := by
  rw [lineStarts, List.length_cons, length_breaksFrom, Nat.add_comm]

theorem le_of_mem_lineStarts {start : Nat} {text : List Char} (isStart : start ∈ lineStarts text) :
    start ≤ text.length := by
  rcases List.mem_cons.mp isStart with rfl | isBreak
  · exact Nat.zero_le _
  · have := mem_breaksFrom isBreak
    omega

/-- The lines that begin at or before an offset are those of the text before it. -/
theorem takeWhile_lineStarts (before after : List Char) :
    (lineStarts (before ++ after)).takeWhile (· ≤ before.length) = lineStarts before := by
  rw [lineStarts_append, List.takeWhile_append_of_pos]
  · cases breaks : breaksFrom before.length after with
    | nil => rw [List.takeWhile_nil, List.append_nil]
    | cons first others =>
        have isBreak : first ∈ breaksFrom before.length after := breaks ▸ List.mem_cons_self
        have := (mem_breaksFrom isBreak).1
        rw [List.takeWhile_cons_of_neg, List.append_nil]
        rw [decide_eq_true_eq]
        omega
  · intro start isStart
    exact decide_eq_true (le_of_mem_lineStarts isStart)

/-- The line of an offset is what a binary search finds. -/
theorem line_position_eq_bisect {text : List Char} {offset : Nat} (within : offset ≤ text.length) :
    (position text offset).line =
      bisect (lineStarts text) offset 0 (lineStarts text).length := by
  obtain ⟨before, after, rfl, rfl⟩ : ∃ before after, text = before ++ after ∧ before.length = offset :=
    ⟨text.take offset, text.drop offset, (List.take_append_drop ..).symm, List.length_take_of_le within⟩
  rw [position, positionAmong, takeWhile_lineStarts]
  symm
  apply bisect_eq
  · intro index isIndex
    rw [List.getD_eq_getElem?_getD, List.getElem?_eq_getElem isIndex, Option.getD_some]
    by_cases begun : index < (lineStarts before).length
    · have start : (lineStarts (before ++ after))[index] ∈ lineStarts before := by
        simp only [lineStarts_append, List.getElem_append_left begun]
        exact List.getElem_mem _
      exact iff_of_true (le_of_mem_lineStarts start) begun
    · refine iff_of_false ?_ begun
      have start : (lineStarts (before ++ after))[index] ∈ breaksFrom before.length after := by
        simp only [lineStarts_append, List.getElem_append_right (Nat.le_of_not_lt begun)]
        exact List.getElem_mem _
      have := (mem_breaksFrom start).1
      omega
  · exact Nat.zero_le _
  · rw [lineStarts_append, List.length_append]
    exact Nat.le_add_right _ _
  · exact Nat.le_refl _

/-! ## Lines between line feeds -/

/-- Between what stands before it and behind it this is a line of a text. -/
structure IsLine (before line after : List Char) : Prop where
  begins : before = [] ∨ ∃ earlier, before = earlier ++ ['\n']
  unbroken : '\n' ∉ line
  ends : after = [] ∨ ∃ later, after = '\n' :: later

theorem exists_lineStart (text : List Char) :
    ∃ before line, text = before ++ line ∧ '\n' ∉ line ∧
      (before = [] ∨ ∃ earlier, before = earlier ++ ['\n']) := by
  induction text with
  | nil => exact ⟨[], [], rfl, nofun, .inl rfl⟩
  | cons character text induction =>
      rcases induction with ⟨before, line, rfl, unbroken, begins⟩
      rcases begins with rfl | ⟨earlier, rfl⟩
      · by_cases feed : character = '\n'
        · exact ⟨[character], line, rfl, unbroken, .inr ⟨[], by rw [feed, List.nil_append]⟩⟩
        · refine ⟨[], character :: line, rfl, ?_, .inl rfl⟩
          rw [List.mem_cons, not_or]
          exact ⟨Ne.symm feed, unbroken⟩
      · exact ⟨character :: (earlier ++ ['\n']), line, rfl, unbroken, .inr ⟨character :: earlier, rfl⟩⟩

theorem exists_lineEnd (text : List Char) :
    ∃ line after, text = line ++ after ∧ '\n' ∉ line ∧
      (after = [] ∨ ∃ later, after = '\n' :: later) := by
  induction text with
  | nil => exact ⟨[], [], rfl, nofun, .inl rfl⟩
  | cons character text induction =>
      by_cases feed : character = '\n'
      · exact ⟨[], character :: text, rfl, nofun, .inr ⟨text, by rw [feed]⟩⟩
      · rcases induction with ⟨line, after, rfl, unbroken, ends⟩
        refine ⟨character :: line, after, rfl, ?_, ends⟩
        rw [List.mem_cons, not_or]
        exact ⟨Ne.symm feed, unbroken⟩

/-- Every offset lies on some line. -/
theorem exists_isLine {text : List Char} {offset : Nat} (within : offset ≤ text.length) :
    ∃ before line after, text = before ++ line ++ after ∧ IsLine before line after ∧
      before.length ≤ offset ∧ offset ≤ before.length + line.length := by
  rcases exists_lineStart (text.take offset) with ⟨before, line, taken, unbroken, begins⟩
  rcases exists_lineEnd (text.drop offset) with ⟨line', after, dropped, unbroken', ends⟩
  have length : offset = before.length + line.length := by
    rw [← List.length_append, ← taken, List.length_take_of_le within]
  refine ⟨before, line ++ line', after, ?_, ⟨begins, ?_, ends⟩, by omega, ?_⟩
  · rw [← List.append_assoc, ← taken, List.append_assoc, ← dropped, List.take_append_drop]
  · rw [List.mem_append, not_or]
    exact ⟨unbroken, unbroken'⟩
  · rw [List.length_append]
    omega

namespace IsLine

variable {before line after : List Char} (isLine : IsLine before line after)

include isLine

theorem getLastD_lineStarts (column : Nat) :
    (lineStarts (before ++ line.take column)).getLastD 0 = before.length := by
  have unbroken : breaksFrom before.length (line.take column) = [] := by
    rw [← List.length_eq_zero_iff, length_breaksFrom, List.count_eq_zero]
    exact fun among => isLine.unbroken (List.mem_of_mem_take among)
  rw [lineStarts_append, unbroken, List.append_nil]
  rcases isLine.begins with rfl | ⟨earlier, rfl⟩
  · rfl
  · simp [lineStarts_append, breaksFrom]

/-- A place on a line: the line feeds before the line count its lines, and what stands before it on
the line its columns. -/
theorem position_eq {column : Nat} (within : column ≤ line.length) :
    position (before ++ line ++ after) (before.length + column) = ⟨1 + before.count '\n', column⟩ := by
  have shape : before ++ line ++ after =
      (before ++ line.take column) ++ (line.drop column ++ after) := by
    rw [List.append_assoc before (line.take column), ← List.append_assoc (line.take column),
      List.take_append_drop, List.append_assoc]
  have length : (before ++ line.take column).length = before.length + column := by
    simp [within]
  have unbroken : (line.take column).count '\n' = 0 :=
    List.count_eq_zero.mpr fun among => isLine.unbroken (List.mem_of_mem_take among)
  rw [position, positionAmong, shape, ← length, takeWhile_lineStarts, isLine.getLastD_lineStarts,
    length_lineStarts, List.count_append, unbroken, length]
  simp

end IsLine

/-- The lines behind a line feed. -/
theorem lines_append_feed (before rest : List Char) (index : Nat) :
    (lines (before ++ '\n' :: rest))[before.count '\n' + 1 + index]? = (lines rest)[index]? := by
  induction before with
  | nil => simp [lines, Nat.add_comm 1]
  | cons character before induction =>
      rw [List.cons_append, lines, List.count_cons]
      by_cases feed : character = '\n'
      · simp only [feed, beq_self_eq_true, if_true]
        have next : before.count '\n' + 1 + 1 + index = before.count '\n' + 1 + index + 1 := by omega
        rw [next, List.getElem?_cons_succ, induction]
      · have next : before.count '\n' + 1 + index = before.count '\n' + index + 1 := by omega
        rw [next] at induction
        simp only [beq_iff_eq, feed, if_false, Nat.add_zero, next]
        rw [← induction]
        cases shape : lines (before ++ '\n' :: rest) with
        | nil => exact absurd shape (lines_ne_nil _)
        | cons first others => rfl

theorem head_lines {line after : List Char} (unbroken : '\n' ∉ line)
    (ends : after = [] ∨ ∃ later, after = '\n' :: later) : (lines (line ++ after))[0]? = some line := by
  induction line with
  | nil => rcases ends with rfl | ⟨later, rfl⟩ <;> simp [lines]
  | cons character line induction =>
      rw [List.mem_cons, not_or] at unbroken
      have first := induction unbroken.2
      rw [List.cons_append, lines, if_neg (by simpa using Ne.symm unbroken.1)]
      cases shape : lines (line ++ after) with
      | nil => exact absurd shape (lines_ne_nil _)
      | cons others =>
          rw [shape] at first
          cases first
          rfl

/-- The line behind so many line feeds. -/
theorem IsLine.getElem?_lines {before line after : List Char} (isLine : IsLine before line after) :
    (lines (before ++ line ++ after))[before.count '\n']? = some line := by
  have first := head_lines isLine.unbroken isLine.ends
  rcases isLine.begins with rfl | ⟨earlier, rfl⟩
  · exact first
  · have shape : earlier ++ ['\n'] ++ line ++ after = earlier ++ '\n' :: (line ++ after) := by simp
    rw [shape, List.count_append, ← first]
    exact lines_append_feed earlier (line ++ after) 0

/-! ## Positions -/

/-- The position is that of an offset in a text, and is on this line. -/
structure Position.Locates (position : Position) (text : List Char) (offset : Nat)
    (line : List Char) : Prop where
  within : offset ≤ text.length
  feeds : position.line = 1 + (text.take offset).count '\n'
  searched : position.line = bisect (lineStarts text) offset 0 (lineStarts text).length
  isLine : (lines text)[position.line - 1]? = some line
  onLine : position.column ≤ line.length
  stands : ∃ before after, text = before ++ line ++ after ∧ IsLine before line after ∧
    offset = before.length + position.column

theorem exists_locates {text : List Char} {offset : Nat} (within : offset ≤ text.length) :
    ∃ line, (position text offset).Locates text offset line := by
  rcases exists_isLine within with ⟨before, line, after, rfl, isLine, begun, ended⟩
  obtain ⟨column, rfl⟩ := Nat.exists_eq_add_of_le begun
  have onLine : column ≤ line.length := by omega
  have place := isLine.position_eq onLine
  refine ⟨line, within, ?_, line_position_eq_bisect within, ?_, ?_, before, after, rfl, isLine, ?_⟩
  · have taken : (before ++ line ++ after).take (before.length + column) =
        before ++ line.take column := by
      rw [List.append_assoc, List.take_length_add_append, List.take_append_of_le_length onLine]
    have unbroken : (line.take column).count '\n' = 0 :=
      List.count_eq_zero.mpr fun among => isLine.unbroken (List.mem_of_mem_take among)
    rw [place, taken, List.count_append, unbroken, Nat.add_zero]
  · rw [place, Nat.add_sub_cancel_left]
    exact isLine.getElem?_lines
  · rw [place]
    exact onLine
  · rw [place]

end Templating.Text

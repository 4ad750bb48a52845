import Templating.Proofs.ExpressionCompleteness
import Templating.Proofs.ExpressionSoundness

/-! # The grammar of expressions

The rule for expressions reads what is spelled like a well-formed expression, and nothing else.
Where a tag ends behind the expression, all of it is read and the end of the tag is left. -/

namespace Templating.Grammar

variable {room : Room}

open Text Templating.Expr

variable {expression : Expr} {text stop : List Char}

/-- The cursors of a source are told by their offsets. -/
theorem eq_after_of_reaches {source : List Char} {position : Nat} {later : Cursor}
    (reaches : (Cursor.after source position).Reaches later) :
    ∃ consumed, source.drop position = consumed ++ later.rest ∧
      later = .after source (position + consumed.length) := by
  rcases later with ⟨offset, rest⟩
  rcases reaches with ⟨consumed, read, moved⟩
  refine ⟨consumed, read, ?_⟩
  have rest_eq : rest = source.drop (position + consumed.length) := by
    rw [← List.drop_drop, show source.drop position = consumed ++ rest from read, List.drop_left]
  rw [Cursor.after, ← rest_eq]
  exact congrArg (Cursor.mk · rest) moved

/-- Whatever the rule for expressions yields is well formed, the text that it has read is a
spelling of it between blanks, and no blank is left behind it. -/
theorem expression_yields_spelled {source : List Char} {position : Nat} {later : Cursor}
    (matched : Grammar.expression (.after source position) = .matched expression later) :
    expression.WellFormed IsReadable ∧ expression.Padded (source.drop position) later.rest ∧
      Solid later.rest ∧ ∃ consumed, source.drop position = consumed ++ later.rest ∧
        later = .after source (position + consumed.length) := by
  rcases expressionWithin_sound bracketLimit matched with ⟨padded, wellFormed, _⟩
  exact ⟨wellFormed, padded, solid_of_expressionWithin matched,
    eq_after_of_reaches (Advancing.reaches matched)⟩

theorem expression_yields_spelled_sum :
    let _ : Room := ⟨20⟩
    ∃ value later, Grammar.expression (.after "(1 + a.b - \x7d\x7d".toList 1) = .matched value later ∧
      value.WellFormed IsReadable ∧ value.Padded "1 + a.b - \x7d\x7d".toList later.rest ∧
        Solid later.rest ∧ ∃ consumed, "1 + a.b - \x7d\x7d".toList = consumed ++ later.rest ∧
          later = .after "(1 + a.b - \x7d\x7d".toList (1 + consumed.length) := by
  intro room
  have matched : Grammar.expression (.after "(1 + a.b - \x7d\x7d".toList 1) = .matched
      (.binary 1 .add (.literal 1 .number "1") (.member 5 (.var 5 "a") "b"))
      ⟨9, "- \x7d\x7d".toList⟩ := rfl
  exact ⟨_, _, matched, expression_yields_spelled matched⟩

/-! ## Reading back -/

/-- A tag ends here, or the source does. -/
def EndsTag (text : List Char) : Prop :=
  text = [] ∨ ∃ (trim : Option Trim) (delimiter : String) (rest : List Char),
    delimiter ∈ ["\x7d\x7d", "%\x7d"] ∧
      text = (trim.map Trim.mark).toList ++ delimiter.toList ++ rest

theorem closes_of_delimiter {delimiter : String} {rest : List Char}
    (among : delimiter ∈ ["\x7d\x7d", "%\x7d"])
    (stands : afterBlanks text = delimiter.toList ++ rest) : Closes text := by
  simp only [List.mem_cons, List.not_mem_nil, or_false] at among
  rcases among with rfl | rfl
  · apply closes_of_head
    rw [stands]
    rintro _ ⟨⟩
    decide
  · apply closes_of_percent stands
    rintro _ ⟨⟩
    decide

theorem EndsTag.solid (ends : EndsTag stop) : Solid stop := by
  rcases ends with rfl | ⟨trim, delimiter, rest, among, rfl⟩
  · exact solid_nil
  simp only [List.mem_cons, List.not_mem_nil, or_false] at among
  rcases trim with _ | _ | _ | _ <;> rcases among with rfl | rfl <;> (rintro _ ⟨⟩; decide)

theorem EndsTag.stops (ends : EndsTag stop) (gap : Gap text stop) : Stops 0 text := by
  have stands := gap.afterBlanks_eq ends.solid
  rcases ends with rfl | ⟨trim, delimiter, rest, among, rfl⟩
  · apply stops_of_head
    rw [stands]
    nofun
  · cases trim with
    | none => exact (closes_of_delimiter among stands).stops
    | some trim =>
        refine stops_of_marker stands (closes_of_delimiter among (afterBlanks_of_solid ?_))
        simp only [List.mem_cons, List.not_mem_nil, or_false] at among
        rcases among with rfl | rfl <;> (rintro _ ⟨⟩; decide)

/-- Every spelling of a well-formed expression that a tag ends behind is read, up to the trim
marker or the delimiter that ends the tag. -/
theorem spelled_expression_is_read {offset : Nat} (wellFormed : expression.WellFormed IsReadable)
    (nesting : expression.nesting < bracketLimit) (padded : expression.Padded text stop)
    (ends : EndsTag stop) :
    ∃ value, Grammar.expression ⟨offset, text⟩ =
        .matched value ⟨offset + (text.length - stop.length), stop⟩ ∧
      expression.same value = true := by
  rcases padded with ⟨start, last, before, spelled, after⟩
  have stops := ends.stops after
  have reads := expression_reads wellFormed nesting before spelled (stops.mono (Nat.zero_le _))
  rw [after.afterBlanks_eq ends.solid] at reads
  rcases reads offset with ⟨value, offset', matched, agrees⟩
  rcases Advancing.reaches matched with ⟨consumed, read, moved⟩
  have length_eq : text.length - stop.length = consumed.length := by
    rw [show text = consumed ++ stop from read, List.length_append, Nat.add_sub_cancel]
  rw [length_eq, ← show offset' = offset + consumed.length from moved]
  exact ⟨value, matched, agrees⟩

theorem spelled_expression_is_read_range :
    let _ : Room := ⟨20⟩
    ∃ value, Grammar.expression ⟨3, "xs [ 0 ].. -\x7d\x7d".toList⟩ =
        .matched value ⟨3 + ("xs [ 0 ].. -\x7d\x7d".toList.length -
          "-\x7d\x7d".toList.length), "-\x7d\x7d".toList⟩ ∧
      (Expr.range 0 .halfOpen (some (.item 0 (.var 0 "xs") (.literal 0 .number "0"))) none).same
        value = true := by
  intro room
  have endsName : EndsName " [ 0 ].. -\x7d\x7d".toList := by rintro _ ⟨⟩; rfl
  have endsNumber : EndsNumber "0".toList " ].. -\x7d\x7d".toList :=
    ⟨by rintro _ ⟨⟩; rfl, nofun⟩
  apply spelled_expression_is_read
  · refine .range ?_ ?_ nofun nofun
    · rintro _ ⟨⟩
      exact .item (.var rfl (by decide) (by decide) rfl) (Nat.le_succ _) (.literal (.inl rfl))
    · rintro _ ⟨⟩
      decide
  · decide +revert
  · refine ⟨_, " -\x7d\x7d".toList, .refl _, ?_, .cons rfl (.refl _)⟩
    refine ⟨".. -\x7d\x7d".toList, _, ?_, ⟨.refl _, fun _ => nofun⟩, rfl⟩
    exact ⟨_, " 0 ].. -\x7d\x7d".toList, "0 ].. -\x7d\x7d".toList, _, ⟨rfl, rfl, endsName⟩,
      .cons rfl (.refl _), .cons rfl (.refl _), ⟨rfl, endsNumber⟩, .cons rfl (.refl _)⟩
  · exact .inr ⟨some .suppress, "\x7d\x7d", [], by decide, rfl⟩

/-- A qualified name may not begin like a literal: of such a name only the literal is read. -/
theorem qualified_name_after_true_is_not_read :
    let _ : Room := ⟨20⟩
    ∃ (expression : Expr) (text stop : List Char), expression.WellFormed IsQualified ∧
      expression.nesting < bracketLimit ∧ expression.Padded text stop ∧ EndsTag stop ∧
        ¬ ∃ value later, Grammar.expression ⟨0, text⟩ = .matched value later ∧
          expression.same value = true := by
  intro room
  refine ⟨.path 0 ["true", "x"], "true::x".toList, [], ?_, ?_, ?_, .inl rfl, ?_⟩
  · exact .path ⟨.inr ⟨rfl, .inl (by decide)⟩, by decide⟩
  · decide +revert
  · have endsName : EndsName "::x".toList := by rintro _ ⟨⟩; rfl
    refine ⟨_, [], .refl _, ⟨by rintro _ ⟨⟩; rfl, "::x".toList, ⟨rfl, endsName⟩, ?_⟩, .refl _⟩
    exact ⟨"x".toList, "x".toList, [], .refl _, .refl _, ⟨rfl, rfl, endsName_nil⟩, rfl⟩
  · rintro ⟨value, later, matched, same⟩
    have read : Grammar.expression ⟨0, "true::x".toList⟩ =
        .matched (.literal 0 .boolean "true") ⟨4, "::x".toList⟩ := rfl
    rw [read] at matched
    cases matched
    cases same

end Templating.Grammar

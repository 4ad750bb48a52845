import Templating.Proofs.ExpressionGrammar
import Templating.Proofs.PatternCompleteness
import Templating.Proofs.PatternSoundness

/-! # The grammar of patterns

The rule for patterns yields only what is spelled by the text that it has read. It reads every
spelling of a pattern behind which an equals sign stands, a tag ends, or the source does. -/

namespace Templating

variable {room : Room}

open Text

/-- The pattern stands between blanks. -/
def Pattern.Padded [Room] (pattern : Pattern) (text rest : List Char) : Prop :=
  ∃ start last, Gap text start ∧ pattern.SpelledWithin Grammar.bracketLimit start last ∧
    Gap last rest

namespace Grammar

variable {pattern : Pattern} {cursor later : Cursor} {offset : Nat} {text last stop : List Char}

theorem pattern_sound (matched : Grammar.pattern cursor = .matched pattern later) :
    pattern.Padded cursor.rest later.rest ∧ Solid later.rest := by
  rcases patternWithin_sound bracketLimit matched with ⟨start, last, before, spelled, after, solid⟩
  exact ⟨⟨start, last, before, spelled, after⟩, solid⟩

/-! ## What a pattern ends before -/

/-- A pattern that is bound ends here: at an equals sign, at the end of a tag or of the source. -/
def EndsBound (text : List Char) : Prop :=
  (∃ rest, text = '=' :: rest) ∨ EndsTag text

theorem EndsBound.solid (ends : EndsBound stop) : Solid stop := by
  rcases ends with ⟨rest, rfl⟩ | ends
  · rintro _ ⟨⟩
    decide
  · exact ends.solid

theorem EndsTag.endsPattern (ends : EndsTag stop) : EndsPattern stop := by
  unfold EndsPattern
  rw [afterBlanks_of_solid ends.solid]
  rcases ends with rfl | ⟨trim, delimiter, rest, among, rfl⟩
  · nofun
  · simp only [List.mem_cons, List.not_mem_nil, or_false] at among
    rcases trim with _ | _ | _ | _ <;> rcases among with rfl | rfl <;> (rintro _ ⟨⟩; decide)

/-- Blanks before the end make no difference. -/
theorem EndsBound.endsPattern (ends : EndsBound stop) (gap : Gap last stop) :
    EndsPattern last := by
  unfold EndsPattern
  rw [gap.afterBlanks_eq ends.solid, ← afterBlanks_of_solid ends.solid]
  rcases ends with ⟨rest, rfl⟩ | ends
  · rintro _ ⟨⟩
    decide
  · exact ends.endsPattern

/-! ## Reading back -/

theorem pattern_complete (padded : pattern.Padded text stop) (ends : EndsBound stop) :
    ∃ value, Grammar.pattern ⟨offset, text⟩ =
        .matched value ⟨offset + (text.length - stop.length), stop⟩ ∧
      pattern.same value = true := by
  rcases padded with ⟨start, last, before, spelled, after⟩
  have reads := (patternWithin_complete bracketLimit).reads before spelled (ends.endsPattern after)
  rw [after.afterBlanks_eq ends.solid] at reads
  rcases reads offset with ⟨value, offset', matched, agrees⟩
  have matched : Grammar.pattern ⟨offset, text⟩ = .matched value ⟨offset', stop⟩ := matched
  rcases Advancing.reaches matched with ⟨consumed, read, moved⟩
  have length_eq : text.length - stop.length = consumed.length := by
    rw [show text = consumed ++ stop from read, List.length_append, Nat.add_sub_cancel]
  rw [length_eq, ← show offset' = offset + consumed.length from moved]
  exact ⟨value, matched, agrees⟩

/-- The rule for patterns reads exactly what is spelled like a pattern. What it yields at a place
of a source is spelled by the text up to where it stops, between blanks; and every spelling of a
pattern that an equals sign, the end of a tag or the end of the source stands behind is read as
that pattern, up to there. -/
theorem pattern_reads_exactly_spelled (source : List Char) (position : Nat) :
    (∀ {value : Pattern} {later : Cursor},
      Grammar.pattern (.after source position) = .matched value later →
      value.Padded (source.drop position) later.rest ∧ Solid later.rest ∧
        ∃ consumed, source.drop position = consumed ++ later.rest ∧
          later = .after source (position + consumed.length)) ∧
    ∀ {pattern : Pattern} {consumed stop : List Char}, source.drop position = consumed ++ stop →
      pattern.Padded (source.drop position) stop → EndsBound stop →
        ∃ value, Grammar.pattern (.after source position) =
            .matched value (.after source (position + consumed.length)) ∧
          pattern.same value = true := by
  constructor
  · intro value later matched
    rcases pattern_sound matched with ⟨padded, solid⟩
    exact ⟨padded, solid, eq_after_of_reaches (Advancing.reaches matched)⟩
  · intro pattern consumed stop read padded ends
    rcases pattern_complete padded ends with ⟨value, matched, agrees⟩
    refine ⟨value, matched.trans ?_, agrees⟩
    have rest_eq : source.drop (position + consumed.length) = stop := by
      rw [← List.drop_drop, read, List.drop_left]
    rw [Cursor.after, rest_eq, read, List.length_append, Nat.add_sub_cancel]

theorem pattern_reads_exactly_spelled_payload :
    let _ : Room := ⟨20⟩
    ∃ value later, Grammar.pattern (.after "let P with (a,) = 1".toList 3) = .matched value later ∧
      value.Padded " P with (a,) = 1".toList later.rest ∧
      (Pattern.tuple 0 ["P"] [.name 0 "a"]).Padded " P with (a,) = 1".toList "= 1".toList ∧
      later = .after "let P with (a,) = 1".toList 16 ∧
        (Pattern.tuple 0 ["P"] [.name 0 "a"]).same value = true := by
  intro room
  have readable : IsReadable ["P"] :=
    ⟨⟨.inr ⟨rfl, .inr (by decide)⟩, nofun⟩, by rintro _ ⟨⟩; decide⟩
  have padded : (Pattern.tuple 0 ["P"] [.name 0 "a"]).Padded " P with (a,) = 1".toList
      "= 1".toList := by
    have endsPath : EndsName " with (a,) = 1".toList := by rintro _ ⟨⟩; rfl
    have endsWith : EndsName " (a,) = 1".toList := by rintro _ ⟨⟩; rfl
    have endsName : EndsName ",) = 1".toList := by rintro _ ⟨⟩; rfl
    refine ⟨"P with (a,) = 1".toList, " = 1".toList, .cons rfl (.refl _), .inl ?_,
      .cons rfl (.refl _)⟩
    refine ⟨readable, " with (a,) = 1".toList, " (a,) = 1".toList, "a,) = 1".toList, ?_, ?_,
      .cons rfl (.refl _), ?_⟩
    · exact ⟨by rintro _ ⟨⟩; rfl, _, ⟨rfl, endsPath⟩, rfl⟩
    · exact .inr ⟨"with (a,) = 1".toList, .cons rfl (.refl _), ⟨rfl, endsWith⟩⟩
    · exact ⟨",) = 1".toList, ") = 1".toList,
        ⟨_, _, .refl _, .inl ⟨by decide, ⟨rfl, ⟨rfl, endsName⟩⟩⟩, rfl⟩, .inr ⟨rfl, .refl _⟩, .refl _⟩
  have ends : EndsBound "= 1".toList := .inl ⟨_, rfl⟩
  have read : "let P with (a,) = 1".toList.drop 3 = " P with (a,) ".toList ++ "= 1".toList := rfl
  rcases (pattern_reads_exactly_spelled "let P with (a,) = 1".toList 3).2 read padded ends with
    ⟨value, matched, same⟩
  have sound := (pattern_reads_exactly_spelled "let P with (a,) = 1".toList 3).1 matched
  exact ⟨value, _, matched, sound.1, padded, rfl, same⟩

/-- A literal is tried before a qualified name: of a name below `true` only the literal is
read. -/
theorem qualified_pattern_after_true_is_not_read :
    let _ : Room := ⟨20⟩
    ∃ (segments : List String) (text : List Char), IsQualified segments ∧
      PathAt segments text [] ∧ EndsBound [] ∧
        Grammar.pattern (.start text) = .matched (.literal 0 .boolean "true") (.after text 4) ∧
          ¬ ∃ value later, Grammar.pattern (.start text) = .matched value later ∧
            (Pattern.path 0 segments).same value = true := by
  intro room
  have endsName : EndsName "::x".toList := by rintro _ ⟨⟩; rfl
  have read : Grammar.pattern (.start "true::x".toList) =
      .matched (.literal 0 .boolean "true") (.after "true::x".toList 4) := rfl
  refine ⟨["true", "x"], "true::x".toList, ⟨.inr ⟨rfl, .inl (by decide)⟩, by decide⟩, ?_,
    .inr (.inl rfl), read, ?_⟩
  · exact ⟨by rintro _ ⟨⟩; rfl, "::x".toList, ⟨rfl, endsName⟩, "x".toList, "x".toList, [], .refl _,
      .refl _, ⟨rfl, rfl, endsName_nil⟩, rfl⟩
  · rintro ⟨value, later, matched, same⟩
    rw [read] at matched
    cases matched
    cases same

end Grammar

end Templating

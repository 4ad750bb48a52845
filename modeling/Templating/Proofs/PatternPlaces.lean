import Templating.Proofs.ExpressionPlaces
import Templating.Proofs.PatternSoundness

/-! # Where patterns are read

What a rule for patterns yields is in turn where it has been read. Parentheses around one pattern leave
no trace of their own: the pattern begins behind them. -/

namespace Templating.Grammar

variable {room : Room}

open Text Element

variable {α : Type} {dialect : Dialect} {source : List Char} {pattern : Pattern}
  {nested : Grammar Pattern} {cursor later : Cursor} {start middle stop : Nat}

/-! ## Beginnings -/

/-- A pattern that begins with a character of its own. -/
theorem pattern_inTurn {items : List Pattern}
    (inside : InTurn dialect source middle (items.map .pattern) stop) (solid : SolidAt source start)
    (lower : start ≤ middle) (upper : start < stop) (begins : pattern.offset = start)
    (children : pattern.children = items) : InTurn dialect source start [.pattern pattern] stop := by
  subst begins
  have inside : InTurn dialect source middle (Element.pattern pattern).children stop := by
    rw [Element.children, children]
    exact inside
  exact inside.parent lower upper solid trivial

theorem leafPattern_inTurn (located : cursor.LiesIn source) (solid : Solid cursor.rest)
    (passes : cursor.Passes later) (begins : pattern.offset = cursor.offset)
    (children : pattern.children = []) :
    InTurn dialect source cursor.offset [.pattern pattern] later.offset :=
  pattern_inTurn .nil (solidAt_of_passes located solid passes) (Nat.le_refl _) passes.offset_lt begins
    children

/-! ## Rules -/

/-- What is read in a list is in turn, if what each item is read with is. -/
theorem payload_places {closing : Char} {item : Grammar α} [Advancing item] {embed : α → Element}
    (places : Places dialect source item fun value => [embed value]) :
    Places dialect source (payload closing item) fun values => values.map embed := by
  intro cursor values later matched located
  simp only [payload, orElse_eq_matched, bind_eq_matched, pure_eq_matched] at matched
  rcases matched with ⟨_, _, _, rfl, _⟩ | ⟨_, first, between, read, others, last, repeated, _, _,
    comma, _, _, closed, rfl, rfl⟩
  · exact .nil
  · have reaches := Advancing.reaches read
    have further := (places.expect.behind.behind).many repeated (located.of_reaches reaches)
    have ended := (Advancing.reaches comma).trans (Advancing.reaches closed)
    exact ((places.expect read located).append further reaches.offset_le
      (Advancing.reaches repeated).offset_le).mono (Nat.le_refl _) ended.offset_le

theorem groupPattern_places [Advancing nested]
    (places : Places dialect source nested fun value => [.pattern value])
    (located : cursor.LiesIn source) (solid : Solid cursor.rest)
    (matched : groupPattern nested cursor = .matched pattern later) :
    InTurn dialect source cursor.offset [.pattern pattern] later.offset := by
  have passes := Consuming.passes matched
  simp only [groupPattern, bind_eq_matched, here_eq_matched, orElse_eq_matched, pure_eq_matched]
    at matched
  rcases matched with ⟨_, _, ⟨rfl, rfl⟩, _, begun, opening, matched⟩
  have opened : cursor.Reaches begun := Advancing.reaches opening
  rcases matched with ⟨_, _, _, rfl, rfl⟩ | ⟨_, first, between, read, matched⟩
  · exact leafPattern_inTurn located solid passes rfl rfl
  have inside := places read (located.of_reaches opened)
  rcases matched with ⟨_, _, closing, rfl, rfl⟩ | ⟨_, others, last, repeated, _, _, comma, _, _,
    closed, rfl, rfl⟩
  · exact inside.mono opened.offset_le (Advancing.reaches closing).offset_le
  · have reaches := Advancing.reaches read
    have further := places.behind.many repeated ((located.of_reaches opened).of_reaches reaches)
    have items := inside.append further reaches.offset_le (Advancing.reaches repeated).offset_le
    have ended := (Advancing.reaches comma).trans (Advancing.reaches closed)
    exact pattern_inTurn (items.mono (Nat.le_refl _) ended.offset_le)
      (solidAt_of_passes located solid passes) opened.offset_le passes.offset_lt rfl rfl

theorem field_places [Advancing nested]
    (places : Places dialect source nested fun value => [.pattern value]) :
    Places dialect source (field nested) fun field => [.pattern field.pattern] := by
  intro cursor value later matched located
  simp only [field, bind_eq_matched, here_eq_matched, orElse_eq_matched, pure_eq_matched] at matched
  rcases matched with ⟨_, begun, blanks, _, _, ⟨rfl, rfl⟩, label, named, labelled, matched⟩
  have solid := (spaces_yields blanks).2
  have spaced := Advancing.reaches blanks
  have located := located.of_reaches spaced
  rcases matched with ⟨_, _, colon, _, _, read, rfl, rfl⟩ | ⟨_, rfl, rfl⟩
  · have reaches := (Advancing.reaches labelled).trans (Advancing.reaches colon)
    exact (places.expect read (located.of_reaches reaches)).mono
      (spaced.trans reaches).offset_le (Nat.le_refl _)
  · exact (leafPattern_inTurn located solid (Consuming.passes labelled) rfl rfl).mono
      spaced.offset_le (Nat.le_refl _)

theorem pathPattern_places [Advancing nested]
    (places : Places dialect source nested fun value => [.pattern value])
    (located : cursor.LiesIn source) (solid : Solid cursor.rest)
    (matched : pathPattern nested cursor = .matched pattern later) :
    InTurn dialect source cursor.offset [.pattern pattern] later.offset := by
  have passes := Consuming.passes matched
  simp only [pathPattern, bind_eq_matched, here_eq_matched, orElse_eq_matched, pure_eq_matched]
    at matched
  rcases matched with ⟨_, _, ⟨rfl, rfl⟩, segments, named, read, matched⟩
  have reaches := Advancing.reaches read
  rcases matched with matched | ⟨_, matched | ⟨_, rfl, rfl⟩⟩
  · rcases matched with ⟨_, _, word, _, _, bracket, items, _, listed, rfl, rfl⟩
    have opened := reaches.trans ((Advancing.reaches word).trans (Advancing.reaches bracket))
    exact pattern_inTurn (payload_places places listed (located.of_reaches opened))
      (solidAt_of_passes located solid passes) opened.offset_le passes.offset_lt rfl rfl
  · rcases matched with ⟨_, _, word, _, begun, bracket, fields, ended, listed, rfl, rfl⟩
    have opened := reaches.trans ((Advancing.reaches word).trans (Advancing.reaches bracket))
    have inside : InTurn dialect source begun.offset ((fields.map Field.pattern).map .pattern)
        ended.offset := by
      rw [List.map_map]
      exact payload_places (field_places places) listed (located.of_reaches opened)
    exact pattern_inTurn inside (solidAt_of_passes located solid passes) opened.offset_le
      passes.offset_lt rfl rfl
  · exact leafPattern_inTurn located solid passes rfl rfl

theorem patternOf_places [Advancing nested]
    (places : Places dialect source nested fun value => [.pattern value]) :
    Places dialect source (patternOf nested) fun value => [.pattern value] := by
  intro cursor value later matched located
  simp only [patternOf, spaced, bind_eq_matched, pure_eq_matched] at matched
  rcases matched with ⟨_, begun, blanks, found, ended, read, _, _, after, rfl, rfl⟩
  have solid := (spaces_yields blanks).2
  have spaced := Advancing.reaches blanks
  have located := located.of_reaches spaced
  suffices inTurn : InTurn dialect source begun.offset [.pattern found] ended.offset from
    inTurn.mono spaced.offset_le (Advancing.reaches after).offset_le
  simp only [orElse_eq_matched] at read
  rcases read with read | ⟨_, read | ⟨_, read | ⟨_, read⟩⟩⟩
  · have passes := Consuming.passes read
    simp only [literalPattern, bind_eq_matched, here_eq_matched, orElse_eq_matched, pure_eq_matched]
      at read
    rcases read with ⟨_, _, ⟨rfl, rfl⟩, ⟨_, _, _, rfl, rfl⟩ | ⟨_, ⟨_, _, _, rfl, rfl⟩ |
      ⟨_, ⟨_, _, _, rfl, rfl⟩ | ⟨_, _, _, _, rfl, rfl⟩⟩⟩⟩ <;>
    exact leafPattern_inTurn located solid passes rfl rfl
  · exact groupPattern_places places located solid read
  · exact pathPattern_places places located solid read
  · have passes := Consuming.passes read
    simp only [namePattern, bind_eq_matched, here_eq_matched, pure_eq_matched] at read
    rcases read with ⟨_, _, ⟨rfl, rfl⟩, _, _, _, rfl, rfl⟩
    exact leafPattern_inTurn located solid passes rfl rfl

theorem pattern_places : Places dialect source Grammar.pattern fun value => [.pattern value] := by
  have within (brackets : Nat) :
      Places dialect source (patternWithin brackets) fun value => [.pattern value] := by
    induction brackets with
    | zero => exact nofun
    | succ brackets induction => exact patternOf_places induction
  exact within bracketLimit

end Templating.Grammar

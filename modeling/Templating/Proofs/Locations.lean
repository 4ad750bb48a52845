import Templating.Proofs.Lines
import Templating.Proofs.NodePlaces

/-! # Locations of elements

An element is located by the line and the column of its offset. What stands there in the source is the
element's own, and a walk meets the elements of a tree in the order in which they begin. -/

namespace Templating

variable {room : Room}

open Text Grammar

/-! ## Positions -/

theorem Text.getLastD_takeWhile_le (starts : List Nat) (offset : Nat) :
    (starts.takeWhile (· ≤ offset)).getLastD 0 ≤ offset := by
  rw [List.getLastD_eq_getLast?]
  cases shape : (starts.takeWhile (· ≤ offset)).getLast? with
  | none => exact Nat.zero_le _
  | some last =>
      have begun := List.all_eq_true.mp List.all_takeWhile last (List.mem_of_getLast? shape)
      simpa using begun

/-- No two offsets have one position. -/
theorem Text.position_injective {text : List Char} {offset offset' : Nat}
    (same : position text offset = position text offset') : offset = offset' := by
  have begun : (lineStarts text).takeWhile (· ≤ offset) = (lineStarts text).takeWhile (· ≤ offset') := by
    have lines : ((lineStarts text).takeWhile (· ≤ offset)).length =
        ((lineStarts text).takeWhile (· ≤ offset')).length := congrArg Position.line same
    exact (List.prefix_of_prefix_length_le (List.takeWhile_prefix _) (List.takeWhile_prefix _)
      (Nat.le_of_eq lines)).eq_of_length lines
  have columns : offset - ((lineStarts text).takeWhile (· ≤ offset)).getLastD 0 =
      offset' - ((lineStarts text).takeWhile (· ≤ offset')).getLastD 0 :=
    congrArg Position.column same
  have lower := getLastD_takeWhile_le (lineStarts text) offset
  have lower' := getLastD_takeWhile_le (lineStarts text) offset'
  rw [begun] at lower columns
  omega

/-! ## Elements -/

namespace Element

/-- The element is at a place of the source, which its line and column tell, and what stands there is
its own. An element that begins with one of its children begins where that child does. -/
structure Located (dialect : Dialect) (source : List Char) (element : Element) : Prop where
  within : element.offset < source.length
  located : ∃ line, (position source element.offset).Locates source element.offset line
  only : ∀ offset, position source offset = position source element.offset → offset = element.offset
  begins : element.Begins dialect source
  solid : (∃ offset passage, element = .node (.text offset passage)) ∨ SolidAt source element.offset
  leads : element.Leads

variable {dialect : Dialect} {source : List Char} {element : Element}

theorem Begins.solidAt (begins : element.Begins dialect source) :
    (∃ offset passage, element = .node (.text offset passage)) ∨ SolidAt source element.offset := by
  cases element with
  | template => cases begins
  | node node =>
      cases node with
      | text offset passage => exact .inl ⟨offset, passage, rfl⟩
      | comment | output => exact .inr (solidAt_of_delimiter begins)
      | _ => exact .inr (solidAt_of_delimiter (TagBegins.delimiter begins))
  | branch | arm => exact .inr (solidAt_of_delimiter (TagBegins.delimiter begins))
  | condition | expr | pattern => exact .inr begins

end Element

namespace Template

variable {dialect : Dialect} {source : Source} {template : Template}

theorem inTurn_of_parsed (parsed : parse dialect source = .ok template) :
    ∃ stop ≤ source.chars.length, Element.InTurn dialect source.chars 0
      (Element.template template).children stop := by
  rcases (Parser.parse_eq_ok dialect).mp parsed with ⟨later, counters, read, _⟩
  rw [Parser.nodes_eq_scoped] at read
  have read : Scoped.nodesWithin dialect .zero (dialect.maxDepth + 1) [.template]
      (.start source.chars) = .matched template.body later := congrArg Prod.fst read
  have reaches : (Cursor.start source.chars).Reaches later := Advancing.reaches read
  refine ⟨later.offset, ?_, Scoped.nodesWithin_places _ _ _ read rfl⟩
  rcases reaches with ⟨text, shape, moved⟩
  have length : source.chars.length = text.length + later.rest.length := by
    rw [← List.length_append, ← shape]
    rfl
  have begun : later.offset = 0 + text.length := moved
  omega

/-- Every element of a template but the template itself is located in the source at what is its own:
a text at its first character, a comment, an output, a statement, a branch and an arm at the delimiter
that opens it, and everything else at a character that is not blank. If no choice has its arm for
everything else written before another arm, the children of every element begin one after the other
and not before it, and a walk meets no element that begins before one that it has met. -/
theorem elements_begin_in_place (parsed : parse dialect source = .ok template) :
    (∀ element ∈ (Element.template template).walk, element ≠ .template template →
      element.Located dialect source.chars) ∧
    ((∀ element ∈ (Element.template template).walk, ¬ element.HasEarlyElse dialect source.chars) →
      (∀ element ∈ (Element.template template).walk,
        (∀ child ∈ element.children, element.offset ≤ child.offset) ∧
        element.children.Pairwise fun former latter => former.offset < latter.offset) ∧
      (Element.template template).walk.Pairwise fun former latter =>
        former.offset ≤ latter.offset) := by
  rcases inTurn_of_parsed parsed with ⟨stop, within, inTurn⟩
  refine ⟨fun element member inner => ?_, fun inOrder => ?_⟩
  · rw [Element.walk_eq] at member
    have member := (List.mem_cons.mp member).resolve_left inner
    rcases inTurn.between element member with ⟨_, ended, inPlace⟩
    have inside : element.offset < source.chars.length := Nat.lt_of_lt_of_le ended within
    refine ⟨inside, exists_locates (Nat.le_of_lt inside), fun _ same => position_injective same,
      inPlace.begins, inPlace.begins.solidAt, inPlace.leads⟩
  · have ordered : ∀ element ∈ (Element.template template).walk, element.Ordered := by
      intro element member
      have inOrder := inOrder element member
      rw [Element.walk_eq] at member
      rcases List.mem_cons.mp member with rfl | member
      · exact inTurn.ordered (Nat.le_refl _)
      · exact (inTurn.between element member).2.2.ordered inOrder
    refine ⟨fun element member => ⟨(ordered element member).behind, ?_⟩, ?_⟩
    · exact (ordered element member).apart.imp fun before =>
        before _ (Element.mem_walk_self _)
    · exact Element.pairwise_walkAll ordered (List.pairwise_singleton _ _)

/-- The arm for everything else is written last, and the walk is in the order of the source. -/
theorem elements_begin_in_place_elseLast :
    let _ : Room := ⟨20⟩
    let source : Source := ⟨"\x7b% match x.y %\x7d\x7b% when P(v) %\x7d\x7b\x7b a + b | f \x7d\x7d" ++
      "\x7b% else %\x7d\x7b% if let n = c.d %\x7d \x7b% endif %\x7d\x7b% endmatch %\x7d", none, none⟩
    ∃ template, parse .standard source = .ok template ∧
      (Element.template template).walk.map Element.offset =
        [0, 0, 9, 9, 15, 23, 25, 30, 33, 33, 37, 37, 45, 45, 55, 55, 61, 65, 69, 69, 75] ∧
      (∀ element ∈ (Element.template template).walk, element ≠ .template template →
        element.Located .standard source.chars) ∧
      (∀ element ∈ (Element.template template).walk,
        (∀ child ∈ element.children, element.offset ≤ child.offset) ∧
        element.children.Pairwise fun former latter => former.offset < latter.offset) ∧
      (Element.template template).walk.Pairwise fun former latter =>
        former.offset ≤ latter.offset := by
  intro room source
  have facts : (parse .standard source).toOption.map (fun template =>
      ((Element.template template).walk.map Element.offset,
        decide (∀ element ∈ (Element.template template).walk,
          ¬ element.HasEarlyElse .standard source.chars))) =
      some ([0, 0, 9, 9, 15, 23, 25, 30, 33, 33, 37, 37, 45, 45, 55, 55, 61, 65, 69, 69, 75],
        true) := by
    decide +kernel
  cases parsed : parse .standard source with
  | error failure =>
      rw [parsed] at facts
      cases facts
  | ok template =>
      rw [parsed] at facts
      have facts := Prod.mk.inj (Option.some.inj facts)
      have told := elements_begin_in_place parsed
      exact ⟨template, rfl, facts.1, told.1, told.2 (of_decide_eq_true facts.2)⟩

end Template

end Templating

import Templating.Proofs.TagForm
import Templating.Proofs.Walking

/-! # Elements in their places

What stands in a source where an element of its tree begins, and in which order the elements of a tree
begin. Elements that have been read one behind the other are in turn: all of the tree of one is written
before the next. -/

namespace Templating

open Text Grammar

/-! ## Places of a source -/

/-- The cursor is a place of the source. -/
def Cursor.LiesIn (source : List Char) (cursor : Cursor) : Prop :=
  cursor = .after source cursor.offset

/-- A character that is not blank stands at the offset. -/
def Text.SolidAt (source : List Char) (offset : Nat) : Prop :=
  ∃ first rest, source.drop offset = first :: rest ∧ isSpace first = false

/-- A tag with one of the words begins. -/
def Grammar.TagBegins (dialect : Dialect) (words : List String) (text : List Char) : Prop :=
  ∃ left word rest, word ∈ words ∧ TagOpensAt dialect left word text rest

section

variable {dialect : Dialect} {source text : List Char} {offset : Nat} {cursor later : Cursor}
  {words : List String}

theorem Cursor.LiesIn.of_reaches (located : cursor.LiesIn source) (reaches : cursor.Reaches later) :
    later.LiesIn source := by
  rw [located] at reaches
  rcases eq_after_of_reaches reaches with ⟨_, _, rfl⟩
  rfl

theorem Cursor.LiesIn.drop_eq (located : cursor.LiesIn source) :
    source.drop cursor.offset = cursor.rest :=
  (congrArg Cursor.rest located).symm

theorem Text.solidAt_of_passes (located : cursor.LiesIn source) (solid : Solid cursor.rest)
    (passes : cursor.Passes later) : SolidAt source cursor.offset := by
  rw [SolidAt, located.drop_eq]
  cases shape : cursor.rest with
  | nil =>
      have shorter := passes.2
      rw [shape] at shorter
      cases shorter
  | cons first rest =>
      rw [shape] at solid
      exact ⟨first, rest, rfl, solid_cons.mp solid⟩

theorem Text.solidAt_of_delimiter {delimiter : Delimiter}
    (stands : delimiter.chars <+: source.drop offset) : SolidAt source offset := by
  rcases stands with ⟨rest, shape⟩
  cases chars : delimiter.chars with
  | nil =>
      have long := delimiter.long
      rw [chars] at long
      cases long
  | cons first others =>
      exact ⟨first, others ++ rest, by rw [← shape, chars, List.cons_append],
        delimiter.isSpace_head chars⟩

theorem Grammar.TagBegins.delimiter (begins : TagBegins dialect words text) :
    dialect.blockStart.chars <+: text := by
  rcases begins with ⟨_, _, _, _, marked, _, _, rfl, _⟩
  exact List.prefix_append _ _

/-- A tag begins where it is read. -/
theorem Grammar.tagBegins_iff {word : String} (isName : isName word.toList = true) :
    TagBegins dialect [word] text ↔
      ∃ opened later, tag dialect [word] ⟨offset, text⟩ = .matched opened later := by
  constructor
  · rintro ⟨left, _, rest, among, opens⟩
    cases List.mem_singleton.mp among
    have reads : Reads (tag dialect [word]) text (fun _ => True) (afterBlanks rest) := by
      rw [tag_eq]
      apply opens.reads isName
      intro _ _ _ written
      apply (word_reads written.2).orElse.bind
      intro _ _
      apply (spaces_reads (gap_afterBlanks _) (solid_afterBlanks _)).bind
      intro _ _
      exact .pure trivial
    rcases reads offset with ⟨opened, _, read, _⟩
    exact ⟨opened, _, read⟩
  · rintro ⟨opened, later, read⟩
    rcases tag_yields read with ⟨_, among, named, opens, _⟩
    exact ⟨opened.trim, opened.word, named, among, opens⟩

/-- To decide whether a tag begins, read it. -/
def Grammar.decidableTagBegins {word : String} (isName : isName word.toList = true) :
    Decidable (TagBegins dialect [word] text) :=
  match read : tag dialect [word] ⟨0, text⟩ with
  | .matched opened later => .isTrue ((tagBegins_iff isName).mpr ⟨opened, later, read⟩)
  | .noMatch | .failed _ => .isFalse fun begins => by
      rcases (tagBegins_iff isName).mp begins with ⟨_, _, matched⟩
      cases read.symm.trans matched

end

/-! ## Beginnings -/

/-- The words of the tags that begin such a node. -/
def Node.keywords : Node → List Keyword
  | text .. | comment .. | output .. => []
  | raw .. => [.raw]
  | conditional .. => [.conditional]
  | loop .. => [.loop]
  | choice .. => [.choice]
  | breakLoop .. => [.breakLoop]
  | continueLoop .. => [.continueLoop]
  | macroDef .. => [.macroDef]
  | macroCall .. => [.call]
  | assign .. | declare .. => [.letBinding, .setBinding]
  | extendTemplate .. => [.extendTemplate]
  | block .. => [.block]
  | includeTemplate .. => [.includeTemplate]
  | importMacros .. => [.importMacros]

namespace Element

/-- What stands where the element begins: a text itself, the delimiter of a comment or an output, the
tag of a statement, a branch or an arm, and of any other element a character that is not blank. A
template is not written inside another. -/
def Begins (dialect : Dialect) (source : List Char) : Element → Prop
  | .template _ => False
  | .node (.text offset passage) =>
      passage.text ≠ "" ∧ passage.text.toList <+: source.drop offset
  | .node (.comment offset _) => dialect.commentStart.chars <+: source.drop offset
  | .node (.output offset _ _) => dialect.exprStart.chars <+: source.drop offset
  | .node inner => TagBegins dialect (inner.keywords.map Keyword.word) (source.drop inner.offset)
  | .branch inner => TagBegins dialect ["if", "else"] (source.drop inner.offset)
  | .arm inner => TagBegins dialect ["when", "else"] (source.drop inner.offset)
  | .condition inner => SolidAt source inner.offset
  | .expr inner => SolidAt source inner.offset
  | .pattern inner => SolidAt source inner.offset

/-- An element that has nothing of its own before its first child begins where that child does. -/
def Leads : Element → Prop
  | .expr (.binary offset _ value _) | .expr (.filter offset value _ _)
  | .expr (.member offset value _) | .expr (.item offset value _) | .expr (.call offset value _)
  | .expr (.attempt offset value) | .expr (.range offset _ (some value) _)
  | .condition ⟨offset, none, value⟩ => value.offset = offset
  | .node (.conditional offset branches _) =>
      ∃ first others, branches = first :: others ∧ first.offset = offset
  | _ => True

/-! ## Order -/

/-- All of the tree of an element begins before the elements behind it do. -/
def Apart (elements : List Element) : Prop :=
  elements.Pairwise fun former latter => ∀ below ∈ former.walk, below.offset < latter.offset

/-- No child begins before the element, and the children come one behind the other. -/
structure Ordered (element : Element) : Prop where
  behind : ∀ child ∈ element.children, element.offset ≤ child.offset
  apart : Apart element.children

def arms : Element → List Arm
  | .node (.choice _ _ _ arms _) => arms
  | _ => []

/-- An arm for everything else is written before an arm with a pattern. -/
def HasEarlyElse (dialect : Dialect) (source : List Char) (element : Element) : Prop :=
  ∃ otherwise ∈ element.arms, ∃ arm ∈ element.arms,
    TagBegins dialect ["else"] (source.drop otherwise.offset) ∧
      TagBegins dialect ["when"] (source.drop arm.offset) ∧ otherwise.offset < arm.offset

instance (dialect : Dialect) (source : List Char) (element : Element) :
    Decidable (element.HasEarlyElse dialect source) :=
  have : DecidablePred fun arm : Arm => TagBegins dialect ["else"] (source.drop arm.offset) :=
    fun _ => decidableTagBegins (by decide)
  have : DecidablePred fun arm : Arm => TagBegins dialect ["when"] (source.drop arm.offset) :=
    fun _ => decidableTagBegins (by decide)
  inferInstanceAs (Decidable (∃ otherwise ∈ element.arms, ∃ arm ∈ element.arms,
    TagBegins dialect ["else"] (source.drop otherwise.offset) ∧
      TagBegins dialect ["when"] (source.drop arm.offset) ∧ otherwise.offset < arm.offset))

/-- The element begins where it is written, and its children in the order of the tree. -/
structure InPlace (dialect : Dialect) (source : List Char) (element : Element) : Prop where
  begins : element.Begins dialect source
  leads : element.Leads
  ordered : ¬ element.HasEarlyElse dialect source → element.Ordered

/-- The trees of the elements are written between two offsets. -/
def AllBetween (dialect : Dialect) (source : List Char) (start : Nat) (elements : List Element)
    (stop : Nat) : Prop :=
  ∀ element ∈ walkAll elements,
    start ≤ element.offset ∧ element.offset < stop ∧ element.InPlace dialect source

/-- The elements are written between two offsets one behind the other. -/
structure InTurn (dialect : Dialect) (source : List Char) (start : Nat) (elements : List Element)
    (stop : Nat) : Prop where
  between : AllBetween dialect source start elements stop
  apart : Apart elements

section

variable {dialect : Dialect} {source : List Char} {element : Element} {elements others : List Element}
  {start start' middle stop stop' : Nat}

theorem AllBetween.mono (between : AllBetween dialect source start elements stop)
    (lower : start' ≤ start) (upper : stop ≤ stop') :
    AllBetween dialect source start' elements stop' := by
  intro element member
  rcases between element member with ⟨begun, ended, inPlace⟩
  exact ⟨Nat.le_trans lower begun, Nat.lt_of_lt_of_le ended upper, inPlace⟩

theorem AllBetween.append (first : AllBetween dialect source start elements stop)
    (second : AllBetween dialect source start others stop) :
    AllBetween dialect source start (elements ++ others) stop := by
  intro element member
  rw [walkAll_append] at member
  exact (List.mem_append.mp member).elim (first element) (second element)

/-- An element that begins before its children is in turn with them. -/
theorem AllBetween.inTurn (between : AllBetween dialect source start element.children stop)
    (begins : element.offset ≤ start) (ends : element.offset < stop)
    (inPlace : element.InPlace dialect source) :
    InTurn dialect source element.offset [element] stop where
  between := by
    intro inner member
    rw [walkAll_cons, walkAll, List.append_nil, walk_eq] at member
    rcases List.mem_cons.mp member with rfl | member
    · exact ⟨Nat.le_refl _, ends, inPlace⟩
    · exact between.mono begins (Nat.le_refl _) inner member
  apart := List.pairwise_singleton _ _

namespace InTurn

theorem mono (inTurn : InTurn dialect source start elements stop) (lower : start' ≤ start)
    (upper : stop ≤ stop') : InTurn dialect source start' elements stop' :=
  ⟨inTurn.between.mono lower upper, inTurn.apart⟩

theorem nil : InTurn dialect source start [] stop where
  between element member := by
    rw [walkAll] at member
    cases member
  apart := .nil

theorem append (first : InTurn dialect source start elements middle)
    (second : InTurn dialect source middle others stop) (lower : start ≤ middle)
    (upper : middle ≤ stop) : InTurn dialect source start (elements ++ others) stop where
  between := (first.between.mono (Nat.le_refl _) upper).append
    (second.between.mono lower (Nat.le_refl _))
  apart := by
    refine List.pairwise_append.mpr ⟨first.apart, second.apart, ?_⟩
    intro former member latter member' below inside
    have before := (first.between below (walk_subset_walkAll (mem_walkAll_of_mem member) inside)).2.1
    exact Nat.lt_of_lt_of_le before (second.between latter (mem_walkAll_of_mem member')).1

theorem ordered (inTurn : InTurn dialect source start element.children stop)
    (begins : element.offset ≤ start) : element.Ordered where
  behind child member :=
    Nat.le_trans begins (inTurn.between child (mem_walkAll_of_mem member)).1
  apart := inTurn.apart

/-- An element that begins before its children, which are in turn. -/
theorem parent (inTurn : InTurn dialect source start element.children stop)
    (begins : element.offset ≤ start) (ends : element.offset < stop)
    (stands : element.Begins dialect source) (leads : element.Leads) :
    InTurn dialect source element.offset [element] stop :=
  inTurn.between.inTurn begins ends ⟨stands, leads, fun _ => inTurn.ordered begins⟩

theorem inPlace (inTurn : InTurn dialect source start [element] stop) :
    element.InPlace dialect source :=
  (inTurn.between element (mem_walkAll_of_mem List.mem_cons_self)).2.2

theorem lt (inTurn : InTurn dialect source start [element] stop) : element.offset < stop :=
  (inTurn.between element (mem_walkAll_of_mem List.mem_cons_self)).2.1

end InTurn

/-! ## Offsets along a walk -/

theorem offset_le_of_mem_walk {below : Element} (ordered : ∀ inner ∈ element.walk, inner.Ordered)
    (member : below ∈ element.walk) : element.offset ≤ below.offset := by
  induction size : element.size using Nat.strongRecOn generalizing element with
  | ind _ induction =>
      rw [walk_eq] at member
      rcases List.mem_cons.mp member with rfl | member
      · exact Nat.le_refl _
      · rcases mem_walkAll_iff.mp member with ⟨child, isChild, inside⟩
        have within : child.walk ⊆ element.walk := fun _ inner =>
          walkAll_children_subset (mem_walkAll_iff.mpr ⟨child, isChild, inner⟩)
        exact Nat.le_trans ((ordered element (mem_walk_self element)).behind child isChild)
          (induction child.size (size ▸ size_lt_of_mem_children isChild)
            (fun inner member => ordered inner (within member)) inside rfl)

/-- The offsets along a walk never decrease. -/
theorem pairwise_walkAll (ordered : ∀ element ∈ walkAll elements, element.Ordered)
    (apart : Apart elements) :
    (walkAll elements).Pairwise fun former latter => former.offset ≤ latter.offset := by
  fun_induction walkAll elements with
  | case1 => exact .nil
  | case2 element pending induction =>
      rw [List.forall_mem_cons] at ordered
      rcases List.pairwise_cons.mp apart with ⟨before, apart'⟩
      have inside : ∀ child ∈ element.children, child.walk ⊆ element.walk :=
        fun child isChild _ inner =>
          walkAll_children_subset (mem_walkAll_iff.mpr ⟨child, isChild, inner⟩)
      refine List.pairwise_cons.mpr ⟨?_, induction ordered.2 ?_⟩
      · intro below member
        rw [walkAll_append] at member
        rcases List.mem_append.mp member with member | member
        · refine offset_le_of_mem_walk (fun inner member => ?_)
            (walkAll_children_subset member)
          rw [walk_eq] at member
          rcases List.mem_cons.mp member with rfl | member
          · exact ordered.1
          · exact ordered.2 inner (by rw [walkAll_append]; exact List.mem_append_left _ member)
        · rcases mem_walkAll_iff.mp member with ⟨other, among, member⟩
          refine Nat.le_trans (Nat.le_of_lt (before other among element (mem_walk_self element)))
            (offset_le_of_mem_walk (fun inner member => ordered.2 inner ?_) member)
          rw [walkAll_append]
          exact List.mem_append_right _ (mem_walkAll_iff.mpr ⟨other, among, member⟩)
      · refine List.pairwise_append.mpr ⟨ordered.1.apart, apart', ?_⟩
        intro child isChild other among below member
        exact before other among below (inside child isChild member)

end

end Element

end Templating

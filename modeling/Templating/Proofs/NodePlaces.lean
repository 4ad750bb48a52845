import Templating.Proofs.NodesRead
import Templating.Proofs.PatternPlaces
import Templating.Proofs.Sections

/-! # Where nodes are read

Every node begins with its own delimiter, and its parts are in turn behind it, as are the nodes of a
body. The one exception is the arm of a choice for everything else, which comes last in the tree
wherever it is written. -/

namespace Templating

variable {room : Room}

open Text Grammar Element

variable {dialect : Dialect} {source : List Char} {body : Grammar (List Node)} {opened : OpenedTag}
  {origin cursor later : Cursor} {node : Node}

/-! ## Tags -/

theorem Grammar.TagBegins.mono {words words' : List String} {text : List Char}
    (begins : TagBegins dialect words text) (subset : words ⊆ words') :
    TagBegins dialect words' text := by
  rcases begins with ⟨left, word, rest, among, opens⟩
  exact ⟨left, word, rest, subset among, opens⟩

theorem tag_begins {words : List String} (located : cursor.LiesIn source)
    (matched : tag dialect words cursor = .matched opened later) :
    opened.offset = cursor.offset ∧ TagBegins dialect words (source.drop cursor.offset) := by
  rcases tag_yields matched with ⟨begins, among, named, opens, _⟩
  exact ⟨begins, opened.trim, opened.word, named, among, located.drop_eq ▸ opens⟩

/-- The tag of a statement has been read from the origin up to the cursor. -/
structure OpenedAt (dialect : Dialect) (source : List Char) (keyword : Keyword) (opened : OpenedTag)
    (origin cursor : Cursor) : Prop where
  located : origin.LiesIn source
  begins : opened.offset = origin.offset
  passes : origin.Passes cursor
  stands : TagBegins dialect [keyword.word] (source.drop origin.offset)
  solid : Solid cursor.rest

theorem openedAt_of_statementStart {keyword : Keyword} (located : origin.LiesIn source)
    (begun : Parser.statementStart dialect origin = .matched (opened, keyword) cursor) :
    OpenedAt dialect source keyword opened origin cursor := by
  rcases statementStart_yields begun with ⟨named, opens, _, solid⟩
  exact ⟨located, Parser.statementStart_offset begun, Consuming.passes begun,
    ⟨opened.trim, keyword.word, named, List.mem_singleton_self _, located.drop_eq ▸ opens⟩, solid⟩

namespace OpenedAt

variable {keyword : Keyword}

theorem inside (opens : OpenedAt dialect source keyword opened origin cursor) :
    cursor.LiesIn source :=
  opens.located.of_reaches opens.passes.1

theorem nodeBegins (opens : OpenedAt dialect source keyword opened origin cursor)
    (offset : node.offset = opened.offset) (among : keyword ∈ node.keywords) :
    (Element.node node).Begins dialect source := by
  have stands : TagBegins dialect (node.keywords.map Keyword.word) (source.drop node.offset) := by
    rw [offset, opens.begins]
    exact opens.stands.mono fun word member =>
      List.mem_singleton.mp member ▸ List.mem_map_of_mem among
  cases node with
  | text | comment | output => cases among
  | _ => exact stands

/-- A node whose parts are in turn behind its tag. -/
theorem nodeInTurn (opens : OpenedAt dialect source keyword opened origin cursor)
    (parts : InTurn dialect source cursor.offset node.children later.offset)
    (reaches : cursor.Reaches later) (offset : node.offset = opened.offset)
    (among : keyword ∈ node.keywords) (leads : (Element.node node).Leads) :
    InTurn dialect source origin.offset [.node node] later.offset := by
  have begins : origin.offset = node.offset := (offset.trans opens.begins).symm
  have lower := Nat.le_of_lt opens.passes.offset_lt
  have upper := (opens.passes.trans_reaches reaches).offset_lt
  rw [begins] at lower upper ⊢
  have parts : InTurn dialect source cursor.offset (Element.node node).children later.offset := parts
  exact parts.parent lower upper (opens.nodeBegins offset among) leads

/-- A conditional begins with its first branch. -/
theorem conditionalInTurn (opens : OpenedAt dialect source .conditional opened origin cursor)
    {first : Branch} {others : List Branch} {closing : Edges}
    (branches : InTurn dialect source origin.offset ((first :: others).map .branch) later.offset)
    (begins : first.offset = opened.offset) (upper : origin.offset < later.offset) :
    InTurn dialect source origin.offset [.node (.conditional opened.offset (first :: others) closing)]
      later.offset := by
  have stands : (Element.node (.conditional opened.offset (first :: others) closing)).Begins dialect
      source := opens.nodeBegins rfl (List.mem_singleton_self _)
  rw [← opens.begins] at branches upper ⊢
  have parts : InTurn dialect source opened.offset
      (Element.node (.conditional opened.offset (first :: others) closing)).children later.offset :=
    branches
  exact parts.parent (Nat.le_refl _) upper stands ⟨first, others, rfl, begins⟩

/-- The arms of a choice are in turn where they are written, and also in the tree unless the arm for
everything else is written before others. -/
theorem choiceInTurn (opens : OpenedAt dialect source .choice opened origin cursor) {subject : Expr}
    {before after : List Arm} {otherwise : Option Arm} {opening closing : Edges}
    {first second third : Nat} (told : InTurn dialect source cursor.offset [.expr subject] first)
    (whens : InTurn dialect source first (before.map .arm) second)
    (other : InTurn dialect source second (otherwise.toList.map .arm) third)
    (others : InTurn dialect source third (after.map .arm) later.offset)
    (forward : cursor.offset ≤ first ∧ first ≤ second ∧ second ≤ third ∧ third ≤ later.offset)
    (none : otherwise = none → after = [])
    (elseTag : ∀ arm ∈ otherwise, TagBegins dialect ["else"] (source.drop arm.offset))
    (whenTags : ∀ arm ∈ after, TagBegins dialect ["when"] (source.drop arm.offset)) :
    InTurn dialect source origin.offset [.node (.choice opened.offset opening subject
      (before ++ after ++ otherwise.toList) closing)] later.offset := by
  have stands : (Element.node (.choice opened.offset opening subject
      (before ++ after ++ otherwise.toList) closing)).Begins dialect source :=
    opens.nodeBegins rfl (List.mem_singleton_self _)
  have behind := opens.passes.offset_lt
  have children : (Element.node (.choice opened.offset opening subject
      (before ++ after ++ otherwise.toList) closing)).children =
        [.expr subject] ++ before.map .arm ++ after.map .arm ++ otherwise.toList.map .arm := by
    simp [Element.children, Node.children]
  rcases forward with ⟨toFirst, toSecond, toThird, toLater⟩
  have early := told.append whens toFirst toSecond
  have parts : AllBetween dialect source cursor.offset (Element.node (.choice opened.offset opening
      subject (before ++ after ++ otherwise.toList) closing)).children later.offset := by
    rw [children]
    exact ((early.mono (Nat.le_refl _) (by omega)).between.append
      (others.mono (by omega) (Nat.le_refl _)).between).append (other.mono (by omega) (by omega)).between
  rw [← opens.begins] at behind ⊢
  refine parts.inTurn (Nat.le_of_lt behind) (show opened.offset < later.offset by omega)
    ⟨stands, trivial, fun inOrder => ?_⟩
  have ordered (inTurn : InTurn dialect source cursor.offset (Element.node (.choice opened.offset
      opening subject (before ++ after ++ otherwise.toList) closing)).children third) :=
    inTurn.ordered (Nat.le_of_lt behind)
  cases otherwise with
  | none =>
      cases none rfl
      apply ordered
      rw [children]
      simpa using early.mono (Nat.le_refl _) toThird
  | some arm =>
      cases after with
      | nil =>
          apply ordered
          rw [children]
          simpa using early.append other (by omega) toThird
      | cons latter after =>
          refine absurd ⟨arm, by simp [arms], latter, by simp [arms], elseTag arm rfl,
            whenTags latter (by simp), ?_⟩ inOrder
          have ahead := (other.between (.arm arm) (mem_walkAll_of_mem (by simp))).2.1
          have beyond := (others.between (.arm latter) (mem_walkAll_of_mem (by simp))).1
          exact Nat.lt_of_lt_of_le ahead beyond

end OpenedAt

/-! ## Conditions -/

theorem binding_inTurn {pattern : Pattern} (located : cursor.LiesIn source)
    (matched : binding cursor = .matched pattern later) :
    cursor.Passes later ∧ InTurn dialect source cursor.offset [.pattern pattern] later.offset := by
  simp only [binding, bound, bind_eq_matched, pure_eq_matched] at matched
  rcases matched with ⟨_, first, word, bound, second, read, _, _, sign, rfl, rfl⟩
  have passes : cursor.Passes first := by
    rcases orElse_eq_matched.mp word with word | ⟨_, word⟩ <;>
      exact (consuming_keyword rfl).passes word
  have placed : InTurn dialect source first.offset [.pattern bound] second.offset :=
    pattern_places read (located.of_reaches passes.1)
  exact ⟨passes.trans_reaches ((Advancing.reaches read).trans (Advancing.reaches sign)),
    placed.mono passes.1.offset_le (Advancing.reaches sign).offset_le⟩

theorem condition_inTurn {condition : Condition} (located : cursor.LiesIn source)
    (solid : Solid cursor.rest) (matched : Grammar.condition cursor = .matched condition later) :
    InTurn dialect source cursor.offset [.condition condition] later.offset := by
  simp only [condition_eq, bind_eq_matched, pure_eq_matched, expect_eq_matched, here_eq_matched]
    at matched
  rcases matched with ⟨_, _, ⟨rfl, rfl⟩, pattern, middle, bound, expression, ended, read, rfl, rfl⟩
  have further := Advancing.reaches read
  rcases optional_eq_matched.mp bound with ⟨pattern, rfl, binds⟩ | ⟨rfl, rfl, _⟩
  · rcases binding_inTurn located binds with ⟨passes, first⟩
    have parts : InTurn dialect source cursor.offset
        (Element.condition ⟨cursor.offset, some pattern, expression⟩).children ended.offset :=
      first.append (expression_places.places read (located.of_reaches passes.1))
        passes.1.offset_le further.offset_le
    exact parts.parent (Nat.le_refl _) (passes.trans_reaches further).offset_lt
      (solidAt_of_passes located solid passes) trivial
  · have value : ExprAt dialect source _ expression ended.offset := expression_places read located
    rw [skipSpaces_of_solid solid] at value
    have parts : InTurn dialect source middle.offset
        (Element.condition ⟨middle.offset, none, expression⟩).children ended.offset := value.inTurn
    exact parts.parent (Nat.le_refl _) (Consuming.passes read).offset_lt value.solidAt value.begins

/-! ## Branches and arms -/

section

variable (reads : Places dialect source body fun nodes => nodes.map .node) [Advancing body]

include reads

/-- An element with a tag of its own, what is told of it there, and a body. -/
theorem section_inTurn {element : Element} {heading : List Element} {nodes : List Node} {start : Nat}
    {right : Option Trim} {second begun : Cursor} (located : cursor.LiesIn source)
    (passes : cursor.Passes second) (told : InTurn dialect source start heading second.offset)
    (lower : cursor.offset ≤ start) (upper : start ≤ second.offset)
    (ended : tagRest dialect second = .matched right begun)
    (read : body begun = .matched nodes later) (begins : element.offset = cursor.offset)
    (stands : element.Begins dialect source) (leads : element.Leads)
    (children : element.children = heading ++ nodes.map .node) :
    InTurn dialect source cursor.offset [element] later.offset := by
  have reaches := Advancing.reaches ended
  have inside := reads read (located.of_reaches (passes.1.trans reaches))
  have parts := told.append (inside.mono reaches.offset_le (Nat.le_refl _)) upper
    (reaches.trans (Advancing.reaches read)).offset_le
  have passed := passes.trans_reaches (reaches.trans (Advancing.reaches read))
  rw [← children] at parts
  rw [← begins] at lower ⊢
  exact parts.parent lower (begins ▸ passed.offset_lt) stands leads

namespace Scoped

theorem elseIfBranch_places :
    Places dialect source (elseIfBranch dialect body) fun branch => [.branch branch] := by
  intro cursor branch later matched located
  simp only [elseIfBranch, bind_eq_matched, pure_eq_matched] at matched
  rcases matched with ⟨opened, first, begun, _, second, word, condition, _, tested, _, _, ended, nodes,
    _, inside, rfl, rfl⟩
  rcases tag_begins located begun with ⟨begins, stands⟩
  rcases keyword_yields word with ⟨_, _, _, _, _, _, solid⟩
  have passes := (Consuming.passes begun).trans_reaches (Advancing.reaches word)
  have told : InTurn dialect source second.offset [.condition condition] _ :=
    condition_inTurn (located.of_reaches passes.1) solid tested
  refine section_inTurn reads located (passes.trans_reaches (Advancing.reaches tested)) told
    passes.1.offset_le (Advancing.reaches tested).offset_le ended inside begins ?_ trivial rfl
  exact begins ▸ stands.mono (by simp)

theorem elseBranch_places :
    Places dialect source (elseBranch dialect body) fun branch => [.branch branch] := by
  intro cursor branch later matched located
  simp only [elseBranch, bind_eq_matched, pure_eq_matched] at matched
  rcases matched with ⟨opened, first, begun, _, _, ended, nodes, _, inside, rfl, rfl⟩
  rcases tag_begins located begun with ⟨begins, stands⟩
  have passes := Consuming.passes begun
  refine section_inTurn reads located passes .nil (Nat.le_refl _) passes.1.offset_le ended inside
    begins ?_ trivial rfl
  exact begins ▸ stands.mono (by simp)

theorem whenArm_places : Places dialect source (whenArm dialect body) fun arm => [.arm arm] := by
  intro cursor arm later matched located
  simp only [whenArm, bind_eq_matched, pure_eq_matched] at matched
  rcases matched with ⟨opened, first, begun, pattern, _, read, _, _, ended, nodes, _, inside, rfl, rfl⟩
  rcases tag_begins located begun with ⟨begins, stands⟩
  have passes := Consuming.passes begun
  have told : InTurn dialect source first.offset [.pattern pattern] _ :=
    pattern_places.expect read (located.of_reaches passes.1)
  refine section_inTurn reads located (passes.trans_reaches (Advancing.reaches read)) told
    passes.1.offset_le (Advancing.reaches read).offset_le ended inside begins ?_ trivial rfl
  exact begins ▸ stands.mono (by simp)

theorem elseArm_places : Places dialect source (elseArm dialect body) fun arm => [.arm arm] := by
  intro cursor arm later matched located
  simp only [elseArm, bind_eq_matched, pure_eq_matched] at matched
  rcases matched with ⟨opened, first, begun, _, _, ended, nodes, _, inside, rfl, rfl⟩
  rcases tag_begins located begun with ⟨begins, stands⟩
  have passes := Consuming.passes begun
  -- The pattern of the arm has no text of its own, and the offset of the arm.
  have told : InTurn dialect source cursor.offset [.pattern (.name opened.offset "_")] first.offset :=
    have none : InTurn dialect source cursor.offset (([] : List Pattern).map .pattern) first.offset :=
      .nil
    pattern_inTurn none (solidAt_of_delimiter stands.delimiter) (Nat.le_refl _) passes.offset_lt begins
      rfl
  refine section_inTurn reads located passes told (Nat.le_refl _) passes.1.offset_le ended inside
    begins ?_ trivial rfl
  exact begins ▸ stands.mono (by simp)

theorem laterArms_places {otherwise : Option Arm} :
    Places dialect source (laterArms dialect body otherwise) fun arms => arms.map .arm := by
  cases otherwise with
  | none =>
      intro _ _ _ matched _
      cases matched
      exact .nil
  | some _ => exact (whenArm_places reads).many

/-! ## Constructs -/

theorem conditional_inTurn (opens : OpenedAt dialect source .conditional opened origin cursor)
    (matched : conditional dialect body opened cursor = .matched node later) :
    InTurn dialect source origin.offset [.node node] later.offset := by
  have passed := opens.passes.trans_reaches (Advancing.reaches matched)
  simp only [conditional, bind_eq_matched, pure_eq_matched] at matched
  rcases matched with ⟨condition, _, tested, right, begun, ended, nodes, first, inside, others, second,
    others_read, last, third, last_read, _, _, rejected, _, _, closed, _, _, edge, rfl, rfl⟩
  have told : InTurn dialect source cursor.offset [.condition condition] _ :=
    condition_inTurn opens.inside opens.solid tested
  have tested := Advancing.reaches tested
  have placed : InTurn dialect source origin.offset
      [.branch ⟨opened.offset, ⟨opened.trim, right⟩, some condition, nodes⟩] first.offset := by
    refine section_inTurn reads opens.located (opens.passes.trans_reaches tested) told
      opens.passes.1.offset_le tested.offset_le ended inside opens.begins ?_ trivial rfl
    exact opens.begins ▸ opens.stands.mono (by simp [Keyword.word])
  have whole : origin.Reaches first :=
    opens.passes.1.trans (tested.trans ((Advancing.reaches ended).trans (Advancing.reaches inside)))
  have others_reached := Advancing.reaches others_read
  have last_reached := Advancing.reaches last_read
  have others_placed := (elseIfBranch_places reads).many others_read (opens.located.of_reaches whole)
  have last_placed := (elseBranch_places reads).optional last_read
    (opens.located.of_reaches (whole.trans others_reached))
  have rest := (Advancing.reaches rejected).trans
    ((Advancing.reaches closed).trans (Advancing.reaches edge))
  have branches := (placed.append others_placed whole.offset_le others_reached.offset_le).append
    last_placed (whole.trans others_reached).offset_le last_reached.offset_le
  refine opens.conditionalInTurn ?_ rfl passed.offset_lt
  simpa using branches.mono (Nat.le_refl _) rest.offset_le

omit reads [Advancing body] in
theorem loopRest_places {alternative : Grammar (List Node)} [Advancing alternative]
    (reads : Places dialect source alternative fun nodes => nodes.map .node) :
    Places dialect source (loopRest dialect opened alternative) fun rest => rest.2.1.map .node := by
  intro cursor rest later matched located
  simp only [loopRest, orElse_eq_matched, bind_eq_matched, pure_eq_matched,
    missingEndTag_ne_matched, and_false, or_false] at matched
  rcases matched with ⟨_, _, _, _, _, _, rfl, _⟩ | ⟨_, _, _, begun, _, _, ended, nodes, _, inside, _, _,
    closed, _, _, edge, rfl, rfl⟩
  · exact .nil
  · have first := (Advancing.reaches begun).trans (Advancing.reaches ended)
    have last := (Advancing.reaches closed).trans (Advancing.reaches edge)
    exact (reads inside (located.of_reaches first)).mono first.offset_le last.offset_le

theorem loop_inTurn {alternative : Grammar (List Node)} [Advancing alternative]
    (reads' : Places dialect source alternative fun nodes => nodes.map .node)
    (opens : OpenedAt dialect source .loop opened origin cursor)
    (matched : loop dialect body opened alternative cursor = .matched node later) :
    InTurn dialect source origin.offset [.node node] later.offset := by
  have reaches := Advancing.reaches matched
  simp only [loop, bind_eq_matched, pure_eq_matched] at matched
  rcases matched with ⟨pattern, first, pattern_read, _, _, word, iterable, second, iterable_read,
    guarded, third, guard_read, _, _, ended, nodes, fourth, inside, rest, _, rest_read, rfl, rfl⟩
  have pattern_reached := Advancing.reaches pattern_read
  have word_reached := pattern_reached.trans (Advancing.reaches word)
  have iterable_reached := Advancing.reaches iterable_read
  have guard_reached := Advancing.reaches guard_read
  have guard_places : Places dialect source guard fun value => [.expr value] :=
    .behind expression_places.places.expect
  have head_reached := word_reached.trans (iterable_reached.trans guard_reached)
  have body_begun := head_reached.trans (Advancing.reaches ended)
  have body_reached := Advancing.reaches inside
  have heading : InTurn dialect source cursor.offset
      ([.pattern pattern] ++ ([.expr iterable] ++ guarded.toList.map .expr)) third.offset :=
    (pattern_places.expect pattern_read opens.inside).append
      (((expression_places.places.expect iterable_read
        (opens.inside.of_reaches word_reached)).append
          (guard_places.optional guard_read
            (opens.inside.of_reaches (word_reached.trans iterable_reached)))
          iterable_reached.offset_le guard_reached.offset_le).mono
        (Advancing.reaches word).offset_le (Nat.le_refl _))
      pattern_reached.offset_le
      ((Advancing.reaches word).trans (iterable_reached.trans guard_reached)).offset_le
  have bodies := (reads inside (opens.inside.of_reaches body_begun)).append
    (loopRest_places reads' rest_read (opens.inside.of_reaches (body_begun.trans body_reached)))
    body_reached.offset_le (Advancing.reaches rest_read).offset_le
  have parts := heading.append (bodies.mono (Advancing.reaches ended).offset_le (Nat.le_refl _))
    head_reached.offset_le
    ((Advancing.reaches ended).trans (body_reached.trans (Advancing.reaches rest_read))).offset_le
  refine opens.nodeInTurn ?_ reaches rfl (List.mem_singleton_self _) trivial
  simpa [Node.children] using parts

theorem block_inTurn (opens : OpenedAt dialect source .block opened origin cursor)
    (matched : block dialect body opened cursor = .matched node later) :
    InTurn dialect source origin.offset [.node node] later.offset := by
  have reaches := Advancing.reaches matched
  simp only [block, bind_eq_matched, pure_eq_matched] at matched
  rcases matched with ⟨name, _, named, _, _, ended, nodes, last, inside, _, _, closed, _, _, again, _, _,
    edge, rfl, rfl⟩
  have begun := (Advancing.reaches named).trans (Advancing.reaches ended)
  have rest := (Advancing.reaches closed).trans ((Advancing.reaches again).trans
    (Advancing.reaches edge))
  have parts := reads inside (opens.inside.of_reaches begun)
  exact opens.nodeInTurn (parts.mono begun.offset_le rest.offset_le) reaches rfl
    (List.mem_singleton_self _) trivial

theorem macroDef_inTurn (opens : OpenedAt dialect source .macroDef opened origin cursor)
    (matched : macroDef dialect body opened cursor = .matched node later) :
    InTurn dialect source origin.offset [.node node] later.offset := by
  have reaches := Advancing.reaches matched
  simp only [macroDef, bind_eq_matched, pure_eq_matched, here_eq_matched,
    Parser.checkMacroName_eq_matched] at matched
  rcases matched with ⟨_, _, blanks, _, _, ⟨rfl, rfl⟩, _, _, named, _, _, ⟨_, rfl⟩, _, _, listed, _, _,
    ended, nodes, _, inside, _, _, closed, _, _, again, _, _, edge, rfl, rfl⟩
  have begun := (((Advancing.reaches blanks).trans (Advancing.reaches named)).trans
    (Advancing.reaches listed)).trans (Advancing.reaches ended)
  have rest := (Advancing.reaches closed).trans ((Advancing.reaches again).trans
    (Advancing.reaches edge))
  have parts := reads inside (opens.inside.of_reaches begun)
  exact opens.nodeInTurn (parts.mono begun.offset_le rest.offset_le) reaches rfl
    (List.mem_singleton_self _) trivial

omit reads [Advancing body] in
theorem whenArm_begins {arm : Arm} (located : cursor.LiesIn source)
    (matched : whenArm dialect body cursor = .matched arm later) :
    TagBegins dialect ["when"] (source.drop arm.offset) := by
  simp only [whenArm, bind_eq_matched, pure_eq_matched] at matched
  rcases matched with ⟨opened, _, begun, _, _, _, _, _, _, _, _, _, rfl, _⟩
  rcases tag_begins located begun with ⟨begins, stands⟩
  exact begins ▸ stands

omit reads [Advancing body] in
theorem elseArm_begins {arm : Arm} (located : cursor.LiesIn source)
    (matched : elseArm dialect body cursor = .matched arm later) :
    TagBegins dialect ["else"] (source.drop arm.offset) := by
  simp only [elseArm, bind_eq_matched, pure_eq_matched] at matched
  rcases matched with ⟨opened, _, begun, _, _, _, _, _, _, rfl, _⟩
  rcases tag_begins located begun with ⟨begins, stands⟩
  exact begins ▸ stands

omit reads in
theorem laterArms_begin {otherwise : Option Arm} {arms : List Arm} (located : cursor.LiesIn source)
    (matched : laterArms dialect body otherwise cursor = .matched arms later) :
    ∀ arm ∈ arms, TagBegins dialect ["when"] (source.drop arm.offset) := by
  intro arm among
  cases otherwise with
  | none =>
      cases matched
      cases among
  | some _ =>
      rcases (repeated_of_many matched).readBehind among with ⟨_, _, reaches, read⟩
      exact whenArm_begins (located.of_reaches reaches) read

theorem choice_inTurn (opens : OpenedAt dialect source .choice opened origin cursor)
    (matched : choice dialect body opened cursor = .matched node later) :
    InTurn dialect source origin.offset [.node node] later.offset := by
  simp only [choice, bind_eq_matched, pure_eq_matched] at matched
  rcases matched with ⟨subject, _, subject_read, _, _, ended, _, _, skipped, before, second, before_read,
    otherwise, third, otherwise_read, after, fourth, after_read, _, _, rejected, _, _, required, _, _,
    closed, _, _, edge, rfl, rfl⟩
  have subject_reached := Advancing.reaches subject_read
  have begun := (Advancing.reaches ended).trans (Advancing.reaches skipped)
  have before_reached := Advancing.reaches before_read
  have otherwise_reached := Advancing.reaches otherwise_read
  have rest := (Advancing.reaches rejected).trans ((Advancing.reaches required).trans
    ((Advancing.reaches closed).trans (Advancing.reaches edge)))
  have first_located := (opens.inside.of_reaches subject_reached).of_reaches begun
  have second_located := first_located.of_reaches before_reached
  have third_located := second_located.of_reaches otherwise_reached
  refine opens.choiceInTurn (expression_places.places.expect subject_read opens.inside)
    (((whenArm_places reads).many before_read first_located).mono begun.offset_le (Nat.le_refl _))
    ((elseArm_places reads).optional otherwise_read second_located)
    ((laterArms_places reads after_read third_located).mono (Nat.le_refl _) rest.offset_le)
    ⟨subject_reached.offset_le, (begun.trans before_reached).offset_le, otherwise_reached.offset_le,
      ((Advancing.reaches after_read).trans rest).offset_le⟩ ?_ ?_
    (laterArms_begin third_located after_read)
  · rintro rfl
    exact (pure_eq_matched.mp after_read).1.symm
  · intro arm among
    rcases readBehind_of_optional otherwise_read among with ⟨_, _, reaches, read⟩
    exact elseArm_begins (second_located.of_reaches reaches) read

end Scoped

end

/-! ## Statements of a single tag -/

/-- A node without parts. -/
theorem OpenedAt.leafInTurn {keyword : Keyword}
    (opens : OpenedAt dialect source keyword opened origin cursor) (children : node.children = [])
    (reaches : cursor.Reaches later) (offset : node.offset = opened.offset)
    (among : keyword ∈ node.keywords) (leads : (Element.node node).Leads) :
    InTurn dialect source origin.offset [.node node] later.offset :=
  opens.nodeInTurn (children ▸ .nil) reaches offset among leads

theorem assignment_inTurn {keyword : Keyword}
    (opens : OpenedAt dialect source keyword opened origin cursor)
    (binds : keyword ∈ [Keyword.letBinding, .setBinding])
    (matched : assignment opened cursor = .matched node later) :
    InTurn dialect source origin.offset [.node node] later.offset := by
  have reaches := Advancing.reaches matched
  simp only [assignment, bind_eq_matched, orElse_eq_matched, pure_eq_matched] at matched
  rcases matched with ⟨pattern, first, read, matched⟩
  have bound : InTurn dialect source cursor.offset [.pattern pattern] first.offset :=
    pattern_places.expect read opens.inside
  have begun := Advancing.reaches read
  rcases matched with ⟨_, _, sign, value, _, read', _, _, edge, rfl, rfl⟩ | ⟨_, _, _, edge, rfl, rfl⟩
  · have signed := Advancing.reaches sign
    have taken : InTurn dialect source _ [.expr value] _ :=
      expression_places.places.expect read' (opens.inside.of_reaches (begun.trans signed))
    have parts := bound.append (taken.mono signed.offset_le (Nat.le_refl _)) begun.offset_le
      (signed.trans (Advancing.reaches read')).offset_le
    exact opens.nodeInTurn (parts.mono (Nat.le_refl _) (Advancing.reaches edge).offset_le) reaches rfl
      binds trivial
  · exact opens.nodeInTurn (bound.mono (Nat.le_refl _) (Advancing.reaches edge).offset_le) reaches rfl
      binds trivial

theorem macroCall_inTurn (opens : OpenedAt dialect source .call opened origin cursor)
    (matched : macroCall opened cursor = .matched node later) :
    InTurn dialect source origin.offset [.node node] later.offset := by
  have reaches := Advancing.reaches matched
  simp only [macroCall, bind_eq_matched, orElse_eq_matched] at matched
  rcases matched with ⟨first, _, named, scope, begun, joined, values, ended, read, right, _, edge,
    matched⟩
  have before := (Advancing.reaches named).trans (Advancing.reaches joined)
  have parts : InTurn dialect source begun.offset (values.map .expr) ended.offset := by
    rcases read with ⟨_, _, opening, read⟩ | ⟨_, read⟩
    · rcases (ahead_eq_matched.mp opening) with ⟨_, rfl⟩
      exact (argumentsOf_places expression_places).expect read (opens.inside.of_reaches before)
    · cases read
      exact .nil
  have parts := parts.mono before.offset_le (Advancing.reaches edge).offset_le
  cases scope <;> cases matched <;>
    exact opens.nodeInTurn parts reaches rfl (List.mem_singleton_self _) trivial

theorem extension_inTurn (opens : OpenedAt dialect source .extendTemplate opened origin cursor)
    (matched : extension opened cursor = .matched node later) :
    InTurn dialect source origin.offset [.node node] later.offset := by
  have reaches := Advancing.reaches matched
  unfold extension at matched
  split at matched
  · cases matched
  · simp only [bind_eq_matched, pure_eq_matched] at matched
    rcases matched with ⟨_, _, _, rfl, _⟩
    exact opens.leafInTurn rfl reaches rfl (List.mem_singleton_self _) trivial

namespace Scoped

variable {keyword : Keyword} {inLoop : Bool} {bodies : Part → Grammar (List Node)}

theorem loopControl_inTurn {control : Nat → Edges → Node}
    (opens : OpenedAt dialect source keyword opened origin cursor)
    (offset : ∀ edges, (control opened.offset edges).offset = opened.offset)
    (children : ∀ edges, (control opened.offset edges).children = [])
    (among : ∀ edges, keyword ∈ (control opened.offset edges).keywords)
    (leads : ∀ edges, (Element.node (control opened.offset edges)).Leads)
    (matched : loopControl opened inLoop keyword control cursor = .matched node later) :
    InTurn dialect source origin.offset [.node node] later.offset := by
  unfold loopControl at matched
  split at matched
  · simp only [bind_eq_matched, pure_eq_matched] at matched
    rcases matched with ⟨right, _, edge, rfl, rfl⟩
    exact opens.leafInTurn (children _) (Advancing.reaches edge) (offset _) (among _) (leads _)
  · cases matched

variable (reads : ∀ part, Places dialect source (bodies part) fun nodes => nodes.map .node)
  [∀ part, Advancing (bodies part)]

include reads

theorem statementRest_inTurn (opens : OpenedAt dialect source keyword opened origin cursor)
    (matched : statementRest dialect opened inLoop bodies keyword cursor = .matched node later) :
    InTurn dialect source origin.offset [.node node] later.offset := by
  have reaches := Advancing.reaches matched
  cases keyword with
  | call => exact macroCall_inTurn opens matched
  | letBinding | setBinding => exact assignment_inTurn opens (by decide) matched
  | conditional => exact conditional_inTurn (reads .branch) opens matched
  | loop => exact loop_inTurn (reads .loopBody) (reads .alternative) opens matched
  | choice => exact choice_inTurn (reads .arm) opens matched
  | extendTemplate => exact extension_inTurn opens matched
  | includeTemplate =>
      simp only [statementRest, inclusion, bind_eq_matched, pure_eq_matched] at matched
      rcases matched with ⟨_, _, _, _, _, _, rfl, _⟩
      exact opens.leafInTurn rfl reaches rfl (List.mem_singleton_self _) trivial
  | importMacros =>
      simp only [statementRest, importation, bind_eq_matched, pure_eq_matched] at matched
      rcases matched with ⟨_, _, _, _, _, _, _, _, _, _, _, _, rfl, _⟩
      exact opens.leafInTurn rfl reaches rfl (List.mem_singleton_self _) trivial
  | block => exact block_inTurn (reads .block) opens matched
  | macroDef => exact macroDef_inTurn (reads .macroBody) opens matched
  | raw =>
      simp only [statementRest, raw, bind_eq_matched, pure_eq_matched] at matched
      rcases matched with ⟨_, _, _, _, _, _, _, _, _, _, _, _, rfl, _⟩
      exact opens.leafInTurn rfl reaches rfl (List.mem_singleton_self _) trivial
  | breakLoop | continueLoop =>
      refine loopControl_inTurn opens ?_ ?_ ?_ ?_ matched
      · exact fun _ => rfl
      · exact fun _ => rfl
      · exact fun _ => List.mem_singleton_self _
      · exact fun _ => trivial

/-! ## Nodes and bodies -/

omit reads in
theorem exact_stands {text : List Char} (located : cursor.LiesIn source)
    (matched : exact text cursor = .matched () later) : text <+: source.drop cursor.offset := by
  rw [located.drop_eq, (exact_eq_matched.mp matched).1]
  exact List.prefix_append _ _

theorem node_places : Places dialect source (Scoped.node dialect inLoop bodies) fun node =>
    [.node node] := by
  intro cursor node later matched located
  have passes := Consuming.passes matched
  simp only [Scoped.node, orElse_eq_matched] at matched
  rcases matched with read | ⟨_, read | ⟨_, read | ⟨_, read⟩⟩⟩
  · rcases text_eq_matched.mp read with ⟨run, nonempty, rfl, reached⟩
    rcases upTo_eq_matched.mp reached with ⟨shape, _⟩
    have none : InTurn dialect source cursor.offset
        (Element.node (.text cursor.offset (Passage.ofChars run))).children later.offset := .nil
    refine none.parent (Nat.le_refl _) passes.offset_lt ⟨?_, ?_⟩ trivial
    · rw [Passage.text_ofChars]
      simpa using nonempty
    · rw [Passage.text_ofChars, located.drop_eq, shape, String.toList_ofList]
      exact List.prefix_append _ _
  · simp only [comment, bind_eq_matched, pure_eq_matched, here_eq_matched] at read
    rcases read with ⟨_, _, ⟨rfl, rfl⟩, _, _, begun, left, _, _, state, _, _, _, _, _, rfl, _⟩
    have none : InTurn dialect source cursor.offset (Element.node (.comment cursor.offset
        ⟨left, state.last.bind Trim.ofMark?⟩)).children later.offset := .nil
    exact none.parent (Nat.le_refl _) passes.offset_lt (exact_stands located begun) trivial
  · simp only [output, bind_eq_matched, pure_eq_matched, here_eq_matched] at read
    rcases read with ⟨_, _, ⟨rfl, rfl⟩, _, _, begun, left, _, edge, value, _, inside, right, _, edge', _,
      _, ended, rfl, rfl⟩
    have before := (Advancing.reaches begun).trans (Advancing.reaches edge)
    have after := (Advancing.reaches edge').trans (Advancing.reaches ended)
    have parts : InTurn dialect source cursor.offset
        (Element.node (.output cursor.offset ⟨left, right⟩ value)).children _ :=
      (expression_places.places.expect inside (located.of_reaches before)).mono before.offset_le
        after.offset_le
    exact parts.parent (Nat.le_refl _) passes.offset_lt (exact_stands located begun) trivial
  · simp only [statement, bind_eq_matched, pure_eq_matched] at read
    rcases read with ⟨⟨opened, keyword⟩, _, begun, _, _, rest, _, _, ended, rfl, rfl⟩
    have opens := openedAt_of_statementStart located begun
    exact (statementRest_inTurn reads opens rest).mono (Nat.le_refl _)
      (Advancing.reaches ended).offset_le

omit reads in
theorem nodesWithin_places (outside : Counters) (levels : Nat) (scope : List Part) :
    Places dialect source (nodesWithin dialect outside levels scope) fun nodes => nodes.map .node := by
  induction levels generalizing scope with
  | zero => exact fun _ _ _ matched => by cases matched
  | succ levels induction =>
      intro cursor nodes later matched located
      rw [nodesWithin] at matched
      split at matched
      case isTrue => cases matched
      case isFalse => exact (node_places fun part => induction (part :: scope)).many matched located

end Scoped

end Templating

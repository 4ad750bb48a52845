import Templating.Proofs.Construct
import Templating.Proofs.StatementProgress
import Templating.Proofs.Walking

/-! # References in source order

A walk meets what a body refers to in the order in which it is written, but for one case: the
arm of a choice that is taken when no other is comes last in the tree, wherever it is
written. -/

namespace Templating

variable {room : Room}

namespace Element

variable {element passed moved : Element} {elements others : List Element}
  {start start' middle stop stop' : Nat}

/-- A walk meets `passed` before `moved`, since they are in two arms of a choice of which the
arm of `moved` comes later in the tree and is written first. -/
def Displaced (elements : List Element) (moved passed : Element) : Prop :=
  ∃ offset opening subject arms closing arm otherwise,
    .node (.choice offset opening subject arms closing) ∈ walkAll elements ∧
      [arm, otherwise].Sublist arms ∧ otherwise.offset < arm.offset ∧
      moved ∈ (Element.arm otherwise).walk ∧ passed ∈ (Element.arm arm).walk

theorem Displaced.mono (displaced : Displaced elements moved passed)
    (subset : walkAll elements ⊆ walkAll others) : Displaced others moved passed := by
  rcases displaced with ⟨offset, opening, subject, arms, closing, arm, otherwise, member, within⟩
  exact ⟨offset, opening, subject, arms, closing, arm, otherwise, subset member, within⟩

/-- A walk meets the first element before the second for a good reason. -/
def InOrder (elements : List Element) (first second : Element) : Prop :=
  first.offset < second.offset ∨
    second.offset < first.offset ∧ Displaced elements second first

theorem InOrder.mono {first second : Element} (inOrder : InOrder elements first second)
    (subset : walkAll elements ⊆ walkAll others) : InOrder others first second := by
  rcases inOrder with before | ⟨behind, displaced⟩
  · exact .inl before
  · exact .inr ⟨behind, displaced.mono subset⟩

/-- What the elements refer to is written between two offsets, and a walk meets it in
order. -/
structure Settled (start : Nat) (elements : List Element) (stop : Nat) : Prop where
  inside : ∀ element ∈ references elements, start ≤ element.offset ∧ element.offset < stop
  ordered : (references elements).Pairwise (InOrder elements)

namespace Settled

theorem mono (settled : Settled start elements stop) (lower : start' ≤ start)
    (upper : stop ≤ stop') : Settled start' elements stop' where
  inside element member := by
    have := settled.inside element member
    omega
  ordered := settled.ordered

theorem of_references_eq_nil (none : references elements = []) :
    Settled start elements stop where
  inside element member := by
    rw [none] at member
    cases member
  ordered := by
    rw [none]
    exact .nil

theorem append (first : Settled start elements middle) (second : Settled middle others stop)
    (lower : start ≤ middle) (upper : middle ≤ stop) :
    Settled start (elements ++ others) stop where
  inside element member := by
    rw [references_append] at member
    rcases List.mem_append.mp member with member | member
    · have := first.inside element member
      omega
    · have := second.inside element member
      omega
  ordered := by
    rw [references_append]
    apply List.pairwise_append.mpr
    refine ⟨first.ordered.imp ?_, second.ordered.imp ?_, ?_⟩
    · intro _ _ inOrder
      apply inOrder.mono
      rw [walkAll_append]
      exact List.subset_append_left _ _
    · intro _ _ inOrder
      apply inOrder.mono
      rw [walkAll_append]
      exact List.subset_append_right _ _
    · intro element member other member'
      have := first.inside element member
      have := second.inside other member'
      exact .inl (by omega)

/-- What is settled inside an element is settled with it. -/
theorem of_children (settled : Settled start element.children stop)
    (noTemplate : element.template? = none) : Settled start [element] stop := by
  have same := references_of_template?_eq_none noTemplate
  constructor
  · rw [same]
    exact settled.inside
  · rw [same]
    exact settled.ordered.imp fun inOrder => inOrder.mono walkAll_children_subset

/-- A node without a body refers to one template at most. -/
theorem of_plain {node : Node} (plain : ∀ child ∈ node.children, isPlain child = true)
    (lower : start ≤ node.offset) (upper : node.offset < stop) :
    Settled start [.node node] stop := by
  have inside : references (Element.node node).children = [] :=
    references_eq_nil_of_isPlain plain
  have one : references [.node node] = [] ∨ references [.node node] = [.node node] := by
    rw [references_singleton, inside]
    split
    · exact .inr rfl
    · exact .inl rfl
  rcases one with none | one
  · exact of_references_eq_nil none
  · constructor
    · rw [one]
      intro element member
      cases List.mem_singleton.mp member
      exact ⟨lower, upper⟩
    · rw [one]
      exact List.pairwise_singleton _ _

/-- Expressions, patterns and conditions before the nodes of a body make no difference. -/
theorem of_nodes {plain : List Element} {body : List Node}
    (settled : Settled start (body.map .node) stop) (forward : start ≤ stop)
    (children : element.children = plain ++ body.map .node)
    (isPlain : ∀ child ∈ plain, isPlain child = true) (noTemplate : element.template? = none) :
    Settled start [element] stop := by
  have before : Settled start plain start :=
    of_references_eq_nil (references_eq_nil_of_isPlain isPlain)
  apply of_children _ noTemplate
  rw [children]
  exact before.append settled (Nat.le_refl _) forward

section

variable {offset : Nat} {opening : Edges} {subject : Expr} {before after arms : List Arm}
  {otherwise : Arm} {closing : Edges}

theorem references_choice :
    references (Element.node (.choice offset opening subject (before ++ after ++ [otherwise])
      closing)).children =
        references (before.map .arm) ++ references (after.map .arm) ++
          references [.arm otherwise] := by
  show references (.expr subject :: (before ++ after ++ [otherwise]).map .arm) = _
  rw [references_cons, references_eq_nil_of_isPlain (by simp [isPlain]), List.map_append,
    List.map_append, references_append, references_append]
  rfl

theorem walkAll_subset_choice {elements : List Element} (some : elements ⊆ arms.map .arm) :
    walkAll elements ⊆ walkAll [.node (.choice offset opening subject arms closing)] := by
  intro element member
  rcases mem_walkAll_iff.mp member with ⟨arm, chosen, member⟩
  apply walkAll_children_subset
  exact mem_walkAll_iff.mpr ⟨arm, List.mem_cons_of_mem _ (some chosen), member⟩

/-- What stands in the arm that comes last is displaced against all that is written behind it. -/
theorem displaced_of_otherwise {arm : Arm} {moved passed : Element} (listed : arm ∈ after)
    (ahead : otherwise.offset < arm.offset) (within : moved ∈ walkAll [.arm otherwise])
    (within' : passed ∈ walk (.arm arm)) :
    Displaced [.node (.choice offset opening subject (before ++ after ++ [otherwise]) closing)]
      moved passed := by
  have pair : [arm, otherwise].Sublist (before ++ after ++ [otherwise]) :=
    (List.singleton_sublist.mpr (List.mem_append_right _ listed)).append (List.Sublist.refl _)
  exact ⟨offset, opening, subject, _, closing, arm, otherwise, mem_walk_self _, pair, ahead, within,
    within'⟩

/-- The arms of a choice are settled although one that is written before others comes last. -/
theorem choice {middle' : Nat}
    (first : Settled start (before.map .arm) middle)
    (second : Settled middle [.arm otherwise] middle')
    (third : Settled middle' (after.map .arm) stop)
    (behind : ∀ arm ∈ after, middle' ≤ arm.offset) (ahead : otherwise.offset < middle')
    (lower : start ≤ middle) (between : middle ≤ middle') (upper : middle' ≤ stop) :
    Settled start [.node (.choice offset opening subject (before ++ after ++ [otherwise]) closing)]
      stop := by
  constructor
  · rw [references_of_template?_eq_none rfl, references_choice]
    intro element member
    rcases List.mem_append.mp member with member | member
    · rcases List.mem_append.mp member with member | member
      · have := first.inside element member
        omega
      · have := third.inside element member
        omega
    · have := second.inside element member
      omega
  · rw [references_of_template?_eq_none rfl, references_choice]
    apply List.pairwise_append.mpr
    refine ⟨List.pairwise_append.mpr ⟨?_, ?_, ?_⟩, ?_, ?_⟩
    · exact first.ordered.imp fun inOrder => inOrder.mono (walkAll_subset_choice (by simp))
    · exact third.ordered.imp fun inOrder => inOrder.mono (walkAll_subset_choice (by simp))
    · intro element member other member'
      have := first.inside element member
      have := third.inside other member'
      exact .inl (by omega)
    · exact second.ordered.imp fun inOrder => inOrder.mono (walkAll_subset_choice (by simp))
    · intro element member moved member'
      have written := second.inside moved member'
      rcases List.mem_append.mp member with member | member
      · have := first.inside element member
        exact .inl (by omega)
      · have := third.inside element member
        -- The arm that comes last is written before this one, and so it is displaced.
        refine .inr ⟨by omega, ?_⟩
        rcases mem_walkAll_iff.mp (List.mem_filter.mp member).1 with ⟨_, chosen, passed⟩
        rcases List.mem_map.mp chosen with ⟨arm, listed, rfl⟩
        exact displaced_of_otherwise listed (Nat.lt_of_lt_of_le ahead (behind arm listed))
          (List.mem_filter.mp member').1 passed

end

end Settled

end Element

namespace Parser

open Element (Settled isPlain)

/-- The element begins at the given offset, and what has been read of it since is settled. -/
structure Placed (start : Nat) (cursor : Cursor) (element : Element) (later : Cursor) :
    Prop where
  begins : element.offset = start
  reaches : cursor.Reaches later
  settled : Settled start [element] later.offset

/-- The rule yields bodies that are settled where it reads them. -/
structure Settles (body : Parser (List Node)) : Prop where
  reaches {counters counters' : Counters} {cursor later : Cursor} {nodes : List Node} :
    body counters cursor = (.matched nodes later, counters') → cursor.Reaches later
  settled {counters counters' : Counters} {cursor later : Cursor} {nodes : List Node} :
    body counters cursor = (.matched nodes later, counters') →
      Settled cursor.offset (nodes.map .node) later.offset

section

variable {α : Type} {dialect : Dialect} {body : Parser (List Node)} {opened : OpenedTag}
  {counters counters' : Counters} {cursor later : Cursor} {node : Node}

theorem placed_of_many {rule : Parser α} {embed : α → Element} {values : List α}
    (placed : ∀ {counters cursor value later counters'},
      rule counters cursor = (.matched value later, counters') →
        Placed cursor.offset cursor (embed value) later)
    (matched : many rule counters cursor = (.matched values later, counters')) :
    cursor.Reaches later ∧ Settled cursor.offset (values.map embed) later.offset ∧
      ∀ value ∈ values, cursor.offset ≤ (embed value).offset := by
  have repeated := repeated_of_many matched
  clear matched
  induction repeated with
  | nil => exact ⟨.refl _, .of_references_eq_nil Element.references_nil, by simp⟩
  | cons first _ induction =>
      rcases induction with ⟨reaches, settled, behind⟩
      have first := placed first
      have forward := first.reaches.offset_le
      refine ⟨first.reaches.trans reaches, ?_, ?_⟩
      · exact first.settled.append settled forward reaches.offset_le
      · intro value member
        rcases List.mem_cons.mp member with rfl | member
        · exact Nat.le_of_eq first.begins.symm
        · exact Nat.le_trans forward (behind value member)

theorem placed_of_optional {rule : Parser α} {embed : α → Element} {value : Option α}
    (placed : ∀ {counters cursor value later counters'},
      rule counters cursor = (.matched value later, counters') →
        Placed cursor.offset cursor (embed value) later)
    (matched : optional rule counters cursor = (.matched value later, counters')) :
    cursor.Reaches later ∧ Settled cursor.offset (value.toList.map embed) later.offset := by
  rcases optional_eq_matched.mp matched with ⟨inner, rfl, read⟩ | ⟨rfl, rfl, _⟩
  · exact ⟨(placed read).reaches, (placed read).settled⟩
  · exact ⟨.refl _, .of_references_eq_nil Element.references_nil⟩

theorem tag_offset {words : List String}
    (matched : Grammar.tag dialect words cursor = .matched opened later) :
    opened.offset = cursor.offset := by
  simp only [Grammar.tag, Grammar.bind_eq_matched, Grammar.here_eq_matched,
    Grammar.pure_eq_matched] at matched
  rcases matched with ⟨_, _, ⟨rfl, _⟩, _, _, _, _, _, _, _, _, _, _, _, _, _, _, _, rfl, _⟩
  rfl

/-! ## Nodes without a body -/

theorem plain_of_text (matched : Grammar.text dialect cursor = .matched node later) :
    node.offset = cursor.offset ∧ ∀ child ∈ node.children, isPlain child = true := by
  simp only [Grammar.text, Grammar.bind_eq_matched, Grammar.here_eq_matched] at matched
  rcases matched with ⟨_, _, ⟨rfl, _⟩, _, _, _, matched⟩
  split at matched
  · cases matched
  · cases matched
    exact ⟨rfl, List.forall_mem_nil _⟩

theorem plain_of_comment (matched : Grammar.comment dialect cursor = .matched node later) :
    node.offset = cursor.offset ∧ ∀ child ∈ node.children, isPlain child = true := by
  simp only [Grammar.comment, Grammar.bind_eq_matched, Grammar.here_eq_matched,
    Grammar.pure_eq_matched] at matched
  rcases matched with ⟨_, _, ⟨rfl, _⟩, _, _, _, _, _, _, _, _, _, _, _, _, rfl, _⟩
  exact ⟨rfl, List.forall_mem_nil _⟩

theorem plain_of_output (matched : Grammar.output dialect cursor = .matched node later) :
    node.offset = cursor.offset ∧ ∀ child ∈ node.children, isPlain child = true := by
  simp only [Grammar.output, Grammar.bind_eq_matched, Grammar.here_eq_matched,
    Grammar.pure_eq_matched] at matched
  rcases matched with ⟨_, _, ⟨rfl, _⟩, _, _, _, _, _, _, _, _, _, _, _, _, _, _, _, rfl, _⟩
  exact ⟨rfl, by simp [Node.children, isPlain]⟩

theorem plain_of_raw (matched : Grammar.raw dialect opened cursor = .matched node later) :
    node.offset = opened.offset ∧ ∀ child ∈ node.children, isPlain child = true := by
  simp only [Grammar.raw, Grammar.bind_eq_matched, Grammar.pure_eq_matched] at matched
  rcases matched with ⟨_, _, _, _, _, _, _, _, _, _, _, _, rfl, _⟩
  exact ⟨rfl, List.forall_mem_nil _⟩

theorem plain_of_assignment (matched : Grammar.assignment opened cursor = .matched node later) :
    node.offset = opened.offset ∧ ∀ child ∈ node.children, isPlain child = true := by
  simp only [Grammar.assignment, Grammar.bind_eq_matched, Grammar.orElse_eq_matched,
    Grammar.pure_eq_matched] at matched
  rcases matched with ⟨_, _, _, matched | matched⟩
  · rcases matched with ⟨_, _, _, _, _, _, _, _, _, rfl, _⟩
    exact ⟨rfl, by simp [Node.children, isPlain]⟩
  · rcases matched with ⟨_, _, _, _, rfl, _⟩
    exact ⟨rfl, by simp [Node.children, isPlain]⟩

theorem plain_of_macroCall (matched : Grammar.macroCall opened cursor = .matched node later) :
    node.offset = opened.offset ∧ ∀ child ∈ node.children, isPlain child = true := by
  simp only [Grammar.macroCall, Grammar.bind_eq_matched] at matched
  rcases matched with ⟨_, _, _, scope, _, _, _, _, _, _, _, _, matched⟩
  cases scope <;> cases matched <;> exact ⟨rfl, by simp [Node.children, isPlain]⟩

theorem plain_of_extension (matched : Grammar.extension opened cursor = .matched node later) :
    node.offset = opened.offset ∧ ∀ child ∈ node.children, isPlain child = true := by
  unfold Grammar.extension at matched
  split at matched
  · cases matched
  · simp only [Grammar.bind_eq_matched, Grammar.pure_eq_matched] at matched
    rcases matched with ⟨_, _, _, rfl, _⟩
    exact ⟨rfl, List.forall_mem_nil _⟩

theorem plain_of_inclusion (matched : Grammar.inclusion opened cursor = .matched node later) :
    node.offset = opened.offset ∧ ∀ child ∈ node.children, isPlain child = true := by
  simp only [Grammar.inclusion, Grammar.bind_eq_matched, Grammar.pure_eq_matched] at matched
  rcases matched with ⟨_, _, _, _, _, _, rfl, _⟩
  exact ⟨rfl, List.forall_mem_nil _⟩

theorem plain_of_importation (matched : Grammar.importation opened cursor = .matched node later) :
    node.offset = opened.offset ∧ ∀ child ∈ node.children, isPlain child = true := by
  simp only [Grammar.importation, Grammar.bind_eq_matched, Grammar.pure_eq_matched] at matched
  rcases matched with ⟨_, _, _, _, _, _, _, _, _, _, _, _, rfl, _⟩
  exact ⟨rfl, List.forall_mem_nil _⟩

theorem placed_of_plain {start : Nat}
    (plain : node.offset = start ∧ ∀ child ∈ node.children, isPlain child = true)
    (reaches : cursor.Reaches later) (passed : start < later.offset) :
    Placed start cursor (.node node) later where
  begins := plain.1
  reaches := reaches
  settled := .of_plain plain.2 (Nat.le_of_eq plain.1.symm) (plain.1 ▸ passed)

theorem placed_of_loopControl {keyword : Keyword} {control : Nat → Edges → Node}
    (matched : loopControl opened keyword control counters cursor =
      (.matched node later, counters'))
    (offset : ∀ edges, (control opened.offset edges).offset = opened.offset)
    (children : ∀ edges, (control opened.offset edges).children = [])
    (behind : opened.offset < cursor.offset) :
    Placed opened.offset cursor (.node node) later := by
  rcases (loopControl_eq_matched opened).mp matched with ⟨_, _, right, edge, rfl⟩
  have reaches := Grammar.Advancing.reaches edge
  apply placed_of_plain ⟨offset _, _⟩ reaches (Nat.lt_of_lt_of_le behind reaches.offset_le)
  simp [children]

/-! ## Nodes with bodies -/

section

variable (settles : Settles body)

include settles

/-- What is read of a tag before a body. -/
theorem placed_of_body {element : Element} {nodes : List Node} {start : Nat}
    {begun ended : Cursor} (plain : List Element) (begins : element.offset = start)
    (first : cursor.Reaches begun) (opened : start ≤ begun.offset)
    (read : body counters begun = (.matched nodes ended, counters'))
    (last : ended.Reaches later)
    (children : element.children = plain ++ nodes.map .node)
    (isPlain : ∀ child ∈ plain, isPlain child = true) (noTemplate : element.template? = none) :
    Placed start cursor element later where
  begins := begins
  reaches := first.trans ((settles.reaches read).trans last)
  settled := by
    have forward := (settles.reaches read).offset_le
    have settled := (settles.settled read).of_nodes forward children isPlain noTemplate
    exact settled.mono opened last.offset_le

theorem placed_of_elseIfBranch {branch : Branch}
    (matched : elseIfBranch dialect body counters cursor = (.matched branch later, counters')) :
    Placed cursor.offset cursor (.branch branch) later := by
  simp only [elseIfBranch, bind_eq_matched, pure_eq_matched, liftM_eq_matched] at matched
  rcases matched with ⟨opened, _, _, ⟨tag, rfl⟩, _, _, _, ⟨word, rfl⟩, condition, _, _,
    ⟨condition', rfl⟩, _, begun, _, ⟨ended, rfl⟩, nodes, _, _, read, rfl, rfl, rfl⟩
  have reaches : cursor.Reaches begun :=
    (Grammar.Advancing.reaches tag).trans ((Grammar.Advancing.reaches word).trans
      ((Grammar.Advancing.reaches condition').trans (Grammar.Advancing.reaches ended)))
  exact placed_of_body settles [.condition condition] (tag_offset tag) reaches reaches.offset_le read
    (.refl _) rfl (by simp [isPlain]) rfl

theorem placed_of_elseBranch {branch : Branch}
    (matched : elseBranch dialect body counters cursor = (.matched branch later, counters')) :
    Placed cursor.offset cursor (.branch branch) later := by
  simp only [elseBranch, bind_eq_matched, pure_eq_matched, liftM_eq_matched] at matched
  rcases matched with ⟨opened, _, _, ⟨tag, rfl⟩, _, begun, _, ⟨ended, rfl⟩, nodes, _, _, read,
    rfl, rfl, rfl⟩
  have reaches : cursor.Reaches begun :=
    (Grammar.Advancing.reaches tag).trans (Grammar.Advancing.reaches ended)
  exact placed_of_body settles [] (tag_offset tag) reaches reaches.offset_le read
    (.refl _) rfl (by simp) rfl

theorem placed_of_whenArm {arm : Arm}
    (matched : whenArm dialect body counters cursor = (.matched arm later, counters')) :
    Placed cursor.offset cursor (.arm arm) later := by
  simp only [whenArm, bind_eq_matched, pure_eq_matched, liftM_eq_matched] at matched
  rcases matched with ⟨opened, _, _, ⟨tag, rfl⟩, pattern, _, _, ⟨pattern', rfl⟩, _, begun, _,
    ⟨ended, rfl⟩, nodes, _, _, read, rfl, rfl, rfl⟩
  have reaches : cursor.Reaches begun :=
    (Grammar.Advancing.reaches tag).trans ((Grammar.Advancing.reaches pattern').trans
      (Grammar.Advancing.reaches ended))
  exact placed_of_body settles [.pattern pattern] (tag_offset tag) reaches reaches.offset_le read
    (.refl _) rfl (by simp [isPlain]) rfl

theorem placed_of_elseArm {arm : Arm}
    (matched : elseArm dialect body counters cursor = (.matched arm later, counters')) :
    Placed cursor.offset cursor (.arm arm) later := by
  simp only [elseArm, bind_eq_matched, pure_eq_matched, liftM_eq_matched] at matched
  rcases matched with ⟨opened, _, _, ⟨tag, rfl⟩, _, begun, _, ⟨ended, rfl⟩, nodes, _, _, read,
    rfl, rfl, rfl⟩
  have reaches : cursor.Reaches begun :=
    (Grammar.Advancing.reaches tag).trans (Grammar.Advancing.reaches ended)
  exact placed_of_body settles [.pattern (.name opened.offset "_")] (tag_offset tag) reaches reaches.offset_le read
    (.refl _) rfl (by simp [isPlain]) rfl

theorem placed_of_conditional
    (matched : conditional dialect body opened counters cursor = (.matched node later, counters'))
    (behind : opened.offset < cursor.offset) :
    Placed opened.offset cursor (.node node) later := by
  simp only [conditional, bind_eq_matched, pure_eq_matched, liftM_eq_matched] at matched
  rcases matched with ⟨condition, _, _, ⟨condition', rfl⟩, right, begun, _, ⟨ended, rfl⟩, nodes,
    first, _, read, others, second, _, further, last, third, _, final, _, _, _, ⟨rejected, rfl⟩,
    left, _, _, ⟨closed, rfl⟩, right', _, _, ⟨edge, rfl⟩, rfl, rfl, rfl⟩
  have reaches : cursor.Reaches begun :=
    (Grammar.Advancing.reaches condition').trans (Grammar.Advancing.reaches ended)
  have first : Placed opened.offset cursor
      (.branch ⟨opened.offset, ⟨opened.trim, right⟩, some condition, nodes⟩) first :=
    placed_of_body settles [.condition condition] rfl reaches
      (Nat.le_trans (Nat.le_of_lt behind) reaches.offset_le) read (.refl _) rfl
      (by simp [isPlain]) rfl
  have others := placed_of_many (placed_of_elseIfBranch settles) further
  have last := placed_of_optional (placed_of_elseBranch settles) final
  have rest := (Grammar.Advancing.reaches rejected).trans
    ((Grammar.Advancing.reaches closed).trans (Grammar.Advancing.reaches edge))
  constructor
  · rfl
  · exact first.reaches.trans (others.1.trans (last.1.trans rest))
  · have := first.reaches.offset_le
    have := others.1.offset_le
    have := last.1.offset_le
    have settled := (first.settled.append others.2.1 (by omega) (by omega)).append last.2
      (by omega) (by omega)
    apply Settled.of_children _ rfl
    have children := settled.mono (Nat.le_refl _) rest.offset_le
    simpa [Element.children, Node.children] using children

theorem elseArm_passes {arm : Arm}
    (matched : elseArm dialect body counters cursor = (.matched arm later, counters')) :
    cursor.Passes later := by
  simp only [elseArm, bind_eq_matched, liftM_eq_matched] at matched
  rcases matched with ⟨_, _, _, ⟨tag, rfl⟩, _, _, _, ⟨ended, rfl⟩, _, _, _, read, same⟩
  cases same
  exact (Grammar.Consuming.passes tag).trans_reaches
    ((Grammar.Advancing.reaches ended).trans (settles.reaches read))

theorem settled_of_loopRest {middle closing : Edges} {alternative : List Node}
    (matched : loopRest dialect body opened counters cursor =
      (.matched (middle, alternative, closing) later, counters')) :
    cursor.Reaches later ∧ Settled cursor.offset (alternative.map .node) later.offset := by
  simp only [loopRest, orElse_eq_matched, bind_eq_matched, pure_eq_matched, liftM_eq_matched,
    ofGrammar_eq_matched, Grammar.missingEndTag_ne_matched, false_and, and_false, exists_false,
    or_false] at matched
  rcases matched with matched | ⟨_, _, matched⟩
  · rcases matched with ⟨_, _, _, ⟨tag, rfl⟩, _, _, _, ⟨edge, rfl⟩, same, rfl, rfl⟩
    cases same
    exact ⟨(Grammar.Advancing.reaches tag).trans (Grammar.Advancing.reaches edge),
      .of_references_eq_nil Element.references_nil⟩
  · rcases matched with ⟨_, _, _, ⟨tag, rfl⟩, _, begun, _, ⟨ended, rfl⟩, nodes, _, _, read, _, _,
      _, ⟨closed, rfl⟩, _, _, _, ⟨edge, rfl⟩, same, rfl, rfl⟩
    cases same
    have first : cursor.Reaches begun :=
      (Grammar.Advancing.reaches tag).trans (Grammar.Advancing.reaches ended)
    have last := (Grammar.Advancing.reaches closed).trans (Grammar.Advancing.reaches edge)
    exact ⟨first.trans ((settles.reaches read).trans last),
      (settles.settled read).mono first.offset_le last.offset_le⟩

theorem placed_of_loop
    (matched : loop dialect body opened counters cursor = (.matched node later, counters'))
    (behind : opened.offset < cursor.offset) :
    Placed opened.offset cursor (.node node) later := by
  simp only [loop, bind_eq_matched, pure_eq_matched, liftM_eq_matched, inLoop_eq_matched]
    at matched
  rcases matched with ⟨pattern, _, _, ⟨pattern', rfl⟩, _, _, _, ⟨word, rfl⟩, iterable, _, _,
    ⟨iterable', rfl⟩, guard, _, _, ⟨guard', rfl⟩, right, begun, _, ⟨ended, rfl⟩, nodes, between,
    _, ⟨_, read, rfl⟩, ⟨middle, alternative, closing⟩, _, _, rest, rfl, rfl, rfl⟩
  have reaches : cursor.Reaches begun :=
    (Grammar.Advancing.reaches pattern').trans ((Grammar.Advancing.reaches word).trans
      ((Grammar.Advancing.reaches iterable').trans ((Grammar.Advancing.reaches guard').trans
        (Grammar.Advancing.reaches ended))))
  have inside := settles.settled read
  have forward := settles.reaches read
  have rest := settled_of_loopRest settles rest
  constructor
  · rfl
  · exact reaches.trans (forward.trans rest.1)
  · have := reaches.offset_le
    have := forward.offset_le
    have := rest.1.offset_le
    have before : Settled opened.offset
        (.pattern pattern :: .expr iterable :: guard.toList.map .expr) begun.offset := by
      apply Settled.of_references_eq_nil
      apply Element.references_eq_nil_of_isPlain
      simp [isPlain]
    apply Settled.of_children _ rfl
    exact (before.append inside (by omega) (by omega)).append rest.2 (by omega) (by omega)

theorem placed_of_choice
    (matched : choice dialect body opened counters cursor = (.matched node later, counters'))
    (behind : opened.offset < cursor.offset) :
    Placed opened.offset cursor (.node node) later := by
  rw [choice_eq] at matched
  simp only [bind_eq_matched, pure_eq_matched, liftM_eq_matched, requireArm_eq_matched]
    at matched
  rcases matched with ⟨subject, _, _, ⟨subject', rfl⟩, right, _, _, ⟨ended, rfl⟩, _, begun, _,
    ⟨skipped, rfl⟩, before, first, _, whens, otherwise, second, _, one, after, third, _, others,
    _, _, _, ⟨rejected, rfl⟩, _, _, _, ⟨⟨_, rfl⟩, rfl⟩, left, _, _, ⟨closed, rfl⟩, right', _, _,
    ⟨edge, rfl⟩, rfl, rfl, rfl⟩
  have reaches : cursor.Reaches begun :=
    (Grammar.Advancing.reaches subject').trans ((Grammar.Advancing.reaches ended).trans
      (Grammar.Advancing.reaches skipped))
  have rest := (Grammar.Advancing.reaches rejected).trans
    ((Grammar.Advancing.reaches closed).trans (Grammar.Advancing.reaches edge))
  have whens := placed_of_many (placed_of_whenArm settles) whens
  have := reaches.offset_le
  rcases optional_eq_matched.mp one with ⟨otherwise, rfl, found⟩ | ⟨rfl, rfl, _⟩
  · have one := placed_of_elseArm settles found
    have passed := elseArm_passes settles found
    have others := placed_of_many (placed_of_whenArm settles) others
    have moved := Nat.lt_of_le_of_lt (Nat.le_of_eq one.begins) passed.offset_lt
    refine ⟨rfl, reaches.trans (whens.1.trans (one.reaches.trans (others.1.trans rest))),
      (Settled.choice whens.2.1 one.settled others.2.1 others.2.2 moved whens.1.offset_le
        one.reaches.offset_le others.1.offset_le).mono ?_ rest.offset_le⟩
    omega
  · cases others
    have plain : Settled begun.offset [.expr subject] begun.offset :=
      .of_references_eq_nil (Element.references_eq_nil_of_isPlain (by simp [isPlain]))
    have settled := plain.append whens.2.1 (Nat.le_refl _) whens.1.offset_le
    refine ⟨rfl, reaches.trans (whens.1.trans rest), Settled.of_children ?_ rfl⟩
    have children := settled.mono (show opened.offset ≤ begun.offset by omega) rest.offset_le
    simpa [Element.children, Node.children] using children

theorem placed_of_block
    (matched : block dialect body opened counters cursor = (.matched node later, counters'))
    (behind : opened.offset < cursor.offset) :
    Placed opened.offset cursor (.node node) later := by
  simp only [block, bind_eq_matched, pure_eq_matched, liftM_eq_matched] at matched
  rcases matched with ⟨name, _, _, ⟨name', rfl⟩, right, begun, _, ⟨ended, rfl⟩, nodes, _, _, read,
    left, _, _, ⟨closed, rfl⟩, _, _, _, ⟨again, rfl⟩, right', _, _, ⟨edge, rfl⟩, rfl, rfl, rfl⟩
  have reaches : cursor.Reaches begun :=
    (Grammar.Advancing.reaches name').trans (Grammar.Advancing.reaches ended)
  have := reaches.offset_le
  exact placed_of_body settles [] rfl reaches (by omega) read
    ((Grammar.Advancing.reaches closed).trans ((Grammar.Advancing.reaches again).trans
      (Grammar.Advancing.reaches edge))) rfl (by simp) rfl

theorem placed_of_macroDef
    (matched : macroDef dialect body opened counters cursor = (.matched node later, counters'))
    (behind : opened.offset < cursor.offset) :
    Placed opened.offset cursor (.node node) later := by
  rw [macroDef_eq] at matched
  simp only [bind_eq_matched, pure_eq_matched, liftM_eq_matched, checkMacroName_eq_matched]
    at matched
  rcases matched with ⟨_, _, _, ⟨blanks, rfl⟩, _, _, _, ⟨here, rfl⟩, name, _, _, ⟨name', rfl⟩, _,
    _, _, ⟨⟨_, rfl⟩, rfl⟩, parameters, _, _, ⟨parameters', rfl⟩, right, begun, _, ⟨ended, rfl⟩,
    nodes, _, _, read, left, _, _, ⟨closed, rfl⟩, _, _, _, ⟨again, rfl⟩, right', _, _,
    ⟨edge, rfl⟩, rfl, rfl, rfl⟩
  have reaches : cursor.Reaches begun :=
    (Grammar.Advancing.reaches blanks).trans ((Grammar.Advancing.reaches here).trans
      ((Grammar.Advancing.reaches name').trans ((Grammar.Advancing.reaches parameters').trans
        (Grammar.Advancing.reaches ended))))
  have := reaches.offset_le
  exact placed_of_body settles [] rfl reaches (by omega) read
    ((Grammar.Advancing.reaches closed).trans ((Grammar.Advancing.reaches again).trans
      (Grammar.Advancing.reaches edge))) rfl (by simp) rfl

/-! ## Statements and bodies -/

theorem placed_of_statementRest {keyword : Keyword}
    (matched : statementRest dialect body opened keyword counters cursor =
      (.matched node later, counters'))
    (behind : opened.offset < cursor.offset) :
    Placed opened.offset cursor (.node node) later := by
  have single (rule : Grammar Node) [Grammar.Advancing rule]
      (plain : ∀ {cursor node later}, rule cursor = .matched node later →
        node.offset = opened.offset ∧ ∀ child ∈ node.children, isPlain child = true)
      (matched : (liftM rule : Parser Node) counters cursor = (.matched node later, counters')) :
      Placed opened.offset cursor (.node node) later := by
    have read := (liftM_eq_matched.mp matched).1
    have reaches := Grammar.Advancing.reaches read
    exact placed_of_plain (plain read) reaches (Nat.lt_of_lt_of_le behind reaches.offset_le)
  cases keyword with
  | call => exact single (Grammar.macroCall opened) plain_of_macroCall matched
  | letBinding => exact single (Grammar.assignment opened) plain_of_assignment matched
  | setBinding => exact single (Grammar.assignment opened) plain_of_assignment matched
  | conditional => exact placed_of_conditional settles matched behind
  | loop => exact placed_of_loop settles matched behind
  | choice => exact placed_of_choice settles matched behind
  | extendTemplate => exact single (Grammar.extension opened) plain_of_extension matched
  | includeTemplate => exact single (Grammar.inclusion opened) plain_of_inclusion matched
  | importMacros => exact single (Grammar.importation opened) plain_of_importation matched
  | block => exact placed_of_block settles matched behind
  | macroDef => exact placed_of_macroDef settles matched behind
  | raw => exact single (Grammar.raw dialect opened) plain_of_raw matched
  | breakLoop => exact placed_of_loopControl matched (fun _ => rfl) (fun _ => rfl) behind
  | continueLoop => exact placed_of_loopControl matched (fun _ => rfl) (fun _ => rfl) behind

theorem placed_of_node
    (matched : Parser.node dialect body counters cursor = (.matched node later, counters')) :
    Placed cursor.offset cursor (.node node) later := by
  have single {rule : Grammar Node} [Grammar.Consuming rule]
      (plain : node.offset = cursor.offset ∧ ∀ child ∈ node.children, isPlain child = true)
      (matched : rule cursor = .matched node later) :
      Placed cursor.offset cursor (.node node) later := by
    have passes := Grammar.Consuming.passes matched
    exact placed_of_plain plain passes.1 passes.offset_lt
  simp only [Parser.node, orElse_eq_matched, ofGrammar_eq_matched] at matched
  rcases matched with ⟨read, _⟩ | ⟨_, _, ⟨read, _⟩ | ⟨_, _, ⟨read, _⟩ | ⟨_, _, matched⟩⟩⟩
  · exact single (plain_of_text read) read
  · exact single (plain_of_comment read) read
  · exact single (plain_of_output read) read
  · simp only [statement, bind_eq_matched, pure_eq_matched, liftM_eq_matched] at matched
    rcases matched with ⟨⟨opened, keyword⟩, _, _, ⟨start, rfl⟩, node, _, _, read, _, _, _,
      ⟨ended, rfl⟩, rfl, rfl, rfl⟩
    have passes := Grammar.Consuming.passes start
    have begins := ((statementStart_eq_matched dialect opened).mp start).1
    have placed := placed_of_statementRest settles read (begins ▸ passes.offset_lt)
    have last := Grammar.Advancing.reaches ended
    exact ⟨placed.begins.trans begins, passes.1.trans (placed.reaches.trans last),
      begins ▸ placed.settled.mono (Nat.le_refl _) last.offset_le⟩

end

/-- Every body is settled where it is read, by induction on the levels of bodies inside it. -/
theorem settles_nodesWithin (dialect : Dialect) (levels : Nat) :
    Settles (nodesWithin dialect levels) := by
  induction levels with
  | zero => exact ⟨nofun, nofun⟩
  | succ levels induction =>
      have settled {counters counters' : Counters} {cursor later : Cursor} {nodes : List Node}
          (matched : nodesWithin dialect (levels + 1) counters cursor =
            (.matched nodes later, counters')) :
          cursor.Reaches later ∧ Settled cursor.offset (nodes.map .node) later.offset := by
        simp only [nodesWithin, inBody_eq_matched, bind_eq_matched] at matched
        rcases matched with ⟨_, ⟨_, _, _, checked, matched⟩, _⟩
        rw [checkDepth_apply] at checked
        split at checked
        · cases checked
        · cases checked
          have placed := placed_of_many (placed_of_node induction) matched
          exact ⟨placed.1, placed.2.1⟩
      exact ⟨fun matched => (settled matched).1, fun matched => (settled matched).2⟩

end

end Parser

end Templating

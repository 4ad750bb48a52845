import Templating.Proofs.Layout
import Templating.Proofs.NodesWithin

/-! # Where nodes are read

Every node of a template, however deep it lies, has been read by the rule for nodes at some place of
the source. What one match of that rule tells of its node therefore holds of every node. -/

namespace Templating

variable {room : Room}

open Grammar

/-! ## What lies in a body -/

theorem Node.mem_within_flatten {node : Node} {bodies : List (List Node)}
    (member : node ∈ Node.within bodies.flatten) : ∃ body ∈ bodies, node ∈ Node.within body := by
  induction bodies with
  | nil =>
      rw [List.flatten_nil, Node.within_nil] at member
      cases member
  | cons body bodies induction =>
      rw [List.flatten_cons, Node.within_append] at member
      rcases List.mem_append.mp member with inside | further
      · exact ⟨body, List.mem_cons_self, inside⟩
      · rcases induction further with ⟨body', among, inside⟩
        exact ⟨body', List.mem_cons_of_mem _ among, inside⟩

/-- A node of a body is one of the nodes of the body, or lies in a body that one of them holds. -/
theorem Node.exists_of_mem_within {node : Node} {nodes : List Node}
    (member : node ∈ Node.within nodes) :
    ∃ outer ∈ nodes, node = outer ∨ ∃ body ∈ outer.bodies, node ∈ Node.within body := by
  rw [← Node.flatMap_within] at member
  rcases List.mem_flatMap.mp member with ⟨outer, among, inside⟩
  rw [Node.within_singleton] at inside
  rcases List.mem_cons.mp inside with same | deeper
  · exact ⟨outer, among, .inl same⟩
  · exact ⟨outer, among, .inr (Node.mem_within_flatten deeper)⟩

namespace Grammar

variable {α : Type} {rule : Grammar α} {value : α} {values : List α} {cursor middle later : Cursor}

/-- The rule has yielded the value at the cursor or behind it. -/
def ReadBehind (rule : Grammar α) (cursor : Cursor) (value : α) : Prop :=
  ∃ begun later, cursor.Reaches begun ∧ rule begun = .matched value later

theorem ReadBehind.of_reaches (reaches : cursor.Reaches middle) (read : ReadBehind rule middle value) :
    ReadBehind rule cursor value := by
  rcases read with ⟨begun, later, reaches', matched⟩
  exact ⟨begun, later, reaches.trans reaches', matched⟩

theorem Repeated.readBehind [Advancing rule] (repeated : Repeated rule cursor values later)
    (member : value ∈ values) : ReadBehind rule cursor value := by
  induction repeated with
  | nil => cases member
  | cons first _ induction =>
      rcases List.mem_cons.mp member with rfl | further
      · exact ⟨_, _, .refl _, first⟩
      · exact .of_reaches (Advancing.reaches first) (induction further)

theorem readBehind_of_optional {found : Option α}
    (matched : Grammar.optional rule cursor = .matched found later) (member : value ∈ found) :
    ReadBehind rule cursor value := by
  rcases optional_eq_matched.mp matched with ⟨_, rfl, read⟩ | ⟨rfl, _, _⟩
  · cases member
    exact ⟨_, _, .refl _, read⟩
  · cases member

end Grammar

namespace Scoped

variable {dialect : Dialect} {body alternative : Grammar (List Node)} {opened : OpenedTag}
  {node : Node} {nodes : List Node} {cursor later : Cursor}

/-! ## Branches and arms -/

theorem elseIfBranch_reads_body {branch : Branch}
    (matched : elseIfBranch dialect body cursor = .matched branch later) :
    ReadBehind body cursor branch.body := by
  simp only [elseIfBranch, bind_eq_matched, pure_eq_matched] at matched
  rcases matched with ⟨_, _, begun, _, _, word, _, _, condition, _, _, ended, _, _, inside, rfl, rfl⟩
  exact ⟨_, _, (((Advancing.reaches begun).trans (Advancing.reaches word)).trans
    (Advancing.reaches condition)).trans (Advancing.reaches ended), inside⟩

theorem elseBranch_reads_body {branch : Branch}
    (matched : elseBranch dialect body cursor = .matched branch later) :
    ReadBehind body cursor branch.body := by
  simp only [elseBranch, bind_eq_matched, pure_eq_matched] at matched
  rcases matched with ⟨_, _, begun, _, _, ended, _, _, inside, rfl, rfl⟩
  exact ⟨_, _, (Advancing.reaches begun).trans (Advancing.reaches ended), inside⟩

theorem whenArm_reads_body {arm : Arm}
    (matched : whenArm dialect body cursor = .matched arm later) :
    ReadBehind body cursor arm.body := by
  simp only [whenArm, bind_eq_matched, pure_eq_matched, expect_eq_matched] at matched
  rcases matched with ⟨_, _, begun, _, _, pattern, _, _, ended, _, _, inside, rfl, rfl⟩
  exact ⟨_, _, ((Advancing.reaches begun).trans (Advancing.reaches pattern)).trans
    (Advancing.reaches ended), inside⟩

theorem elseArm_reads_body {arm : Arm}
    (matched : elseArm dialect body cursor = .matched arm later) :
    ReadBehind body cursor arm.body := by
  simp only [elseArm, bind_eq_matched, pure_eq_matched] at matched
  rcases matched with ⟨_, _, begun, _, _, ended, _, _, inside, rfl, rfl⟩
  exact ⟨_, _, (Advancing.reaches begun).trans (Advancing.reaches ended), inside⟩

/-! ## Constructs -/

theorem conditional_reads_bodies [Advancing body]
    (matched : conditional dialect body opened cursor = .matched node later)
    (member : nodes ∈ node.bodies) : ReadBehind body cursor nodes := by
  simp only [conditional, bind_eq_matched, pure_eq_matched] at matched
  rcases matched with ⟨_, _, condition, _, _, ended, first, _, inside, others, _, others_read, last, _,
    last_read, _, _, _, _, _, _, _, _, _, rfl, rfl⟩
  have begun := (Advancing.reaches condition).trans (Advancing.reaches ended)
  have behind := begun.trans (Advancing.reaches inside)
  rcases List.mem_map.mp member with ⟨branch, among, rfl⟩
  rcases List.mem_append.mp among with among | among
  · rcases List.mem_cons.mp among with rfl | among
    · exact ⟨_, _, begun, inside⟩
    · rcases (repeated_of_many others_read).readBehind among with ⟨_, _, reaches, read⟩
      exact (elseIfBranch_reads_body read).of_reaches (behind.trans reaches)
  · rcases readBehind_of_optional last_read (Option.mem_toList.mp among) with ⟨_, _, reaches, read⟩
    exact (elseBranch_reads_body read).of_reaches
      ((behind.trans (Advancing.reaches others_read)).trans reaches)

theorem laterArms_reads_bodies [Advancing body] {otherwise : Option Arm} {arms : List Arm} {arm : Arm}
    (matched : laterArms dialect body otherwise cursor = .matched arms later) (member : arm ∈ arms) :
    ReadBehind body cursor arm.body := by
  cases otherwise with
  | none =>
      cases matched
      cases member
  | some _ =>
      rcases (repeated_of_many matched).readBehind member with ⟨_, _, reaches, read⟩
      exact (whenArm_reads_body read).of_reaches reaches

theorem choice_reads_bodies [Advancing body]
    (matched : choice dialect body opened cursor = .matched node later)
    (member : nodes ∈ node.bodies) : ReadBehind body cursor nodes := by
  simp only [choice, bind_eq_matched, pure_eq_matched, expect_eq_matched] at matched
  rcases matched with ⟨_, _, subject, _, _, ended, _, _, skipped, before, _, before_read, otherwise, _,
    otherwise_read, after, _, after_read, _, _, _, _, _, _, _, _, _, _, _, _, rfl, rfl⟩
  have begun := ((Advancing.reaches subject).trans (Advancing.reaches ended)).trans
    (Advancing.reaches skipped)
  have further := begun.trans (Advancing.reaches before_read)
  rcases List.mem_map.mp member with ⟨arm, among, rfl⟩
  rcases List.mem_append.mp among with among | among
  · rcases List.mem_append.mp among with among | among
    · rcases (repeated_of_many before_read).readBehind among with ⟨_, _, reaches, read⟩
      exact (whenArm_reads_body read).of_reaches (begun.trans reaches)
    · exact (laterArms_reads_bodies after_read among).of_reaches
        (further.trans (Advancing.reaches otherwise_read))
  · rcases readBehind_of_optional otherwise_read (Option.mem_toList.mp among) with
      ⟨_, _, reaches, read⟩
    exact (elseArm_reads_body read).of_reaches (further.trans reaches)

theorem block_reads_bodies (matched : block dialect body opened cursor = .matched node later)
    (member : nodes ∈ node.bodies) : ReadBehind body cursor nodes := by
  simp only [block, bind_eq_matched, pure_eq_matched, expect_eq_matched] at matched
  rcases matched with ⟨_, _, named, _, _, ended, _, _, inside, _, _, _, _, _, _, _, _, _, rfl, rfl⟩
  rw [List.mem_singleton.mp member]
  exact ⟨_, _, (Advancing.reaches named).trans (Advancing.reaches ended), inside⟩

theorem macroDef_reads_bodies (matched : macroDef dialect body opened cursor = .matched node later)
    (member : nodes ∈ node.bodies) : ReadBehind body cursor nodes := by
  simp only [macroDef, bind_eq_matched, pure_eq_matched, expect_eq_matched, here_eq_matched,
    Parser.checkMacroName_eq_matched] at matched
  rcases matched with ⟨_, _, blanks, _, _, ⟨rfl, rfl⟩, _, _, named, _, _, ⟨_, rfl⟩, _, _, listed, _, _,
    ended, _, _, inside, _, _, _, _, _, _, _, _, _, rfl, rfl⟩
  rw [List.mem_singleton.mp member]
  exact ⟨_, _, (((Advancing.reaches blanks).trans (Advancing.reaches named)).trans
    (Advancing.reaches listed)).trans (Advancing.reaches ended), inside⟩

/-- The alternative of a loop is read if the loop has one. -/
theorem loop_reads_bodies [Advancing body]
    (matched : loop dialect body opened alternative cursor = .matched node later)
    (member : nodes ∈ node.bodies) :
    nodes = [] ∨ ReadBehind body cursor nodes ∨ ReadBehind alternative cursor nodes := by
  simp only [loop, bind_eq_matched, pure_eq_matched, expect_eq_matched] at matched
  rcases matched with ⟨_, _, pattern, _, _, word, _, _, iterable, _, _, guarded, _, _, ended, _, _,
    inside, _, _, rest_read, rfl, rfl⟩
  have begun := ((((Advancing.reaches pattern).trans (Advancing.reaches word)).trans
    (Advancing.reaches iterable)).trans (Advancing.reaches guarded)).trans (Advancing.reaches ended)
  rcases List.mem_cons.mp member with rfl | member
  · exact .inr (.inl ⟨_, _, begun, inside⟩)
  · rw [List.mem_singleton.mp member]
    simp only [loopRest, orElse_eq_matched, bind_eq_matched, pure_eq_matched,
      missingEndTag_ne_matched, and_false, or_false] at rest_read
    rcases rest_read with ⟨_, _, _, _, _, _, rfl, rfl⟩ | ⟨_, _, _, tag_read, _, _, tag_ended, _, _,
      inside', _, _, _, _, _, _, rfl, rfl⟩
    · exact .inl rfl
    · exact .inr (.inr ⟨_, _, ((begun.trans (Advancing.reaches inside)).trans
        (Advancing.reaches tag_read)).trans (Advancing.reaches tag_ended), inside'⟩)

/-! ## Nodes -/

section

variable {keyword : Keyword} {inLoop : Bool} {bodies : Part → Grammar (List Node)}
  [∀ part, Advancing (bodies part)]

theorem statementRest_reads_bodies
    (matched : statementRest dialect opened inLoop bodies keyword cursor = .matched node later)
    (member : nodes ∈ node.bodies) :
    nodes = [] ∨ ∃ part, ReadBehind (bodies part) cursor nodes := by
  cases single : keyword.opensBody with
  | false =>
      rw [(isLeaf_statementRest dialect opened single _ _ _ matched).2] at member
      cases member
  | true =>
      cases keyword with
      | conditional => exact .inr ⟨_, conditional_reads_bodies matched member⟩
      | loop =>
          rcases loop_reads_bodies matched member with empty | read | read
          · exact .inl empty
          · exact .inr ⟨_, read⟩
          · exact .inr ⟨_, read⟩
      | choice => exact .inr ⟨_, choice_reads_bodies matched member⟩
      | block => exact .inr ⟨_, block_reads_bodies matched member⟩
      | macroDef => exact .inr ⟨_, macroDef_reads_bodies matched member⟩
      | _ => cases single

theorem node_reads_bodies (matched : Scoped.node dialect inLoop bodies cursor = .matched node later)
    (member : nodes ∈ node.bodies) :
    nodes = [] ∨ ∃ part, ReadBehind (bodies part) cursor nodes := by
  simp only [Scoped.node, orElse_eq_matched] at matched
  rcases matched with read | ⟨_, read | ⟨_, read | ⟨_, read⟩⟩⟩
  · rcases text_eq_matched.mp read with ⟨_, _, rfl, _⟩
    cases member
  · rw [(isLeaf_comment dialect _ _ _ read).2] at member
    cases member
  · rw [(isLeaf_output dialect _ _ _ read).2] at member
    cases member
  · simp only [statement, bind_eq_matched, pure_eq_matched] at read
    rcases read with ⟨_, _, begun, _, _, rest, _, _, _, rfl, rfl⟩
    refine (statementRest_reads_bodies rest member).imp_right ?_
    rintro ⟨part, inside⟩
    exact ⟨part, inside.of_reaches (Advancing.reaches begun)⟩

end

/-- The rule for nodes, where these bodies are open. -/
def nodeWithin [Room] (dialect : Dialect) (outside : Counters) (levels : Nat) (scope : List Part) :
    Grammar Node :=
  Scoped.node dialect (outside.within scope).inLoop fun part =>
    nodesWithin dialect outside levels (part :: scope)

/-- Every node that lies in a body has been read by the rule for nodes, by induction on the levels
of bodies. -/
theorem mem_within_read {outside : Counters} {levels : Nat} {scope : List Part}
    (matched : nodesWithin dialect outside levels scope cursor = .matched nodes later)
    (member : node ∈ Node.within nodes) :
    ∃ levels scope, ReadBehind (nodeWithin dialect outside levels scope) cursor node := by
  induction levels generalizing scope cursor nodes later with
  | zero => cases matched
  | succ levels induction =>
      rw [nodesWithin] at matched
      split at matched
      case isTrue => cases matched
      case isFalse =>
          rcases Node.exists_of_mem_within member with ⟨outer, among, inside⟩
          have read : ReadBehind (nodeWithin dialect outside levels scope) cursor outer :=
            (repeated_of_many matched).readBehind among
          rcases inside with rfl | ⟨body, held, inside⟩
          · exact ⟨levels, scope, read⟩
          · rcases read with ⟨begun, _, reaches, read⟩
            rcases node_reads_bodies read held with rfl | ⟨part, first, _, reaches', read'⟩
            · rw [Node.within_nil] at inside
              cases inside
            · rcases induction read' inside with ⟨levels', scope', found⟩
              exact ⟨levels', scope', found.of_reaches (reaches.trans reaches')⟩

end Scoped

end Templating

import Templating.Proofs.ExpressionGrammar
import Templating.Proofs.LayoutSoundness
import Templating.Proofs.LiteralText
import Templating.Proofs.NodesWithin

/-! # Pieces of a source

A layout cuts its part of a source into pieces, which are texts and what is written around them. The
pieces lie side by side, and their texts are those of the tree. Therefore every character belongs to
exactly one piece: to one text, or to none. -/

namespace Templating

variable {room : Room}

/-! ## Pieces -/

/-- A text, or a part of a source that is none. -/
inductive Piece where
  | text (offset : Nat) (passage : Passage)
  | markup (start stop : Nat)
  deriving Repr, DecidableEq

namespace Piece

def start : Piece → Nat
  | text offset _ => offset
  | markup start _ => start

def stop : Piece → Nat
  | text offset passage => offset + passage.text.length
  | markup _ stop => stop

def holds (place : Nat) (piece : Piece) : Bool :=
  piece.start ≤ place && place < piece.stop

def text? : Piece → Option (Nat × Passage)
  | text offset passage => some (offset, passage)
  | markup .. => none

def isMarkup : Piece → Bool
  | text .. => false
  | markup .. => true

/-- A place is in a piece or behind it. -/
theorem add_holds (piece : Piece) {last : Nat} (begins : piece.start ≤ piece.stop)
    (goesOn : piece.stop ≤ last) (place : Nat) :
    (if piece.stop ≤ place ∧ place < last then 1 else 0) + (if piece.holds place then 1 else 0) =
      if piece.start ≤ place ∧ place < last then 1 else 0 := by
  unfold holds
  rcases Nat.lt_or_ge place piece.stop with before | behind
  · simp [before, Nat.not_le.mpr before, Nat.lt_of_lt_of_le before goesOn]
  · simp [behind, Nat.not_lt.mpr behind, Nat.le_trans begins behind]

end Piece

/-- The pieces lie side by side between two places of a source. -/
inductive Tiles [Room] (dialect : Dialect) (source : List Char) : Nat → List Piece → Nat → Prop
  | nil (place : Nat) : Tiles dialect source place [] place
  | text {start stop : Nat} {passage : Passage} {pieces : List Piece} :
      TextAt dialect source start passage →
      Tiles dialect source (start + passage.text.length) pieces stop →
      Tiles dialect source start (.text start passage :: pieces) stop
  | markup {start middle stop : Nat} {pieces : List Piece} :
      start ≤ middle → Markup dialect (.after source start) (.after source middle) →
      Tiles dialect source middle pieces stop →
      Tiles dialect source start (.markup start middle :: pieces) stop

namespace Tiles

variable {dialect : Dialect} {source : List Char} {pieces others : List Piece}
  {start middle stop : Nat}

theorem append (first : Tiles dialect source start pieces middle)
    (second : Tiles dialect source middle others stop) :
    Tiles dialect source start (pieces ++ others) stop := by
  induction first with
  | nil => exact second
  | text holds _ induction => exact .text holds (induction second)
  | markup forward around _ induction => exact .markup forward around (induction second)

theorem start_le_stop (tiles : Tiles dialect source start pieces stop) : start ≤ stop := by
  induction tiles with
  | nil => exact Nat.le_refl _
  | text _ _ induction => omega
  | markup _ _ _ induction => omega

/-- Each place between the two ends is held by one piece, and no other place by any. -/
theorem countP_holds (tiles : Tiles dialect source start pieces stop) (place : Nat) :
    pieces.countP (Piece.holds place) = if start ≤ place ∧ place < stop then 1 else 0 := by
  induction tiles with
  | nil =>
      rw [if_neg (by omega)]
      rfl
  | text _ rest induction =>
      rw [List.countP_cons, induction]
      exact Piece.add_holds (.text _ _) (Nat.le_add_right _ _) rest.start_le_stop place
  | markup forward _ rest induction =>
      rw [List.countP_cons, induction]
      exact Piece.add_holds (.markup _ _) forward rest.start_le_stop place

theorem textAt_of_mem {offset : Nat} {passage : Passage}
    (tiles : Tiles dialect source start pieces stop) (among : .text offset passage ∈ pieces) :
    TextAt dialect source offset passage := by
  induction tiles with
  | nil => cases among
  | text holds _ induction =>
      rcases List.mem_cons.mp among with same | among
      · cases same
        exact holds
      · exact induction among
  | markup _ _ _ induction =>
      rcases List.mem_cons.mp among with same | among
      · cases same
      · exact induction among

end Tiles

/-! ## The texts of a tree -/

namespace Node

def text? : Node → Option (Nat × Passage)
  | text offset passage => some (offset, passage)
  | _ => none

/-- The texts of a body and of the bodies inside it. -/
def texts (nodes : List Node) : List (Nat × Passage) :=
  (within nodes).filterMap text?

@[simp] theorem texts_nil : texts [] = [] := by
  simp [texts]

theorem texts_append (nodes others : List Node) :
    texts (nodes ++ others) = texts nodes ++ texts others := by
  rw [texts, within_append, List.filterMap_append]
  rfl

theorem texts_singleton (node : Node) :
    texts [node] = node.text?.toList ++ texts node.bodies.flatten := by
  rw [texts, within_singleton, List.filterMap_cons]
  cases node.text? <;> rfl

theorem texts_perm {nodes others : List Node} (same : nodes.Perm others) :
    (texts nodes).Perm (texts others) :=
  (within_perm same).filterMap text?

theorem texts_of_isText_eq_false {node : Node} (noText : node.isText = false) :
    texts [node] = texts node.bodies.flatten := by
  have none : node.text? = none := by
    cases node <;> first | rfl | cases noText
  rw [texts_singleton, none]
  rfl

theorem IsLeaf.texts_eq_nil {node : Node} (leaf : node.IsLeaf) : texts [node] = [] := by
  rw [texts_of_isText_eq_false leaf.1, leaf.2, List.flatten_nil, texts_nil]

theorem Written.texts_eq {keyword : Keyword} {node : Node} {bodies : List (List Node)}
    (written : node.Written keyword bodies) : texts [node] = texts bodies.flatten := by
  cases written with
  | loop => rw [texts_of_isText_eq_false rfl]; simp [bodies]
  | _ => exact texts_of_isText_eq_false rfl

end Node

/-! ## Layouts as pieces -/

variable {dialect : Dialect} {source : List Char}

def Stretch.nodes : Stretch → List Node
  | .node inner => [inner]
  | .body nodes => nodes
  | .sections bodies => bodies.flatten

/-- The pieces between two places of the source have the texts of the nodes, each of them once. -/
def Covered [Room] (dialect : Dialect) (source : List Char) (start : Nat) (nodes : List Node) (stop : Nat) :
    Prop :=
  ∃ pieces, Tiles dialect source start pieces stop ∧
    (pieces.filterMap Piece.text?).Perm (Node.texts nodes)

namespace Covered

variable {start middle stop : Nat} {nodes others : List Node}

theorem nil (place : Nat) : Covered dialect source place [] place :=
  ⟨[], .nil place, by simp⟩

theorem append (first : Covered dialect source start nodes middle)
    (second : Covered dialect source middle others stop) :
    Covered dialect source start (nodes ++ others) stop := by
  rcases first with ⟨pieces, tiles, same⟩
  rcases second with ⟨pieces', tiles', same'⟩
  refine ⟨pieces ++ pieces', tiles.append tiles', ?_⟩
  rw [List.filterMap_append, Node.texts_append]
  exact same.append same'

theorem of_perm (covered : Covered dialect source start nodes stop)
    (same : (Node.texts nodes).Perm (Node.texts others)) :
    Covered dialect source start others stop := by
  rcases covered with ⟨pieces, tiles, same'⟩
  exact ⟨pieces, tiles, same'.trans same⟩

theorem of_markup {later : Cursor} (markup : Markup dialect (.after source start) later) :
    ∃ stop, later = .after source stop ∧ Covered dialect source start [] stop := by
  rcases Grammar.eq_after_of_reaches markup.reaches with ⟨_, _, rfl⟩
  exact ⟨_, rfl, [_], .markup (Nat.le_add_right _ _) markup (.nil _), by simp [Piece.text?]⟩

end Covered

/-- What is laid out is covered by its pieces. -/
theorem Laid.covered {stretch : Stretch} {start : Nat} {later : Cursor}
    (laid : Laid dialect stretch (.after source start) later) :
    ∃ stop, later = .after source stop ∧ Covered dialect source start stretch.nodes stop := by
  generalize origin : Cursor.after source start = cursor at laid
  induction laid generalizing start with
  | text read =>
      subst origin
      rcases textAt_of_text read with ⟨passage, rfl, textAt, rfl⟩
      refine ⟨_, rfl, [_], .text textAt (.nil _), ?_⟩
      rw [Stretch.nodes, Node.texts_singleton]
      simp [Piece.text?, Node.text?, Node.bodies]
  | leaf leaf =>
      subst origin
      rcases Covered.of_markup (.leaf leaf) with ⟨stop, rfl, covered⟩
      refine ⟨stop, rfl, covered.of_perm ?_⟩
      rw [Stretch.nodes, leaf.isLeaf.texts_eq_nil, Node.texts_nil]
  | construct written opening _ _ body sections =>
      subst origin
      rcases Covered.of_markup (.opening opening) with ⟨first, rfl, around⟩
      rcases body rfl with ⟨second, rfl, inside⟩
      rcases sections rfl with ⟨stop, rfl, rest⟩
      refine ⟨stop, rfl, (around.append (inside.append rest)).of_perm ?_⟩
      rw [Stretch.nodes, written.texts_eq]
      rfl
  | choice opening skipped _ sections =>
      subst origin
      rcases Covered.of_markup (.choice opening skipped) with ⟨first, rfl, around⟩
      rcases sections rfl with ⟨stop, rfl, rest⟩
      refine ⟨stop, rfl, (around.append rest).of_perm ?_⟩
      rw [Stretch.nodes, Node.texts_of_isText_eq_false rfl]
      exact Node.texts_perm (Node.bodies_choice_perm ..).symm.flatten
  | nil => exact ⟨start, origin.symm, .nil start⟩
  | cons _ _ _ first others =>
      rcases first origin with ⟨middle, rfl, covered⟩
      rcases others rfl with ⟨stop, rfl, rest⟩
      exact ⟨stop, rfl, covered.append rest⟩
  | closing following =>
      subst origin
      exact Covered.of_markup (.following following)
  | further following _ _ body sections =>
      subst origin
      rcases Covered.of_markup (.following following) with ⟨first, rfl, around⟩
      rcases body rfl with ⟨second, rfl, inside⟩
      rcases sections rfl with ⟨stop, rfl, rest⟩
      exact ⟨stop, rfl, around.append (inside.append rest)⟩

end Templating

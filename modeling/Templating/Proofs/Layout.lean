import Templating.Proofs.SourceOrder
import Templating.Proofs.Bare
import Templating.Proofs.NodeBodies
import Templating.Proofs.Regular

/-! # The layout of a source

How the nodes of a body lie in its source. The nodes stand one behind the other without a gap,
and a node with bodies is made of tags and of the bodies between them. The layout tells of every
character whether it belongs to a text or to what is written around texts. -/

namespace Templating

variable {room : Room}

namespace Keyword

/-- The statement has bodies and ends with a tag of its own. -/
def opensBody : Keyword → Bool
  | .conditional | .loop | .choice | .block | .macroDef => true
  | .call | .letBinding | .setBinding | .extendTemplate | .includeTemplate | .importMacros | .raw
  | .breakLoop | .continueLoop => false

/-- What stands between the word of a statement with bodies and the end of its first tag. -/
inductive Opens [Room] : Keyword → Cursor → Cursor → Prop
  | conditional {condition : Condition} {cursor later : Cursor} :
      Grammar.condition cursor = .matched condition later → Opens .conditional cursor later
  | loop {pattern : Pattern} {word : String} {iterable : Expr} {guard : Option Expr}
      {cursor first second third later : Cursor} :
      Grammar.pattern cursor = .matched pattern first →
      Grammar.keyword "in" first = .matched word second →
      Grammar.expression second = .matched iterable third →
      Grammar.optional Scoped.guard third = .matched guard later → Opens .loop cursor later
  | choice {subject : Expr} {cursor later : Cursor} :
      Grammar.expression cursor = .matched subject later → Opens .choice cursor later
  | block {name : String} {cursor later : Cursor} :
      Grammar.nameToken cursor = .matched name later → Opens .block cursor later
  | macroDef {name : String} {parameters : Option (List String)}
      {cursor first second later : Cursor} :
      Grammar.spaces cursor = .matched () first →
      Grammar.nameToken first = .matched name second →
      Grammar.optional Grammar.parameters second = .matched parameters later →
      Opens .macroDef cursor later

end Keyword

/-- What stands between the word of a tag inside a construct and the end of that tag. -/
inductive Continues [Room] : String → Cursor → Cursor → Prop
  | plain {word : String} (cursor : Cursor) (known : word ∈ ["else", "endif", "endfor", "endmatch"]) :
      Continues word cursor cursor
  | condition {word : String} {condition : Condition} {cursor middle later : Cursor} :
      Grammar.keyword "if" cursor = .matched word middle →
      Grammar.condition middle = .matched condition later → Continues "else" cursor later
  | pattern {pattern : Pattern} {cursor later : Cursor} :
      Grammar.pattern cursor = .matched pattern later → Continues "when" cursor later
  | name {word : String} {name : Option String} {cursor later : Cursor}
      (known : word ∈ ["endblock", "endmacro"]) :
      Grammar.optional Grammar.nameToken cursor = .matched name later → Continues word cursor later

/-! ## What is written around texts -/

section

variable (dialect : Dialect)

/-- A comment, an output, or a statement without bodies: a single tag, or a block of raw text with
the two tags around it. -/
inductive Leaf [Room] : Node → Cursor → Cursor → Prop
  | comment {node : Node} {cursor later : Cursor} :
      Grammar.comment dialect cursor = .matched node later → Leaf node cursor later
  | output {node : Node} {cursor later : Cursor} :
      Grammar.output dialect cursor = .matched node later → Leaf node cursor later
  | statement {inLoop : Bool} {bodies : Part → Grammar (List Node)} {opened : OpenedTag}
      {keyword : Keyword} {node : Node} {cursor first second later : Cursor} :
      Parser.statementStart dialect cursor = .matched (opened, keyword) first →
      keyword.opensBody = false →
      Scoped.statementRest dialect opened inLoop bodies keyword first = .matched node second →
      Grammar.tagEnd dialect second = .matched () later → Leaf node cursor later

/-- The first tag of a statement with bodies. -/
inductive Opening [Room] : Keyword → Cursor → Cursor → Prop
  | intro {opened : OpenedTag} {keyword : Keyword} {right : Option Trim}
      {cursor first second later : Cursor} :
      Parser.statementStart dialect cursor = .matched (opened, keyword) first →
      keyword.Opens first second →
      Grammar.tagRest dialect second = .matched right later → Opening keyword cursor later

/-- A further tag of a statement with bodies. -/
inductive Following [Room] : Cursor → Cursor → Prop
  | intro {word : String} {opened : OpenedTag} {right : Option Trim}
      {cursor first second later : Cursor} :
      Grammar.tag dialect [word] cursor = .matched opened first →
      Continues word first second →
      Grammar.tagRest dialect second = .matched right later → Following cursor later

/-- What is no text: comments, outputs, raw text, tags, and the blanks and comments between the
first tag of a choice and its first arm. -/
inductive Markup [Room] : Cursor → Cursor → Prop
  | leaf {node : Node} {cursor later : Cursor} : Leaf dialect node cursor later → Markup cursor later
  | opening {keyword : Keyword} {cursor later : Cursor} :
      Opening dialect keyword cursor later → Markup cursor later
  | choice {cursor middle later : Cursor} :
      Opening dialect .choice cursor middle →
      Grammar.skipComments dialect middle = .matched () later → Markup cursor later
  | following {cursor later : Cursor} : Following dialect cursor later → Markup cursor later

end

/-! ## Layouts -/

/-- The bodies of a node in the order in which they are written, for a node whose first tag is
followed by a body. A loop without an alternative has an empty one in the tree. -/
inductive Node.Written : Keyword → Node → List (List Node) → Prop
  | conditional (offset : Nat) (branches : List Branch) (closing : Edges) :
      Written .conditional (.conditional offset branches closing) (branches.map Branch.body)
  | loop (offset : Nat) (opening : Edges) (pattern : Pattern) (iterable : Expr)
      (guard : Option Expr) (body : List Node) (middle closing : Edges) :
      Written .loop (.loop offset opening pattern iterable guard body middle [] closing) [body]
  | loopElse (offset : Nat) (opening : Edges) (pattern : Pattern) (iterable : Expr)
      (guard : Option Expr) (body : List Node) (middle : Edges) (alternative : List Node)
      (closing : Edges) :
      Written .loop (.loop offset opening pattern iterable guard body middle alternative closing)
        [body, alternative]
  | block (offset : Nat) (opening : Edges) (name : String) (body : List Node) (closing : Edges) :
      Written .block (.block offset opening name body closing) [body]
  | macroDef (offset : Nat) (name : String) (opening : Edges) (parameters : List String)
      (body : List Node) (closing : Edges) :
      Written .macroDef (.macroDef offset name opening parameters body closing) [body]

/-- What a layout is told of: a node, a body, or the rest of a construct, which is a tag before each
of some bodies and one behind the last. -/
inductive Stretch where
  | node (node : Node)
  | body (nodes : List Node)
  | sections (bodies : List (List Node))

/-- The stretch lies between the two cursors and fills the space between them. -/
inductive Laid [Room] (dialect : Dialect) : Stretch → Cursor → Cursor → Prop
  | text {node : Node} {cursor later : Cursor} :
      Grammar.text dialect cursor = .matched node later → Laid dialect (.node node) cursor later
  | leaf {node : Node} {cursor later : Cursor} :
      Leaf dialect node cursor later → Laid dialect (.node node) cursor later
  | construct {keyword : Keyword} {node : Node} {nodes : List Node} {bodies : List (List Node)}
      {cursor first second later : Cursor} :
      node.Written keyword (nodes :: bodies) → Opening dialect keyword cursor first →
      Laid dialect (.body nodes) first second → Laid dialect (.sections bodies) second later →
      Laid dialect (.node node) cursor later
  /-- The arm that is taken when no other is stands anywhere, and last in the tree. -/
  | choice {offset : Nat} {opening : Edges} {subject : Expr} {before : List Arm}
      {otherwise : Option Arm} {after : List Arm} {closing : Edges}
      {cursor first second later : Cursor} :
      Opening dialect .choice cursor first →
      Grammar.skipComments dialect first = .matched () second →
      Laid dialect (.sections ((before ++ otherwise.toList ++ after).map Arm.body)) second later →
      Laid dialect
        (.node (.choice offset opening subject (before ++ after ++ otherwise.toList) closing))
        cursor later
  /-- A body without nodes fills no space. -/
  | nil (cursor : Cursor) : Laid dialect (.body []) cursor cursor
  /-- A node begins at the offset that the tree has for it, and the next one where it ends. -/
  | cons {node : Node} {nodes : List Node} {cursor middle later : Cursor} :
      node.offset = cursor.offset → Laid dialect (.node node) cursor middle →
      Laid dialect (.body nodes) middle later → Laid dialect (.body (node :: nodes)) cursor later
  | closing {cursor later : Cursor} :
      Following dialect cursor later → Laid dialect (.sections []) cursor later
  | further {nodes : List Node} {bodies : List (List Node)} {cursor first second later : Cursor} :
      Following dialect cursor first → Laid dialect (.body nodes) first second →
      Laid dialect (.sections bodies) second later →
      Laid dialect (.sections (nodes :: bodies)) cursor later

/-- The arms of a choice are those that are written, perhaps in another order. -/
theorem Node.bodies_choice_perm (offset : Nat) (opening : Edges) (subject : Expr)
    (before after : List Arm) (otherwise : Option Arm) (closing : Edges) :
    (Node.choice offset opening subject (before ++ after ++ otherwise.toList) closing).bodies.Perm
      ((before ++ otherwise.toList ++ after).map Arm.body) := by
  rw [Node.bodies, List.append_assoc, List.append_assoc]
  exact (List.perm_append_comm.append_left before).map Arm.body

/-! ## Leaves -/

/-- The node is no text and has no bodies. -/
def Node.IsLeaf (node : Node) : Prop :=
  node.isText = false ∧ node.bodies = []

namespace Grammar

variable (dialect : Dialect) (opened : OpenedTag)

theorem isLeaf_comment : Always Node.IsLeaf (comment dialect) :=
  .bind fun _ => .bind fun _ => .bind fun _ => .bind fun _ => .bind fun _ => .pure ⟨rfl, rfl⟩

theorem isLeaf_output : Always Node.IsLeaf (output dialect) :=
  .bind fun _ => .bind fun _ => .bind fun _ => .bind fun _ => .bind fun _ => .bind fun _ =>
    .pure ⟨rfl, rfl⟩

theorem isLeaf_statementRest {keyword : Keyword} {inLoop : Bool} {bodies : Part → Grammar (List Node)}
    (single : keyword.opensBody = false) :
    Always Node.IsLeaf (Scoped.statementRest dialect opened inLoop bodies keyword) := by
  have control (keyword : Keyword) (node : Nat → Edges → Node)
      (leaf : ∀ offset edges, (node offset edges).IsLeaf) :
      Always Node.IsLeaf (Scoped.loopControl opened inLoop keyword node) := by
    unfold Scoped.loopControl
    split
    · exact .bind fun _ => .pure (leaf _ _)
    · exact nofun
  cases keyword with
  | conditional | loop | choice | block | macroDef => cases single
  | call =>
      refine .bind fun first => .bind fun second => .bind fun arguments => .bind fun right => ?_
      cases second <;> exact .pure ⟨rfl, rfl⟩
  | letBinding | setBinding =>
      exact .bind fun _ => .orElse (.bind fun _ => .bind fun _ => .bind fun _ => .pure ⟨rfl, rfl⟩)
        (.bind fun _ => .pure ⟨rfl, rfl⟩)
  | extendTemplate =>
      show Always Node.IsLeaf (extension opened)
      unfold extension
      split
      · exact .bind fun _ => .bind fun _ => .pure ⟨rfl, rfl⟩
      · exact .bind fun _ => .pure ⟨rfl, rfl⟩
  | includeTemplate => exact .bind fun _ => .bind fun _ => .pure ⟨rfl, rfl⟩
  | importMacros => exact .bind fun _ => .bind fun _ => .bind fun _ => .bind fun _ => .pure ⟨rfl, rfl⟩
  | raw => exact .bind fun _ => .bind fun _ => .bind fun _ => .bind fun _ => .pure ⟨rfl, rfl⟩
  | breakLoop | continueLoop => exact control _ _ fun _ _ => ⟨rfl, rfl⟩

theorem reaches_of_statementRest {keyword : Keyword} {inLoop : Bool}
    {bodies : Part → Grammar (List Node)} {node : Node} {cursor later : Cursor}
    (single : keyword.opensBody = false)
    (read : Scoped.statementRest dialect opened inLoop bodies keyword cursor = .matched node later) :
    cursor.Reaches later := by
  -- The rules for bodies, which may go anywhere, have no part in such a statement.
  cases keyword with
  | conditional | loop | choice | block | macroDef => cases single
  | _ => unfold Scoped.statementRest at read; exact Advancing.reaches read

end Grammar

/-! ## How far layouts go -/

section

open Grammar (Advancing Consuming)

variable {dialect : Dialect} {keyword : Keyword} {word : String} {node : Node} {stretch : Stretch}
  {cursor later : Cursor}

theorem Keyword.Opens.reaches (opens : keyword.Opens cursor later) : cursor.Reaches later := by
  cases opens with
  | conditional read => exact Advancing.reaches read
  | loop pattern word iterable guard =>
      exact (Advancing.reaches pattern).trans ((Advancing.reaches word).trans
        ((Advancing.reaches iterable).trans (Advancing.reaches guard)))
  | choice read => exact Advancing.reaches read
  | block read => exact Advancing.reaches read
  | macroDef blanks name parameters =>
      exact (Advancing.reaches blanks).trans ((Advancing.reaches name).trans
        (Advancing.reaches parameters))

theorem Continues.reaches (continues : Continues word cursor later) : cursor.Reaches later := by
  cases continues with
  | plain => exact .refl _
  | condition word read => exact (Advancing.reaches word).trans (Advancing.reaches read)
  | pattern read => exact Advancing.reaches read
  | name _ read => exact Advancing.reaches read

theorem Leaf.isLeaf (leaf : Leaf dialect node cursor later) : node.IsLeaf := by
  cases leaf with
  | comment read => exact Grammar.isLeaf_comment dialect _ _ _ read
  | output read => exact Grammar.isLeaf_output dialect _ _ _ read
  | statement _ single read _ => exact Grammar.isLeaf_statementRest dialect _ single _ _ _ read

theorem Leaf.reaches (leaf : Leaf dialect node cursor later) : cursor.Reaches later := by
  cases leaf with
  | comment read => exact Advancing.reaches read
  | output read => exact Advancing.reaches read
  | statement begun single read ended =>
      exact (Advancing.reaches begun).trans
        ((Grammar.reaches_of_statementRest dialect _ single read).trans (Advancing.reaches ended))

theorem Opening.reaches (opening : Opening dialect keyword cursor later) : cursor.Reaches later := by
  cases opening with
  | intro begun opens ended =>
      exact (Advancing.reaches begun).trans (opens.reaches.trans (Advancing.reaches ended))

theorem Following.reaches (following : Following dialect cursor later) : cursor.Reaches later := by
  cases following with
  | intro begun continues ended =>
      exact (Advancing.reaches begun).trans (continues.reaches.trans (Advancing.reaches ended))

theorem Markup.reaches (markup : Markup dialect cursor later) : cursor.Reaches later := by
  cases markup with
  | leaf leaf => exact leaf.reaches
  | opening opening => exact opening.reaches
  | choice opening skipped => exact opening.reaches.trans (Advancing.reaches skipped)
  | following following => exact following.reaches

end

end Templating

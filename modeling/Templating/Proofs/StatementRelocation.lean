import Templating.Proofs.Relocation
import Templating.Proofs.Scope

/-! # Templates at other places

What stands at the beginning of a source is read in the same way behind any other text. Since no
rule asks at which offset it is, all the rules of statements move what they read. -/

namespace Templating

variable {room : Room}

def OpenedTag.moved (count : Nat) (opened : OpenedTag) : OpenedTag :=
  { opened with offset := count + opened.offset }

namespace Grammar

variable {α : Type} {count : Nat} (dialect : Dialect)

/-! ## Tags -/

theorem tag_moves (words : List String) :
    Moves count (OpenedTag.moved count) (tag dialect words) (tag dialect words) :=
  .bind .here fun _ => .bind (.still (exact _)) fun _ => .bind (.still edge) fun _ =>
    .bind (.still spaces) fun _ => .bind (.still (wordOf words)) fun _ =>
      .bind (.still spaces) fun _ => .pure rfl

instance : Still (tagEnd dialect) := by
  unfold tagEnd
  infer_instance

instance : Still (tagRest dialect) := by
  unfold tagRest
  infer_instance

theorem tagHead_moves :
    Moves count (fun head => (count + head.1, head.2)) (tagHead dialect) (tagHead dialect) :=
  .bind (.still (exact _)) fun _ => .bind (.still edge) fun _ => .bind (.still spaces) fun _ =>
    .bind .here fun _ => .bind (.still (optional name)) fun _ => .pure rfl

instance : Still (found dialect) :=
  ⟨fun count cursor => by
    unfold found
    rw [tagHead_moves dialect cursor]
    rcases tagHead dialect cursor with ⟨⟨_, _ | _⟩, _⟩ | _ | _ <;> rfl⟩

theorem missingEndTag_moves {value : α → α} (opener closer : String) (start : Nat) :
    Moves count value (missingEndTag dialect opener closer start)
      (missingEndTag dialect opener closer (count + start)) := by
  have wrong : Moves count value
      (found dialect >>= fun found => fail (.wrongEndTag opener closer found))
      (found dialect >>= fun found => fail (.wrongEndTag opener closer found)) :=
    .bind (.still (found dialect)) fun _ => .fail _
  intro cursor
  show (if cursor.atEnd then _ else _) = Outcome.moved _ _ (if cursor.atEnd then _ else _)
  split
  · rfl
  · exact wrong cursor

theorem endTag_moves (opener closer : String) (start : Nat) :
    Moves count id (endTag dialect opener closer start)
      (endTag dialect opener closer (count + start)) :=
  .orElse (.bind (tag_moves dialect [closer]) fun _ => .pure rfl)
    (missingEndTag_moves dialect opener closer start)

instance : Still (unexpected dialect : Grammar α) :=
  ⟨fun count cursor => by
    unfold unexpected
    rw [tagHead_moves dialect cursor]
    rcases tagHead dialect cursor with ⟨⟨_, _ | word⟩, _⟩ | _ | _
    · rfl
    · dsimp only [Outcome.moved]
      split <;> rfl
    · exact Moves.fail _ cursor
    · exact Moves.fail _ cursor⟩

instance : Still (endOfSource dialect) :=
  ⟨fun count cursor => by
    show (if cursor.atEnd then _ else _) = Outcome.moved _ _ (if cursor.atEnd then _ else _)
    split
    · rfl
    · exact Still.still count cursor⟩

instance (problem : Problem) : Still (Parser.rejectElse dialect problem) :=
  ⟨fun _ => .orElse (.bind (tag_moves dialect ["else"]) fun _ => .failAt _ _) (.pure rfl)⟩

/-! ## Text, comments, outputs and raw text -/

/-- The rule for nodes moves them. -/
def MovesNode (count : Nat) (rule rule' : Grammar Node) : Prop :=
  Moves count (Node.moved count) rule rule'

theorem text_moves : MovesNode count (text dialect) (text dialect) := by
  refine .bind .here fun _ => .bind (.still (upTo _)) fun run => ?_
  dsimp only [id]
  split
  · exact .noMatch
  · exact .pure rfl

instance (state : CommentState) : Still (closingStep dialect state) := by
  unfold closingStep
  cases state.level <;> infer_instance

instance (state : CommentState) : Still (commentStep dialect state) := by
  rw [commentStep_eq_orElse]
  unfold openingStep characterStep
  infer_instance

theorem comment_moves : MovesNode count (comment dialect) (comment dialect) :=
  .bind .here fun _ => .bind (.still (exact _)) fun _ => .bind (.still edge) fun _ =>
    .bind (.chain (fun state => .still (commentStep dialect state)) _) fun _ =>
      .bind (.orElse (.still (exact _)) (.failAt _ _)) fun _ => .pure rfl

theorem output_moves : MovesNode count (output dialect) (output dialect) :=
  .bind .here fun _ => .bind (.still (exact _)) fun _ => .bind (.still edge) fun _ =>
    .bind (.expect expression_moves _) fun _ => .bind (.still edge) fun _ =>
      .bind (.expect (.still (exact _)) _) fun _ => .pure rfl

instance : Still (rawEnd dialect) := by
  have (left : Option Trim) : Still (do
      let right ← edge
      ahead fun rest => dialect.blockEnd.chars.isPrefixOf rest
      pure ⟨left, right⟩ : Grammar Edges) := inferInstance
  unfold rawEnd
  infer_instance

theorem raw_moves (opened : OpenedTag) :
    MovesNode count (raw dialect opened) (raw dialect (opened.moved count)) :=
  .bind (.still edge) fun _ => .bind (.still (tagEnd dialect)) fun _ =>
    .bind (.still (upTo _)) fun _ =>
      .bind (.orElse (.still (rawEnd dialect)) (.failAt _ opened.offset)) fun _ => .pure rfl

/-! ## Statements of a single tag -/

theorem assignment_moves (opened : OpenedTag) :
    MovesNode count (assignment opened) (assignment (opened.moved count)) :=
  .bind (.expect pattern_moves _) fun _ =>
    .orElse (.bind (.still (token "=")) fun _ => .bind (.expect expression_moves _) fun _ =>
      .bind (.still edge) fun _ => .pure rfl)
      (.bind (.still edge) fun _ => .pure rfl)

theorem macroCall_moves (opened : OpenedTag) :
    MovesNode count (macroCall opened) (macroCall (opened.moved count)) := by
  have given : Moves count (List.map (Expr.moved count))
      ((ahead fun rest => rest.head? == some '(') >>= fun _ => expect arguments .callArguments)
      ((ahead fun rest => rest.head? == some '(') >>= fun _ => expect arguments .callArguments) :=
    .bind (.still (ahead _)) fun _ => .expect arguments_moves _
  refine .bind (.still (expect nameToken _)) fun _ => .bind (.still (optional _)) fun second =>
    .bind (.orElse given (.pure rfl)) fun _ => .bind (.still edge) fun _ => ?_
  cases second with
  | none => exact .pure (by simp [Node.moved, OpenedTag.moved])
  | some second => exact .pure (by simp [Node.moved, OpenedTag.moved])

theorem extension_moves (opened : OpenedTag) :
    MovesNode count (extension opened) (extension (opened.moved count)) := by
  have template : MovesNode count
      (expect stringToken (.missingPath .parent) >>= fun template =>
        pure (.extendTemplate opened.offset template))
      (expect stringToken (.missingPath .parent) >>= fun template =>
        pure (.extendTemplate (count + opened.offset) template)) :=
    .bind (.still (expect stringToken _)) fun _ => .pure rfl
  intro cursor
  unfold extension
  show (if opened.trim.isSome then _ else _ : Grammar Node) _ =
    Outcome.moved _ _ ((if opened.trim.isSome then _ else _ : Grammar Node) cursor)
  split
  · rfl
  · exact template cursor

theorem inclusion_moves (opened : OpenedTag) :
    MovesNode count (inclusion opened) (inclusion (opened.moved count)) :=
  .bind (.still (expect stringToken _)) fun _ => .bind (.still edge) fun _ => .pure rfl

theorem importation_moves (opened : OpenedTag) :
    MovesNode count (importation opened) (importation (opened.moved count)) :=
  .bind (.still (expect stringToken _)) fun _ => .bind (.still (expect (keyword "as") _)) fun _ =>
    .bind (.still (expect nameToken _)) fun _ => .bind (.still edge) fun _ => .pure rfl

/-! ## Parts of constructs -/

theorem condition_moves : Moves count (Condition.moved count) condition condition :=
  .bind .here fun _ =>
    .bind (.optional (.bind (.still (keyword "let" <|> keyword "set")) fun _ =>
      .bind pattern_moves fun _ => .bind (.still (token "=")) fun _ => .pure rfl)) fun _ =>
      .bind (.expect expression_moves _) fun _ => .pure rfl

instance : Still parameters := by
  unfold parameters
  infer_instance

theorem skipComments_moves : Moves count id (skipComments dialect) (skipComments dialect) :=
  .bind (.still spaces) fun _ =>
    .bind (.many (.bind (comment_moves dialect) fun _ => .still spaces)) fun _ => .pure rfl

end Grammar

namespace Scoped

open Grammar (Moves MovesNode Still)

variable {count : Nat} (dialect : Dialect) (opened : OpenedTag)

/-- The rule for a body moves its nodes. -/
def MovesBody (count : Nat) (rule : Grammar (List Node)) : Prop :=
  Moves count (List.map (Node.moved count)) rule rule

/-! ## Constructs -/

section

variable {body alternative : Grammar (List Node)}

theorem elseIfBranch_moves (moves : MovesBody count body) :
    Moves count (Branch.moved count) (elseIfBranch dialect body) (elseIfBranch dialect body) :=
  .bind (Grammar.tag_moves dialect ["else"]) fun _ => .bind (.still (Grammar.keyword "if")) fun _ =>
    .bind Grammar.condition_moves fun _ => .bind (.still (Grammar.tagRest dialect)) fun _ =>
      .bind moves fun _ => .pure (by simp [Branch.moved, OpenedTag.moved])

theorem elseBranch_moves (moves : MovesBody count body) :
    Moves count (Branch.moved count) (elseBranch dialect body) (elseBranch dialect body) :=
  .bind (Grammar.tag_moves dialect ["else"]) fun _ =>
    .bind (.still (Grammar.tagRest dialect)) fun _ =>
      .bind moves fun _ => .pure (by simp [Branch.moved, OpenedTag.moved])

theorem conditional_moves (moves : MovesBody count body) :
    MovesNode count (conditional dialect body opened)
      (conditional dialect body (opened.moved count)) :=
  .bind Grammar.condition_moves fun _ => .bind (.still (Grammar.tagRest dialect)) fun _ =>
    .bind moves fun _ => .bind (.many (elseIfBranch_moves dialect moves)) fun _ =>
      .bind (.optional (elseBranch_moves dialect moves)) fun last =>
        .bind (.still (Parser.rejectElse dialect _)) fun _ =>
          .bind (Grammar.endTag_moves dialect "if" "endif" opened.offset) fun _ =>
            .bind (.still Grammar.edge) fun _ =>
              .pure (by cases last <;> simp [Node.moved, Branch.moved, OpenedTag.moved])

theorem loopRest_moves (moves : MovesBody count alternative) :
    Moves count (fun rest => (rest.1, rest.2.1.map (Node.moved count), rest.2.2))
      (loopRest dialect opened alternative)
      (loopRest dialect (opened.moved count) alternative) :=
  .orElse (.bind (Grammar.tag_moves dialect ["endfor"]) fun _ =>
      .bind (.still Grammar.edge) fun _ => .pure rfl) <|
    .orElse (.bind (Grammar.tag_moves dialect ["else"]) fun _ =>
      .bind (.still (Grammar.tagRest dialect)) fun _ => .bind moves fun _ =>
        .bind (Grammar.endTag_moves dialect "for" "endfor" opened.offset) fun _ =>
          .bind (.still Grammar.edge) fun _ => .pure rfl)
      (Grammar.missingEndTag_moves dialect "for" "endfor" opened.offset)

theorem guard_moves : Grammar.MovesExpr count guard :=
  .bind (.still (Grammar.keyword "if")) fun _ => .expect Grammar.expression_moves _

theorem loop_moves (moves : MovesBody count body) (moves' : MovesBody count alternative) :
    MovesNode count (loop dialect body opened alternative)
      (loop dialect body (opened.moved count) alternative) :=
  .bind (.expect Grammar.pattern_moves _) fun _ =>
    .bind (.still (Grammar.expect (Grammar.keyword "in") _)) fun _ =>
      .bind (.expect Grammar.expression_moves _) fun _ => .bind (.optional guard_moves) fun _ =>
        .bind (.still (Grammar.tagRest dialect)) fun _ => .bind moves fun _ =>
          .bind (loopRest_moves dialect opened moves') fun _ =>
            .pure (by simp [Node.moved, OpenedTag.moved])

theorem loopControl_moves (inLoop : Bool) (keyword : Keyword) {node : Nat → Edges → Node}
    (moved : ∀ offset edges, (node offset edges).moved count = node (count + offset) edges) :
    MovesNode count (loopControl opened inLoop keyword node)
      (loopControl (opened.moved count) inLoop keyword node) :=
  .ite _ (.bind (.still Grammar.edge) fun _ => .pure (moved _ _)) (.failAt _ opened.offset)

theorem whenArm_moves (moves : MovesBody count body) :
    Moves count (Arm.moved count) (whenArm dialect body) (whenArm dialect body) :=
  .bind (Grammar.tag_moves dialect ["when"]) fun _ => .bind (.expect Grammar.pattern_moves _) fun _ =>
    .bind (.still (Grammar.tagRest dialect)) fun _ => .bind moves fun _ =>
      .pure (by simp [Arm.moved, OpenedTag.moved])

theorem elseArm_moves (moves : MovesBody count body) :
    Moves count (Arm.moved count) (elseArm dialect body) (elseArm dialect body) :=
  .bind (Grammar.tag_moves dialect ["else"]) fun _ =>
    .bind (.still (Grammar.tagRest dialect)) fun _ => .bind moves fun _ =>
      .pure (by simp [Arm.moved, Pattern.moved, OpenedTag.moved])

theorem laterArms_moves (moves : MovesBody count body) (otherwise : Option Arm) :
    Moves count (List.map (Arm.moved count)) (laterArms dialect body otherwise)
      (laterArms dialect body (otherwise.map (Arm.moved count))) := by
  cases otherwise with
  | none => exact .pure rfl
  | some otherwise => exact .many (whenArm_moves dialect moves)

theorem requireArm_moves (arms : List Arm) :
    Moves count id (Parser.requireArm arms)
      (Parser.requireArm (arms.map (Arm.moved count))) := by
  unfold Parser.requireArm
  rw [List.isEmpty_map]
  exact .ite _ (.fail _) (.pure rfl)

theorem choice_moves (moves : MovesBody count body) :
    MovesNode count (choice dialect body opened) (choice dialect body (opened.moved count)) := by
  refine .bind (.expect Grammar.expression_moves _) fun _ =>
    .bind (.still (Grammar.tagRest dialect)) fun _ =>
      .bind (Grammar.skipComments_moves dialect) fun _ =>
        .bind (.many (whenArm_moves dialect moves)) fun before =>
          .bind (.optional (elseArm_moves dialect moves)) fun otherwise =>
            .bind (laterArms_moves dialect moves otherwise) fun after =>
              .bind (.still (Parser.rejectElse dialect _)) fun _ => ?_
  rw [← List.map_append]
  exact .bind (requireArm_moves (before ++ after)) fun _ =>
    .bind (Grammar.endTag_moves dialect "match" "endmatch" opened.offset) fun _ =>
      .bind (.still Grammar.edge) fun _ =>
        .pure (by cases otherwise <;> simp [Node.moved, OpenedTag.moved])

theorem block_moves (moves : MovesBody count body) :
    MovesNode count (block dialect body opened) (block dialect body (opened.moved count)) :=
  .bind (.still (Grammar.expect Grammar.nameToken _)) fun _ =>
    .bind (.still (Grammar.tagRest dialect)) fun _ => .bind moves fun _ =>
      .bind (Grammar.endTag_moves dialect "block" "endblock" opened.offset) fun _ =>
        .bind (.still (Grammar.optional Grammar.nameToken)) fun _ =>
          .bind (.still Grammar.edge) fun _ => .pure (by simp [Node.moved, OpenedTag.moved])

theorem checkMacroName_moves (name : String) (offset : Nat) :
    Moves count id (Parser.checkMacroName name offset)
      (Parser.checkMacroName name (count + offset)) :=
  .ite _ (.failAt _ offset) (.pure rfl)

theorem macroDef_moves (moves : MovesBody count body) :
    MovesNode count (macroDef dialect body opened)
      (macroDef dialect body (opened.moved count)) :=
  .bind (.still Grammar.spaces) fun _ => .bind .here fun offset =>
    .bind (.still (Grammar.expect Grammar.nameToken _)) fun name =>
      .bind (checkMacroName_moves name offset) fun _ =>
        .bind (.still (Grammar.optional Grammar.parameters)) fun _ =>
          .bind (.still (Grammar.tagRest dialect)) fun _ => .bind moves fun _ =>
            .bind (Grammar.endTag_moves dialect "macro" "endmacro" opened.offset) fun _ =>
              .bind (.still (Grammar.optional Grammar.nameToken)) fun _ =>
                .bind (.still Grammar.edge) fun _ =>
                  .pure (by simp [Node.moved, OpenedTag.moved])

end

/-! ## Bodies -/

section

variable (inLoop : Bool) {bodies : Part → Grammar (List Node)}

theorem statementRest_moves (moves : ∀ part, MovesBody count (bodies part)) (keyword : Keyword) :
    MovesNode count (statementRest dialect opened inLoop bodies keyword)
      (statementRest dialect (opened.moved count) inLoop bodies keyword) := by
  cases keyword with
  | call => exact Grammar.macroCall_moves opened
  | letBinding | setBinding => exact Grammar.assignment_moves opened
  | conditional => exact conditional_moves dialect opened (moves .branch)
  | loop => exact loop_moves dialect opened (moves .loopBody) (moves .alternative)
  | choice => exact choice_moves dialect opened (moves .arm)
  | extendTemplate => exact Grammar.extension_moves opened
  | includeTemplate => exact Grammar.inclusion_moves opened
  | importMacros => exact Grammar.importation_moves opened
  | block => exact block_moves dialect opened (moves .block)
  | macroDef => exact macroDef_moves dialect opened (moves .macroBody)
  | raw => exact Grammar.raw_moves dialect opened
  | breakLoop => exact loopControl_moves opened inLoop .breakLoop fun _ _ => rfl
  | continueLoop => exact loopControl_moves opened inLoop .continueLoop fun _ _ => rfl

theorem statementStart_moves :
    Moves count (fun start => (start.1.moved count, start.2)) (Parser.statementStart dialect)
      (Parser.statementStart dialect) := by
  refine .bind .here fun _ => .bind (.still (Grammar.exact _)) fun _ =>
    .bind (.still Grammar.edge) fun _ => .bind (.still Grammar.spaces) fun _ =>
      .bind (.still Grammar.name) fun word => ?_
  dsimp only [id]
  split
  · exact .noMatch
  · exact .bind (.still Grammar.spaces) fun _ => .pure rfl

theorem statement_moves (moves : ∀ part, MovesBody count (bodies part)) :
    MovesNode count (statement dialect inLoop bodies) (statement dialect inLoop bodies) :=
  .bind (statementStart_moves dialect) fun start =>
    .bind (statementRest_moves dialect start.1 inLoop moves start.2) fun _ =>
      .bind (.still (Grammar.tagEnd dialect)) fun _ => .pure rfl

theorem node_moves (moves : ∀ part, MovesBody count (bodies part)) :
    MovesNode count (node dialect inLoop bodies) (node dialect inLoop bodies) :=
  .orElse (Grammar.text_moves dialect) <| .orElse (Grammar.comment_moves dialect) <|
    .orElse (Grammar.output_moves dialect) (statement_moves dialect inLoop moves)

end

theorem nodesWithin_moves (outside : Counters) (levels : Nat) (scope : List Part) :
    MovesBody count (nodesWithin dialect outside levels scope) := by
  induction levels generalizing scope with
  | zero => exact .fail _
  | succ levels induction =>
      exact .ite _ (.fail _) (.many (node_moves dialect _ fun part => induction (part :: scope)))

/-- A source behind any other text is read as it is by itself, with all offsets greater by the
length of the text. -/
theorem document_moves : MovesBody count (document dialect) :=
  .bind (nodesWithin_moves dialect .zero _ _) fun _ =>
    .bind (.still (Grammar.endOfSource dialect)) fun _ => .pure rfl

end Scoped

end Templating

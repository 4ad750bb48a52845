import Templating.Proofs.StatementLocality

/-! # How far constructs and bodies look

A body is left at the tag where it ends, and a construct at the closing delimiter of its last tag.
Nothing behind these is looked at, so that every node but text is read in the same way whatever
stands behind it. -/

namespace Templating

variable {room : Room}

namespace Scoped

open Grammar

variable (opened : OpenedTag) {behind : List Char → Prop}

/-- A rule for a body looks at nothing behind the tag where the body ends. -/
def PersistsBody (body : Grammar (List Node)) : Prop :=
  Persists (· ≠ []) Fenced body

/-! ## Constructs -/

section

variable {body alternative : Grammar (List Node)}

instance : Local .expression (keyword "if") := local_keyword rfl

theorem elseIfBranch_persists (persists : PersistsBody body) :
    Persists Fenced Fenced (elseIfBranch .standard body) :=
  (Persists.expression (tag _ _)).bind fun _ => (Persists.expression (keyword "if")).bind fun _ =>
    condition_persists.bind fun _ => tagRest_persists.bind fun _ => persists.bind fun _ => .pure _

theorem elseIfBranch_refuses [Certain body] : Refuses Fenced (elseIfBranch .standard body) :=
  Refuses.mono (.bind fun _ => .bind fun _ => .certain _) fun _ => And.left

theorem elseBranch_persists (persists : PersistsBody body) :
    Persists Fenced Fenced (elseBranch .standard body) :=
  (Persists.expression (tag _ _)).bind fun _ => tagRest_persists.bind fun _ =>
    persists.bind fun _ => .pure _

theorem elseBranch_refuses [Certain body] : Refuses Fenced (elseBranch .standard body) :=
  Refuses.mono (.bind fun _ => .certain _) fun _ => And.left

theorem many_persists {α : Type} {rule : Grammar α} [Consuming rule]
    (persists : Persists Fenced Fenced rule) (refuses : Refuses Fenced rule) :
    Persists Fenced Fenced (many rule) :=
  persists.many refuses (fun _ => id) fun _ => Fenced.ne_nil

theorem conditional_persists [Advancing body] [Certain body] (persists : PersistsBody body) :
    Persists Fenced Fenced (conditional .standard body opened) :=
  condition_persists.bind fun _ => tagRest_persists.bind fun _ => persists.bind fun _ =>
    (many_persists (elseIfBranch_persists persists) elseIfBranch_refuses).bind fun _ =>
      ((elseBranch_persists persists).optional elseBranch_refuses).bind fun _ =>
        (Persists.expression (Parser.rejectElse _ _)).bind fun _ =>
          (endTag_persists opened.offset rfl).bind fun _ => (Persists.expression edge).bind fun _ =>
            .pure _

theorem loopRest_persists [Certain alternative] (persists : PersistsBody alternative) :
    Persists Fenced Fenced (loopRest .standard opened alternative) := by
  have missing : Persists Fenced Fenced
      (missingEndTag .standard "for" "endfor" opened.offset :
        Grammar (Edges × List Node × Edges)) :=
    fun _ _ _ matched => absurd matched (missingEndTag_ne_matched .standard)
  refine .orElse (.expression _) ((Refuses.of_local _).mono fun _ => And.left) <|
    .orElse ?_ (Refuses.mono (.bind fun _ => .certain _) fun _ => And.left) missing
  exact (Persists.expression (tag _ _)).bind fun _ => tagRest_persists.bind fun _ =>
    persists.bind fun _ => (endTag_persists opened.offset rfl).bind fun _ =>
      (Persists.expression edge).bind fun _ => .pure _

theorem loop_persists [Certain alternative] (persists : PersistsBody body)
    (persists' : PersistsBody alternative) :
    Persists Fenced Fenced (loop .standard body opened alternative) := by
  have : Local .expression (keyword "in") := local_keyword rfl
  have : Local .expression guard := by
    unfold guard
    infer_instance
  exact (Persists.pattern (expect pattern _)).bind fun _ =>
    (Persists.expression (expect (keyword "in") _)).bind fun _ =>
      (Persists.expression (expect expression _)).bind fun _ =>
        (Persists.expression (optional guard)).bind fun _ => tagRest_persists.bind fun _ =>
          persists.bind fun _ => (loopRest_persists opened persists').bind fun _ => .pure _

instance (inLoop : Bool) (keyword : Keyword) (node : Nat → Edges → Node) :
    Local .expression (loopControl opened inLoop keyword node) := by
  unfold loopControl
  infer_instance

theorem whenArm_persists (persists : PersistsBody body) :
    Persists Fenced Fenced (whenArm .standard body) :=
  (Persists.expression (tag _ _)).bind fun _ => (Persists.pattern (expect pattern _)).bind fun _ =>
    tagRest_persists.bind fun _ => persists.bind fun _ => .pure _

theorem whenArm_refuses [Certain body] : Refuses Fenced (whenArm .standard body) :=
  Refuses.mono (.bind fun _ => .certain _) fun _ => And.left

theorem elseArm_persists (persists : PersistsBody body) :
    Persists Fenced Fenced (elseArm .standard body) :=
  (Persists.expression (tag _ _)).bind fun _ => tagRest_persists.bind fun _ =>
    persists.bind fun _ => .pure _

theorem elseArm_refuses [Certain body] : Refuses Fenced (elseArm .standard body) :=
  Refuses.mono (.bind fun _ => .certain _) fun _ => And.left

theorem laterArms_persists [Advancing body] [Certain body] (persists : PersistsBody body)
    (otherwise : Option Arm) :
    Persists Fenced Fenced (laterArms .standard body otherwise) := by
  cases otherwise with
  | none => exact .pure _
  | some _ => exact many_persists (whenArm_persists persists) whenArm_refuses

theorem requireArm_persists (arms : List Arm) :
    Persists Fenced Fenced (Parser.requireArm arms) := by
  have : Local .expression (Parser.requireArm arms) := by
    unfold Parser.requireArm
    infer_instance
  exact .expression _

theorem choice_persists [Advancing body] [Certain body] (persists : PersistsBody body) :
    Persists Fenced Fenced (choice .standard body opened) :=
  (Persists.expression (expect expression _)).bind fun _ => tagRest_persists.bind fun _ =>
    skipComments_persists.bind fun _ =>
      (many_persists (whenArm_persists persists) whenArm_refuses).bind fun before =>
        ((elseArm_persists persists).optional elseArm_refuses).bind fun otherwise =>
          (laterArms_persists persists otherwise).bind fun after =>
            (Persists.expression (Parser.rejectElse _ _)).bind fun _ =>
              (requireArm_persists (before ++ after)).bind fun _ =>
                (endTag_persists opened.offset rfl).bind fun _ =>
                  (Persists.expression edge).bind fun _ => .pure _

theorem block_persists (persists : PersistsBody body) :
    Persists Fenced Fenced (block .standard body opened) :=
  (Persists.expression (expect nameToken _)).bind fun _ => tagRest_persists.bind fun _ =>
    persists.bind fun _ => (endTag_persists opened.offset rfl).bind fun _ =>
      (Persists.expression (optional nameToken)).bind fun _ =>
        (Persists.expression edge).bind fun _ => .pure _

theorem macroDef_persists (persists : PersistsBody body) :
    Persists Fenced Fenced (macroDef .standard body opened) := by
  have (name : String) (offset : Nat) : Local .expression (Parser.checkMacroName name offset) := by
    unfold Parser.checkMacroName
    infer_instance
  exact (Persists.expression spaces).bind fun _ => Persists.here.bind fun offset =>
    (Persists.expression (expect nameToken _)).bind fun name =>
      (Persists.expression (Parser.checkMacroName name offset)).bind fun _ =>
        (Persists.expression (optional parameters)).bind fun _ => tagRest_persists.bind fun _ =>
          persists.bind fun _ => (endTag_persists opened.offset rfl).bind fun _ =>
            (Persists.expression (optional nameToken)).bind fun _ =>
              (Persists.expression edge).bind fun _ => .pure _

end

/-! ## Statements and bodies -/

section

variable (inLoop : Bool) {bodies : Part → Grammar (List Node)} [∀ part, Certain (bodies part)]

theorem statementRest_persists [∀ part, Advancing (bodies part)]
    (persists : ∀ part, PersistsBody (bodies part)) (keyword : Keyword) :
    Persists Fenced Fenced (statementRest .standard opened inLoop bodies keyword) := by
  cases keyword with
  | call => exact .expression (macroCall opened)
  | letBinding | setBinding => exact assignment_persists opened
  | conditional => exact conditional_persists opened (persists .branch)
  | loop => exact loop_persists opened (persists .loopBody) (persists .alternative)
  | choice => exact choice_persists opened (persists .arm)
  | extendTemplate => exact .expression (extension opened)
  | includeTemplate => exact .expression (inclusion opened)
  | importMacros => exact .expression (importation opened)
  | block => exact block_persists opened (persists .block)
  | macroDef => exact macroDef_persists opened (persists .macroBody)
  | raw => exact raw_persists opened
  | breakLoop => exact .expression (loopControl opened inLoop .breakLoop .breakLoop)
  | continueLoop => exact .expression (loopControl opened inLoop .continueLoop .continueLoop)

instance : Local .expression (Parser.statementStart .standard) := by
  have (offset : Nat) (trim : Option Trim) (word : String) : Local .expression (
      match Keyword.ofWord? word with
      | none => noMatch
      | some keyword => do
          spaces
          pure (({ offset, trim, word } : OpenedTag), keyword)) := by
    split <;> infer_instance
  unfold Parser.statementStart
  infer_instance

theorem statementStart_persists :
    Persists (2 ≤ ·.length) Fenced (Parser.statementStart .standard) :=
  (Persists.expression _).mono (fun _ => Fenced.two_le) fun _ => id

theorem statement_persists [∀ part, Advancing (bodies part)]
    (persists : ∀ part, PersistsBody (bodies part)) :
    Persists (2 ≤ ·.length) behind (statement .standard inLoop bodies) :=
  statementStart_persists.bind fun start =>
    (statementRest_persists start.1 inLoop persists start.2).bind fun _ =>
      tagEnd_persists.bind fun _ => .pure _

theorem statement_refuses : Refuses (Closed .expression) (statement .standard inLoop bodies) :=
  .bind fun _ => .certain _

/-- A node that begins with a delimiter. -/
def delimited [Room] (dialect : Dialect) (inLoop : Bool) (bodies : Part → Grammar (List Node)) :
    Grammar Node :=
  comment dialect <|> output dialect <|> statement dialect inLoop bodies

theorem delimited_persists [∀ part, Advancing (bodies part)]
    (persists : ∀ part, PersistsBody (bodies part)) :
    Persists (2 ≤ ·.length) behind (delimited .standard inLoop bodies) :=
  comment_persists.orElse comment_refuses <| output_persists.orElse output_refuses <|
    statement_persists inLoop persists

theorem node_persists [∀ part, Advancing (bodies part)]
    (persists : ∀ part, PersistsBody (bodies part)) :
    Persists (· ≠ []) (· ≠ []) (node .standard inLoop bodies) :=
  text_persists.orElse text_refuses <| (delimited_persists inLoop persists).mono
    (fun _ enough => List.ne_nil_of_length_pos (Nat.lt_of_lt_of_le Nat.zero_lt_two enough))
    fun _ => id

theorem node_refuses : Refuses Fenced (node .standard inLoop bodies) :=
  (text_refuses.mono fun _ => Fenced.ne_nil).orElse <|
    (comment_refuses.mono fun _ => Fenced.two_le).orElse <|
      (output_refuses.mono fun _ => Fenced.two_le).orElse <|
        (statement_refuses inLoop).mono fun _ => And.left

end

theorem nodesWithin_persists (outside : Counters) (levels : Nat) (scope : List Part) :
    PersistsBody (nodesWithin .standard outside levels scope) := by
  induction levels generalizing scope with
  | zero => exact fun _ _ _ matched => by cases matched
  | succ levels induction =>
      have persists : Persists (· ≠ []) (· ≠ [])
          (node .standard (outside.within scope).inLoop fun part =>
            nodesWithin .standard outside levels (part :: scope)) :=
        node_persists _ fun part => induction (part :: scope)
      have inside := persists.many (node_refuses _) (fun _ => Fenced.ne_nil) fun _ => Fenced.ne_nil
      unfold PersistsBody nodesWithin
      split
      · exact fun _ _ _ matched => by cases matched
      · exact inside

end Scoped

end Templating

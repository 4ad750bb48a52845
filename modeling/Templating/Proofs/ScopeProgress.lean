import Templating.Proofs.Scope

/-! # How far constructs get

Constructs go forward if the bodies in them do. Behind a body nothing is left open: whatever
follows it in a construct either matches or ends the parse. -/

namespace Templating

variable {room : Room}

namespace Grammar

variable {α β : Type} {rule other : Grammar α} {next : α → Grammar β}

/-- The rule matches everywhere or ends the parse. -/
class Certain {α : Type} (rule : Grammar α) : Prop where
  ne_noMatch (cursor : Cursor) : rule cursor ≠ .noMatch

instance (value : α) : Certain (pure value) := ⟨fun _ => nofun⟩

instance (problem : Problem) (offset : Nat) : Certain (failAt problem offset : Grammar α) :=
  ⟨fun _ => nofun⟩

instance (problem : Problem) : Certain (fail problem : Grammar α) := ⟨fun _ => nofun⟩

instance : Certain here := ⟨fun _ => nofun⟩

instance : Certain spaces := ⟨fun _ => nofun⟩

instance (test : List Char → Bool) : Certain (upTo test) := ⟨fun _ => nofun⟩

instance [Certain rule] [∀ value, Certain (next value)] : Certain (rule >>= next) :=
  ⟨fun cursor missed => by
    rcases bind_eq_noMatch.mp missed with missed | ⟨value, middle, _, missed⟩
    · exact Certain.ne_noMatch cursor missed
    · exact Certain.ne_noMatch middle missed⟩

instance [Certain other] : Certain (rule <|> other) :=
  ⟨fun cursor missed => Certain.ne_noMatch cursor (orElse_eq_noMatch.mp missed).2⟩

instance (problem : Problem) : Certain (expect rule problem) :=
  inferInstanceAs (Certain (rule <|> fail problem))

instance : Certain (optional rule) := ⟨fun _ => optional_ne_noMatch⟩

instance (step : α → Grammar α) (value : α) : Certain (chain step value) :=
  ⟨fun cursor missed => by
    unfold chain at missed
    generalize cursor.rest = turns at missed
    induction turns generalizing value cursor with
    | nil => cases missed
    | cons turn turns induction =>
        rw [chainFor] at missed
        split at missed
        case h_1 next later _ => exact induction next later missed
        case h_2 => cases missed
        case h_3 => cases missed⟩

instance (turns : List Char) : Certain (manyFor rule turns) := ⟨manyFor_ne_noMatch rule turns⟩

instance : Certain (many rule) := ⟨fun cursor => manyFor_ne_noMatch rule cursor.rest cursor⟩

instance [Advancing rule] (turns : List Char) : Advancing (manyFor rule turns) := by
  induction turns with
  | nil => exact inferInstanceAs (Advancing (pure []))
  | cons turn turns induction =>
      exact inferInstanceAs (Advancing
        ((rule >>= fun value => manyFor rule turns >>= fun values => pure (value :: values)) <|>
          pure []))

instance (condition : Prop) [Decidable condition] [Certain rule] [Certain other] :
    Certain (if condition then rule else other) := by
  split <;> infer_instance

instance : Certain edge := by
  unfold edge
  infer_instance

instance : Certain condition := by
  unfold condition
  infer_instance

instance (opened : OpenedTag) : Certain (assignment opened) := by
  unfold assignment
  infer_instance

instance (opened : OpenedTag) : Certain (macroCall opened) := by
  rw [macroCall_eq]
  unfold calledWith callArguments
  infer_instance

instance (opened : OpenedTag) : Certain (extension opened) := by
  unfold extension
  infer_instance

instance (opened : OpenedTag) : Certain (inclusion opened) := by
  unfold inclusion
  infer_instance

instance (opened : OpenedTag) : Certain (importation opened) := by
  unfold importation
  infer_instance

variable (dialect : Dialect)

instance : Certain (tagEnd dialect) := by
  unfold tagEnd
  infer_instance

instance : Certain (tagRest dialect) := by
  unfold tagRest
  infer_instance

instance : Certain (found dialect) :=
  ⟨fun cursor => by
    unfold found
    split <;> nofun⟩

instance (opener closer : String) (start : Nat) :
    Certain (missingEndTag dialect opener closer start : Grammar α) :=
  ⟨fun cursor => by
    unfold missingEndTag
    split
    · nofun
    · have certain : Certain (found dialect >>= fun found =>
          (fail (.wrongEndTag opener closer found) : Grammar α)) := inferInstance
      exact certain.ne_noMatch cursor⟩

instance : Certain (skipComments dialect) := by
  unfold skipComments
  infer_instance

instance (opened : OpenedTag) : Certain (raw dialect opened) := by
  unfold raw
  infer_instance

instance (opener closer : String) (start : Nat) :
    Certain (endTag dialect opener closer start) := by
  unfold endTag
  infer_instance

instance (problem : Problem) : Certain (Parser.rejectElse dialect problem) := by
  unfold Parser.rejectElse
  infer_instance

instance (arms : List Arm) : Certain (Parser.requireArm arms) := by
  unfold Parser.requireArm
  infer_instance

instance (name : String) (offset : Nat) : Certain (Parser.checkMacroName name offset) := by
  unfold Parser.checkMacroName
  infer_instance

instance (arms : List Arm) : Advancing (Parser.requireArm arms) := by
  unfold Parser.requireArm
  infer_instance

instance (name : String) (offset : Nat) : Advancing (Parser.checkMacroName name offset) := by
  unfold Parser.checkMacroName
  infer_instance

instance : Certain (endOfSource dialect) := ⟨endOfSource_ne_noMatch dialect⟩

instance : Advancing (endOfSource dialect) :=
  ⟨fun matched => by
    rcases (Parser.endOfSource_eq_matched dialect).mp matched with ⟨_, rfl⟩
    exact .refl _⟩

end Grammar

/-- A statement begins where its opening delimiter stands. -/
theorem Parser.statementStart_offset {dialect : Dialect} {opened : OpenedTag} {keyword : Keyword}
    {cursor later : Cursor}
    (matched : statementStart dialect cursor = .matched (opened, keyword) later) :
    opened.offset = cursor.offset :=
  ((statementStart_eq_matched dialect opened).mp matched).1

namespace Scoped

open Grammar (Advancing Consuming Certain)

variable (dialect : Dialect) (opened : OpenedTag)

section

variable (body alternative : Grammar (List Node)) [Advancing body] [Advancing alternative]

instance : Consuming (elseIfBranch dialect body) := by
  unfold elseIfBranch
  infer_instance

instance : Consuming (elseBranch dialect body) := by
  unfold elseBranch
  infer_instance

instance : Consuming (conditional dialect body opened) := by
  unfold conditional
  infer_instance

instance : Advancing (loopRest dialect opened alternative) := by
  have : Advancing (Grammar.missingEndTag dialect "for" "endfor" opened.offset :
      Grammar (Edges × List Node × Edges)) :=
    ⟨fun matched => absurd matched (Grammar.missingEndTag_ne_matched dialect)⟩
  unfold loopRest
  infer_instance

instance : Consuming guard := by
  unfold guard
  infer_instance

instance : Consuming (loop dialect body opened alternative) := by
  unfold loop
  infer_instance

instance (inLoop : Bool) (keyword : Keyword) (node : Nat → Edges → Node) :
    Advancing (loopControl opened inLoop keyword node) := by
  unfold loopControl
  infer_instance

instance : Consuming (whenArm dialect body) := by
  unfold whenArm
  infer_instance

instance : Consuming (elseArm dialect body) := by
  unfold elseArm
  infer_instance

instance (otherwise : Option Arm) : Advancing (laterArms dialect body otherwise) := by
  cases otherwise with
  | none => exact inferInstanceAs (Advancing (pure []))
  | some _ => exact inferInstanceAs (Advancing (Grammar.many (whenArm dialect body)))

instance : Consuming (choice dialect body opened) := by
  unfold choice
  infer_instance

instance : Consuming (block dialect body opened) := by
  unfold block
  infer_instance

/-- What stands behind the blanks before the name of a macro, which is at `nameOffset`. -/
def macroRest (nameOffset : Nat) : Grammar Node := do
  let name ← Grammar.expect Grammar.nameToken (.missingName .macroDef)
  Parser.checkMacroName name nameOffset
  let parameters ← Grammar.optional Grammar.parameters
  let right ← Grammar.tagRest dialect
  let nodes ← body
  let closingLeft ← Grammar.endTag dialect "macro" "endmacro" opened.offset
  let _ ← Grammar.optional Grammar.nameToken
  let closingRight ← Grammar.edge
  return .macroDef opened.offset name ⟨opened.trim, right⟩ (parameters.getD []) nodes
    ⟨closingLeft, closingRight⟩

instance (nameOffset : Nat) : Consuming (macroRest dialect opened body nameOffset) := by
  unfold macroRest
  infer_instance

instance : Consuming (macroDef dialect body opened) :=
  inferInstanceAs (Consuming (Grammar.spaces >>= fun _ => Grammar.here >>= fun nameOffset =>
    macroRest dialect opened body nameOffset))

end

variable (inLoop : Bool) (bodies : Part → Grammar (List Node)) [∀ part, Advancing (bodies part)]

instance (keyword : Keyword) :
    Advancing (statementRest dialect opened inLoop bodies keyword) := by
  cases keyword <;> unfold statementRest <;> infer_instance

instance : Consuming (statement dialect inLoop bodies) := by
  unfold statement
  infer_instance

instance : Consuming (node dialect inLoop bodies) := by
  unfold node
  infer_instance

instance (outside : Counters) (levels : Nat) (scope : List Part) :
    Advancing (nodesWithin dialect outside levels scope) := by
  cases levels with
  | zero => exact inferInstanceAs (Advancing (Grammar.fail _))
  | succ levels =>
      induction levels generalizing scope with
      | zero =>
          have (part : Part) : Advancing (nodesWithin dialect outside 0 (part :: scope)) :=
            inferInstanceAs (Advancing (Grammar.fail _))
          unfold nodesWithin
          infer_instance
      | succ levels induction =>
          unfold nodesWithin
          infer_instance

instance (outside : Counters) : Advancing (nodes dialect outside) :=
  inferInstanceAs (Advancing (nodesWithin dialect outside (dialect.maxDepth + 1) [.template]))

/-! ## Behind a body -/

instance (otherwise : Option Arm) (body : Grammar (List Node)) :
    Certain (laterArms dialect body otherwise) := by
  cases otherwise with
  | none => exact inferInstanceAs (Certain (pure []))
  | some _ => exact inferInstanceAs (Certain (Grammar.many (whenArm dialect body)))

instance (alternative : Grammar (List Node)) : Certain (loopRest dialect opened alternative) := by
  unfold loopRest
  infer_instance

section

variable (body alternative : Grammar (List Node)) [Certain body] [Certain alternative]

instance : Certain (conditional dialect body opened) := by
  unfold conditional
  infer_instance

instance : Certain (loop dialect body opened alternative) := by
  unfold loop
  infer_instance

instance (inLoop : Bool) (keyword : Keyword) (node : Nat → Edges → Node) :
    Certain (loopControl opened inLoop keyword node) := by
  unfold loopControl
  infer_instance

instance : Certain (choice dialect body opened) := by
  unfold choice
  infer_instance

instance : Certain (block dialect body opened) := by
  unfold block
  infer_instance

instance : Certain (macroDef dialect body opened) := by
  unfold macroDef
  infer_instance

end

/-- Behind the word of a statement nothing but that statement can stand. -/
instance (inLoop : Bool) (bodies : Part → Grammar (List Node)) [∀ part, Certain (bodies part)]
    (keyword : Keyword) : Certain (statementRest dialect opened inLoop bodies keyword) := by
  cases keyword <;> unfold statementRest <;> infer_instance

instance (outside : Counters) (levels : Nat) (scope : List Part) :
    Certain (nodesWithin dialect outside levels scope) := by
  cases levels with
  | zero => exact inferInstanceAs (Certain (Grammar.fail _))
  | succ levels =>
      unfold nodesWithin
      infer_instance

instance : Certain (document dialect) := by
  have : Certain (nodes dialect .zero) :=
    inferInstanceAs (Certain (nodesWithin dialect .zero (dialect.maxDepth + 1) [.template]))
  unfold document
  infer_instance

end Scoped

end Templating

import Templating.Proofs.Construct
import Templating.Proofs.StatementProgress

/-! # Constructs inside the bodies that are open

Every rule of statements leaves the counters as it found them, whatever becomes of it. Under
given counters it is therefore a rule of the grammar, and inside a construct the counters are
told by the bodies that are open there. Here each construct is written as such a rule, with a
rule for each of its bodies. -/

namespace Templating

variable {room : Room}

/-! ## Rules under given counters -/

namespace Parser

/-- The rule leaves the counters as it found them. -/
class Restoring {α : Type} (rule : Parser α) : Prop where
  restores (counters : Counters) (cursor : Cursor) : (rule counters cursor).2 = counters

/-- What becomes of a rule under these counters. -/
def under {α : Type} (rule : Parser α) (counters : Counters) : Grammar α := fun cursor =>
  (rule counters cursor).1

section

variable {α β : Type} {rule other : Parser α} {next : α → Parser β} {counters : Counters}

theorem apply_eq_under (rule : Parser α) [Restoring rule] (counters : Counters)
    (cursor : Cursor) :
    rule counters cursor = (rule.under counters cursor, counters) :=
  Prod.ext rfl (Restoring.restores counters cursor)

instance (value : α) : Restoring (pure value) := ⟨fun _ _ => rfl⟩

instance (rule : Grammar α) : Restoring (liftM rule : Parser α) := ⟨fun _ _ => rfl⟩

instance (rule : Grammar α) : Restoring (ofGrammar rule) := ⟨fun _ _ => rfl⟩

instance : Restoring getCounters := ⟨fun _ _ => rfl⟩

instance [Restoring rule] [∀ value, Restoring (next value)] : Restoring (rule >>= next) :=
  ⟨fun counters cursor => by
    rw [bind_apply, apply_eq_under rule counters cursor]
    cases rule.under counters cursor with
    | matched value middle => exact Restoring.restores counters middle
    | noMatch => rfl
    | failed failure => rfl⟩

instance [Restoring rule] (function : α → β) : Restoring (function <$> rule) := by
  rw [map_eq_pure_bind]
  infer_instance

instance [Restoring rule] [Restoring other] : Restoring (rule <|> other) :=
  ⟨fun counters cursor => by
    rw [orElse_apply, apply_eq_under rule counters cursor]
    cases rule.under counters cursor with
    | matched value middle => rfl
    | noMatch => exact Restoring.restores counters cursor
    | failed failure => rfl⟩

instance (condition : Prop) [Decidable condition] [Restoring rule] [Restoring other] :
    Restoring (if condition then rule else other) := by
  split <;> infer_instance

instance [Restoring rule] : Restoring (optional rule) :=
  inferInstanceAs (Restoring ((rule >>= fun value => pure (some value)) <|> pure none))

instance [Restoring rule] (turns : List Char) : Restoring (manyFor rule turns) := by
  induction turns with
  | nil => exact inferInstanceAs (Restoring (pure []))
  | cons turn turns induction =>
      exact inferInstanceAs (Restoring
        ((rule >>= fun value => manyFor rule turns >>= fun values => pure (value :: values)) <|>
          pure []))

instance [Restoring rule] : Restoring (many rule) :=
  ⟨fun counters cursor =>
    have restored : (manyFor rule cursor.rest counters cursor).2 = counters :=
      Restoring.restores counters cursor
    restored⟩

instance [Restoring rule] : Restoring (inLoop rule) :=
  ⟨fun counters cursor => by
    have restored : (rule counters.enterLoop cursor).2 = counters.enterLoop :=
      Restoring.restores _ cursor
    exact (congrArg Counters.leaveLoop restored).trans counters.leaveLoop_enterLoop⟩

instance [Restoring rule] : Restoring (inBody rule) :=
  ⟨fun counters cursor => by
    have restored : (rule counters.enterBody cursor).2 = counters.enterBody :=
      Restoring.restores _ cursor
    exact (congrArg Counters.leaveBody restored).trans counters.leaveBody_enterBody⟩

@[simp] theorem under_pure (value : α) : (pure value : Parser α).under counters = pure value := rfl

@[simp] theorem under_liftM (rule : Grammar α) :
    (liftM rule : Parser α).under counters = rule := rfl

@[simp] theorem under_ofGrammar (rule : Grammar α) : (ofGrammar rule).under counters = rule := rfl

@[simp] theorem under_getCounters : getCounters.under counters = pure counters := rfl

@[simp] theorem under_bind [Restoring rule] :
    (rule >>= next).under counters =
      rule.under counters >>= fun value => (next value).under counters := by
  funext cursor
  rw [Grammar.bind_apply]
  unfold under
  rw [bind_apply, apply_eq_under rule counters cursor]
  dsimp only [under]
  generalize (rule counters cursor).1 = outcome
  cases outcome <;> rfl

@[simp] theorem under_map [Restoring rule] (function : α → β) :
    (function <$> rule).under counters = function <$> rule.under counters := by
  simp only [map_eq_pure_bind, under_bind, under_pure]

@[simp] theorem under_orElse [Restoring rule] :
    (rule <|> other).under counters = (rule.under counters <|> other.under counters) := by
  funext cursor
  rw [Grammar.orElse_apply]
  unfold under
  rw [orElse_apply, apply_eq_under rule counters cursor]
  dsimp only [under]
  generalize (rule counters cursor).1 = outcome
  cases outcome <;> rfl

@[simp] theorem under_ite (condition : Prop) [Decidable condition] :
    (if condition then rule else other).under counters =
      if condition then rule.under counters else other.under counters := by
  split <;> rfl

@[simp] theorem under_optional [Restoring rule] :
    (optional rule).under counters = Grammar.optional (rule.under counters) := by
  simp [optional, Grammar.optional]

@[simp] theorem under_many [Restoring rule] :
    (many rule).under counters = Grammar.many (rule.under counters) := by
  have turn (turns : List Char) :
      (manyFor rule turns).under counters = Grammar.manyFor (rule.under counters) turns := by
    induction turns with
    | nil => rfl
    | cons turn turns induction => simp [manyFor, Grammar.manyFor, induction]
  funext cursor
  exact congrFun (turn cursor.rest) cursor

@[simp] theorem under_inLoop :
    (inLoop rule).under counters = rule.under counters.enterLoop := rfl

@[simp] theorem under_inBody :
    (inBody rule).under counters = rule.under counters.enterBody := rfl

end

end Parser

/-! ## Constructs -/

/-- A part of a template that is a body. -/
inductive Part where
  | template
  | branch
  | loopBody
  | alternative
  | arm
  | block
  | macroBody
  deriving Repr, DecidableEq

namespace Scoped

open Grammar (edge endTag expect keyword many nameToken optional tag tagEnd tagRest missingEndTag)
open Templating.Parser (rejectElse requireArm checkMacroName)

variable (dialect : Dialect) (body : Grammar (List Node)) (opened : OpenedTag)

def elseIfBranch [Room] : Grammar Branch := do
  let opened ← tag dialect ["else"]
  let _ ← keyword "if"
  let condition ← Grammar.condition
  let right ← tagRest dialect
  return ⟨opened.offset, ⟨opened.trim, right⟩, some condition, ← body⟩

def elseBranch : Grammar Branch := do
  let opened ← tag dialect ["else"]
  let right ← tagRest dialect
  return ⟨opened.offset, ⟨opened.trim, right⟩, none, ← body⟩

def conditional [Room] : Grammar Node := do
  let condition ← Grammar.condition
  let right ← tagRest dialect
  let first ← body
  let others ← many (elseIfBranch dialect body)
  let last ← optional (elseBranch dialect body)
  rejectElse dialect .elseNotLast
  let closingLeft ← endTag dialect "if" "endif" opened.offset
  let closingRight ← edge
  return .conditional opened.offset
    (⟨opened.offset, ⟨opened.trim, right⟩, some condition, first⟩ :: others ++ last.toList)
    ⟨closingLeft, closingRight⟩

def loopRest (alternative : Grammar (List Node)) : Grammar (Edges × List Node × Edges) :=
  (do
    let closing ← tag dialect ["endfor"]
    return (⟨closing.trim, none⟩, [], ⟨none, ← edge⟩)) <|>
  (do
    let middle ← tag dialect ["else"]
    let right ← tagRest dialect
    let alternative ← alternative
    let closingLeft ← endTag dialect "for" "endfor" opened.offset
    return (⟨middle.trim, right⟩, alternative, ⟨closingLeft, ← edge⟩)) <|>
  missingEndTag dialect "for" "endfor" opened.offset

/-- The expression that an `if` in the tag of a loop begins. -/
def guard [Room] : Grammar Expr := do
  let _ ← keyword "if"
  expect Grammar.expression (.missingExpr .condition)

def loop [Room] (alternative : Grammar (List Node)) : Grammar Node := do
  let pattern ← expect Grammar.pattern (.missingPattern .loopVariable)
  let _ ← expect (keyword "in") (.missingWord "in")
  let iterable ← expect Grammar.expression (.missingExpr .iterable)
  let guard ← optional guard
  let right ← tagRest dialect
  let nodes ← body
  let rest ← loopRest dialect opened alternative
  return .loop opened.offset ⟨opened.trim, right⟩ pattern iterable guard nodes rest.1 rest.2.1
    rest.2.2

/-- A statement that leaves the body of a loop or goes on with the next turn, where the body
of a loop is open or not. -/
def loopControl (inLoop : Bool) (keyword : Keyword) (node : Nat → Edges → Node) : Grammar Node :=
  if inLoop then do return node opened.offset ⟨opened.trim, ← edge⟩
  else Grammar.failAt (.loopControlOutside keyword.word) opened.offset

def whenArm [Room] : Grammar Arm := do
  let opened ← tag dialect ["when"]
  let pattern ← expect Grammar.pattern (.missingPattern .arm)
  let right ← tagRest dialect
  return ⟨opened.offset, ⟨opened.trim, right⟩, pattern, ← body⟩

def elseArm : Grammar Arm := do
  let opened ← tag dialect ["else"]
  let right ← tagRest dialect
  return ⟨opened.offset, ⟨opened.trim, right⟩, .name opened.offset "_", ← body⟩

def laterArms [Room] : (otherwise : Option Arm) → Grammar (List Arm)
  | none => pure []
  | some _ => many (whenArm dialect body)

def choice [Room] : Grammar Node := do
  let subject ← expect Grammar.expression (.missingExpr .subject)
  let right ← tagRest dialect
  Grammar.skipComments dialect
  let before ← many (whenArm dialect body)
  let otherwise ← optional (elseArm dialect body)
  let after ← laterArms dialect body otherwise
  rejectElse dialect .secondElse
  requireArm (before ++ after)
  let closingLeft ← endTag dialect "match" "endmatch" opened.offset
  let closingRight ← edge
  return .choice opened.offset ⟨opened.trim, right⟩ subject
    (before ++ after ++ otherwise.toList) ⟨closingLeft, closingRight⟩

def block : Grammar Node := do
  let name ← expect nameToken (.missingName .block)
  let right ← tagRest dialect
  let nodes ← body
  let closingLeft ← endTag dialect "block" "endblock" opened.offset
  let _ ← optional nameToken
  let closingRight ← edge
  return .block opened.offset ⟨opened.trim, right⟩ name nodes ⟨closingLeft, closingRight⟩

def macroDef : Grammar Node := do
  Grammar.spaces
  let nameOffset ← Grammar.here
  let name ← expect nameToken (.missingName .macroDef)
  checkMacroName name nameOffset
  let parameters ← optional Grammar.parameters
  let right ← tagRest dialect
  let nodes ← body
  let closingLeft ← endTag dialect "macro" "endmacro" opened.offset
  let _ ← optional nameToken
  let closingRight ← edge
  return .macroDef opened.offset name ⟨opened.trim, right⟩ (parameters.getD []) nodes
    ⟨closingLeft, closingRight⟩

section

variable (inLoop : Bool) (bodies : Part → Grammar (List Node))

def statementRest [Room] : Keyword → Grammar Node
  | .call => Grammar.macroCall opened
  | .letBinding | .setBinding => Grammar.assignment opened
  | .conditional => conditional dialect (bodies .branch) opened
  | .loop => loop dialect (bodies .loopBody) opened (bodies .alternative)
  | .choice => choice dialect (bodies .arm) opened
  | .extendTemplate => Grammar.extension opened
  | .includeTemplate => Grammar.inclusion opened
  | .importMacros => Grammar.importation opened
  | .block => block dialect (bodies .block) opened
  | .macroDef => macroDef dialect (bodies .macroBody) opened
  | .raw => Grammar.raw dialect opened
  | .breakLoop => loopControl opened inLoop .breakLoop .breakLoop
  | .continueLoop => loopControl opened inLoop .continueLoop .continueLoop

def statement [Room] : Grammar Node := do
  let start ← Parser.statementStart dialect
  let node ← statementRest dialect start.1 inLoop bodies start.2
  tagEnd dialect
  return node

def node [Room] : Grammar Node :=
  Grammar.text dialect <|> Grammar.comment dialect <|> Grammar.output dialect <|>
    statement dialect inLoop bodies

end

end Scoped

/-! ## Bodies -/

namespace Counters

/-- The counters while these bodies are open, the innermost first, where the counters outside
all of them are given: the loops whose bodies are open are counted, and all the bodies. -/
def within (outside : Counters) (scope : List Part) : Counters where
  loopDepth := outside.loopDepth + scope.count .loopBody
  depth := outside.depth + scope.length

/-- The counters with which the rule for a body is begun. -/
def atPart (counters : Counters) : Part → Counters
  | .loopBody => counters.enterLoop
  | _ => counters

@[simp] theorem within_nil (outside : Counters) : outside.within [] = outside := by
  simp [within]

theorem enterBody_atPart_within (outside : Counters) (part : Part) (scope : List Part) :
    ((outside.within scope).atPart part).enterBody = outside.within (part :: scope) := by
  cases part <;> simp [within, atPart, enterBody, enterLoop, Int.add_assoc]

end Counters

namespace Scoped

variable (dialect : Dialect) (outside : Counters)

/-- A body, where these bodies are open and the first of them is the body itself. -/
def nodesWithin [Room] : (levels : Nat) → (scope : List Part) → Grammar (List Node)
  | 0, _ => Grammar.fail (.nestingLimit dialect.maxDepth)
  | levels + 1, scope =>
      if (outside.within scope).tooDeep dialect.maxDepth then
        Grammar.fail (.nestingLimit dialect.maxDepth)
      else
        Grammar.many (node dialect (outside.within scope).inLoop fun part =>
          nodesWithin levels (part :: scope))

/-- The outermost body of a source. -/
def nodes [Room] : Grammar (List Node) :=
  nodesWithin dialect outside (dialect.maxDepth + 1) [.template]

/-- A whole source. -/
def document [Room] : Grammar (List Node) := do
  let body ← nodes dialect .zero
  Grammar.endOfSource dialect
  return body

end Scoped

/-! ## The counters tell what is open -/

namespace Parser

section

variable {dialect : Dialect} {body : Parser (List Node)} {opened : OpenedTag}
  {counters : Counters} [Restoring body]

instance : Restoring (elseIfBranch dialect body) := by
  unfold elseIfBranch
  infer_instance

instance : Restoring (elseBranch dialect body) := by
  unfold elseBranch
  infer_instance

instance : Restoring (conditional dialect body opened) := by
  unfold conditional
  infer_instance

instance : Restoring (loopRest dialect body opened) := by
  unfold loopRest
  infer_instance

instance : Restoring (loop dialect body opened) := by
  unfold loop
  infer_instance

instance (keyword : Keyword) (node : Nat → Edges → Node) :
    Restoring (loopControl opened keyword node) := by
  unfold loopControl
  infer_instance

instance : Restoring (whenArm dialect body) := by
  unfold whenArm
  infer_instance

instance : Restoring (elseArm dialect body) := by
  unfold elseArm
  infer_instance

instance (otherwise : Option Arm) : Restoring (laterArms dialect body otherwise) := by
  cases otherwise with
  | none => exact inferInstanceAs (Restoring (pure []))
  | some _ => exact inferInstanceAs (Restoring (many (whenArm dialect body)))

instance : Restoring (choice dialect body opened) := by
  rw [choice_eq]
  infer_instance

instance : Restoring (block dialect body opened) := by
  unfold block
  infer_instance

instance : Restoring (macroDef dialect body opened) := by
  rw [macroDef_eq]
  infer_instance

instance (keyword : Keyword) : Restoring (statementRest dialect body opened keyword) := by
  cases keyword <;> unfold statementRest <;> infer_instance

instance : Restoring (statement dialect body) := by
  unfold statement
  infer_instance

instance : Restoring (node dialect body) := by
  unfold node
  infer_instance

theorem under_elseIfBranch :
    (elseIfBranch dialect body).under counters =
      Scoped.elseIfBranch dialect (body.under counters) := by
  simp [elseIfBranch, Scoped.elseIfBranch]

theorem under_elseBranch :
    (elseBranch dialect body).under counters =
      Scoped.elseBranch dialect (body.under counters) := by
  simp [elseBranch, Scoped.elseBranch]

theorem under_conditional :
    (conditional dialect body opened).under counters =
      Scoped.conditional dialect (body.under counters) opened := by
  simp [conditional, Scoped.conditional, under_elseIfBranch, under_elseBranch]

theorem under_loopRest :
    (loopRest dialect body opened).under counters =
      Scoped.loopRest dialect opened (body.under counters) := by
  simp [loopRest, Scoped.loopRest]

theorem under_loop :
    (loop dialect body opened).under counters =
      Scoped.loop dialect (body.under counters.enterLoop) opened (body.under counters) := by
  simp [loop, Scoped.loop, Scoped.guard, under_loopRest]

theorem under_loopControl (keyword : Keyword) (node : Nat → Edges → Node) :
    (loopControl opened keyword node).under counters =
      Scoped.loopControl opened counters.inLoop keyword node := by
  unfold loopControl Scoped.loopControl
  rw [under_bind, under_getCounters]
  cases inside : counters.inLoop with
  | true => simp [inside]
  | false =>
      simp only [pure_bind, inside]
      rfl

theorem under_whenArm :
    (whenArm dialect body).under counters = Scoped.whenArm dialect (body.under counters) := by
  simp [whenArm, Scoped.whenArm]

theorem under_elseArm :
    (elseArm dialect body).under counters = Scoped.elseArm dialect (body.under counters) := by
  simp [elseArm, Scoped.elseArm]

theorem under_laterArms (otherwise : Option Arm) :
    (laterArms dialect body otherwise).under counters =
      Scoped.laterArms dialect (body.under counters) otherwise := by
  cases otherwise <;> simp [laterArms, Scoped.laterArms, under_whenArm]

theorem under_choice :
    (choice dialect body opened).under counters =
      Scoped.choice dialect (body.under counters) opened := by
  simp [choice_eq, Scoped.choice, under_whenArm, under_elseArm, under_laterArms]

theorem under_block :
    (block dialect body opened).under counters =
      Scoped.block dialect (body.under counters) opened := by
  simp [block, Scoped.block]

theorem under_macroDef :
    (macroDef dialect body opened).under counters =
      Scoped.macroDef dialect (body.under counters) opened := by
  simp [macroDef_eq, Scoped.macroDef]

theorem under_statementRest (keyword : Keyword) :
    (statementRest dialect body opened keyword).under counters =
      Scoped.statementRest dialect opened counters.inLoop
        (fun part => body.under (counters.atPart part)) keyword := by
  cases keyword <;>
    simp [statementRest, Scoped.statementRest, Counters.atPart, under_conditional, under_loop,
      under_loopControl, under_choice, under_block, under_macroDef]

theorem under_node :
    (node dialect body).under counters =
      Scoped.node dialect counters.inLoop fun part => body.under (counters.atPart part) := by
  simp [node, statement, Scoped.node, Scoped.statement, under_statementRest]

end

variable (dialect : Dialect) (outside : Counters)

instance (levels : Nat) : Restoring (nodesWithin dialect levels) := by
  induction levels with
  | zero => exact inferInstanceAs (Restoring (ofGrammar _))
  | succ levels induction =>
      have : Restoring (checkDepth dialect) := by
        unfold checkDepth
        infer_instance
      exact inferInstanceAs (Restoring (inBody
        (checkDepth dialect >>= fun _ => many (node dialect (nodesWithin dialect levels)))))

/-- The rule for a body is what it is where the bodies are open that the counters tell of. -/
theorem under_nodesWithin (levels : Nat) (part : Part) (scope : List Part) :
    (nodesWithin dialect levels).under ((outside.within scope).atPart part) =
      Scoped.nodesWithin dialect outside levels (part :: scope) := by
  induction levels generalizing part scope with
  | zero => rfl
  | succ levels induction =>
      have : Restoring (checkDepth dialect) := by
        unfold checkDepth
        infer_instance
      have checked : (checkDepth dialect).under (outside.within (part :: scope)) =
          if (outside.within (part :: scope)).tooDeep dialect.maxDepth then
            Grammar.fail (.nestingLimit dialect.maxDepth)
          else pure () := by
        funext cursor
        unfold under
        rw [checkDepth_apply]
        split <;> rfl
      rw [nodesWithin, under_inBody, Counters.enterBody_atPart_within, under_bind, checked,
        under_many, under_node, Scoped.nodesWithin]
      simp only [induction]
      split <;> rfl

theorem under_nodesWithin_template (levels : Nat) :
    (nodesWithin dialect levels).under outside =
      Scoped.nodesWithin dialect outside levels [.template] := by
  rw [← under_nodesWithin, Counters.within_nil]
  rfl

variable {outside} in
theorem scoped_of_nodesWithin {levels : Nat} {counters : Counters} {cursor later : Cursor}
    {body : List Node}
    (matched : nodesWithin dialect levels outside cursor = (.matched body later, counters)) :
    Scoped.nodesWithin dialect outside levels [.template] cursor = .matched body later := by
  rw [← under_nodesWithin_template]
  exact congrArg Prod.fst matched

/-- At every point of a parse the counters tell how many bodies of loops are open and how many
bodies. -/
theorem nodes_eq_scoped (cursor : Cursor) :
    nodes dialect outside cursor = (Scoped.nodes dialect outside cursor, outside) := by
  rw [nodes, apply_eq_under (nodesWithin dialect (dialect.maxDepth + 1)) outside cursor,
    under_nodesWithin_template]
  rfl

theorem document_eq_scoped (cursor : Cursor) :
    document dialect .zero cursor = (Scoped.document dialect cursor, .zero) := by
  rw [document, Scoped.document, bind_apply, Grammar.bind_apply, nodes_eq_scoped]
  cases Scoped.nodes dialect .zero cursor with
  | matched body later =>
      dsimp only
      rw [bind_apply, Grammar.bind_apply, liftM_apply]
      cases Grammar.endOfSource dialect later <;> rfl
  | noMatch => rfl
  | failed failure => rfl

end Parser

/-- What a source is, told by the rule for whole sources. -/
theorem Template.parse_eq_scoped (dialect : Dialect) (source : Source) :
    parse dialect source = match Scoped.document dialect (.start source.chars) with
      | .matched body _ => .ok { body, name := source.name }
      | .noMatch => .error (.malformed .unexpectedInput 0)
      | .failed failure => .error failure := by
  have run : (Parser.document dialect .zero (.start source.chars)).1 =
      Scoped.document dialect (.start source.chars) := by
    rw [Parser.document_eq_scoped]
  exact run ▸ rfl

end Templating

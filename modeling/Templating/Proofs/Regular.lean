import Templating.Proofs.Run
import Templating.Proofs.Scope
import Templating.Proofs.Speculation

/-! # Regular trees

Which trees the bodies of a template may be: what stands in a tag is of the language, a text goes
on up to the tag behind it, and a body is admitted where it lies. The trim markers have no say in
it. -/

namespace Templating

variable {room : Room}

open Text

/-! ## What stands in tags -/

/-- An expression of the language, with no more brackets open at once than there is room for. -/
structure Expr.Regular [Room] (expression : Expr) : Prop where
  wellFormed : expression.WellFormed IsReadable
  nesting : expression.nesting < Grammar.bracketLimit

/-- A pattern that can be written with no more brackets open at once than there is room for. -/
def Pattern.Regular [Room] (pattern : Pattern) : Prop :=
  ∃ text rest, pattern.SpelledWithin Grammar.bracketLimit text rest

/-- A condition without a pattern is an expression that is not taken for a binding. -/
def Condition.Regular [Room] : Condition → Prop
  | ⟨_, some pattern, expression⟩ => pattern.Regular ∧ expression.Regular
  | ⟨_, none, expression⟩ =>
      expression.Regular ∧ expression.speculation false ≠ .fatal ∧
        expression.speculation false ≠ .compared

/-! ## Runs of characters -/

/-- The passage is all there is before the place where a text like that begins. -/
def Passage.RunsTo (test : List Char → Bool) (ends : List Char → Prop) (passage : Passage) : Prop :=
  ∃ run, passage = .ofChars run ∧ ∀ rest, ends rest → Grammar.untilText test (run ++ rest) = run

theorem Passage.chars_ofChars (run : List Char) : (Passage.ofChars run).text.toList = run := by
  rw [Passage.text_ofChars, String.toList_ofList]

/-- What stands behind a text: a tag, or nothing behind the last text of a source. -/
def EndsText (dialect : Dialect) : (last : Bool) → (rest : List Char) → Prop
  | true, rest => rest = []
  | false, rest => Grammar.opensTag dialect rest = true

namespace Node

variable (dialect : Dialect)

def isText : Node → Bool
  | text .. => true
  | _ => false

/-- Every text of a body goes on up to a tag, which no other text is. The last text goes on to the
end of the source where nothing stands behind the body. -/
def TextsEnd (last : Bool) : List Node → Prop
  | [] => True
  | text _ passage :: nodes =>
      passage.text ≠ "" ∧
        passage.RunsTo (Grammar.opensTag dialect) (EndsText dialect (last && nodes.isEmpty)) ∧
          (∀ next ∈ nodes.head?, next.isText = false) ∧ TextsEnd last nodes
  | _ :: nodes => TextsEnd last nodes

/-- A node of the language, given which bodies there are and whether the body of a loop is open. -/
def Regular [Room] (inLoop : Bool) (bodies : Part → List Node → Prop) : Node → Prop
  | text .. | comment .. => True
  | output _ _ expression => expression.Regular
  | raw _ _ passage _ =>
      passage.RunsTo (Grammar.matchesAt (Grammar.rawEnd dialect))
        (Grammar.matchesAt (Grammar.rawEnd dialect) · = true)
  | conditional _ branches _ =>
      branches ≠ [] ∧ (∀ first ∈ branches.head?, first.condition.isSome = true) ∧
        (∀ branch ∈ branches.dropLast, branch.condition.isSome = true) ∧
          ∀ branch ∈ branches, (∀ condition ∈ branch.condition, condition.Regular) ∧
            bodies .branch branch.body
  | loop _ _ pattern iterable guard body _ alternative _ =>
      pattern.Regular ∧ iterable.Regular ∧
        (∀ condition ∈ guard, condition.Regular ∧ 0 < iterable.rank) ∧
          bodies .loopBody body ∧ bodies .alternative alternative
  | choice _ _ subject arms _ =>
      subject.Regular ∧ arms ≠ [] ∧ ∀ arm ∈ arms, arm.pattern.Regular ∧ bodies .arm arm.body
  | breakLoop .. | continueLoop .. => inLoop = true
  | macroDef _ name _ parameters body _ =>
      isName name.toList = true ∧ Parser.reservedMacroNames.contains name = false ∧
        (∀ parameter ∈ parameters, isName parameter.toList = true) ∧ bodies .macroBody body
  | macroCall _ _ scope name arguments =>
      (∀ qualifier ∈ scope, isName qualifier.toList = true) ∧ isName name.toList = true ∧
        ∀ argument ∈ arguments, argument.Regular
  | assign _ _ pattern value => pattern.Regular ∧ value.Regular
  | declare _ _ pattern => pattern.Regular
  | extendTemplate _ template | includeTemplate _ _ template => isBody '"' template.toList = true
  | block _ _ name body _ => isName name.toList = true ∧ bodies .block body
  | importMacros _ _ template scope => isBody '"' template.toList = true ∧ isName scope.toList = true

theorem Regular.mono {dialect : Dialect} {inLoop : Bool} {bodies bodies' : Part → List Node → Prop}
    {node : Node} (regular : node.Regular dialect inLoop bodies)
    (weaker : ∀ part nodes, bodies part nodes → bodies' part nodes) :
    node.Regular dialect inLoop bodies' := by
  cases node with
  | conditional _ branches _ =>
      rcases regular with ⟨nonempty, begun, ordered, each⟩
      exact ⟨nonempty, begun, ordered, fun branch among =>
        (each branch among).imp id (weaker _ _)⟩
  | loop =>
      rcases regular with ⟨pattern, iterable, guarded, inside, inside'⟩
      exact ⟨pattern, iterable, guarded, weaker _ _ inside, weaker _ _ inside'⟩
  | choice _ _ _ arms _ =>
      rcases regular with ⟨subject, nonempty, each⟩
      exact ⟨subject, nonempty, fun arm among => (each arm among).imp id (weaker _ _)⟩
  | macroDef =>
      rcases regular with ⟨isName, free, parameters, inside⟩
      exact ⟨isName, free, parameters, weaker _ _ inside⟩
  | block => exact regular.imp id (weaker _ _)
  | _ => exact regular

end Node

/-- A body of the language, where these bodies are open and the first of them is the body itself. -/
def RegularBody [Room] (dialect : Dialect) (outside : Counters) :
    (levels : Nat) → (scope : List Part) → (last : Bool) → List Node → Prop
  | 0, _, _, _ => False
  | levels + 1, scope, last, nodes =>
      (outside.within scope).tooDeep dialect.maxDepth = false ∧ Node.TextsEnd dialect last nodes ∧
        ∀ node ∈ nodes, node.Regular dialect (outside.within scope).inLoop fun part =>
          RegularBody dialect outside levels (part :: scope) false

/-! ## Trees without trim markers -/

mutual

def Node.untrimmed : Node → Node
  | .comment offset _ => .comment offset {}
  | .output offset _ expression => .output offset {} expression
  | .raw offset _ passage _ => .raw offset {} passage {}
  | .conditional offset branches _ => .conditional offset (Branch.untrimmedAll branches) {}
  | .loop offset _ pattern iterable guard body _ alternative _ =>
      .loop offset {} pattern iterable guard (Node.untrimmedAll body) {}
        (Node.untrimmedAll alternative) {}
  | .choice offset _ subject arms _ => .choice offset {} subject (Arm.untrimmedAll arms) {}
  | .breakLoop offset _ => .breakLoop offset {}
  | .continueLoop offset _ => .continueLoop offset {}
  | .macroDef offset name _ parameters body _ =>
      .macroDef offset name {} parameters (Node.untrimmedAll body) {}
  | .macroCall offset _ scope name arguments => .macroCall offset {} scope name arguments
  | .assign offset _ pattern value => .assign offset {} pattern value
  | .declare offset _ pattern => .declare offset {} pattern
  | .block offset _ name body _ => .block offset {} name (Node.untrimmedAll body) {}
  | .includeTemplate offset _ template => .includeTemplate offset {} template
  | .importMacros offset _ template scope => .importMacros offset {} template scope
  | .text offset passage => .text offset passage
  | .extendTemplate offset template => .extendTemplate offset template
termination_by structural node => node

def Node.untrimmedAll : List Node → List Node
  | [] => []
  | head :: tail => head.untrimmed :: Node.untrimmedAll tail
termination_by structural nodes => nodes

def Branch.untrimmed : Branch → Branch
  | ⟨offset, _, condition, body⟩ => ⟨offset, {}, condition, Node.untrimmedAll body⟩
termination_by structural branch => branch

def Branch.untrimmedAll : List Branch → List Branch
  | [] => []
  | head :: tail => head.untrimmed :: Branch.untrimmedAll tail
termination_by structural branches => branches

def Arm.untrimmed : Arm → Arm
  | ⟨offset, _, pattern, body⟩ => ⟨offset, {}, pattern, Node.untrimmedAll body⟩
termination_by structural arm => arm

def Arm.untrimmedAll : List Arm → List Arm
  | [] => []
  | head :: tail => head.untrimmed :: Arm.untrimmedAll tail
termination_by structural arms => arms

end

/-- The template without its trim markers. -/
def Template.untrimmed (template : Template) : Template :=
  { template with body := Node.untrimmedAll template.body }

@[simp] theorem Node.untrimmedAll_eq (nodes : List Node) :
    Node.untrimmedAll nodes = nodes.map Node.untrimmed := by
  induction nodes with
  | nil => rfl
  | cons node nodes induction => rw [Node.untrimmedAll, induction, List.map_cons]

@[simp] theorem Branch.untrimmedAll_eq (branches : List Branch) :
    Branch.untrimmedAll branches = branches.map Branch.untrimmed := by
  induction branches with
  | nil => rfl
  | cons branch branches induction => rw [Branch.untrimmedAll, induction, List.map_cons]

@[simp] theorem Arm.untrimmedAll_eq (arms : List Arm) :
    Arm.untrimmedAll arms = arms.map Arm.untrimmed := by
  induction arms with
  | nil => rfl
  | cons arm arms induction => rw [Arm.untrimmedAll, induction, List.map_cons]

/-! ## Trim markers do not matter -/

namespace Branch

@[simp] theorem condition_untrimmed (branch : Branch) :
    branch.untrimmed.condition = branch.condition := by
  cases branch
  rfl

@[simp] theorem body_untrimmed (branch : Branch) :
    branch.untrimmed.body = branch.body.map Node.untrimmed := by
  cases branch
  exact Node.untrimmedAll_eq _

end Branch

namespace Arm

@[simp] theorem pattern_untrimmed (arm : Arm) : arm.untrimmed.pattern = arm.pattern := by
  cases arm
  rfl

@[simp] theorem body_untrimmed (arm : Arm) : arm.untrimmed.body = arm.body.map Node.untrimmed := by
  cases arm
  exact Node.untrimmedAll_eq _

end Arm

namespace Node

variable {dialect : Dialect}

@[simp] theorem isText_untrimmed (node : Node) : node.untrimmed.isText = node.isText := by
  cases node <;> rfl

theorem textsEnd_map_untrimmed {last : Bool} (nodes : List Node) :
    TextsEnd dialect last (nodes.map untrimmed) ↔ TextsEnd dialect last nodes := by
  induction nodes with
  | nil => rfl
  | cons node nodes induction => cases node <;> simp [TextsEnd, untrimmed, induction]

theorem regular_untrimmed {inLoop : Bool} {bodies : Part → List Node → Prop}
    (same : ∀ part nodes, bodies part (nodes.map untrimmed) ↔ bodies part nodes) (node : Node) :
    node.untrimmed.Regular dialect inLoop bodies ↔ node.Regular dialect inLoop bodies := by
  cases node <;> simp [untrimmed, Regular, same, List.head?_map, ← List.map_dropLast]

end Node

theorem regularBody_map_untrimmed {dialect : Dialect} {outside : Counters} {levels : Nat}
    {scope : List Part} {last : Bool} (nodes : List Node) :
    RegularBody dialect outside levels scope last (nodes.map Node.untrimmed) ↔
      RegularBody dialect outside levels scope last nodes := by
  induction levels generalizing scope last nodes with
  | zero => rfl
  | succ levels induction =>
      simp [RegularBody, Node.textsEnd_map_untrimmed, Node.regular_untrimmed fun _ => induction]

end Templating

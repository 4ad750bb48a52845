import Templating.Dialect.Basic
import Templating.Grammar.Keyword
import Templating.Proofs.Spelling
import Templating.Tree.Node

/-! # Canonical templates

A tree is written in one way that the language knows best: with one blank inside each delimiter
and around each operator, one behind each comma, and none elsewhere. What is written comes in
front of a text that is given, so that the parts of a tree are written one onto the other. -/

namespace Templating

/-- Names with separators between them. -/
def pathOnto : List String → (rest : List Char) → List Char
  | [], rest => rest
  | [name], rest => name.toList ++ rest
  | name :: names, rest => name.toList ++ ("::".toList ++ pathOnto names rest)

/-- The end of a tuple. Behind a single item a comma tells it from an expression in
parentheses. -/
def tupleEnd (single : Bool) (rest : List Char) : List Char :=
  if single then ",)".toList ++ rest else ')' :: rest

section

variable {α : Type} (one : α → List Char → List Char)

/-- Values each behind a comma. -/
def tailOnto : List α → (rest : List Char) → List Char
  | [], rest => rest
  | head :: tail, rest => ", ".toList ++ one head (tailOnto tail rest)

/-- Values with commas between them. -/
def listOnto : List α → (rest : List Char) → List Char
  | [], rest => rest
  | head :: tail, rest => one head (tailOnto one tail rest)

end

/-! ## Expressions -/

namespace Expr

mutual

def printOnto : Expr → (rest : List Char) → List Char
  | literal _ kind text, rest => kind.written text ++ rest
  | var _ name, rest => name.toList ++ rest
  | path _ segments, rest => pathOnto segments rest
  | list _ items, rest => '[' :: printItemsOnto items (']' :: rest)
  | tuple _ items, rest => '(' :: printItemsOnto items (tupleEnd (items.length == 1) rest)
  | group _ inner, rest => '(' :: inner.printOnto (')' :: rest)
  | member _ object name, rest => object.printOnto ('.' :: (name.toList ++ rest))
  | item _ object key, rest => object.printOnto ('[' :: key.printOnto (']' :: rest))
  | call _ function arguments, rest =>
      function.printOnto ('(' :: printItemsOnto arguments (')' :: rest))
  | attempt _ value, rest => value.printOnto ('?' :: rest)
  | filter _ value name [], rest => value.printOnto ('|' :: (name.toList ++ rest))
  | filter _ value name arguments, rest =>
      value.printOnto ('|' :: (name.toList ++ '(' :: printItemsOnto arguments (')' :: rest)))
  | unary _ op operand, rest => op.symbol.toList ++ operand.printOnto rest
  | binary _ op left right, rest =>
      left.printOnto (' ' :: (op.symbol.toList ++ ' ' :: right.printOnto rest))
  | range _ kind start stop, rest =>
      printOptionOnto start (kind.symbol.toList ++ printOptionOnto stop rest)
termination_by structural expression => expression

/-- Expressions with commas between them. -/
def printItemsOnto : List Expr → (rest : List Char) → List Char
  | [], rest => rest
  | head :: tail, rest => head.printOnto (printTailOnto tail rest)
termination_by structural expressions => expressions

/-- Expressions each behind a comma. -/
def printTailOnto : List Expr → (rest : List Char) → List Char
  | [], rest => rest
  | head :: tail, rest => ", ".toList ++ head.printOnto (printTailOnto tail rest)
termination_by structural expressions => expressions

def printOptionOnto : Option Expr → (rest : List Char) → List Char
  | none, rest => rest
  | some expression, rest => expression.printOnto rest
termination_by structural expression => expression

end

end Expr

/-! ## Patterns -/

/-- The pattern is a name by itself. -/
def Pattern.isNamed (label : String) : Pattern → Bool
  | .name _ bound => bound == label
  | _ => false

mutual

def Pattern.printOnto : Pattern → (rest : List Char) → List Char
  | .name _ name, rest => name.toList ++ rest
  | .path _ segments, rest => pathOnto segments rest
  | .tuple _ path items, rest =>
      pathOnto path ('(' :: Pattern.printItemsOnto items
        (tupleEnd (path.isEmpty && items.length == 1) rest))
  | .record _ path fields, rest =>
      pathOnto path (" \x7b".toList ++ Field.printItemsOnto fields ('\x7d' :: rest))
  | .literal _ kind text, rest => kind.written text ++ rest
termination_by structural pattern => pattern

def Pattern.printItemsOnto : List Pattern → (rest : List Char) → List Char
  | [], rest => rest
  | head :: tail, rest => head.printOnto (Pattern.printTailOnto tail rest)
termination_by structural patterns => patterns

def Pattern.printTailOnto : List Pattern → (rest : List Char) → List Char
  | [], rest => rest
  | head :: tail, rest => ", ".toList ++ head.printOnto (Pattern.printTailOnto tail rest)
termination_by structural patterns => patterns

/-- A field that is bound under its own name is written as that name. -/
def Field.printOnto : Field → (rest : List Char) → List Char
  | ⟨label, pattern⟩, rest =>
      label.toList ++ if pattern.isNamed label then rest else ": ".toList ++ pattern.printOnto rest
termination_by structural field => field

def Field.printItemsOnto : List Field → (rest : List Char) → List Char
  | [], rest => rest
  | head :: tail, rest => head.printOnto (Field.printTailOnto tail rest)
termination_by structural fields => fields

def Field.printTailOnto : List Field → (rest : List Char) → List Char
  | [], rest => rest
  | head :: tail, rest => ", ".toList ++ head.printOnto (Field.printTailOnto tail rest)
termination_by structural fields => fields

end

/-! ## Tags -/

/-- The marker, if there is one. -/
def Trim.printOnto (trim : Option Trim) (rest : List Char) : List Char :=
  (trim.map Trim.mark).toList ++ rest

/-- The end of a tag behind its last part. -/
def tagEndOnto (closing : Delimiter) (right : Option Trim) (rest : List Char) : List Char :=
  ' ' :: Trim.printOnto right (closing.chars ++ rest)

/-- A tag with what stands between its markers. -/
def tagOnto (dialect : Dialect) (edges : Edges) (parts : List Char → List Char)
    (rest : List Char) : List Char :=
  dialect.blockStart.chars ++ Trim.printOnto edges.left
    (' ' :: parts (tagEndOnto dialect.blockEnd edges.right rest))

def Condition.printOnto : Condition → (rest : List Char) → List Char
  | ⟨_, none, expression⟩, rest => expression.printOnto rest
  | ⟨_, some pattern, expression⟩, rest =>
      "let ".toList ++ pattern.printOnto (" = ".toList ++ expression.printOnto rest)

/-- Arguments in parentheses, which are left out where there are none. -/
def argumentsOnto : List Expr → (rest : List Char) → List Char
  | [], rest => rest
  | arguments, rest => '(' :: Expr.printItemsOnto arguments (')' :: rest)

/-- Parameters in parentheses, which are left out where there are none. -/
def parametersOnto : List String → (rest : List Char) → List Char
  | [], rest => rest
  | parameters, rest => '(' :: listOnto (fun name rest => name.toList ++ rest) parameters (')' :: rest)

def quotedOnto (text : String) (rest : List Char) : List Char :=
  '"' :: (text.toList ++ '"' :: rest)

/-- The guard of a loop, if it has one. -/
def guardOnto : Option Expr → (rest : List Char) → List Char
  | none, rest => rest
  | some guard, rest => " if ".toList ++ guard.printOnto rest

/-- What stands behind the word of a loop's first tag. -/
def loopOnto (pattern : Pattern) (iterable : Expr) (guard : Option Expr) (rest : List Char) :
    List Char :=
  pattern.printOnto (" in ".toList ++ iterable.printOnto (guardOnto guard rest))

/-- The loop is written without a tag between its body and its alternative. -/
def endsPlainly (middle : Edges) (alternative : List Node) (closing : Edges) : Bool :=
  alternative.isEmpty && middle.right.isNone && closing.left.isNone

/-! ## Nodes -/

mutual

def Node.printOnto (dialect : Dialect) : Node → (rest : List Char) → List Char
  | .text _ passage, rest => passage.text.toList ++ rest
  | .comment _ edges, rest =>
      dialect.commentStart.chars ++ Trim.printOnto edges.left
        (tagEndOnto dialect.commentEnd edges.right rest)
  | .output _ edges expression, rest =>
      dialect.exprStart.chars ++ Trim.printOnto edges.left
        (' ' :: expression.printOnto (tagEndOnto dialect.exprEnd edges.right rest))
  | .raw _ opening passage closing, rest =>
      tagOnto dialect opening ("raw".toList ++ ·)
        (passage.text.toList ++ tagOnto dialect closing ("endraw".toList ++ ·) rest)
  | .conditional _ branches closing, rest =>
      Branch.printAllOnto dialect true branches (tagOnto dialect closing ("endif".toList ++ ·) rest)
  | .loop _ opening pattern iterable guard body middle alternative closing, rest =>
      tagOnto dialect opening (fun rest => "for ".toList ++ loopOnto pattern iterable guard rest)
        (Node.printAllOnto dialect body
          (if endsPlainly middle alternative closing then
            tagOnto dialect ⟨middle.left, closing.right⟩ ("endfor".toList ++ ·) rest
          else
            tagOnto dialect middle ("else".toList ++ ·)
              (Node.printAllOnto dialect alternative
                (tagOnto dialect closing ("endfor".toList ++ ·) rest))))
  | .choice _ opening subject arms closing, rest =>
      tagOnto dialect opening (fun rest => "match ".toList ++ subject.printOnto rest)
        (Arm.printAllOnto dialect arms (tagOnto dialect closing ("endmatch".toList ++ ·) rest))
  | .breakLoop _ edges, rest => tagOnto dialect edges ("break".toList ++ ·) rest
  | .continueLoop _ edges, rest => tagOnto dialect edges ("continue".toList ++ ·) rest
  | .macroDef _ name opening parameters body closing, rest =>
      tagOnto dialect opening
        (fun rest => "macro ".toList ++ (name.toList ++ parametersOnto parameters rest))
        (Node.printAllOnto dialect body (tagOnto dialect closing ("endmacro".toList ++ ·) rest))
  | .macroCall _ edges scope name arguments, rest =>
      tagOnto dialect edges
        (fun rest => "call ".toList ++
          pathOnto (scope.toList ++ [name]) (argumentsOnto arguments rest)) rest
  | .assign _ edges pattern value, rest =>
      tagOnto dialect edges
        (fun rest => "let ".toList ++ pattern.printOnto (" = ".toList ++ value.printOnto rest)) rest
  | .declare _ edges pattern, rest =>
      tagOnto dialect edges (fun rest => "let ".toList ++ pattern.printOnto rest) rest
  | .extendTemplate _ template, rest =>
      tagOnto dialect {} (fun rest => "extends ".toList ++ quotedOnto template rest) rest
  | .block _ opening name body closing, rest =>
      tagOnto dialect opening (fun rest => "block ".toList ++ (name.toList ++ rest))
        (Node.printAllOnto dialect body (tagOnto dialect closing ("endblock".toList ++ ·) rest))
  | .includeTemplate _ edges template, rest =>
      tagOnto dialect edges (fun rest => "include ".toList ++ quotedOnto template rest) rest
  | .importMacros _ edges template scope, rest =>
      tagOnto dialect edges
        (fun rest => "import ".toList ++ quotedOnto template (" as ".toList ++
          (scope.toList ++ rest))) rest
termination_by structural node => node

def Node.printAllOnto (dialect : Dialect) : List Node → (rest : List Char) → List Char
  | [], rest => rest
  | head :: tail, rest => head.printOnto dialect (Node.printAllOnto dialect tail rest)
termination_by structural nodes => nodes

/-- The first branch of a conditional begins with another word than the others. -/
def Branch.printOnto (dialect : Dialect) (first : Bool) : Branch → (rest : List Char) → List Char
  | ⟨_, edges, condition, body⟩, rest =>
      tagOnto dialect edges
        (fun rest => (if first then [] else "else".toList) ++
          match condition with
          | none => rest
          | some condition =>
              (if first then "if ".toList else " if ".toList) ++ condition.printOnto rest)
        (Node.printAllOnto dialect body rest)
termination_by structural branch => branch

def Branch.printAllOnto (dialect : Dialect) (first : Bool) :
    List Branch → (rest : List Char) → List Char
  | [], rest => rest
  | head :: tail, rest =>
      head.printOnto dialect first (Branch.printAllOnto dialect false tail rest)
termination_by structural branches => branches

/-- Every arm is written alike, also the one that is taken when no other is. -/
def Arm.printOnto (dialect : Dialect) : Arm → (rest : List Char) → List Char
  | ⟨_, edges, pattern, body⟩, rest =>
      tagOnto dialect edges (fun rest => "when ".toList ++ pattern.printOnto rest)
        (Node.printAllOnto dialect body rest)
termination_by structural arm => arm

def Arm.printAllOnto (dialect : Dialect) : List Arm → (rest : List Char) → List Char
  | [], rest => rest
  | head :: tail, rest => head.printOnto dialect (Arm.printAllOnto dialect tail rest)
termination_by structural arms => arms

end

/-- The template as a text. -/
def Template.print (dialect : Dialect) (template : Template) : String :=
  String.ofList (Node.printAllOnto dialect template.body [])

end Templating

import Templating.Tree.Element

/-! # Records

Every element of a tree is also seen as a record of its class, with the contents of its attributes in
the order in which the class declares them. What treats all classes alike, such as a traversal, works
on records, and so on every tree that can be put together from them, parsed or not. -/

namespace Templating

/-- The classes of the elements of trees. -/
inductive NodeClass where
  | template
  | text
  | comment
  | output
  | raw
  | conditional
  | branch
  | condition
  | loop
  | choice
  | arm
  | breakLoop
  | continueLoop
  | macroDef
  | macroCall
  | assign
  | declare
  | extendTemplate
  | block
  | includeTemplate
  | importMacros
  | literal
  | var
  | path
  | list
  | tuple
  | group
  | member
  | item
  | call
  | attempt
  | filter
  | unary
  | binary
  | range
  | namePattern
  | pathPattern
  | tuplePattern
  | recordPattern
  | literalPattern (kind : LiteralKind)
  deriving Repr, DecidableEq

/-- What an attribute is for. -/
inductive AttributeKind where
  /-- It holds a text. -/
  | text
  /-- It holds trim markers, a choice between words, or texts of which there may be none or several. -/
  | data
  /-- It holds an element, or several of them, or none. -/
  | elements
  deriving Repr, DecidableEq

namespace NodeClass

/-- The name of the class. An expression and a pattern may have classes of one name. -/
def name : NodeClass → String
  | template => "Template"
  | text => "Lit"
  | comment => "Comment"
  | output => "Output"
  | raw => "Raw"
  | conditional => "If"
  | branch => "Cond"
  | condition => "CondTest"
  | loop => "Loop"
  | choice => "Match"
  | arm => "When"
  | breakLoop => "Break"
  | continueLoop => "Continue"
  | macroDef => "Macro"
  | macroCall => "Call"
  | assign => "Let"
  | declare => "LetDecl"
  | extendTemplate => "Extends"
  | block => "BlockDef"
  | includeTemplate => "Include"
  | importMacros => "Import"
  | literal => "Const"
  | var => "Var"
  | path | pathPattern => "Path"
  | list => "List"
  | tuple | tuplePattern => "Tuple"
  | group => "Group"
  | member => "Getattr"
  | item => "Getitem"
  | call => "FuncCall"
  | attempt => "Try"
  | filter => "Filter"
  | unary => "UnaryOp"
  | binary => "BinOp"
  | range => "Range"
  | namePattern => "Name"
  | recordPattern => "Struct"
  | literalPattern .boolean => "BoolLit"
  | literalPattern .number => "NumLit"
  | literalPattern .string => "StrLit"
  | literalPattern .character => "CharLit"

/-- The attributes that the class declares, in order. -/
def attributes : NodeClass → List (String × AttributeKind)
  | template => [("body", .elements), ("name", .data), ("extends", .elements)]
  | text => [("lws", .text), ("value", .text), ("rws", .text)]
  | comment | breakLoop | continueLoop => [("ws", .data)]
  | output => [("ws", .data), ("expr", .elements)]
  | raw => [("ws1", .data), ("lws", .text), ("value", .text), ("rws", .text), ("ws2", .data)]
  | conditional => [("branches", .elements), ("ws", .data)]
  | branch => [("ws", .data), ("test", .elements), ("body", .elements)]
  | condition => [("target", .elements), ("expr", .elements)]
  | loop => [("ws1", .data), ("target", .elements), ("iter", .elements), ("test", .elements),
      ("body", .elements), ("ws2", .data), ("else_", .elements), ("ws3", .data)]
  | choice => [("ws1", .data), ("subject", .elements), ("arms", .elements), ("ws2", .data)]
  | arm => [("ws", .data), ("target", .elements), ("body", .elements)]
  | macroDef => [("name", .text), ("ws1", .data), ("params", .data), ("body", .elements),
      ("ws2", .data)]
  | macroCall => [("ws", .data), ("scope", .data), ("name", .text), ("args", .elements)]
  | assign => [("ws", .data), ("target", .elements), ("value", .elements)]
  | declare => [("ws", .data), ("target", .elements)]
  | extendTemplate => [("template", .text)]
  | block => [("ws1", .data), ("name", .text), ("body", .elements), ("ws2", .data)]
  | includeTemplate => [("ws", .data), ("template", .text)]
  | importMacros => [("ws", .data), ("template", .text), ("scope", .text)]
  | literal => [("value", .text), ("kind", .data)]
  | var | namePattern => [("name", .text)]
  | path | pathPattern => [("segments", .data)]
  | list | tuple => [("items", .elements)]
  | group | attempt => [("value", .elements)]
  | member => [("obj", .elements), ("attr", .text)]
  | item => [("obj", .elements), ("key", .elements)]
  | call => [("func", .elements), ("args", .elements)]
  | filter => [("value", .elements), ("name", .text), ("args", .elements)]
  | unary => [("op", .text), ("operand", .elements)]
  | binary => [("op", .text), ("left", .elements), ("right", .elements)]
  | range => [("op", .text), ("start", .elements), ("end", .elements)]
  | tuplePattern => [("path", .data), ("items", .elements)]
  | recordPattern => [("path", .data), ("fields", .elements)]
  | literalPattern _ => [("value", .text)]

end NodeClass

mutual

/-- An element as a record of its class. -/
structure Record where
  kind : NodeClass
  offset : Nat
  attributes : List Attribute

structure Attribute where
  name : String
  content : Content

/-- What an attribute can hold. -/
inductive Content where
  | record (inner : Record)
  | sequence (items : List Content)
  | text (text : String)
  /-- Anything else, in which no element is. -/
  | data

end

deriving instance Repr for Record, Attribute, Content

/-- A record of the class with these contents, one for each attribute. -/
def NodeClass.build (kind : NodeClass) (offset : Nat) (contents : List Content) : Record where
  kind
  offset
  attributes := List.zipWith (fun declared content => ⟨declared.1, content⟩) kind.attributes contents

/-! ## The records of a tree -/

namespace Expr

mutual

def asRecord : Expr → Record
  | literal offset _ text => NodeClass.literal.build offset [.text text, .data]
  | var offset name => NodeClass.var.build offset [.text name]
  | path offset _ => NodeClass.path.build offset [.data]
  | list offset items => NodeClass.list.build offset [.sequence (contents items)]
  | tuple offset items => NodeClass.tuple.build offset [.sequence (contents items)]
  | group offset inner => NodeClass.group.build offset [.record inner.asRecord]
  | member offset object name => NodeClass.member.build offset [.record object.asRecord, .text name]
  | item offset object key =>
      NodeClass.item.build offset [.record object.asRecord, .record key.asRecord]
  | call offset function arguments =>
      NodeClass.call.build offset [.record function.asRecord, .sequence (contents arguments)]
  | attempt offset value => NodeClass.attempt.build offset [.record value.asRecord]
  | filter offset value name arguments =>
      NodeClass.filter.build offset
        [.record value.asRecord, .text name, .sequence (contents arguments)]
  | unary offset op operand =>
      NodeClass.unary.build offset [.text op.symbol, .record operand.asRecord]
  | binary offset op left right =>
      NodeClass.binary.build offset [.text op.symbol, .record left.asRecord, .record right.asRecord]
  | range offset kind start stop =>
      NodeClass.range.build offset [.text kind.symbol, content? start, content? stop]
termination_by structural expression => expression

def contents : List Expr → List Content
  | [] => []
  | head :: tail => .record head.asRecord :: contents tail
termination_by structural expressions => expressions

def content? : Option Expr → Content
  | none => .data
  | some expression => .record expression.asRecord
termination_by structural expression => expression

end

end Expr

mutual

def Pattern.asRecord : Pattern → Record
  | .name offset name => NodeClass.namePattern.build offset [.text name]
  | .path offset _ => NodeClass.pathPattern.build offset [.data]
  | .tuple offset _ items =>
      NodeClass.tuplePattern.build offset [.data, .sequence (Pattern.contents items)]
  | .record offset _ fields =>
      NodeClass.recordPattern.build offset [.data, .sequence (Field.contents fields)]
  | .literal offset kind text => (NodeClass.literalPattern kind).build offset [.text text]
termination_by structural pattern => pattern

def Pattern.contents : List Pattern → List Content
  | [] => []
  | head :: tail => .record head.asRecord :: Pattern.contents tail
termination_by structural patterns => patterns

/-- A field is a pair of its name and its pattern. -/
def Field.content : Field → Content
  | ⟨name, pattern⟩ => .sequence [.text name, .record pattern.asRecord]
termination_by structural field => field

def Field.contents : List Field → List Content
  | [] => []
  | head :: tail => head.content :: Field.contents tail
termination_by structural fields => fields

end

def Pattern.content? : Option Pattern → Content
  | none => .data
  | some pattern => .record pattern.asRecord

def Condition.asRecord (condition : Condition) : Record :=
  NodeClass.condition.build condition.offset
    [Pattern.content? condition.pattern, .record condition.expression.asRecord]

def Condition.content? : Option Condition → Content
  | none => .data
  | some condition => .record condition.asRecord

/-- The contents of a passage, cut at its outer blanks. -/
def Passage.contents (passage : Passage) : List Content :=
  [.text passage.lead, .text passage.core, .text passage.trail]

mutual

def Node.asRecord : Node → Record
  | .text offset passage => NodeClass.text.build offset passage.contents
  | .comment offset _ => NodeClass.comment.build offset [.data]
  | .output offset _ expression =>
      NodeClass.output.build offset [.data, .record expression.asRecord]
  | .raw offset _ passage _ => NodeClass.raw.build offset (.data :: passage.contents ++ [.data])
  | .conditional offset branches _ =>
      NodeClass.conditional.build offset [.sequence (Branch.contents branches), .data]
  | .loop offset _ pattern iterable guard body _ alternative _ =>
      NodeClass.loop.build offset
        [.data, .record pattern.asRecord, .record iterable.asRecord, Expr.content? guard,
          .sequence (Node.contents body), .data, .sequence (Node.contents alternative), .data]
  | .choice offset _ subject arms _ =>
      NodeClass.choice.build offset
        [.data, .record subject.asRecord, .sequence (Arm.contents arms), .data]
  | .breakLoop offset _ => NodeClass.breakLoop.build offset [.data]
  | .continueLoop offset _ => NodeClass.continueLoop.build offset [.data]
  | .macroDef offset name _ _ body _ =>
      NodeClass.macroDef.build offset
        [.text name, .data, .data, .sequence (Node.contents body), .data]
  | .macroCall offset _ _ name arguments =>
      NodeClass.macroCall.build offset
        [.data, .data, .text name, .sequence (Expr.contents arguments)]
  | .assign offset _ pattern value =>
      NodeClass.assign.build offset [.data, .record pattern.asRecord, .record value.asRecord]
  | .declare offset _ pattern => NodeClass.declare.build offset [.data, .record pattern.asRecord]
  | .extendTemplate offset template => NodeClass.extendTemplate.build offset [.text template]
  | .block offset _ name body _ =>
      NodeClass.block.build offset [.data, .text name, .sequence (Node.contents body), .data]
  | .includeTemplate offset _ template =>
      NodeClass.includeTemplate.build offset [.data, .text template]
  | .importMacros offset _ template scope =>
      NodeClass.importMacros.build offset [.data, .text template, .text scope]
termination_by structural node => node

def Node.contents : List Node → List Content
  | [] => []
  | head :: tail => .record head.asRecord :: Node.contents tail
termination_by structural nodes => nodes

def Branch.asRecord : Branch → Record
  | ⟨offset, _, condition, body⟩ =>
      NodeClass.branch.build offset
        [.data, Condition.content? condition, .sequence (Node.contents body)]
termination_by structural branch => branch

def Branch.contents : List Branch → List Content
  | [] => []
  | head :: tail => .record head.asRecord :: Branch.contents tail
termination_by structural branches => branches

def Arm.asRecord : Arm → Record
  | ⟨offset, _, pattern, body⟩ =>
      NodeClass.arm.build offset [.data, .record pattern.asRecord, .sequence (Node.contents body)]
termination_by structural arm => arm

def Arm.contents : List Arm → List Content
  | [] => []
  | head :: tail => .record head.asRecord :: Arm.contents tail
termination_by structural arms => arms

end

def Node.content? : Option Node → Content
  | none => .data
  | some node => .record node.asRecord

/-- The node that names the parent of a template is in its body and once more in an attribute of its
own. -/
def Template.asRecord (template : Template) : Record :=
  NodeClass.template.build 0
    [.sequence (Node.contents template.body), .data, Node.content? template.extension?]

def Element.asRecord : Element → Record
  | .template inner => inner.asRecord
  | .node inner => inner.asRecord
  | .branch inner => inner.asRecord
  | .condition inner => inner.asRecord
  | .arm inner => inner.asRecord
  | .expr inner => inner.asRecord
  | .pattern inner => inner.asRecord

end Templating

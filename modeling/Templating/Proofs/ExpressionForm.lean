import Templating.Proofs.Spelling

/-! # The form of expressions

Which trees are expressions of the language, how many brackets are open at once in one, and how
an expression is written. Blanks may stand between any two lexemes, and a comma behind the last
item of a list or tuple. -/

namespace Templating

open Text

/-- The layer of an operator, loosest binding first. -/
def BinaryOp.layer : BinaryOp → Nat
  | or => 0
  | and => 1
  | equal | notEqual | greaterEqual | greater | lessEqual | less => 2
  | bitOr => 3
  | bitXor => 4
  | bitAnd => 5
  | shiftRight | shiftLeft => 6
  | add | subtract => 7
  | multiply | divide | remainder => 8

namespace Expr

/-! ## Well-formed trees

The tighter an expression binds, the higher its rank. A range without an end has the lowest:
whatever follows could be its end. -/

def rank : Expr → Nat
  | range _ _ _ none => 0
  | range _ _ _ (some _) => 1
  | binary _ op _ _ => op.layer + 2
  | unary .. => 11
  | filter .. => 12
  | member .. | item .. | call .. | attempt .. => 13
  | literal .. | var .. | path .. | list .. | tuple .. | group .. => 14

/-- The expressions of the language, given which qualified names there are. Operators associate
to the left, and an operand binds more tightly than its operator. -/
inductive WellFormed (qualified : List String → Prop) : Expr → Prop
  | literal {offset : Nat} {kind : LiteralKind} {text : String} :
      kind.Lexical text → WellFormed qualified (.literal offset kind text)
  | var {offset : Nat} {name : String} :
      isName name.toList = true → name ≠ "true" → name ≠ "false" →
      name.toList.any isUppercase = false → WellFormed qualified (.var offset name)
  | path {offset : Nat} {segments : List String} :
      qualified segments → WellFormed qualified (.path offset segments)
  | list {offset : Nat} {items : List Expr} :
      (∀ item ∈ items, WellFormed qualified item) → WellFormed qualified (.list offset items)
  | tuple {offset : Nat} {items : List Expr} :
      (∀ item ∈ items, WellFormed qualified item) → WellFormed qualified (.tuple offset items)
  | group {offset : Nat} {inner : Expr} :
      WellFormed qualified inner → WellFormed qualified (.group offset inner)
  | member {offset : Nat} {object : Expr} {name : String} :
      WellFormed qualified object → 13 ≤ object.rank → isName name.toList = true →
      WellFormed qualified (.member offset object name)
  | item {offset : Nat} {object key : Expr} :
      WellFormed qualified object → 13 ≤ object.rank → WellFormed qualified key →
      WellFormed qualified (.item offset object key)
  | call {offset : Nat} {function : Expr} {arguments : List Expr} :
      WellFormed qualified function → 13 ≤ function.rank →
      (∀ argument ∈ arguments, WellFormed qualified argument) →
      WellFormed qualified (.call offset function arguments)
  | attempt {offset : Nat} {value : Expr} :
      WellFormed qualified value → 13 ≤ value.rank → WellFormed qualified (.attempt offset value)
  | filter {offset : Nat} {value : Expr} {name : String} {arguments : List Expr} :
      WellFormed qualified value → 12 ≤ value.rank → isName name.toList = true →
      (∀ argument ∈ arguments, WellFormed qualified argument) →
      WellFormed qualified (.filter offset value name arguments)
  | unary {offset : Nat} {op : UnaryOp} {operand : Expr} :
      WellFormed qualified operand → 12 ≤ operand.rank →
      WellFormed qualified (.unary offset op operand)
  | binary {offset : Nat} {op : BinaryOp} {left right : Expr} :
      WellFormed qualified left → op.layer + 2 ≤ left.rank →
      WellFormed qualified right → op.layer + 2 < right.rank →
      WellFormed qualified (.binary offset op left right)
  | range {offset : Nat} {kind : RangeKind} {start stop : Option Expr} :
      (∀ value ∈ start, WellFormed qualified value) → (∀ value ∈ start, 2 ≤ value.rank) →
      (∀ value ∈ stop, WellFormed qualified value) → (∀ value ∈ stop, 2 ≤ value.rank) →
      WellFormed qualified (.range offset kind start stop)

/-! ## Nesting

Empty brackets open nothing inside them and do not count. -/

mutual

def nesting : Expr → Nat
  | literal .. | var .. | path .. => 0
  | list _ items | tuple _ items => nestingAll items
  | group _ inner => inner.nesting + 1
  | member _ object _ => object.nesting
  | item _ object key => max object.nesting (key.nesting + 1)
  | call _ function arguments => max function.nesting (nestingAll arguments)
  | attempt _ value => value.nesting
  | filter _ value _ arguments => max value.nesting (nestingAll arguments)
  | unary _ _ operand => operand.nesting
  | binary _ _ left right => max left.nesting right.nesting
  | range _ _ start stop => max (nestingOption start) (nestingOption stop)
termination_by structural expression => expression

def nestingAll : List Expr → Nat
  | [] => 0
  | head :: tail => max (head.nesting + 1) (nestingAll tail)
termination_by structural expressions => expressions

def nestingOption : Option Expr → Nat
  | none => 0
  | some expression => expression.nesting
termination_by structural expression => expression

end

theorem nestingAll_le_iff {items : List Expr} {limit : Nat} :
    nestingAll items ≤ limit ↔ ∀ item ∈ items, item.nesting < limit := by
  induction items with
  | nil => simp [nestingAll]
  | cons head tail induction =>
      rw [nestingAll, Nat.max_le, induction, List.forall_mem_cons]
      rfl

/-! ## Spellings

Blanks before and behind an expression are not part of it. -/

/-- A comma stands behind the last item or not. -/
def TrailingComma (required permitted : Bool) (text rest : List Char) : Prop :=
  required = false ∧ text = rest ∨ permitted = true ∧ SymbolAt "," text rest

theorem TrailingComma.of_gap {required permitted : Bool} {text start rest : List Char}
    (gap : Gap text start) (comma : TrailingComma required permitted start rest) :
    ∃ rest', TrailingComma required permitted text rest' ∧ Gap rest' rest := by
  rcases comma with ⟨optional, rfl⟩ | ⟨allowed, symbol⟩
  · exact ⟨text, .inl ⟨optional, rfl⟩, gap⟩
  · exact ⟨rest, .inr ⟨allowed, gap.trans symbol⟩, .refl _⟩

/-- The mark of a range. An equals sign behind it would be part of it. -/
def MarkAt (kind : RangeKind) (text rest : List Char) : Prop :=
  SymbolAt kind.symbol text rest ∧ (kind = .halfOpen → '=' ∉ rest.head?)

/-- An operator. A word has to end where the operator does. -/
def OperatorAt (op : BinaryOp) (text rest : List Char) : Prop :=
  SymbolAt op.symbol text rest ∧ (op.symbol.toList.all continuesName = true → EndsName rest)

mutual

def Spelled : Expr → (text rest : List Char) → Prop
  | literal _ kind value, text, rest => kind.LiteralAt value text rest
  | var _ name, text, rest => NameAt name text rest
  | path _ segments, text, rest => PathAt segments text rest
  | list _ items, text, rest =>
      ∃ opened last closing, text = '[' :: opened ∧ SpelledItems items opened last ∧
        TrailingComma false (!items.isEmpty) last closing ∧ SymbolAt "]" closing rest
  | tuple _ items, text, rest =>
      ∃ opened last closing, text = '(' :: opened ∧ SpelledItems items opened last ∧
        TrailingComma (items.length == 1) (!items.isEmpty) last closing ∧ SymbolAt ")" closing rest
  | group _ inner, text, rest =>
      ∃ opened start closing, text = '(' :: opened ∧ Gap opened start ∧
        inner.Spelled start closing ∧ SymbolAt ")" closing rest
  | member _ object name, text, rest =>
      ∃ last point start, object.Spelled text last ∧ SymbolAt "." last point ∧ Gap point start ∧
        NameAt name start rest
  | item _ object key, text, rest =>
      ∃ last opened start closing, object.Spelled text last ∧ SymbolAt "[" last opened ∧
        Gap opened start ∧ key.Spelled start closing ∧ SymbolAt "]" closing rest
  | call _ function arguments, text, rest =>
      ∃ last opened closing, function.Spelled text last ∧ SymbolAt "(" last opened ∧
        SpelledItems arguments opened closing ∧ SymbolAt ")" closing rest
  | attempt _ value, text, rest => ∃ last, value.Spelled text last ∧ SymbolAt "?" last rest
  | filter _ value name arguments, text, rest =>
      ∃ last bar start named, value.Spelled text last ∧ SymbolAt "|" last bar ∧ Gap bar start ∧
        NameAt name start named ∧
        (arguments = [] ∧ named = rest ∨
          ∃ opened closing, SymbolAt "(" named opened ∧ SpelledItems arguments opened closing ∧
            SymbolAt ")" closing rest)
  | unary _ op operand, text, rest =>
      ∃ mark start, text = op.symbol.toList ++ mark ∧ Gap mark start ∧ operand.Spelled start rest
  | binary _ op left right, text, rest =>
      ∃ last mark start, left.Spelled text last ∧ OperatorAt op last mark ∧ Gap mark start ∧
        right.Spelled start rest
  | range _ kind start stop, text, rest =>
      ∃ last mark, SpelledStart start text last ∧ MarkAt kind last mark ∧ SpelledStop stop mark rest
termination_by structural expression => expression

/-- Expressions separated by commas. -/
def SpelledItems : List Expr → (text rest : List Char) → Prop
  | [], text, rest => text = rest
  | head :: tail, text, rest =>
      ∃ start last, Gap text start ∧ head.Spelled start last ∧ SpelledTail tail last rest
termination_by structural expressions => expressions

/-- Expressions each behind a comma. -/
def SpelledTail : List Expr → (text rest : List Char) → Prop
  | [], text, rest => text = rest
  | head :: tail, text, rest =>
      ∃ comma start last, SymbolAt "," text comma ∧ Gap comma start ∧ head.Spelled start last ∧
        SpelledTail tail last rest
termination_by structural expressions => expressions

def SpelledStart : Option Expr → (text rest : List Char) → Prop
  | none, text, rest => Solid text ∧ text = rest
  | some expression, text, rest => expression.Spelled text rest
termination_by structural expression => expression

def SpelledStop : Option Expr → (text rest : List Char) → Prop
  | none, text, rest => text = rest
  | some expression, text, rest => ∃ start, Gap text start ∧ expression.Spelled start rest
termination_by structural expression => expression

end

/-- The expression stands between blanks. -/
def Padded (expression : Expr) (text rest : List Char) : Prop :=
  ∃ start last, Gap text start ∧ expression.Spelled start last ∧ Gap last rest

end Expr

end Templating

import Templating.Proofs.Foresight
import Templating.Statement.Construct

/-! # Conditions taken for bindings

A condition that begins with the word of a binding is tried as one: a pattern and an equals sign
have to follow. Whether an expression that is no binding is given up as one, and read as what it
is, is told by its tree. -/

namespace Templating

/-- What the attempt to read an expression as a binding has come to at its end. -/
inductive Speculation where
  /-- The expression does not begin with the word of a binding. -/
  | absent
  /-- All of the expression is the word. -/
  | word
  /-- All behind the word is a qualified name, behind which a payload could stand. -/
  | path
  /-- All behind the word is a pattern, with which nothing goes on. -/
  | pattern
  /-- There is no pattern behind the word, or something other than an equals sign behind the
  pattern. -/
  | ended
  /-- A bracket behind the word has been taken for that of a pattern. -/
  | fatal
  /-- A comparison stands behind the pattern, and its sign begins with an equals sign. -/
  | compared
  deriving Repr, DecidableEq

namespace Speculation

/-- Nothing of a pattern stands at the beginning of the expression. An operator before it that is
taken for a name is a pattern already. -/
def unbegun (joined : Bool) : Speculation :=
  if joined then ended else absent

def ofBeginning : Beginning → Speculation
  | .missed => ended
  | .path => path
  | .whole | .part => pattern
  | .fatal => fatal

/-- Something stands behind the expression that does not go on with a pattern. -/
def behind : Speculation → Speculation
  | word | path | pattern => ended
  | absent => absent
  | ended => ended
  | fatal => fatal
  | compared => compared

/-- Items in parentheses stand behind the expression. -/
def call (items : List Beginning) : Speculation → Speculation
  | word => ofBeginning (.parenthesized items)
  | path => ofBeginning (.payload items)
  | pattern => ended
  | absent => absent
  | ended => ended
  | fatal => fatal
  | compared => compared

/-- An operator and an operand stand behind the expression. An operator that is written as a word
is a pattern for its part, and the operand may go on with it as with a qualified name. -/
def operator (left : Speculation) (op : BinaryOp) (joined : Speculation) : Speculation :=
  match left with
  | word => if op.isWord then joined else ended
  | path | pattern => if op = .equal then compared else ended
  | absent => absent
  | ended => ended
  | fatal => fatal
  | compared => compared

end Speculation

/-- The words that bindings begin with. -/
def bindingWords : List String := ["let", "set"]

namespace Expr

/-- What stands at the beginning of an expression, whether it is the expression itself or the
operand of an operator that is taken for a name. A qualified name goes on with a name if it
begins at the root. -/
def opening (joined : Bool) : Expr → Speculation
  | var _ name => if !joined && bindingWords.contains name then .word else .unbegun joined
  | path _ segments =>
      if segments.head?.any (if joined then (· == "") else bindingWords.contains) then .path
      else .unbegun joined
  | _ => .unbegun joined

mutual

def speculation (joined : Bool) : Expr → Speculation
  | member _ object _ | item _ object _ => (object.speculation joined).behind
  | call _ function arguments => (function.speculation joined).call (beginnings arguments)
  | attempt _ value | filter _ value _ _ => (value.speculation joined).behind
  | binary _ op left right => (left.speculation joined).operator op (right.speculation true)
  | range _ _ start _ => speculationOption joined start
  | literal offset kind text => (literal offset kind text).opening joined
  | var offset name => (var offset name).opening joined
  | path offset segments => (path offset segments).opening joined
  | list offset items => (list offset items).opening joined
  | tuple offset items => (tuple offset items).opening joined
  | group offset inner => (group offset inner).opening joined
  | unary offset op operand => (unary offset op operand).opening joined
termination_by structural expression => expression

def speculationOption (joined : Bool) : Option Expr → Speculation
  | none => .unbegun joined
  | some start => (start.speculation joined).behind
termination_by structural start => start

end

end Expr

namespace Grammar

open Text Templating.Pattern
open Templating.Expr (OperatorAt SpelledItems)

variable {α : Type} {brackets : Nat} {rule : Grammar α} {inner : Grammar Pattern}
  {first : Char}
  {text middle start rest opened last closing mark : List Char} {items : List Expr}
  {expression left right : Expr} {op : BinaryOp} {speculation : Speculation} {joined : Bool}

/-- The word of a binding. -/
def bindingWord : Grammar String :=
  keyword "let" <|> keyword "set"

/-- A pattern and the equals sign of a binding. -/
def bound (inner : Grammar Pattern) : Grammar Pattern := do
  let pattern ← patternOf inner
  token "="
  return pattern

/-! ## What the attempt comes to -/

/-- What the attempt at a binding comes to at the end of an expression. The rule reads what stands
before the pattern. -/
def Comes (rule : Grammar α) (inner : Grammar Pattern) (text last : List Char) :
    Speculation → Prop
  | .absent => Misses rule text
  | .word => Reads rule text (fun _ => True) (afterBlanks last)
  | .path => ∃ middle, Reads rule text (fun _ => True) middle ∧
      ∃ segments, IsReadable segments ∧ PathAt segments middle last
  | .pattern => ∃ middle, Reads rule text (fun _ => True) middle ∧
      Reads (patternOf inner) middle (fun _ => True) (afterBlanks last)
  | .ended => ∃ middle, Reads rule text (fun _ => True) middle ∧ Misses (bound inner) middle
  | .fatal => ∃ middle, Reads rule text (fun _ => True) middle ∧ Fails (patternOf inner) middle
  | .compared => ∃ middle, Reads rule text (fun _ => True) middle ∧
      ∃ rest, Reads (bound inner) middle (fun _ => True) rest

/-- The text does not go on with what has been read so far. -/
def Dismisses (text : List Char) : Speculation → Prop
  | .word => ∀ first ∈ (afterBlanks text).head?, startsPattern first = false
  | .path => EndsPattern text ∧ '=' ∉ (afterBlanks text).head?
  | .pattern => '=' ∉ (afterBlanks text).head?
  | .absent | .ended | .fatal | .compared => True

theorem bound_misses (reads : Reads (patternOf inner) text (fun _ => True) (afterBlanks rest))
    (noEquals : '=' ∉ (afterBlanks rest).head?) : Misses (bound inner) text := by
  refine reads.bind_misses fun _ _ => (token_misses_of_head ?_ (by decide)).bind
  rw [afterBlanks_afterBlanks]
  rintro _ atHead ⟨⟩
  exact noEquals atHead

theorem bound_reads {accept : Pattern → Prop}
    (reads : Reads (patternOf inner) text accept (afterBlanks rest))
    (equals : SymbolAt "=" rest mark) : Reads (bound inner) text accept (afterBlanks mark) := by
  apply reads.bind
  intro pattern accepted
  have equals : SymbolAt "=" (afterBlanks rest) mark :=
    (gap_afterBlanks rest).of_gap equals (solid_symbol rfl mark)
  apply (token_reads rfl equals (gap_afterBlanks mark) (solid_afterBlanks mark)).bind
  intro _ _
  exact .pure accepted

theorem Comes.behind (comes : Comes rule inner text last speculation)
    (dismisses : Dismisses last speculation) : Comes rule inner text rest speculation.behind := by
  cases speculation with
  | word =>
      have misses : Misses (patternOf inner) (afterBlanks last) := by
        apply patternOf_misses
        rwa [afterBlanks_afterBlanks]
      exact ⟨_, comes, misses.bind⟩
  | path =>
      rcases comes with ⟨middle, reads, segments, readable, written⟩
      exact ⟨middle, reads, bound_misses (patternOf_reads_path readable written dismisses.1)
        dismisses.2⟩
  | pattern =>
      rcases comes with ⟨middle, reads, pattern⟩
      exact ⟨middle, reads, bound_misses pattern dismisses⟩
  | absent | ended | fatal | compared => exact comes

/-- What stands here, if anything does, begins no pattern and no payload and is no equals sign. -/
def Refused (text : List Char) : Prop :=
  ∀ first ∈ (afterBlanks text).head?, startsPattern first = false ∧
    ['\x7b', '='].contains first = false

theorem Refused.not_mem_head (refused : Refused text) (among : startsPattern first ||
    ['\x7b', '='].contains first = true) : first ∉ (afterBlanks text).head? := by
  intro atHead
  rcases refused first atHead with ⟨noPattern, apart⟩
  rw [noPattern, apart] at among
  cases among

theorem Refused.endsPattern (refused : Refused text) : EndsPattern text := by
  intro first atHead
  cases listed : [':', '(', '\x7b', 'w'].contains first with
  | false => rfl
  | true =>
      have cases : first = ':' ∨ first = '(' ∨ first = '\x7b' ∨ first = 'w' := by
        simpa using listed
      rcases cases with rfl | rfl | rfl | rfl <;> exact absurd atHead (refused.not_mem_head rfl)

theorem Refused.dismisses (refused : Refused text) (speculation : Speculation) :
    Dismisses text speculation := by
  cases speculation with
  | word => exact fun first atHead => (refused first atHead).1
  | path => exact ⟨refused.endsPattern, refused.not_mem_head rfl⟩
  | pattern => exact refused.not_mem_head rfl
  | absent | ended | fatal | compared => trivial

theorem Comes.behind_symbol {symbol : String} (comes : ':' ∉ (afterBlanks last).head? →
      Comes rule inner text last speculation)
    (isSymbol : isSymbol symbol = true) (spelled : SymbolAt symbol last mark)
    (apart : symbol.toList.head?.any (fun first => startsPattern first ||
      ['\x7b', '='].contains first) = false) :
    Comes rule inner text rest speculation.behind := by
  have refused : Refused last := by
    intro first atHead
    rw [Option.mem_def, symbol_head isSymbol spelled] at atHead
    rw [atHead] at apart
    exact Bool.or_eq_false_iff.mp apart
  exact (comes (refused.not_mem_head rfl)).behind (refused.dismisses _)

theorem Comes.of_stands {beginning : Beginning}
    (reads : Reads rule text (fun _ => True) middle)
    (stands : Stands inner middle last beginning) (whole : beginning ≠ .part) :
    Comes rule inner text last (.ofBeginning beginning) := by
  cases beginning with
  | missed => exact ⟨middle, reads, Misses.bind stands⟩
  | path => exact ⟨middle, reads, stands⟩
  | whole => exact ⟨middle, reads, stands⟩
  | part => exact absurd rfl whole
  | fatal => exact ⟨middle, reads, stands⟩

theorem payload_ne_part (items : List Beginning) : Beginning.payload items ≠ .part := by
  unfold Beginning.payload
  split <;> nofun

theorem parenthesized_ne_part (items : List Beginning) : Beginning.parenthesized items ≠ .part := by
  unfold Beginning.parenthesized
  split
  · nofun
  · exact payload_ne_part _

theorem Comes.call (comes : Comes rule (patternWithin brackets) text last speculation)
    (foreseen : ForeseenAll items) (nesting : Expr.nestingAll items ≤ brackets)
    (symbol : SymbolAt "(" last opened) (spelled : SpelledItems items opened closing)
    (close : SymbolAt ")" closing rest) :
    Comes rule (patternWithin brackets) text rest
      (speculation.call (Expr.beginnings items)) := by
  have stands_at : afterBlanks last = '(' :: opened := symbol.afterBlanks_eq (solid_symbol rfl opened)
  cases speculation with
  | word =>
      have reads : Reads rule text (fun _ => True) ('(' :: opened) := by
        rw [← stands_at]
        exact comes
      exact .of_stands reads (stands_of_group (groupWithin_foreseen foreseen nesting spelled
        (.inl ⟨rfl, rfl⟩ : Expr.TrailingComma false _ _ _) close)) (parenthesized_ne_part _)
  | path =>
      rcases comes with ⟨middle, reads, segments, readable, written⟩
      exact .of_stands reads (stands_of_payload readable written symbol
        (payloadWithin_foreseen foreseen nesting spelled close)) (payload_ne_part _)
  | pattern =>
      refine Comes.behind comes ?_
      rw [Dismisses, stands_at]
      rintro ⟨⟩
  | absent | ended | fatal | compared => exact comes

/-- The attempt goes on behind what the rule has read. -/
theorem Comes.after (reads : Reads rule text (fun _ => True) middle)
    (comes : Comes (pure () : Grammar Unit) inner middle last speculation) :
    Comes rule inner text last speculation := by
  have same : ∀ {start : List Char},
      Reads (pure () : Grammar Unit) middle (fun _ => True) start → start = middle := by
    intro start reads
    rcases reads 0 with ⟨_, _, matched, _⟩
    cases matched
    rfl
  cases speculation with
  | absent => cases comes 0
  | word =>
      rw [Comes, same comes]
      exact reads
  | path | pattern | ended | fatal | compared =>
      rcases comes with ⟨start, none_read, behind⟩
      rw [same none_read] at behind
      exact ⟨middle, reads, behind⟩

/-- An operator ends the attempt, unless it is taken for a name behind the word of the binding or
its sign for an equals sign behind a pattern. -/
theorem Comes.operator {further : Speculation} (comes : ':' ∉ (afterBlanks last).head? →
      Comes rule inner text last speculation)
    (symbol : SymbolAt op.symbol last mark)
    (goesOn : speculation = .word → op.isWord = true → Comes rule inner text rest further) :
    Comes rule inner text rest (speculation.operator op further) := by
  have atHead := symbol_head (by cases op <;> rfl) symbol
  have comes : Comes rule inner text last speculation := by
    apply comes
    rw [atHead]
    cases op <;> rintro ⟨⟩
  have ends : EndsPattern last :=
    endsPattern_of_symbol (by cases op <;> rfl) symbol (by cases op <;> rfl)
  have noEquals (different : op ≠ .equal) : '=' ∉ (afterBlanks last).head? := by
    rw [atHead]
    cases op with
    | equal => exact absurd rfl different
    | _ => rintro ⟨⟩
  have equals (equal : op = .equal) : SymbolAt "=" last ('=' :: mark) := by
    rw [equal] at symbol
    exact symbol
  cases speculation with
  | word =>
      by_cases isWord : op.isWord = true
      case pos =>
          rw [Speculation.operator, if_pos isWord]
          exact goesOn rfl isWord
      case neg =>
          rw [Speculation.operator, if_neg isWord]
          refine comes.behind ?_
          rw [Dismisses, atHead]
          cases op with
          | bitOr | bitXor | bitAnd => exact absurd rfl isWord
          | _ => rintro _ ⟨⟩; rfl
  | path =>
      by_cases equal : op = .equal
      case pos =>
          rw [Speculation.operator, if_pos equal]
          rcases comes with ⟨middle, reads, segments, readable, written⟩
          exact ⟨middle, reads, _, bound_reads (patternOf_reads_path readable written ends)
            (equals equal)⟩
      case neg =>
          rw [Speculation.operator, if_neg equal]
          exact comes.behind ⟨ends, noEquals equal⟩
  | pattern =>
      by_cases equal : op = .equal
      case pos =>
          rw [Speculation.operator, if_pos equal]
          rcases comes with ⟨middle, reads, pattern⟩
          exact ⟨middle, reads, _, bound_reads pattern (equals equal)⟩
      case neg =>
          rw [Speculation.operator, if_neg equal]
          exact comes.behind (noEquals equal)
  | absent | ended | fatal | compared => exact comes

/-! ## Beginnings of expressions -/

theorem ne_of_isDigit (digit : isDigit first = true) :
    [':', '=', 'l', 's'].contains first = false := by
  cases listed : [':', '=', 'l', 's'].contains first with
  | false => rfl
  | true =>
      have cases : first = ':' ∨ first = '=' ∨ first = 'l' ∨ first = 's' := by simpa using listed
      rcases cases with rfl | rfl | rfl | rfl <;> cases digit

/-- The expression begins neither with a name nor with another expression. -/
def beginsAfresh : Expr → Bool
  | .literal .. | .list .. | .tuple .. | .group .. | .unary .. | .range _ _ none _ => true
  | _ => false

theorem beginsAfresh_head (wellFormed : expression.WellFormed IsReadable)
    (spelled : expression.Spelled text rest) (afresh : beginsAfresh expression = true) :
    ∃ first, text.head? = some first ∧ [':', '=', 'l', 's'].contains first = false := by
  cases wellFormed with
  | @literal _ kind value lexical =>
      rcases spelled with ⟨rfl, _⟩
      cases kind with
      | boolean =>
          rcases lexical with rfl | rfl
          · exact ⟨'t', rfl, rfl⟩
          · exact ⟨'f', rfl, rfl⟩
      | number =>
          rcases number_head lexical with ⟨first, others, shape, digit⟩
          exact ⟨first, by simp [LiteralKind.written, shape], ne_of_isDigit digit⟩
      | string => exact ⟨'"', rfl, rfl⟩
      | character => exact ⟨'\'', rfl, rfl⟩
  | list | tuple | group =>
      rcases spelled with ⟨_, _, _, rfl, _⟩
      exact ⟨_, rfl, rfl⟩
  | @unary _ op =>
      rcases spelled with ⟨_, _, rfl, _⟩
      cases op <;> exact ⟨_, rfl, rfl⟩
  | @range _ kind start =>
      cases start with
      | some => cases afresh
      | none =>
          rcases spelled with ⟨_, _, ⟨solid, rfl⟩, ⟨symbol, _⟩, _⟩
          rw [symbol.eq_of_solid solid]
          cases kind <;> exact ⟨'.', rfl, rfl⟩
  | var | path | member | item | call | attempt | filter | binary => cases afresh

/-- What an attempt comes to where an expression begins. -/
structure Begins (joined : Bool) (rule : Grammar α) (brackets : Nat) (text start : List Char) :
    Prop where
  afresh {first : Char} {last : List Char} : start.head? = some first →
    [':', '=', 'l', 's'].contains first = false →
      Comes rule (patternWithin brackets) text last (.unbegun joined)
  var {offset : Nat} {name : String} {last : List Char} : name ≠ "true" → name ≠ "false" →
    name.toList.any isUppercase = false → NameAt name start last →
      ':' ∉ (afterBlanks last).head? →
        Comes rule (patternWithin brackets) text last ((Expr.var offset name).opening joined)
  path {offset : Nat} {segments : List String} {last : List Char} : IsReadable segments →
    PathAt segments start last →
      Comes rule (patternWithin brackets) text last ((Expr.path offset segments).opening joined)
  operator {op : BinaryOp} {right : Expr} {last mark next rest : List Char} : joined = false →
    op.isWord = true → Reads rule text (fun _ => True) (afterBlanks last) → OperatorAt op last mark →
      Gap mark next → right.WellFormed IsReadable → right.nesting ≤ brackets →
        right.Spelled next rest → ':' ∉ (afterBlanks rest).head? →
          Comes rule (patternWithin brackets) text rest (right.speculation true)

theorem unbegun_ne_word (joined : Bool) : Speculation.unbegun joined ≠ .word := by
  cases joined <;> nofun

theorem behind_ne_word (speculation : Speculation) : speculation.behind ≠ .word := by
  cases speculation <;> nofun

theorem ofBeginning_ne_word (beginning : Beginning) : Speculation.ofBeginning beginning ≠ .word := by
  cases beginning <;> nofun

/-- Behind an operator that is taken for a name the word of a binding is nothing special. -/
theorem speculation_true_ne_word (wellFormed : expression.WellFormed IsReadable) :
    expression.speculation true ≠ .word := by
  have opening_ne (expression : Expr) : expression.opening true ≠ .word := by
    cases expression with
    | var => simp [Expr.opening, Speculation.unbegun]
    | path _ segments =>
        cases rooted : segments.head?.any (· == "") <;>
          simp [Expr.opening, Speculation.unbegun, rooted]
    | _ => exact unbegun_ne_word true
  induction wellFormed with
  | literal | var | path | list | tuple | group | unary => exact opening_ne _
  | member | item | attempt | filter => exact behind_ne_word _
  | @call _ function _ _ _ _ induction =>
      rw [Expr.speculation]
      cases speculation : function.speculation true with
      | word => exact absurd speculation induction
      | path => exact ofBeginning_ne_word _
      | _ => nofun
  | @binary _ op left _ _ _ _ _ induction =>
      rw [Expr.speculation]
      cases speculation : left.speculation true with
      | word => exact absurd speculation induction
      | path | pattern =>
          rw [Speculation.operator]
          split <;> nofun
      | _ => nofun
  | @range _ _ start =>
      rw [Expr.speculation]
      cases start with
      | none => nofun
      | some => exact behind_ne_word _

theorem noColon_of_symbol {symbol : String} (isSymbol : isSymbol symbol = true)
    (spelled : SymbolAt symbol text rest) (apart : symbol.toList.head? ≠ some ':') :
    ':' ∉ (afterBlanks text).head? := by
  rwa [symbol_head isSymbol spelled]

theorem foreseenAll (wellFormed : ∀ item ∈ items, item.WellFormed IsReadable) :
    ForeseenAll items :=
  fun item member _ nesting =>
    ⟨stands_of_spelled (wellFormed item member) nesting, spelled_solid (wellFormed item member),
      continues_of_spelled (wellFormed item member)⟩

/-- What an attempt comes to at the end of an expression is told by the tree. The induction follows
the left operands, on which the attempt goes on from where the expression begins. -/
theorem comes_of_spelled (begins : Begins joined rule brackets text start)
    (wellFormed : expression.WellFormed IsReadable) (nesting : expression.nesting ≤ brackets)
    (spelled : expression.Spelled start last) (noColon : ':' ∉ (afterBlanks last).head?) :
    Comes rule (patternWithin brackets) text last (expression.speculation joined) := by
  have afresh {expression : Expr} {last : List Char} (wellFormed : expression.WellFormed IsReadable)
      (spelled : expression.Spelled start last) (afresh : beginsAfresh expression = true) :
      Comes rule (patternWithin brackets) text last (.unbegun joined) := by
    rcases beginsAfresh_head wellFormed spelled afresh with ⟨first, atHead, apart⟩
    exact begins.afresh atHead apart
  induction wellFormed generalizing last with
  | literal lexical => exact afresh (.literal lexical) spelled rfl
  | list wellFormed => exact afresh (.list wellFormed) spelled rfl
  | tuple wellFormed => exact afresh (.tuple wellFormed) spelled rfl
  | group wellFormed => exact afresh (.group wellFormed) spelled rfl
  | unary wellFormed rank => exact afresh (.unary wellFormed rank) spelled rfl
  | var _ notTrue notFalse small => exact begins.var notTrue notFalse small spelled noColon
  | path readable => exact begins.path readable spelled
  | member _ _ _ induction =>
      rcases spelled with ⟨_, _, _, spelled, symbol, _⟩
      exact Comes.behind_symbol (induction nesting spelled) rfl symbol rfl
  | item _ _ _ induction _ =>
      rcases spelled with ⟨_, _, _, _, spelled, symbol, _⟩
      rw [Expr.nesting] at nesting
      exact Comes.behind_symbol (induction (by omega) spelled) rfl symbol rfl
  | call _ _ argumentsFormed induction _ =>
      rcases spelled with ⟨_, _, _, spelled, symbol, items, close⟩
      rw [Expr.nesting] at nesting
      exact (induction (by omega) spelled (noColon_of_symbol rfl symbol (by decide))).call
        (foreseenAll argumentsFormed) (by omega) symbol items close
  | attempt _ _ induction =>
      rcases spelled with ⟨_, spelled, symbol⟩
      exact Comes.behind_symbol (induction nesting spelled) rfl symbol rfl
  | filter _ _ _ _ induction _ =>
      rcases spelled with ⟨_, _, _, _, spelled, symbol, _⟩
      rw [Expr.nesting] at nesting
      exact Comes.behind_symbol (induction (by omega) spelled) rfl symbol rfl
  | @binary _ op left right leftFormed _ rightFormed _ induction _ =>
      rcases spelled with ⟨behind, mark, next, spelled, operator, gap, spelledRight⟩
      rw [Expr.nesting] at nesting
      refine Comes.operator (induction (by omega) spelled) operator.1 ?_
      intro word isWord
      have unjoined : joined = false := by
        cases joined with
        | false => rfl
        | true => exact absurd word (speculation_true_ne_word leftFormed)
      have comes := induction (by omega) spelled
        (noColon_of_symbol (by cases op <;> rfl) operator.1 (by cases op <;> decide))
      rw [word] at comes
      exact begins.operator unjoined isWord comes operator gap rightFormed (by omega) spelledRight
        noColon
  | @range _ kind start _ startFormed startRank stopFormed stopRank induction _ =>
      have whole := spelled
      rcases spelled with ⟨_, _, spelled, ⟨symbol, _⟩, _⟩
      rw [Expr.nesting] at nesting
      cases start with
      | none => exact afresh (.range startFormed startRank stopFormed stopRank) whole rfl
      | some start =>
          rw [Expr.nestingOption] at nesting
          refine Comes.behind_symbol (induction start rfl (by omega) spelled) ?_ symbol ?_ <;>
            cases kind <;> rfl

/-! ## Behind an operator that is taken for a name -/

theorem not_mem_head_of_startsName {first other : Char} (atHead : text.head? = some first)
    (starts : startsName first = true) (apart : startsName other = false) : other ∉ text.head? := by
  rw [atHead]
  rintro ⟨⟩
  rw [starts] at apart
  cases apart

theorem isWord_symbol (isWord : op.isWord = true) :
    isName op.symbol.toList = true ∧ op.symbol ≠ "true" ∧ op.symbol ≠ "false" ∧
      op.symbol.toList.any isUppercase = false := by
  cases op with
  | bitOr | bitXor | bitAnd => decide
  | _ => cases isWord

/-- Names behind separators may stand behind blanks. -/
theorem namesAt_of_gap {names : List String} (gap : Gap text start) (several : names ≠ [])
    (written : NamesAt names start rest) : NamesAt names text rest := by
  cases names with
  | nil => exact absurd rfl several
  | cons name names =>
      rcases written with ⟨separated, next, middle, symbol, written⟩
      exact ⟨separated, next, middle, gap.trans symbol, written⟩

section

variable (isWord : op.isWord = true) (ends : EndsName mark) (gap : Gap mark start)
  (solid : Solid start)

include isWord ends gap solid

/-- The operator is a name that nothing goes on with, and no equals sign stands behind it. -/
theorem comes_alone (noColon : ':' ∉ start.head?) (noEquals : '=' ∉ start.head?) :
    Comes (pure () : Grammar Unit) (patternWithin brackets) (op.symbol.toList ++ mark) last
      .ended := by
  rcases isWord_symbol isWord with ⟨isName, notTrue, notFalse, small⟩
  have named : NameAt op.symbol (op.symbol.toList ++ mark) mark := ⟨isName, rfl, ends⟩
  have stops : Misses furtherName mark := by
    apply Misses.bind
    apply separator_misses
    rw [gap.afterBlanks_eq solid]
    rintro _ atHead rfl
    exact noColon atHead
  have reads : Reads (patternChoice (patternWithin brackets)) (op.symbol.toList ++ mark)
      ((Pattern.name 0 op.symbol).same · = true) mark :=
    patternChoice_reads_name named ⟨notTrue, notFalse⟩ small stops
  refine ⟨_, .pure trivial, bound_misses (patternOf_reads named.solid
    (reads.mono fun _ _ => trivial) (gap_afterBlanks mark) (solid_afterBlanks mark)) ?_⟩
  rwa [gap.afterBlanks_eq solid]

theorem comes_alone_of_nameAt {name : String} (written : NameAt name start middle) :
    Comes (pure () : Grammar Unit) (patternWithin brackets) (op.symbol.toList ++ mark) last
      .ended := by
  rcases written.head? with ⟨first, atHead, starts⟩
  exact comes_alone isWord ends gap solid (not_mem_head_of_startsName atHead starts rfl)
    (not_mem_head_of_startsName atHead starts rfl)

/-- The operand goes on with the operator as with a qualified name if it begins at the root. -/
theorem comes_path {offset : Nat} {segments : List String} (readable : IsReadable segments)
    (written : PathAt segments start last) :
    Comes (pure () : Grammar Unit) (patternWithin brackets) (op.symbol.toList ++ mark) last
      ((Expr.path offset segments).opening true) := by
  rcases isWord_symbol isWord with ⟨isName, notTrue, notFalse, _⟩
  cases segments with
  | nil => cases written
  | cons segment others =>
      rcases written with ⟨_, middle, word, names⟩
      by_cases rooted : segment = ""
      case pos =>
          subst rooted
          have same : start = middle := word.1
          subst same
          have several : others ≠ [] := by
            rcases readable.1.1 with ⟨_, several⟩ | ⟨isName, _⟩
            · exact several
            · cases isName
          have joined : IsReadable (op.symbol :: others) := by
            refine ⟨⟨.inr ⟨isName, .inl several⟩, readable.1.2⟩, ?_⟩
            rintro _ ⟨⟩
            exact ⟨notTrue, notFalse⟩
          have named : NameAt op.symbol (op.symbol.toList ++ mark) mark := ⟨isName, rfl, ends⟩
          exact ⟨_, .pure trivial, op.symbol :: others, joined, named.solid, mark, ⟨rfl, ends⟩,
            namesAt_of_gap gap several names⟩
      case neg =>
          have begun : Text.isName segment.toList = true := by
            rcases readable.1.1 with ⟨empty, _⟩ | ⟨isName, _⟩
            · exact absurd empty rooted
            · exact isName
          have comes : Comes (pure () : Grammar Unit) (patternWithin brackets)
              (op.symbol.toList ++ mark) last .ended :=
            comes_alone_of_nameAt isWord ends gap solid ⟨begun, word⟩
          simpa [Expr.opening, rooted, Speculation.unbegun] using comes

theorem begins_operator :
    Begins true (pure () : Grammar Unit) brackets (op.symbol.toList ++ mark) start where
  afresh atHead apart := by
    refine comes_alone isWord ends gap solid ?_ ?_ <;> rw [atHead] <;> rintro ⟨⟩ <;> cases apart
  var _ _ _ written _ := comes_alone_of_nameAt isWord ends gap solid written
  path readable written := comes_path isWord ends gap solid readable written
  operator := nofun

end

/-! ## Behind the word of a binding -/

/-- What goes on with a qualified name is one at the root. -/
theorem pathAt_root {names : List String} (several : names ≠ [])
    (written : NamesAt names text rest) : PathAt ("" :: names) (afterBlanks text) rest := by
  cases names with
  | nil => exact absurd rfl several
  | cons name names =>
      rcases written with ⟨separated, next, middle, symbol, written⟩
      have stands := symbol.afterBlanks_eq (solid_symbol rfl separated)
      refine ⟨solid_afterBlanks text, afterBlanks text, ⟨rfl, ?_⟩, separated, next, middle, ?_, written⟩
      · rw [stands]
        rintro _ ⟨⟩
        rfl
      · rw [stands]
        exact .refl _

theorem bindingWord_reads {word : String} (member : bindingWords.contains word = true)
    (gap : Gap text start) (written : WordAt word start middle) :
    Reads bindingWord text (fun _ => True) (afterBlanks middle) := by
  have cases : word = "let" ∨ word = "set" := by simpa [bindingWords] using member
  have reads {word : String} (written : WordAt word start middle) (solid : Solid start) :
      Reads (keyword word) text (fun _ => True) (afterBlanks middle) :=
    (keyword_reads gap solid written (gap_afterBlanks middle) (solid_afterBlanks middle)).mono
      fun _ _ => trivial
  rcases cases with rfl | rfl
  · have solid : Solid start := by
      rw [written.1]
      rintro _ ⟨⟩
      rfl
    exact (reads written solid).orElse
  · have solid : Solid start := by
      rw [written.1]
      rintro _ ⟨⟩
      rfl
    refine .orElse_of_misses (reads written solid) (keyword_misses_of_head (by decide) ?_)
    rw [gap.afterBlanks_eq solid, written.1]
    rintro _ ⟨⟩
    decide

theorem bindingWord_misses {word : String} (apart : bindingWords.contains word = false)
    (continues : word.toList.all continuesName = true) (gap : Gap text start) (solid : Solid start)
    (written : WordAt word start middle) : Misses bindingWord text := by
  have apart : word ≠ "let" ∧ word ≠ "set" := by simpa [bindingWords] using apart
  have misses (other : String) (continues' : other.toList.all continuesName = true)
      (apart : word ≠ other) : Misses (keyword other) text := by
    apply keyword_misses
    rw [gap.afterBlanks_eq solid]
    exact WordAt.not_wordAt continues continues' apart written
  exact (misses "let" (by decide) apart.1).orElse (misses "set" (by decide) apart.2)

theorem bindingWord_misses_of_head (gap : Gap text start) (solid : Solid start)
    (atHead : start.head? = some first) (apart : [':', '=', 'l', 's'].contains first = false) :
    Misses bindingWord text := by
  have misses (word : String) (among : word.toList.head?.any [':', '=', 'l', 's'].contains = true)
      (nonempty : word.toList ≠ []) : Misses (keyword word) text := by
    apply keyword_misses_of_head nonempty
    rw [gap.afterBlanks_eq solid, atHead]
    rintro _ ⟨⟩ same
    rw [same, Option.any_some, apart] at among
    cases among
  exact (misses "let" rfl (by decide)).orElse (misses "set" rfl (by decide))

/-- Behind the word at its beginning, a qualified name goes on as one at the root. -/
theorem isReadable_root {word : String} {others : List String}
    (member : bindingWords.contains word = true) (readable : IsReadable (word :: others)) :
    others ≠ [] ∧ IsReadable ("" :: others) := by
  have several : others ≠ [] := by
    have cases : word = "let" ∨ word = "set" := by simpa [bindingWords] using member
    rcases readable.1.1 with ⟨rfl, several⟩ | ⟨_, several | capital⟩
    · exact several
    · exact several
    · rcases cases with rfl | rfl <;> cases capital
  refine ⟨several, ⟨.inl ⟨rfl, several⟩, readable.1.2⟩, ?_⟩
  rintro _ ⟨⟩
  decide

theorem bindingWord_comes_path {offset : Nat} {segments : List String} (gap : Gap text start)
    (solid : Solid start) (readable : IsReadable segments) (written : PathAt segments start last) :
    Comes bindingWord (patternWithin brackets) text last
      ((Expr.path offset segments).opening false) := by
  cases segments with
  | nil => cases written
  | cons segment others =>
      rcases written with ⟨_, middle, word, names⟩
      cases member : bindingWords.contains segment with
      | true =>
          rcases isReadable_root member readable with ⟨several, rooted⟩
          rw [Expr.opening, if_pos (by simpa using member)]
          exact ⟨_, bindingWord_reads member gap word, _, rooted, pathAt_root several names⟩
      | false =>
          have continues : segment.toList.all continuesName = true := by
            rcases readable.1.1 with ⟨rfl, _⟩ | ⟨isName, _⟩
            · rfl
            · exact continuesName_of_isName isName
          rw [Expr.opening, if_neg (by simpa using member)]
          exact bindingWord_misses member continues gap solid word

/-- Where an expression begins, the word of a binding does if it is the first word of the
expression. -/
theorem begins_binding (gap : Gap text start) (solid : Solid start) :
    Begins false bindingWord brackets text start := by
  constructor
  case afresh =>
      intro first last atHead apart
      exact bindingWord_misses_of_head gap solid atHead apart
  case var =>
      intro offset name last _ _ _ named _
      cases member : bindingWords.contains name with
      | true =>
          rw [Expr.opening, member]
          exact bindingWord_reads member gap named.2
      | false =>
          rw [Expr.opening, member]
          exact bindingWord_misses member (continuesName_of_isName named.1) gap solid named.2
  case path =>
      intro offset segments last readable written
      exact bindingWord_comes_path gap solid readable written
  case operator =>
      intro op right last mark next rest _ isWord reads operator gap rightFormed nesting spelled
        noColon
      have symbol : isSymbol op.symbol = true := by cases op <;> rfl
      rw [operator.1.afterBlanks_eq (solid_symbol symbol mark)] at reads
      rw [isWord_eq] at isWord
      exact .after reads (comes_of_spelled (begins_operator (by rwa [isWord_eq])
        (operator.2 isWord) gap (spelled_solid rightFormed spelled)) rightFormed nesting spelled
        noColon)

end Grammar

end Templating

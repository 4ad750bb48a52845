import Templating.Proofs.Beginning

/-! # Patterns tried at expressions

What the rule for patterns makes of an expression is foreseen from its tree, by induction on the
expression. -/

namespace Templating.Grammar

open Text Templating.Pattern
open Templating.Expr (TrailingComma SpelledItems SpelledTail)

variable {brackets : Nat} {inner : Grammar Pattern} {text middle start next rest opened last
  closing : List Char} {items : List Expr} {expression : Expr}

/-! ## Payloads -/

theorem payload_eq (rule : Grammar Pattern) : payload ')' rule =
    ((do token ")"; return []) <|> do
      let first ← expect rule (.payloadItem ')')
      many (furtherEntry ')' rule) >>= fun others => listEnd (.payloadEnd ')') >>= fun _ =>
        pure (first :: others)) := by
  simp only [payload, furtherEntry, listEnd, bind_assoc]
  rfl

/-- Behind a qualified name a list is a payload. -/
theorem payload_foreseen [Advancing inner] (foreseen : ∀ item ∈ items, Foreseen inner item)
    (spelled : SpelledItems items opened closing) (symbol : SymbolAt ")" closing rest) :
    Meets (payload ')' (patternOf inner)) (afterBlanks opened) rest
      (Beginning.payload (Expr.beginnings items)) := by
  rw [payload_eq]
  cases items with
  | nil =>
      cases spelled
      exact .orElse ((close_reads (by decide) symbol).bind fun _ _ => .pure trivial)
  | cons item items =>
      rcases spelled with ⟨start, middle, gap, written, tail⟩
      have one := foreseen item List.mem_cons_self
      have noClose : Misses (token ")") start := (one.continues written).token_misses rfl
      have comma : TrailingComma false false closing closing := .inl ⟨rfl, rfl⟩
      have ends := endsEntry_of_comma (by decide) comma symbol
      have ends' := endsEntry_of_spelledTail tail ends
      have stands := one.stands written ends'.colon_not_mem
      have others := spelledTail_foreseen
        (fun item member => foreseen item (List.mem_cons_of_mem _ member)) (further_payload _) tail
        (gap_afterBlanks middle) (solid_afterBlanks middle) ends
      rw [gap.afterBlanks_eq (one.solid written), Expr.beginnings, Beginning.payload, List.all_cons]
      cases beginning : item.beginning with
      | missed =>
          rw [beginning] at stands
          exact ((Misses.expect_fails stands rfl).bind).orElse_of_misses noClose.bind
      | fatal =>
          rw [beginning] at stands
          exact ((Fails.orElse stands).bind).orElse_of_misses noClose.bind
      | part =>
          rw [beginning] at stands
          rcases stands with ⟨stop, reads, continues⟩
          refine Fails.orElse_of_misses (reads.expect.bind_fails fun first _ => ?_) noClose.bind
          exact GetsStuck.many_fails (Stuck.getsStuck (continues.afterBlanks.stuck (further_payload _)))
      | path | whole =>
          rw [beginning] at stands
          have reads := stands.reads rfl ends'.endsPattern
          cases all : (Expr.beginnings items).all Beginning.isPattern with
          | true =>
              refine .orElse_of_misses (reads.expect.bind fun first _ => ?_) noClose.bind
              exact many_listEnd_reads (others.1 all) (furtherEntry_misses (by decide) comma symbol)
                comma symbol fun _ => .pure trivial
          | false =>
              refine Fails.orElse_of_misses (reads.expect.bind_fails fun first _ => ?_) noClose.bind
              exact (others.2 all).many_fails

/-! ## What follows an expression -/

theorem endsPattern_of_symbol {symbol : String} (isSymbol : isSymbol symbol = true)
    (spelled : SymbolAt symbol text rest)
    (apart : symbol.toList.head?.any [':', '(', '\x7b', 'w'].contains = false) :
    EndsPattern text := by
  intro first atHead
  rw [Option.mem_def, symbol_head isSymbol spelled] at atHead
  rw [atHead] at apart
  exact apart

theorem continues_of_symbol {symbol : String} (isSymbol : isSymbol symbol = true)
    (spelled : SymbolAt symbol text rest)
    (apart : symbol.toList.head?.any [',', ')'].contains = false) : Continues text := by
  cases shape : symbol.toList with
  | nil => simp [Text.isSymbol, shape] at isSymbol
  | cons first others =>
      rw [shape] at apart
      exact ⟨first, by rw [symbol_head isSymbol spelled, shape]; rfl, apart⟩

/-- An expression neither goes on with a list nor closes it. -/
theorem continues_of_spelled (wellFormed : expression.WellFormed IsReadable)
    (spelled : expression.Spelled text rest) : Continues text := by
  rcases spelled_head wellFormed spelled with ⟨first, atHead, _, _, either⟩
  refine ⟨first, by rw [afterBlanks_of_solid (spelled_solid wellFormed spelled), atHead], ?_⟩
  rcases either with starts | rfl
  · cases listed : [',', ')'].contains first with
    | false => rfl
    | true =>
        have cases : first = ',' ∨ first = ')' := by simpa using listed
        rcases cases with rfl | rfl <;> cases starts
  · rfl

/-- A symbol behind an expression that is no payload leaves a pattern at what has been read. -/
theorem Stands.behind_symbol {symbol : String} {beginning : Beginning}
    (stands : ':' ∉ (afterBlanks last).head? → Stands inner text last beginning)
    (isSymbol : isSymbol symbol = true) (spelled : SymbolAt symbol last rest)
    (apart : symbol.toList.head?.any [':', '(', '\x7b', 'w', ',', ')'].contains = false) :
    Stands inner text next beginning.behind := by
  have apart' : ∀ among : List Char, among ⊆ [':', '(', '\x7b', 'w', ',', ')'] →
      symbol.toList.head?.any among.contains = false := by
    intro among subset
    cases shape : symbol.toList.head? with
    | none => rfl
    | some first =>
        rw [shape, Option.any_some] at apart
        rw [Option.any_some, ← Bool.not_eq_true, List.contains_iff_mem]
        intro member
        rw [List.contains_iff_mem.mpr (subset member)] at apart
        cases apart
  have ends := endsPattern_of_symbol isSymbol spelled (apart' _ (by decide))
  exact (stands (ends.not_mem_head rfl)).behind (fun _ => ends)
    (continues_of_symbol isSymbol spelled (apart' _ (by decide)))

/-! ## Brackets with a limit -/

/-- With enough brackets left, what the rule for patterns makes of the items is known. -/
def ForeseenAll (items : List Expr) : Prop :=
  ∀ item ∈ items, ∀ brackets, item.nesting ≤ brackets → Foreseen (patternWithin brackets) item

theorem payloadWithin_foreseen (foreseen : ForeseenAll items)
    (nesting : Expr.nestingAll items ≤ brackets) (spelled : SpelledItems items opened closing)
    (symbol : SymbolAt ")" closing rest) :
    Meets (payload ')' (patternWithin brackets)) (afterBlanks opened) rest
      (Beginning.payload (Expr.beginnings items)) := by
  cases brackets with
  | zero =>
      cases items with
      | nil =>
          cases spelled
          rw [payload_eq]
          exact .orElse ((close_reads (by decide) symbol).bind fun _ _ => .pure trivial)
      | cons =>
          rw [Expr.nestingAll] at nesting
          omega
  | succ brackets =>
      refine payload_foreseen (fun item member => foreseen item member brackets ?_) spelled symbol
      exact Nat.le_of_lt_succ (Expr.nestingAll_le_iff.mp nesting item member)

theorem groupWithin_foreseen {required : Bool} (foreseen : ForeseenAll items)
    (nesting : Expr.nestingAll items ≤ brackets) (spelled : SpelledItems items opened last)
    (comma : TrailingComma required (!items.isEmpty) last closing)
    (symbol : SymbolAt ")" closing rest) :
    Meets (groupPattern (patternWithin brackets)) ('(' :: opened) rest
      (Beginning.parenthesized (Expr.beginnings items)) := by
  cases brackets with
  | zero =>
      cases items with
      | nil =>
          cases spelled
          rcases comma with ⟨_, rfl⟩ | ⟨⟨⟩, _⟩
          have inside : PayloadAt (SpelledWithin 0) ")" false [] opened rest :=
            ⟨opened, opened, rfl, .inl ⟨rfl, rfl⟩, symbol⟩
          have reads : Reads (groupPattern (patternWithin 0)) ('(' :: opened)
              ((Pattern.tuple 0 [] []).same · = true) (afterBlanks rest) :=
            groupPattern_reads_tuple (patternWithin_complete 0) inside
          exact reads.mono fun _ _ => trivial
      | cons =>
          rw [Expr.nestingAll] at nesting
          omega
  | succ brackets =>
      refine groupPattern_foreseen (fun item member => foreseen item member brackets ?_) spelled comma
        symbol
      exact Nat.le_of_lt_succ (Expr.nestingAll_le_iff.mp nesting item member)

/-! ## By induction on expressions -/

theorem stands_of_noPattern (missed : ∀ first ∈ (afterBlanks text).head?,
    startsPattern first = false) : Stands inner text last .missed :=
  patternOf_misses missed

/-- Parentheses are no literal and no name. -/
theorem stands_of_group {items : List Beginning}
    (meets : Meets (groupPattern inner) ('(' :: opened) rest (Beginning.parenthesized items)) :
    Stands inner ('(' :: opened) rest (Beginning.parenthesized items) := by
  have solid : Solid ('(' :: opened) := by simp [isSpace]
  have noLiteral := literalPattern_misses_bracket opened
  have noPath : Misses (pathPattern inner) ('(' :: opened) := pathPattern_misses_bracket opened
  have noName := namePattern_misses_bracket opened
  have missed (meets : Meets (groupPattern inner) ('(' :: opened) rest .missed) :
      Stands inner ('(' :: opened) rest .missed := by
    have misses := noLiteral.orElse (Misses.orElse meets (noPath.orElse noName))
    exact spaced_misses (by rwa [afterBlanks_of_solid solid])
  have payload {items : List Beginning}
      (meets : Meets (groupPattern inner) ('(' :: opened) rest (Beginning.payload items)) :
      Stands inner ('(' :: opened) rest (Beginning.payload items) := by
    unfold Beginning.payload at meets ⊢
    split at meets
    case isTrue all =>
        rw [if_pos all]
        exact patternOf_reads solid (patternChoice_reads_bracket meets) (.refl _)
          (solid_afterBlanks rest)
    case isFalse notAll =>
        rw [if_neg notAll]
        exact patternOf_fails solid (Fails.orElse_of_misses (Fails.orElse meets) noLiteral)
  unfold Beginning.parenthesized at meets ⊢
  split at meets
  · exact missed meets
  · exact payload meets

/-- A qualified name with parentheses behind it is a pattern with a payload. -/
theorem stands_of_payload {segments : List String} {items : List Beginning}
    (readable : IsReadable segments) (written : PathAt segments text last)
    (opening : SymbolAt "(" last opened)
    (meets : Meets (payload ')' inner) (afterBlanks opened) rest (Beginning.payload items)) :
    Stands inner text rest (Beginning.payload items) := by
  have atHead := symbol_head rfl opening
  have solid : Solid text := by
    cases segments with
    | nil => cases written
    | cons => exact written.1
  have noWord : Misses (keyword "with") last := by
    apply keyword_misses_of_head (by decide)
    rw [atHead]
    rintro _ ⟨⟩
    decide
  have stops : Misses furtherName last := by
    apply Misses.bind
    apply separator_misses
    rw [atHead]
    rintro _ ⟨⟩
    decide
  have begun := path_reads readable.1 written stops
  have opens := token_reads rfl opening (gap_afterBlanks opened) (solid_afterBlanks opened)
  unfold Beginning.payload at meets ⊢
  split at meets
  case isTrue all =>
      rw [if_pos all]
      have reads : Reads (pathPattern inner) text (fun _ => True) (afterBlanks rest) :=
        Reads.here.bind fun _ _ => begun.bind fun _ _ => .orElse <|
          noWord.optional.bind fun _ _ => opens.bind fun _ _ =>
            Reads.bind meets fun _ _ => .pure trivial
      exact patternOf_reads solid (patternChoice_reads_path readable written reads) (.refl _)
        (solid_afterBlanks rest)
  case isFalse notAll =>
      rw [if_neg notAll]
      have fails : Fails (pathPattern inner) text :=
        Reads.here.bind_fails fun _ _ => begun.bind_fails fun _ _ => .orElse <|
          noWord.optional.bind_fails fun _ _ => opens.bind_fails fun _ _ => Fails.bind meets
      have noBrackets : Misses literalPattern text ∧ Misses (groupPattern inner) text :=
        bracket_misses (path_head readable.1 written) (boolean_misses_of_pathAt readable written)
      rcases noBrackets with ⟨noLiteral, noGroup⟩
      exact patternOf_fails solid
        (Fails.orElse_of_misses (Fails.orElse_of_misses fails.orElse noGroup) noLiteral)

theorem stands_of_literal {offset : Nat} {kind : LiteralKind} {lexeme : String}
    (lexical : kind.Lexical lexeme) (spelled : (Expr.literal offset kind lexeme).Spelled text last) :
    Stands inner text last .whole := by
  have solid := spelled_solid (.literal lexical) spelled
  have reads : Reads literalPattern text ((Pattern.literal 0 _ _).same · = true) last :=
    literalPattern_reads lexical spelled
  exact patternOf_reads solid (reads.orElse.mono fun _ _ => trivial) (gap_afterBlanks last)
    (solid_afterBlanks last)

/-- A name on its own is a pattern, unless it goes on as a qualified name. -/
theorem stands_of_var {name : String} (named : NameAt name text last)
    (notBoolean : name ≠ "true" ∧ name ≠ "false") (small : name.toList.any isUppercase = false)
    (noColon : ':' ∉ (afterBlanks last).head?) : Stands inner text last .whole := by
  have stops : Misses furtherName last := by
    apply Misses.bind
    apply separator_misses
    rintro _ atHead rfl
    exact noColon atHead
  have reads : Reads (patternChoice inner) text ((Pattern.name 0 _).same · = true) last :=
    patternChoice_reads_name named notBoolean small stops
  exact patternOf_reads named.solid (reads.mono fun _ _ => trivial) (gap_afterBlanks last)
    (solid_afterBlanks last)

/-- A call of a qualified name is a payload behind it. Behind any other function the parentheses
are no part of a pattern. -/
theorem stands_of_call {offset : Nat} {function : Expr} {arguments : List Expr}
    (stands : Stands inner text last function.beginning) (opening : SymbolAt "(" last opened)
    (meets : Meets (payload ')' inner) (afterBlanks opened) rest
      (Beginning.payload (Expr.beginnings arguments))) :
    Stands inner text rest (Expr.call offset function arguments).beginning := by
  cases beginning : function.beginning with
  | path =>
      rw [beginning] at stands
      rcases stands with ⟨segments, readable, written⟩
      simp only [Expr.beginning, beginning]
      exact stands_of_payload readable written opening meets
  | _ =>
      rw [beginning] at stands
      simp only [Expr.beginning, beginning]
      exact stands.behind (fun isPath => by cases isPath) (continues_of_symbol rfl opening rfl)

/-- What the rule for patterns makes of an expression is told by the tree, wherever the
expression is written and does not go on as a qualified name. -/
theorem stands_of_spelled (wellFormed : expression.WellFormed IsReadable)
    (nesting : expression.nesting ≤ brackets) (spelled : expression.Spelled text last)
    (noColon : ':' ∉ (afterBlanks last).head?) :
    Stands (patternWithin brackets) text last expression.beginning := by
  induction wellFormed generalizing brackets text last with
  | literal lexical => exact stands_of_literal lexical spelled
  | var isName notTrue notFalse small =>
      exact stands_of_var spelled ⟨notTrue, notFalse⟩ small noColon
  | path readable => exact ⟨_, readable, spelled⟩
  | list wellFormed =>
      rcases spelled with ⟨_, _, _, rfl, _⟩
      apply stands_of_noPattern
      rintro _ ⟨⟩
      rfl
  | tuple wellFormed induction =>
      rcases spelled with ⟨_, _, _, rfl, items, comma, symbol⟩
      refine stands_of_group (groupWithin_foreseen ?_ nesting items comma symbol)
      intro item member brackets nesting
      exact ⟨induction item member nesting, spelled_solid (wellFormed item member),
        continues_of_spelled (wellFormed item member)⟩
  | group wellFormed induction =>
      rcases spelled with ⟨opened, start, closing, rfl, gap, spelled, symbol⟩
      have items : SpelledItems [_] opened closing := ⟨start, closing, gap, spelled, rfl⟩
      have alone : TrailingComma false true closing closing := .inl ⟨rfl, rfl⟩
      refine stands_of_group (groupWithin_foreseen ?_ ?_ items alone symbol)
      · intro item member brackets nesting
        cases List.mem_singleton.mp member
        exact ⟨induction nesting, spelled_solid wellFormed, continues_of_spelled wellFormed⟩
      · simpa [Expr.nestingAll, Expr.nesting] using nesting
  | member wellFormed rank isName induction =>
      rcases spelled with ⟨_, _, _, spelled, symbol, _⟩
      exact Stands.behind_symbol (induction nesting spelled) rfl symbol rfl
  | item wellFormed rank keyFormed induction _ =>
      rcases spelled with ⟨_, _, _, _, spelled, symbol, _⟩
      rw [Expr.nesting] at nesting
      exact Stands.behind_symbol (induction (by omega) spelled) rfl symbol rfl
  | call wellFormed rank argumentsFormed induction inductions =>
      rcases spelled with ⟨behind, opened, closing, spelled, opening, items, symbol⟩
      rw [Expr.nesting] at nesting
      have noColon : ':' ∉ (afterBlanks behind).head? := by
        rw [symbol_head rfl opening]
        rintro ⟨⟩
      refine stands_of_call (induction (by omega) spelled noColon) opening
        (payloadWithin_foreseen ?_ (by omega) items symbol)
      intro item member brackets nesting
      exact ⟨inductions item member nesting, spelled_solid (argumentsFormed item member),
        continues_of_spelled (argumentsFormed item member)⟩
  | attempt wellFormed rank induction =>
      rcases spelled with ⟨_, spelled, symbol⟩
      exact Stands.behind_symbol (induction nesting spelled) rfl symbol rfl
  | filter wellFormed rank isName argumentsFormed induction _ =>
      rcases spelled with ⟨_, _, _, _, spelled, symbol, _⟩
      rw [Expr.nesting] at nesting
      exact Stands.behind_symbol (induction (by omega) spelled) rfl symbol rfl
  | @unary _ op _ wellFormed rank induction =>
      rcases spelled with ⟨_, _, rfl, _⟩
      apply stands_of_noPattern
      cases op <;> (rintro _ ⟨⟩; rfl)
  | @binary _ op _ _ wellFormed rank _ _ induction _ =>
      rcases spelled with ⟨_, _, _, spelled, ⟨symbol, _⟩, _⟩
      rw [Expr.nesting] at nesting
      refine Stands.behind_symbol (induction (by omega) spelled) ?_ symbol ?_ <;> cases op <;> rfl
  | @range _ kind start _ wellFormed rank _ _ induction _ =>
      rcases spelled with ⟨_, _, spelled, ⟨symbol, _⟩, _⟩
      have isSymbol : isSymbol kind.symbol = true := by cases kind <;> rfl
      rw [Expr.nesting] at nesting
      cases start with
      | none =>
          rcases spelled with ⟨solid, rfl⟩
          apply stands_of_noPattern
          rw [symbol_head isSymbol symbol]
          cases kind <;> (rintro _ ⟨⟩; rfl)
      | some start =>
          rw [Expr.nestingOption] at nesting
          refine Stands.behind_symbol (induction start rfl (by omega) spelled) isSymbol symbol ?_
          cases kind <;> rfl

end Templating.Grammar

import Templating.Proofs.PatternCompleteness

/-! # Expressions read as patterns

The rule for patterns may be tried where an expression is written. What it makes of the
expression is told by the tree: it misses it, reads all of it or a part of it, or takes a bracket
in it for the beginning of a tuple or of a payload and ends the parse there. -/

namespace Templating

/-- What the rule for patterns makes of an expression. -/
inductive Beginning where
  | missed
  /-- All of it is a qualified name, behind which a payload could stand. -/
  | path
  /-- All of it is a pattern, with which nothing goes on. -/
  | whole
  | part
  | fatal
  deriving Repr, DecidableEq

namespace Beginning

/-- All of the expression is a pattern. -/
def isPattern : Beginning → Bool
  | path | whole => true
  | missed | part | fatal => false

/-- Something other than a payload stands behind the expression. -/
def behind : Beginning → Beginning
  | path | whole | part => part
  | missed => missed
  | fatal => fatal

/-- A payload in parentheses. -/
def payload (items : List Beginning) : Beginning :=
  if items.all isPattern then whole else fatal

/-- Parentheses that no name stands before. They are not taken for those of a pattern if no
pattern stands at their beginning. -/
def parenthesized : List Beginning → Beginning
  | missed :: _ => missed
  | items => payload items

end Beginning

namespace Expr

mutual

def beginning : Expr → Beginning
  | literal .. | var .. => .whole
  | path .. => .path
  | list .. | unary .. => .missed
  | tuple _ items => .parenthesized (beginnings items)
  | group _ inner => .parenthesized [inner.beginning]
  | member _ object _ | item _ object _ => object.beginning.behind
  | call _ function arguments =>
      match function.beginning with
      | .path => .payload (beginnings arguments)
      | other => other.behind
  | attempt _ value | filter _ value _ _ => value.beginning.behind
  | binary _ _ left _ => left.beginning.behind
  | range _ _ start _ => beginningOption start
termination_by structural expression => expression

def beginnings : List Expr → List Beginning
  | [] => []
  | head :: tail => head.beginning :: beginnings tail
termination_by structural expressions => expressions

def beginningOption : Option Expr → Beginning
  | none => .missed
  | some start => start.beginning.behind
termination_by structural start => start

end

end Expr

namespace Grammar

open Text Templating.Pattern
open Templating.Expr (TrailingComma SpelledItems SpelledTail)

variable {α β : Type} {brackets : Nat} {inner : Grammar Pattern}
  {text middle start next rest : List Char}

/-! ## Malformed patterns -/

/-- The rule ends the parse at the text because of a malformed pattern. -/
def Fails (rule : Grammar α) (text : List Char) : Prop :=
  ∀ offset, ∃ problem offset', rule ⟨offset, text⟩ = .failed (.malformed problem offset') ∧
    problem.code = .invalidPattern

section

variable {rule other : Grammar α} {following : α → Grammar β} {accept : α → Prop}

theorem Fails.bind (fails : Fails rule text) : Fails (rule >>= following) text := by
  intro offset
  rcases fails offset with ⟨problem, offset', failed, code⟩
  exact ⟨problem, offset', by rw [bind_apply, failed], code⟩

theorem Reads.bind_fails (reads : Reads rule text accept middle)
    (fails : ∀ value, accept value → Fails (following value) middle) :
    Fails (rule >>= following) text := by
  intro offset
  rcases reads offset with ⟨value, offset', matched, accepted⟩
  rw [bind_of_matched matched]
  exact fails value accepted offset'

theorem Fails.orElse (fails : Fails rule text) : Fails (rule <|> other) text := by
  intro offset
  rcases fails offset with ⟨problem, offset', failed, code⟩
  exact ⟨problem, offset', by rw [orElse_apply, failed], code⟩

theorem Fails.orElse_of_misses (fails : Fails other text) (misses : Misses rule text) :
    Fails (rule <|> other) text := by
  intro offset
  rw [orElse_of_noMatch (misses offset)]
  exact fails offset

theorem Misses.expect_fails {problem : Problem} (misses : Misses rule text)
    (code : problem.code = .invalidPattern) : Fails (expect rule problem) text := by
  intro offset
  exact ⟨problem, _, orElse_of_noMatch (misses offset), code⟩

theorem Fails.spaced (fails : Fails rule text) (solid : Solid text) :
    Fails (Grammar.spaced rule) text :=
  (spaces_reads (.refl text) solid).bind_fails fun _ _ => fails.bind

end

/-! ## What stands at a text -/

/-- Something stands at the text that neither goes on with a list nor closes it. -/
def Continues (text : List Char) : Prop :=
  ∃ first, (afterBlanks text).head? = some first ∧ [',', ')'].contains first = false

/-- What the rule for patterns makes of a text, up to the end of an expression there. -/
def Stands (inner : Grammar Pattern) (text last : List Char) : Beginning → Prop
  | .missed => Misses (patternOf inner) text
  | .path => ∃ segments, IsReadable segments ∧ PathAt segments text last
  | .whole => Reads (patternOf inner) text (fun _ => True) (afterBlanks last)
  | .part => ∃ stop, Reads (patternOf inner) text (fun _ => True) (afterBlanks stop) ∧ Continues stop
  | .fatal => Fails (patternOf inner) text

theorem patternOf_reads {accept : Pattern → Prop} (solid : Solid text)
    (reads : Reads (patternChoice inner) text accept middle) (gap : Gap middle rest)
    (solid' : Solid rest) : Reads (patternOf inner) text accept rest :=
  spaced_reads (.refl text) solid reads gap solid'

theorem patternOf_fails (solid : Solid text) (fails : Fails (patternChoice inner) text) :
    Fails (patternOf inner) text :=
  fails.spaced solid

theorem patternOf_reads_path {segments : List String} (readable : IsReadable segments)
    (written : PathAt segments text rest) (ends : EndsPattern rest) :
    Reads (patternOf inner) text (fun _ => True) (afterBlanks rest) := by
  have reads : Reads (pathPattern inner) text ((Pattern.path 0 segments).same · = true) rest :=
    pathPattern_reads_path readable written ends
  have solid : Solid text := by
    cases segments with
    | nil => cases written
    | cons first others => exact written.1
  exact patternOf_reads solid ((patternChoice_reads_path readable written reads).mono fun _ _ => trivial)
    (gap_afterBlanks rest) (solid_afterBlanks rest)

namespace Stands

variable {last : List Char} {beginning : Beginning}

theorem reads (stands : Stands inner text last beginning) (isPattern : beginning.isPattern = true)
    (ends : EndsPattern last) : Reads (patternOf inner) text (fun _ => True) (afterBlanks last) := by
  cases beginning with
  | path =>
      rcases stands with ⟨segments, readable, written⟩
      exact patternOf_reads_path readable written ends
  | whole => exact stands
  | missed | part | fatal => cases isPattern

/-- What stands behind an expression without going on with a pattern leaves it at that. -/
theorem behind (stands : Stands inner text last beginning)
    (ends : beginning = .path → EndsPattern last)
    (follows : Continues last) : Stands inner text next beginning.behind := by
  cases beginning with
  | missed => exact stands
  | path =>
      rcases stands with ⟨segments, readable, written⟩
      exact ⟨last, patternOf_reads_path readable written (ends rfl), follows⟩
  | whole => exact ⟨last, stands, follows⟩
  | part => exact stands
  | fatal => exact stands

end Stands

/-! ## Lists in parentheses -/

/-- Where the items of a list have been read, up to the parenthesis that closes. -/
def listEnd (problem : Problem) : Grammar Unit := do
  let _ ← optional (token ",")
  expect (token ")") problem

theorem listEnd_fails {problem : Problem} (code : problem.code = .invalidPattern)
    (noComma : Misses (token ",") text) (noClose : Misses (token ")") text) :
    Fails (listEnd problem) text :=
  noComma.optional.bind_fails fun _ same => by
    subst same
    exact noClose.expect_fails code

/-- A list is malformed where its items have been read as far as they are patterns. -/
def Stuck (further : Grammar Pattern) (problem : Problem) (text : List Char) : Prop :=
  text ≠ [] ∧ (Fails further text ∨ Misses further text ∧ Fails (listEnd problem) text)

/-- Somewhere in a list the rule for further items leads to where the list is malformed. -/
def GetsStuck (further : Grammar Pattern) (problem : Problem) (text : List Char) : Prop :=
  ∀ offset, ∃ values later, Repeated further ⟨offset, text⟩ values later ∧
    Stuck further problem later.rest

theorem Stuck.getsStuck {further : Grammar Pattern} {problem : Problem}
    (stuck : Stuck further problem text) : GetsStuck further problem text :=
  fun offset => ⟨[], ⟨offset, text⟩, .nil _, stuck⟩

theorem GetsStuck.after {further : Grammar Pattern} {accept : Pattern → Prop} {problem : Problem}
    (reads : Reads further text accept middle) (stuck : GetsStuck further problem middle) :
    GetsStuck further problem text := by
  intro offset
  rcases reads offset with ⟨value, offset', matched, _⟩
  rcases stuck offset' with ⟨values, later, repeated, stuck⟩
  exact ⟨value :: values, later, .cons matched repeated, stuck⟩

theorem GetsStuck.many_fails {further : Grammar Pattern} [Consuming further] {problem : Problem}
    {following : List Pattern → Grammar β} (stuck : GetsStuck further problem text) :
    Fails (many further >>= fun values => listEnd problem >>= fun _ => following values) text := by
  intro offset
  rcases stuck offset with ⟨values, ⟨offset', rest⟩, repeated, left, fails | ⟨misses, fails⟩⟩
  · rcases fails offset' with ⟨problem, offset'', failed, code⟩
    exact ⟨problem, offset'', by rw [bind_apply, many_of_repeated_failed repeated failed left], code⟩
  · rcases fails offset' with ⟨problem, offset'', failed, code⟩
    refine ⟨problem, offset'', ?_, code⟩
    rw [bind_of_matched (many_of_repeated repeated (misses offset')), bind_apply, failed]

/-- How an item behind a comma is read, in a tuple or in a payload. -/
structure Further (rule further : Grammar Pattern) (problem : Problem) : Prop where
  code : problem.code = .invalidPattern
  noComma {text : List Char} : Misses (token ",") text → Misses further text
  reads {text comma start rest : List Char} {accept : Pattern → Prop} : SymbolAt "," text comma →
    Gap comma start → Solid start → start.head? ≠ some ')' → Reads rule start accept rest →
      Reads further text accept rest
  fails {text comma start : List Char} : SymbolAt "," text comma → Gap comma start →
    Solid start → start.head? ≠ some ')' → Fails rule start → Fails further text
  misses {text comma start : List Char} : SymbolAt "," text comma → Gap comma start →
    Solid start → start.head? ≠ some ')' → Misses rule start →
      Misses further text ∨ Fails further text

theorem further_tuple (rule : Grammar Pattern) :
    Further rule (furtherPattern rule) .tupleEnd where
  code := rfl
  noComma misses := misses.bind
  reads symbol gap solid _ reads := (token_reads rfl symbol gap solid).bind fun _ _ => reads
  fails symbol gap solid _ fails := (token_reads rfl symbol gap solid).bind_fails fun _ _ => fails
  misses symbol gap solid _ misses :=
    .inl ((token_reads rfl symbol gap solid).bind_misses fun _ _ => misses)

theorem further_payload (rule : Grammar Pattern) :
    Further rule (furtherEntry ')' rule) (.payloadEnd ')') := by
  have goesOn {start : List Char} (apart : start.head? ≠ some ')') :
      Reads (ahead fun rest => rest.head? != some ')') start (fun _ => True) start :=
    fun offset => ⟨(), offset, by simp [ahead, apart], trivial⟩
  constructor
  case code => rfl
  case noComma => exact fun misses => misses.bind
  case reads =>
    intro text comma start rest accept symbol gap solid apart reads
    exact (token_reads rfl symbol gap solid).bind fun _ _ => (goesOn apart).bind fun _ _ =>
      reads.expect
  case fails =>
    intro text comma start symbol gap solid apart fails
    exact (token_reads rfl symbol gap solid).bind_fails fun _ _ =>
      (goesOn apart).bind_fails fun _ _ => fails.orElse
  case misses =>
    intro text comma start symbol gap solid apart misses
    exact .inr ((token_reads rfl symbol gap solid).bind_fails fun _ _ =>
      (goesOn apart).bind_fails fun _ _ => misses.expect_fails rfl)

/-- What the rule for patterns makes of the expression is known wherever it is written. -/
structure Foreseen (inner : Grammar Pattern) (expression : Expr) : Prop where
  stands {text last : List Char} : expression.Spelled text last →
    ':' ∉ (afterBlanks last).head? → Stands inner text last expression.beginning
  solid {text last : List Char} : expression.Spelled text last → Solid text
  continues {text last : List Char} : expression.Spelled text last → Continues text

section

variable {further : Grammar Pattern} {problem : Problem} {expression : Expr}
  {comma last : List Char}

theorem Continues.afterBlanks (continues : Continues text) : Continues (afterBlanks text) := by
  unfold Continues
  rw [afterBlanks_afterBlanks]
  exact continues

theorem Continues.token_misses {symbol : String} (continues : Continues text)
    (among : [",", ")"].contains symbol = true) : Misses (token symbol) text := by
  rcases continues with ⟨first, atHead, apart⟩
  have cases : symbol = "," ∨ symbol = ")" := by simpa using among
  rcases cases with rfl | rfl
  · exact token_misses_at (by decide) atHead fun same => by cases same; cases apart
  · exact token_misses_at (by decide) atHead fun same => by cases same; cases apart

theorem Continues.head_ne (continues : Continues text) (solid : Solid text) :
    text.head? ≠ some ')' := by
  rcases continues with ⟨first, atHead, apart⟩
  rw [afterBlanks_of_solid solid] at atHead
  intro same
  rw [atHead] at same
  cases same
  cases apart

theorem Continues.stuck (continues : Continues text)
    (listed : Further (patternOf inner) further problem) : Stuck further problem text := by
  refine ⟨?_, .inr ⟨listed.noComma (continues.token_misses rfl), ?_⟩⟩
  · rintro rfl
    rcases continues with ⟨first, ⟨⟩, _⟩
  · exact listEnd_fails listed.code (continues.token_misses rfl) (continues.token_misses rfl)

theorem EndsEntry.colon_not_mem (ends : EndsEntry text) : ':' ∉ (afterBlanks text).head? :=
  ends.endsPattern.not_mem_head rfl

/-- An item behind a comma is read if it is a pattern, and else the list is malformed there. -/
theorem Foreseen.behind_comma (foreseen : Foreseen inner expression)
    (listed : Further (patternOf inner) further problem) (symbol : SymbolAt "," text comma)
    (gap : Gap comma start) (spelled : expression.Spelled start last) (ends : EndsEntry last) :
    (expression.beginning.isPattern = true →
      Reads further text (fun _ => True) (afterBlanks last)) ∧
    (expression.beginning.isPattern = false → GetsStuck further problem text) := by
  have stands := foreseen.stands spelled ends.colon_not_mem
  have solid := foreseen.solid spelled
  have continues := foreseen.continues spelled
  have apart := continues.head_ne solid
  have left : text ≠ [] := by
    rintro rfl
    have := symbol.eq_of_solid solid_nil
    cases this
  constructor
  · intro isPattern
    exact listed.reads symbol gap solid apart (stands.reads isPattern ends.endsPattern)
  · intro notPattern
    cases beginning : expression.beginning with
    | missed =>
        rw [beginning] at stands
        rcases listed.misses symbol gap solid apart stands with misses | fails
        · have comma : Reads (token ",") text (fun _ => True) start :=
            token_reads rfl symbol gap solid
          refine Stuck.getsStuck ⟨left, .inr ⟨misses, comma.optional.bind_fails fun _ _ => ?_⟩⟩
          exact (continues.token_misses rfl).expect_fails listed.code
        · exact Stuck.getsStuck ⟨left, .inl fails⟩
    | part =>
        rw [beginning] at stands
        rcases stands with ⟨stop, reads, continues⟩
        exact GetsStuck.after (listed.reads symbol gap solid apart reads)
          (Stuck.getsStuck (continues.afterBlanks.stuck listed))
    | fatal =>
        rw [beginning] at stands
        exact Stuck.getsStuck ⟨left, .inl (listed.fails symbol gap solid apart stands)⟩
    | path | whole =>
        rw [beginning] at notPattern
        cases notPattern

theorem endsEntry_of_spelledTail {items : List Expr} (spelled : SpelledTail items middle last)
    (ends : EndsEntry last) : EndsEntry middle := by
  cases items with
  | nil =>
      cases spelled
      exact ends
  | cons item items =>
      rcases spelled with ⟨_, _, _, symbol, _⟩
      exact endsEntry_of_symbol rfl symbol

/-- The items behind the first one are read if all of them are patterns, and else the list is
malformed at one of them. -/
theorem spelledTail_foreseen {items : List Expr} (foreseen : ∀ item ∈ items, Foreseen inner item)
    (listed : Further (patternOf inner) further problem)
    (spelled : SpelledTail items middle last) (gap : Gap middle next) (solid : Solid next)
    (ends : EndsEntry last) :
    ((Expr.beginnings items).all Beginning.isPattern = true →
      ReadsEach further next (fun _ => True) (afterBlanks last)) ∧
    ((Expr.beginnings items).all Beginning.isPattern = false → GetsStuck further problem next) := by
  induction items generalizing middle next with
  | nil =>
      cases spelled
      rw [gap.afterBlanks_eq solid]
      exact ⟨fun _ => .nil trivial, nofun⟩
  | cons item items induction =>
      rcases spelled with ⟨comma, start, stop, symbol, behind, written, spelled⟩
      have symbol : SymbolAt "," next comma := gap.of_gap symbol (solid_symbol rfl comma)
      have one := (foreseen item List.mem_cons_self).behind_comma listed symbol behind written
        (endsEntry_of_spelledTail spelled ends)
      have others := induction (fun item member => foreseen item (List.mem_cons_of_mem _ member))
        spelled (gap_afterBlanks stop) (solid_afterBlanks stop)
      rw [Expr.beginnings, List.all_cons]
      constructor
      · intro all
        rw [Bool.and_eq_true] at all
        exact ReadsEach.cons (one.1 all.1) (others.1 all.2) fun _ _ _ _ => trivial
      · intro notAll
        rw [Bool.and_eq_false_iff] at notAll
        cases isPattern : item.beginning.isPattern with
        | false => exact one.2 isPattern
        | true =>
            rcases notAll with notPattern | notAll
            · rw [isPattern] at notPattern
              cases notPattern
            · exact GetsStuck.after (one.1 isPattern) (others.2 notAll)

/-- The items of a list with at least one, behind which a comma may stand, up to the parenthesis
that closes. -/
theorem many_listEnd_reads [Consuming further] {closing : List Char}
    {required permitted : Bool}
    (read : ReadsEach further next (fun _ => True) (afterBlanks last))
    (stops : Misses further (afterBlanks last))
    (comma : TrailingComma required permitted last closing) (symbol : SymbolAt ")" closing rest)
    {following : List Pattern → Grammar β} {accept : β → Prop}
    (then_reads : ∀ values, Reads (following values) (afterBlanks rest) accept (afterBlanks rest)) :
    Reads (many further >>= fun values => listEnd problem >>= fun _ => following values) next accept
      (afterBlanks rest) := by
  apply (read.stop stops).bind
  intro values _
  have ended : Reads (listEnd problem) (afterBlanks last) (fun _ => True) (afterBlanks rest) :=
    (trailingComma_reads (by decide) comma symbol).bind fun _ _ =>
      (close_reads (by decide) symbol).expect
  exact ended.bind fun _ _ => then_reads values

end

/-! ## Brackets -/

section

variable {items : List Expr} {opened last closing : List Char} {required : Bool}

/-- What a rule makes of brackets at a text, as the beginning of an expression tells. -/
def Meets (rule : Grammar α) (text rest : List Char) : Beginning → Prop
  | .missed => Misses rule text
  | .fatal => Fails rule text
  | .path | .whole | .part => Reads rule text (fun _ => True) (afterBlanks rest)

/-- What may stand behind the first pattern in parentheses. -/
def groupBehind (rule : Grammar Pattern) (start : Nat) (first : Pattern) : Grammar Pattern :=
  (do token ")"; return first) <|>
    (many (furtherPattern rule) >>= fun others => listEnd .tupleEnd >>= fun _ =>
      pure (.tuple start [] (first :: others)))

theorem groupPattern_eq (rule : Grammar Pattern) : groupPattern rule = (do
    let start ← here
    token "("
    (do token ")"; return .tuple start [] []) <|> do
      let first ← rule
      groupBehind rule start first) := by
  simp only [groupPattern, groupBehind, furtherPattern, listEnd, bind_assoc]

theorem groupBehind_fails {origin : Nat} {first : Pattern} (noClose : Misses (token ")") text)
    (stuck : GetsStuck (furtherPattern (patternOf inner)) .tupleEnd text)
    [Advancing (patternOf inner)] :
    Fails (groupBehind (patternOf inner) origin first) text :=
  stuck.many_fails.orElse_of_misses noClose.bind

/-- Where a parenthesis closes no pattern begins. -/
theorem patternOf_misses_at_close (symbol : SymbolAt ")" closing rest) :
    Misses (patternOf inner) (afterBlanks closing) := by
  apply patternOf_misses
  rw [afterBlanks_afterBlanks, symbol_head rfl symbol]
  rintro _ ⟨⟩
  rfl

theorem groupPattern_fails {rule : Grammar Pattern}
    (begun : Reads (token "(") text (fun _ => True) start) (noClose : Misses (token ")") start)
    (fails : ∀ origin, Fails (rule >>= groupBehind rule origin) start) :
    Fails (groupPattern rule) text := by
  rw [groupPattern_eq]
  exact Reads.here.bind_fails fun origin _ => begun.bind_fails fun _ _ =>
    (fails origin).orElse_of_misses noClose.bind

/-- Behind a pattern that stands first in parentheses, the other items tell whether the list is
one of patterns. -/
theorem groupPattern_foreseen_behind [Advancing inner]
    (foreseen : ∀ item ∈ items, Foreseen inner item)
    (begun : Reads (token "(") text (fun _ => True) start) (noClose : Misses (token ")") start)
    (reads : Reads (patternOf inner) start (fun _ => True) (afterBlanks middle))
    (tail : SpelledTail items middle last) (comma : TrailingComma required true last closing)
    (symbol : SymbolAt ")" closing rest) :
    Meets (groupPattern (patternOf inner)) text rest
      (Beginning.payload (Expr.beginnings items)) := by
  have others := spelledTail_foreseen foreseen (further_tuple _) tail (gap_afterBlanks middle)
    (solid_afterBlanks middle) (endsEntry_of_comma (by decide) comma symbol)
  have single := end_or_comma_of_tail (listedTail_of_spelledTail tail) comma
  have noSingle {behind : List Char} (comma : SymbolAt "," middle behind) :
      Misses (token ")") (afterBlanks middle) :=
    close_misses_at_comma (by decide) (symbolAt_afterBlanks rfl comma)
  rw [Beginning.payload]
  cases all : (Expr.beginnings items).all Beginning.isPattern with
  | true =>
      rw [if_pos rfl, groupPattern_eq]
      apply Reads.here.bind
      intro origin _
      apply begun.bind
      intro _ _
      refine .orElse_of_misses (reads.bind fun first _ => ?_) noClose.bind
      rcases single with ⟨rfl, _, rfl⟩ | ⟨behind, comma'⟩
      · exact .orElse ((close_reads (by decide) symbol).bind fun _ _ => .pure trivial)
      · refine .orElse_of_misses ?_ (noSingle comma').bind
        exact many_listEnd_reads (others.1 all) (further_misses (by decide) comma symbol
          (patternOf_misses_at_close symbol)) comma symbol
          fun _ => .pure trivial
  | false =>
      refine groupPattern_fails begun noClose fun origin => reads.bind_fails fun first _ => ?_
      rcases single with ⟨rfl, _⟩ | ⟨behind, comma⟩
      · cases all
      · exact groupBehind_fails (noSingle comma) (others.2 all)

/-- Behind a parenthesis a list may be a pattern in parentheses, or a tuple. -/
theorem groupPattern_foreseen [Advancing inner] (foreseen : ∀ item ∈ items, Foreseen inner item)
    (spelled : SpelledItems items opened last)
    (comma : TrailingComma required (!items.isEmpty) last closing)
    (symbol : SymbolAt ")" closing rest) :
    Meets (groupPattern (patternOf inner)) ('(' :: opened) rest
      (Beginning.parenthesized (Expr.beginnings items)) := by
  have opening : SymbolAt "(" ('(' :: opened) opened := .refl _
  cases items with
  | nil =>
      cases spelled
      rcases comma with ⟨_, rfl⟩ | ⟨⟨⟩, _⟩
      apply Reads.here.bind
      intro origin _
      apply (token_reads rfl opening (gap_afterBlanks opened) (solid_afterBlanks opened)).bind
      intro _ _
      exact .orElse ((close_reads (by decide) symbol).bind fun _ _ => .pure trivial)
  | cons item items =>
      rcases spelled with ⟨start, middle, gap, written, tail⟩
      have one := foreseen item List.mem_cons_self
      have noClose : Misses (token ")") start := (one.continues written).token_misses rfl
      have ends := endsEntry_of_spelledTail tail (endsEntry_of_comma (by decide) comma symbol)
      have stands := one.stands written ends.colon_not_mem
      have begun : Reads (token "(") ('(' :: opened) (fun _ => True) start :=
        token_reads rfl opening gap (one.solid written)
      -- The list is decided by its first item, unless that is a pattern.
      have patterned (isPattern : item.beginning.isPattern = true) :=
        groupPattern_foreseen_behind
          (fun item member => foreseen item (List.mem_cons_of_mem _ member)) begun noClose
          (stands.reads isPattern ends.endsPattern) tail comma symbol
      rw [Expr.beginnings]
      cases beginning : item.beginning with
      | missed =>
          rw [beginning] at stands
          exact Reads.here.bind_misses fun _ _ => begun.bind_misses fun _ _ =>
            noClose.bind.orElse (Misses.bind stands)
      | fatal =>
          rw [beginning] at stands
          exact groupPattern_fails begun noClose fun _ => Fails.bind stands
      | part =>
          rw [beginning] at stands
          rcases stands with ⟨stop, reads, continues⟩
          exact groupPattern_fails begun noClose fun origin => reads.bind_fails fun first _ =>
            groupBehind_fails (continues.afterBlanks.token_misses rfl)
              (Stuck.getsStuck (continues.afterBlanks.stuck (further_tuple _)))
      | path | whole =>
          rw [beginning] at patterned
          exact patterned rfl

end

end Grammar

end Templating

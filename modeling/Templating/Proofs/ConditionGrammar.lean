import Templating.Proofs.ExpressionGrammar
import Templating.Proofs.Speculation

/-! # The grammar of conditions

A condition that is an expression is read as that expression, also if it begins with the word of
a binding. The exception is a bracket behind the word that has been taken for the bracket of a
pattern and does not hold one. -/

namespace Templating

variable {room : Room}

open Text Grammar

/-! ## Where a tag ends -/

/-- Nothing that stands in a tag goes on with the text. -/
structure Halts (text : List Char) : Prop where
  solid : Solid text
  stops {before : List Char} : Gap before text → Stops 0 before
  refused : ∀ first ∈ text.head?, startsPattern first = false ∧
    ['\x7b', '='].contains first = false

theorem halts_of_endsTag {text : List Char} (ends : EndsTag text) : Halts text where
  solid := ends.solid
  stops gap := ends.stops gap
  refused := by
    rcases ends with rfl | ⟨trim, delimiter, rest, among, rfl⟩
    · nofun
    · simp only [List.mem_cons, List.not_mem_nil, or_false] at among
      rcases trim with _ | _ | _ | _ <;> rcases among with rfl | rfl <;> (rintro _ ⟨⟩; decide)

namespace Halts

variable {text : List Char} (halts : Halts text)

include halts

theorem afterBlanks_space : afterBlanks (' ' :: text) = text :=
  (gap_space text).afterBlanks_eq halts.solid

theorem behind {last : List Char} (gap : Gap last text) : Refused last := by
  intro first atHead
  rw [gap.afterBlanks_eq halts.solid] at atHead
  exact halts.refused first atHead

theorem not_mem_head {first : Char} (among : startsPattern first ||
    ['\x7b', '='].contains first = true) : first ∉ text.head? := by
  have apart := (halts.behind (.refl text)).not_mem_head among
  rwa [afterBlanks_of_solid halts.solid] at apart

theorem endsPattern : EndsPattern (' ' :: text) :=
  (halts.behind (gap_space text)).endsPattern

theorem noName : ∀ first ∈ text.head?, startsName first = false := by
  intro first atHead
  have noPattern := (Bool.or_eq_false_iff.mp (halts.refused first atHead).1).1
  exact (Bool.or_eq_false_iff.mp noPattern).1

theorem token_misses {symbol : String} {first : Char} (atHead : symbol.toList.head? = some first)
    (among : startsPattern first || ['\x7b', '='].contains first = true) :
    Misses (token symbol) text := by
  apply token_misses_of_head _ (by rintro empty; rw [empty] at atHead; cases atHead)
  rw [afterBlanks_of_solid halts.solid]
  intro other atHead' same
  rw [atHead] at same
  cases same
  exact halts.not_mem_head among atHead'

end Halts

namespace Grammar

open Templating.Expr

variable {offset : Nat} {expression : Expr} {text stop : List Char}

/-! ## Conditions -/

/-- The attempt at a binding. -/
def binding [Room] : Grammar Pattern := do
  let _ ← bindingWord
  bound (patternWithin Room.brackets)

theorem condition_eq : condition = (do
    let start ← here
    let pattern ← optional binding
    let expression ← expect Grammar.expression (.missingExpr .condition)
    return ⟨start, pattern, expression⟩) := by
  simp only [condition, binding, bindingWord, bound]
  rfl

/-- What becomes of the attempt where nothing goes on with what has been read. -/
theorem binding_comes_before (wellFormed : expression.WellFormed IsReadable)
    (nesting : expression.nesting < bracketLimit) (padded : expression.Padded text stop)
    (halts : Halts stop) :
    Comes bindingWord (patternWithin Room.brackets) text stop (expression.speculation false).behind := by
  rcases padded with ⟨start, last, before, spelled, after⟩
  have refused := halts.behind after
  have noColon : ':' ∉ (afterBlanks last).head? := refused.not_mem_head rfl
  have comes := comes_of_spelled (begins_binding before (spelled_solid wellFormed spelled)) wellFormed
    (Nat.le_of_lt_succ nesting) spelled noColon
  exact comes.behind (refused.dismisses _)

/-- What becomes of the attempt at the end of the tag. -/
theorem binding_comes (wellFormed : expression.WellFormed IsReadable)
    (nesting : expression.nesting < bracketLimit) (padded : expression.Padded text stop)
    (ends : EndsTag stop) :
    Comes bindingWord (patternWithin Room.brackets) text stop (expression.speculation false).behind :=
  binding_comes_before wellFormed nesting padded (halts_of_endsTag ends)

theorem binding_misses (comes : Comes bindingWord (patternWithin Room.brackets) text stop
      (expression.speculation false).behind)
    (notFatal : expression.speculation false ≠ .fatal)
    (notCompared : expression.speculation false ≠ .compared) : Misses binding text := by
  have ended (comes : Comes bindingWord (patternWithin Room.brackets) text stop .ended) :
      Misses binding text := by
    rcases comes with ⟨middle, reads, misses⟩
    exact reads.bind_misses fun _ _ => misses
  cases speculation : expression.speculation false with
  | absent =>
      rw [speculation] at comes
      exact Misses.bind comes
  | word | path | pattern | ended =>
      rw [speculation] at comes
      exact ended comes
  | fatal => exact absurd speculation notFatal
  | compared => exact absurd speculation notCompared

/-- Where a tag ends behind an expression, the condition there is that expression and nothing but
it, with the value and the rest that the rule for expressions leaves. If a bracket behind the word
of a binding has been taken for that of a pattern, the parse ends there instead. -/
theorem spelled_condition_is_read (wellFormed : expression.WellFormed IsReadable)
    (nesting : expression.nesting < bracketLimit) (padded : expression.Padded text stop)
    (ends : EndsTag stop) :
    (expression.speculation false ≠ .fatal → expression.speculation false ≠ .compared →
      ∃ value later, Grammar.expression ⟨offset, text⟩ = .matched value later ∧
        condition ⟨offset, text⟩ = .matched ⟨offset, none, value⟩ later ∧
        later = ⟨offset + (text.length - stop.length), stop⟩ ∧ expression.same value = true) ∧
    (expression.speculation false = .fatal →
      ∃ problem offset', condition ⟨offset, text⟩ = .failed (.malformed problem offset') ∧
        problem.code = .invalidPattern) := by
  have comes := binding_comes wellFormed nesting padded ends
  have begun : here ⟨offset, text⟩ = .matched offset ⟨offset, text⟩ := rfl
  constructor
  · intro notFatal notCompared
    rcases padded with ⟨start, last, before, spelled, after⟩
    have missed := binding_misses comes notFatal notCompared offset
    have reads := expression_reads wellFormed nesting before spelled
      ((ends.stops after).mono (Nat.zero_le _))
    rw [after.afterBlanks_eq ends.solid] at reads
    rcases reads offset with ⟨value, offset', matched, agrees⟩
    refine ⟨value, _, matched, ?_, ?_, agrees⟩
    · rw [condition_eq, bind_of_matched begun, bind_of_matched (optional_of_noMatch missed),
        bind_of_matched (expect_of_matched matched)]
      rfl
    · rcases Advancing.reaches matched with ⟨consumed, read, moved⟩
      rw [show text = consumed ++ stop from read, show offset' = offset + consumed.length from moved,
        List.length_append, Nat.add_sub_cancel]
  · intro fatal
    rw [fatal] at comes
    rcases comes with ⟨middle, reads, fails⟩
    have fails : Fails binding text := reads.bind_fails fun _ _ => fails.bind
    rcases fails offset with ⟨problem, offset', failed, code⟩
    refine ⟨problem, offset', ?_, code⟩
    rw [condition_eq, bind_of_matched begun, bind_apply, optional, orElse_apply, bind_apply, failed]

/-- The call is a pattern in parentheses behind the word, and still no binding. -/
theorem spelled_condition_is_read_call :
    let _ : Room := ⟨20⟩
    ∃ value later, Grammar.expression ⟨6, " let (a) < b -%\x7d".toList⟩ = .matched value later ∧
      condition ⟨6, " let (a) < b -%\x7d".toList⟩ = .matched ⟨6, none, value⟩ later ∧
      later = ⟨6 + (" let (a) < b -%\x7d".toList.length - "-%\x7d".toList.length),
        "-%\x7d".toList⟩ ∧
      (Expr.binary 0 .less (.call 0 (.var 0 "let") [.var 0 "a"]) (.var 0 "b")).same value = true := by
  intro room
  refine (spelled_condition_is_read ?_ ?_ ?_ ?_).1 (by decide) (by decide)
  · refine .binary (.call (.var rfl (by decide) (by decide) rfl) (by decide) ?_) (by decide)
      (.var rfl (by decide) (by decide) rfl) (by decide)
    intro argument member
    cases List.mem_singleton.mp member
    exact .var rfl (by decide) (by decide) rfl
  · decide
  · have endsLet : EndsName " (a) < b -%\x7d".toList := by rintro _ ⟨⟩; rfl
    have endsA : EndsName ") < b -%\x7d".toList := by rintro _ ⟨⟩; rfl
    have endsB : EndsName " -%\x7d".toList := by rintro _ ⟨⟩; rfl
    refine ⟨"let (a) < b -%\x7d".toList, " -%\x7d".toList, .cons rfl (.refl _), ?_,
      .cons rfl (.refl _)⟩
    refine ⟨" < b -%\x7d".toList, " b -%\x7d".toList, "b -%\x7d".toList, ?_, ?_,
      .cons rfl (.refl _), ⟨rfl, rfl, endsB⟩⟩
    · exact ⟨" (a) < b -%\x7d".toList, "a) < b -%\x7d".toList, ") < b -%\x7d".toList,
        ⟨rfl, rfl, endsLet⟩, .cons rfl (.refl _),
        ⟨"a) < b -%\x7d".toList, _, .refl _, ⟨rfl, rfl, endsA⟩, rfl⟩, .refl _⟩
    · exact ⟨.cons rfl (.refl _), nofun⟩
  · exact .inr ⟨some .suppress, "%\x7d", [], by decide, rfl⟩

/-- Not every expression is read as a condition: without any equals sign in the text, the arguments
of a call may be taken for a malformed tuple. -/
theorem call_taken_for_tuple_is_not_read :
    let _ : Room := ⟨20⟩
    ∃ (expression : Expr) (text stop : List Char), expression.WellFormed IsReadable ∧
      expression.nesting < bracketLimit ∧ expression.Padded text stop ∧ EndsTag stop ∧
        '=' ∉ text ∧ ¬ ∃ value later, condition ⟨0, text⟩ = .matched ⟨0, none, value⟩ later ∧
          expression.same value = true := by
  intro room
  refine ⟨.call 0 (.var 0 "let") [.var 0 "a", .binary 0 .add (.var 0 "b") (.literal 0 .number "1")],
    "let(a, b + 1) %\x7d".toList, "%\x7d".toList, ?_, by decide, ?_,
    .inr ⟨none, "%\x7d", [], by decide, rfl⟩, by decide, ?_⟩
  · refine .call (.var rfl (by decide) (by decide) rfl) (by decide) ?_
    intro argument member
    simp only [List.mem_cons, List.not_mem_nil, or_false] at member
    rcases member with rfl | rfl
    · exact .var rfl (by decide) (by decide) rfl
    · exact .binary (.var rfl (by decide) (by decide) rfl) (by decide) (.literal (.inl rfl)) (by decide)
  · have endsLet : EndsName "(a, b + 1) %\x7d".toList := by rintro _ ⟨⟩; rfl
    have endsA : EndsName ", b + 1) %\x7d".toList := by rintro _ ⟨⟩; rfl
    have endsB : EndsName " + 1) %\x7d".toList := by rintro _ ⟨⟩; rfl
    have endsOne : EndsNumber "1".toList ") %\x7d".toList := ⟨by rintro _ ⟨⟩; rfl, nofun⟩
    refine ⟨_, " %\x7d".toList, .refl _, ?_, .cons rfl (.refl _)⟩
    refine ⟨_, "a, b + 1) %\x7d".toList, ") %\x7d".toList, ⟨rfl, rfl, endsLet⟩, .refl _, ?_,
      .refl _⟩
    refine ⟨_, ", b + 1) %\x7d".toList, .refl _, ⟨rfl, rfl, endsA⟩, ?_⟩
    refine ⟨" b + 1) %\x7d".toList, "b + 1) %\x7d".toList, ") %\x7d".toList, .refl _,
      .cons rfl (.refl _), ?_, rfl⟩
    exact ⟨" + 1) %\x7d".toList, " 1) %\x7d".toList, "1) %\x7d".toList, ⟨rfl, rfl, endsB⟩,
      ⟨.cons rfl (.refl _), nofun⟩, .cons rfl (.refl _), ⟨rfl, endsOne⟩⟩
  · rintro ⟨value, later, matched, _⟩
    have failed : condition ⟨0, "let(a, b + 1) %\x7d".toList⟩ =
        .failed (.malformed .tupleEnd 9) := rfl
    rw [failed] at matched
    cases matched

end Grammar

end Templating

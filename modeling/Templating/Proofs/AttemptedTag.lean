import Templating.Proofs.AttemptedPattern
import Templating.Proofs.PrintedTag

/-! # Tags that are attempted

What a body holds besides its constructs, and the tags of constructs, as they are run with one
cursor. A tag that is not one of those that are waited for is given back as a whole. What stands
behind the word of a statement never gives up. -/

namespace Templating.Attempt

variable {room : Room}

open Grammar (Consuming Certain token keyword nameToken stringToken here spaces exact ahead edge
  upTo opensTag tagStart word wordOf)

/-! ## Nodes without a body -/

section

variable (dialect : Dialect)

def text : Attempt Node := do
  let start ← scan here
  let run ← scan (upTo (opensTag dialect))
  if run.isEmpty then
    giveUp
  else
    return .text start (Passage.ofChars run)

def comment : Attempt Node := do
  let start ← scan here
  scan (exact dialect.commentStart.chars)
  let left ← scan edge
  let state ← scan (Grammar.chain (Grammar.commentStep dialect) ⟨0, none⟩)
  scan (exact dialect.commentEnd.chars) <|>
    scan (Grammar.failAt (.openComment dialect.commentEnd.text) start)
  return .comment start ⟨left, state.last.bind Trim.ofMark?⟩

def output [Room] : Attempt Node := do
  let start ← scan here
  scan (exact dialect.exprStart.chars)
  let left ← scan edge
  let value ← expect expression (.missingExpr (.output dialect.exprStart.text))
  let right ← scan edge
  expect (scan (exact dialect.exprEnd.chars)) (.openOutput dialect.exprEnd.text)
  return .output start ⟨left, right⟩ value

/-- Blanks, and a comment if there is one. -/
def commentTurn (_ : Unit) : Attempt (Turn Unit Unit) := do
  scan spaces
  branch (comment dialect) (fun _ => return .again ()) (return .done ())

def skipComments : Attempt Unit :=
  loop (commentTurn dialect) ()

/-! ## Tags -/

def tag (words : List String) : Attempt OpenedTag := do
  let before ← mark
  let offset ← scan here
  scan (exact dialect.blockStart.chars)
  let trim ← scan edge
  scan spaces
  let word ← scan (wordOf words) <|> backTo before
  scan spaces
  return { offset, trim, word }

def endTag (opener closer : String) (start : Nat) : Attempt (Option Trim) :=
  (do return (← tag dialect [closer]).trim) <|>
    scan (Grammar.missingEndTag dialect opener closer start)

/-- The beginning of a tag whose word is that of a statement; any other tag is given back. -/
def statementStart : Attempt (OpenedTag × Keyword) := do
  let before ← mark
  let offset ← scan here
  scan (exact dialect.blockStart.chars)
  let trim ← scan edge
  scan spaces
  let word ← scan Grammar.name <|> backTo before
  match Keyword.ofWord? word with
  | none => backTo before
  | some keyword => do
      scan spaces
      return ({ offset, trim, word }, keyword)

end

/-! ## What stands behind a word -/

/-- If what begins like a pattern is not followed by an equals sign, the cursor is put back. -/
def condition [Room] : Attempt Condition := do
  let before ← mark
  let start ← scan here
  let pattern ← optional <|
    (do
      let _ ← scan (keyword "let") <|> scan (keyword "set")
      let pattern ← pattern
      scan (token "=")
      return pattern) <|>
    backTo before
  let expression ← expect expression (.missingExpr .condition)
  return ⟨start, pattern, expression⟩

def assignment [Room] (opened : OpenedTag) : Attempt Node := do
  let pattern ← expect pattern (.missingPattern .binding)
  branch (scan (token "="))
    (fun _ => do
      let value ← expect expression (.missingExpr .value)
      return .assign opened.offset ⟨opened.trim, ← scan edge⟩ pattern value)
    (do return .declare opened.offset ⟨opened.trim, ← scan edge⟩ pattern)

def macroCall [Room] (opened : OpenedTag) : Attempt Node := do
  let first ← expect (scan nameToken) (.missingName .calledMacro)
  let second ← optional do
    scan (token "::")
    expect (scan nameToken) (.missingName .scopedMacro)
  let arguments ← branch (scan (ahead fun rest => rest.head? == some '('))
    (fun _ => expect arguments .callArguments) (return [])
  let right ← scan edge
  match second with
  | none => return .macroCall opened.offset ⟨opened.trim, right⟩ none first arguments
  | some second => return .macroCall opened.offset ⟨opened.trim, right⟩ (some first) second arguments

/-! ## What they come to -/

section

variable (dialect : Dialect)

theorem text_keeps : (text dialect).Keeps (Grammar.text dialect) := by
  intro cursor
  refine (scan_keeps _ cursor).bind fun start _ begun => ?_
  cases begun
  refine (scan_keeps _ cursor).bind fun run later read => ?_
  cases run with
  | nil =>
      obtain ⟨empty, rfl⟩ := Outcome.matched.inj read
      rw [empty, List.length_nil, Cursor.advance_zero]
      exact giveUp_keeps cursor
  | cons first others => exact pure_returns ..

theorem comment_keeps : (comment dialect).Keeps (Grammar.comment dialect) := by
  intro cursor
  refine (scan_keeps _ cursor).bind fun start _ begun => ?_
  cases begun
  refine (scan_keeps _ cursor).bind fun _ opened _ => ?_
  refine ((scan_keeps _).returns cursor opened).bind fun left marked _ => ?_
  refine ((scan_keeps _).returns cursor marked).bind fun state behind _ => ?_
  refine (((scan_keeps _).orElse (scan_keeps _)).returns cursor behind).bind fun _ _ _ => ?_
  exact pure_returns ..

theorem output_keeps : (output dialect).Keeps (Grammar.output dialect) := by
  intro cursor
  refine (scan_keeps _ cursor).bind fun start _ begun => ?_
  cases begun
  refine (scan_keeps _ cursor).bind fun _ opened _ => ?_
  refine ((scan_keeps _).returns cursor opened).bind fun left marked _ => ?_
  refine ((expression_keeps.expect _).returns cursor marked).bind fun value behind _ => ?_
  refine ((scan_keeps _).returns cursor behind).bind fun right marked' _ => ?_
  exact (((scan_keeps _).expect _).returns cursor marked').bind fun _ _ _ => pure_returns ..

theorem tag_keeps (words : List String) : (tag dialect words).Keeps (Grammar.tag dialect words) := by
  refine keeps_of_mark fun cursor => (scan_keeps _ cursor).bind fun offset _ begun => ?_
  cases begun
  refine (scan_keeps _ cursor).bind fun _ opened _ => ?_
  refine ((scan_keeps _).returns cursor opened).bind fun trim marked _ => ?_
  refine ((scan_keeps _).returns cursor marked).bind fun _ blanks _ => ?_
  refine ((scan_keeps _).follows blanks |>.orBackTo cursor).bind fun word behind _ => ?_
  exact ((scan_keeps _).returns cursor behind).bind fun _ _ _ => pure_returns ..

theorem endTag_keeps (opener closer : String) (start : Nat) :
    (endTag dialect opener closer start).Keeps (Grammar.endTag dialect opener closer start) :=
  .orElse (fun cursor => (tag_keeps dialect _ cursor).bind fun _ _ _ => pure_returns ..)
    (scan_keeps _)

theorem statementStart_keeps : (statementStart dialect).Keeps (Parser.statementStart dialect) := by
  refine keeps_of_mark fun cursor => (scan_keeps _ cursor).bind fun offset _ begun => ?_
  cases begun
  refine (scan_keeps _ cursor).bind fun _ opened _ => ?_
  refine ((scan_keeps _).returns cursor opened).bind fun trim marked _ => ?_
  refine ((scan_keeps _).returns cursor marked).bind fun _ blanks _ => ?_
  refine ((scan_keeps _).follows blanks |>.orBackTo cursor).bind fun word behind _ => ?_
  cases Keyword.ofWord? word with
  | none => exact backTo_returns ..
  | some keyword =>
      exact ((scan_keeps _).returns cursor behind).bind fun _ _ _ => pure_returns ..

theorem exact_ends (delimiter : Delimiter) (offset : Nat) :
    exact delimiter.chars ⟨offset, []⟩ = .noMatch := by
  have long := delimiter.long
  have missed : delimiter.chars.isPrefixOf [] = false := by
    cases shape : delimiter.chars with
    | nil => simp [shape] at long
    | cons first others => rfl
  simp [exact, missed]

theorem comment_ends (offset : Nat) : Grammar.comment dialect ⟨offset, []⟩ = .noMatch :=
  (Grammar.bind_of_matched rfl).trans
    (Grammar.bind_of_noMatch (exact_ends dialect.commentStart offset))

/-- A turn reads blanks and a comment, or blanks and nothing. -/
theorem skipComments_keeps : (skipComments dialect).Keeps (Grammar.skipComments dialect) := by
  intro cursor
  refine loop_eq (fun _ cursor => (Grammar.skipComments dialect cursor).from cursor)
    (fun _ cursor => ?_) () cursor
  have ends (offset : Nat) :
      (Grammar.comment dialect >>= fun _ => spaces) ⟨offset, []⟩ = .noMatch :=
    Grammar.bind_of_noMatch (comment_ends dialect offset)
  have blanks : spaces cursor = .matched () cursor.skipSpaces := rfl
  have found := comment_keeps dialect cursor.skipSpaces
  rw [Returns] at found
  rw [commentTurn, Grammar.skipComments, bind_of_got (scan_of_matched blanks),
    Grammar.bind_of_matched blanks, Grammar.many_bind_unfold ends]
  cases read : Grammar.comment dialect cursor.skipSpaces with
  | matched node later =>
      rw [read] at found
      rw [branch_of_got found, Grammar.bind_of_matched read]
      have shorter := (Consuming.passes read).2
      have shorter' : cursor.skipSpaces.rest.length ≤ cursor.rest.length :=
        (cursor.reaches_skipSpaces).length_le
      have certain : Certain (Grammar.skipComments dialect) := inferInstance
      exact ⟨by omega, from_eq_from (certain.ne_noMatch later)⟩
  | noMatch =>
      rw [read] at found
      rw [branch_of_gaveUp found, Grammar.bind_of_noMatch read]
      rfl
  | failed failure =>
      rw [read] at found
      rw [branch_of_failed found, Grammar.bind_of_failed read]
      rfl

end

/-! ## Which tag stands at a cursor -/

section

variable {dialect : Dialect} {cursor : Cursor}

/-- No two words stand at one cursor. -/
theorem noMatch_of_word {first second value : String} {later : Cursor}
    (isWord : first.toList.all Text.continuesName = true)
    (isWord' : second.toList.all Text.continuesName = true) (apart : first ≠ second)
    (matched : Grammar.word first cursor = .matched value later) :
    Grammar.word second cursor = .noMatch :=
  (Grammar.word_misses
    (Text.WordAt.not_wordAt isWord isWord' apart (Grammar.word_yields matched).2)).eq_noMatch

section

variable {start : Nat × Option Trim} {middle behind : Cursor} {words : List String} {value : String}
  (begun : Grammar.tagStart dialect cursor = .matched start middle)

include begun

theorem tag_of_word (found : Grammar.wordOf words middle = .matched value behind) :
    Grammar.tag dialect words cursor = .matched ⟨start.1, start.2, value⟩ behind.skipSpaces := by
  rw [Grammar.tag_eq, Grammar.bind_of_matched begun, Grammar.bind_of_matched found]
  rfl

theorem tag_of_noWord (missed : Grammar.wordOf words middle = .noMatch) :
    Grammar.tag dialect words cursor = .noMatch := by
  rw [Grammar.tag_eq, Grammar.bind_of_matched begun, Grammar.bind_of_noMatch missed]

end

theorem tag_ends (words : List String) (offset : Nat) :
    Grammar.tag dialect words ⟨offset, []⟩ = .noMatch :=
  (Grammar.bind_of_matched rfl).trans (Grammar.bind_of_noMatch (exact_ends dialect.blockStart offset))

/-- Where a tag is waited for with one of two words, it has none of them, the first or the
second. -/
theorem tag_pair_cases (dialect : Dialect) (first second : String)
    (isWord : first.toList.all Text.continuesName = true)
    (isWord' : second.toList.all Text.continuesName = true) (apart : first ≠ second)
    (cursor : Cursor) :
    (Grammar.tag dialect [first, second] cursor = .noMatch ∧
        Grammar.tag dialect [first] cursor = .noMatch ∧
          Grammar.tag dialect [second] cursor = .noMatch) ∨
      ∃ opened later, Grammar.tag dialect [first, second] cursor = .matched opened later ∧
        ((opened.word = first ∧ Grammar.tag dialect [first] cursor = .matched opened later ∧
            Grammar.tag dialect [second] cursor = .noMatch) ∨
          (opened.word = second ∧ Grammar.tag dialect [first] cursor = .noMatch ∧
            Grammar.tag dialect [second] cursor = .matched opened later)) := by
  rcases Grammar.Quiet.cases (Grammar.tagStart dialect) cursor with missed | ⟨start, middle, begun⟩
  · have none (words : List String) : Grammar.tag dialect words cursor = .noMatch := by
      rw [Grammar.tag_eq, Grammar.bind_of_noMatch missed]
    exact .inl ⟨none _, none _, none _⟩
  have one {text : String} (missed : Grammar.word text middle = .noMatch) :
      Grammar.tag dialect [text] cursor = .noMatch :=
    tag_of_noWord begun (Grammar.orElse_of_noMatch missed)
  rcases Grammar.Quiet.cases (Grammar.word first) middle with missed | ⟨_, behind, found⟩
  · rcases Grammar.Quiet.cases (Grammar.word second) middle with missed' | ⟨_, behind, found⟩
    · exact .inl ⟨tag_of_noWord begun
        ((Grammar.orElse_of_noMatch missed).trans (Grammar.orElse_of_noMatch missed')),
        one missed, one missed'⟩
    · have second : Grammar.wordOf [second] middle = .matched _ behind :=
        Grammar.orElse_of_matched found
      exact .inr ⟨_, _, tag_of_word begun ((Grammar.orElse_of_noMatch missed).trans second),
        .inr ⟨(Grammar.word_yields found).1, one missed, tag_of_word begun second⟩⟩
  · have missed := noMatch_of_word isWord isWord' apart found
    exact .inr ⟨_, _, tag_of_word begun (Grammar.orElse_of_matched found),
      .inl ⟨(Grammar.word_yields found).1, tag_of_word begun (Grammar.orElse_of_matched found),
        one missed⟩⟩

end

/-! ## Behind a word -/

theorem condition_keeps : condition.Keeps Grammar.condition := by
  refine keeps_of_mark fun cursor => (scan_keeps _ cursor).bind fun start _ begun => ?_
  cases begun
  have binding : (do
      let _ ← scan (keyword "let") <|> scan (keyword "set")
      let pattern ← pattern
      scan (token "=")
      return pattern : Attempt Pattern).Follows (do
      let _ ← keyword "let" <|> keyword "set"
      let pattern ← Grammar.pattern
      token "="
      return pattern) cursor := by
    refine (((scan_keeps _).orElse (scan_keeps _)).follows cursor).bind fun _ behind _ => ?_
    refine (pattern_keeps.follows behind).bind fun pattern later _ => ?_
    exact ((scan_keeps _).follows later).bind fun _ _ _ => pure_follows ..
  refine (binding.orBackTo cursor).optional.bind fun pattern behind _ => ?_
  exact ((expression_keeps.expect _).returns cursor behind).bind fun _ _ _ => pure_returns ..

theorem assignment_keeps (opened : OpenedTag) :
    (assignment opened).Keeps (Grammar.assignment opened) := by
  intro cursor
  refine (pattern_keeps.expect _ cursor).bind fun pattern behind _ => ?_
  refine Returns.branch (scan_keeps _ behind) (fun _ later _ => ⟨?_, fun missed => ?_⟩) fun _ => ?_
  · refine ((expression_keeps.expect _).returns cursor later).bind fun value last _ => ?_
    exact ((scan_keeps _).returns cursor last).bind fun _ _ _ => pure_returns ..
  · exact absurd missed (Certain.ne_noMatch later)
  · exact ((scan_keeps _).returns cursor behind).bind fun _ _ _ => pure_returns ..

theorem macroCall_keeps (opened : OpenedTag) :
    (macroCall opened).Keeps (Grammar.macroCall opened) := by
  intro cursor
  refine ((scan_keeps _).expect _ cursor).bind fun first behind _ => ?_
  have qualified : (do
      scan (token "::")
      expect (scan nameToken) (.missingName .scopedMacro) : Attempt String).Keeps (do
      token "::"
      Grammar.expect nameToken (.missingName .scopedMacro)) := fun cursor =>
    (scan_keeps _ cursor).bind fun _ later _ => ((scan_keeps _).expect _).returns cursor later
  refine (qualified.optional.returns cursor behind).bind fun second last _ => ?_
  have called : (branch (scan (ahead fun rest => rest.head? == some '('))
      (fun _ => expect arguments .callArguments) (pure [])).Keeps
      ((do
        ahead fun rest => rest.head? == some '('
        Grammar.expect Grammar.arguments .callArguments) <|> pure []) := fun cursor =>
    (scan_keeps _ cursor).branch
      (fun _ later _ => ⟨(arguments_keeps.expect _).returns cursor later,
        fun missed => absurd missed (Certain.ne_noMatch later)⟩)
      fun _ => pure_returns ..
  refine (called.returns cursor last).bind fun arguments end' _ => ?_
  refine ((scan_keeps _).returns cursor end').bind fun right _ _ => ?_
  cases second <;> exact pure_returns ..

end Templating.Attempt

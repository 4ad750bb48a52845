import Templating.Proofs.BracketDepth
import Templating.Proofs.Continuation
import Templating.Proofs.PatternCompleteness

/-! # Where patterns commit

Whether the rule for patterns gives up is told by the first lexeme behind the parentheses that a
text begins with. Wherever a pattern has been begun, the rule yields one or ends the parse with a
fault of the pattern, and where none has been begun the text is left to other rules. Expressions
never end the parse for what is written in them. -/

namespace Templating.Grammar

variable {room : Room}

open Text

variable {α : Type} {cursor later : Cursor} {text : List Char} {first : Char}

/-! ## The beginning of a pattern -/

/-- What may stand in front of the first lexeme of a pattern. -/
def precedesPattern (character : Char) : Bool :=
  isSpace character || character == '('

/-- A literal, a qualified name or a name stands at the beginning of the text. -/
def beginsLeaf (text : List Char) : Bool :=
  matchesAt string text || matchesAt characterText text || matchesAt number text ||
    matchesAt boolean text || matchesAt path text || matchesAt name text

/-- A pattern is begun: behind blanks and opening parentheses there is a literal or a name, or the
parenthesis that closes the last of them. -/
def beginsPattern (text : List Char) : Bool :=
  beginsLeaf (text.dropWhile precedesPattern) ||
    (text.takeWhile precedesPattern).contains '(' &&
      (text.dropWhile precedesPattern).head? == some ')'

theorem matchesAt_eq_false_iff (rule : Grammar α) [Quiet rule] [Placeless rule] (cursor : Cursor) :
    matchesAt rule cursor.rest = false ↔ rule cursor = .noMatch := by
  rw [misses_iff rule, matchesAt]
  constructor
  · intro unmatched
    have missed : rule ⟨0, cursor.rest⟩ = .noMatch := by
      rcases Quiet.cases rule ⟨0, cursor.rest⟩ with missed | ⟨value, later, matched⟩
      · exact missed
      · rw [matched] at unmatched
        cases unmatched
    have misses := Placeless.misses missed
    exact misses
  · intro misses
    rw [misses 0]

theorem beginsLeaf_eq_false_iff (cursor : Cursor) :
    beginsLeaf cursor.rest = false ↔
      string cursor = .noMatch ∧ characterText cursor = .noMatch ∧ number cursor = .noMatch ∧
        boolean cursor = .noMatch ∧ path cursor = .noMatch ∧ name cursor = .noMatch := by
  simp only [beginsLeaf, Bool.or_eq_false_iff, matchesAt_eq_false_iff, and_assoc]

theorem beginsPattern_blank (space : isSpace first = true) (text : List Char) :
    beginsPattern (first :: text) = beginsPattern text := by
  have apart : first ≠ '(' := by
    rintro rfl
    cases space
  have precedes : precedesPattern first = true := by simp [precedesPattern, space]
  rw [beginsPattern, beginsPattern, List.dropWhile_cons_of_pos precedes,
    List.takeWhile_cons_of_pos precedes]
  simp [Ne.symm apart]

theorem beginsPattern_afterBlanks (text : List Char) :
    beginsPattern (afterBlanks text) = beginsPattern text := by
  have along {text rest : List Char} (gap : Gap text rest) :
      beginsPattern rest = beginsPattern text := by
    induction gap with
    | refl => rfl
    | cons space _ induction => rw [beginsPattern_blank space, induction]
  exact along (gap_afterBlanks text)

/-- A text that begins with neither a blank nor a parenthesis is not passed over. -/
theorem takeWhile_precedesPattern (solid : Solid text) (apart : text.head? ≠ some '(') :
    text.takeWhile precedesPattern = [] ∧ text.dropWhile precedesPattern = text := by
  cases text with
  | nil => exact ⟨rfl, rfl⟩
  | cons first text =>
      have other : first ≠ '(' := fun same => apart (congrArg some same)
      have stops : precedesPattern first = false := by
        simp [precedesPattern, solid_cons.mp solid, other]
      simp [stops]

theorem beginsPattern_leaf (solid : Solid text) (apart : text.head? ≠ some '(') :
    beginsPattern text = beginsLeaf text := by
  obtain ⟨passed, stays⟩ := takeWhile_precedesPattern solid apart
  rw [beginsPattern, passed, stays]
  simp

theorem dropWhile_precedesPattern_afterBlanks (text : List Char) :
    (afterBlanks text).dropWhile precedesPattern = text.dropWhile precedesPattern := by
  have along {text rest : List Char} (gap : Gap text rest) :
      rest.dropWhile precedesPattern = text.dropWhile precedesPattern := by
    induction gap with
    | refl => rfl
    | cons space _ induction =>
        rw [induction, List.dropWhile_cons_of_pos (by simp [precedesPattern, space])]
  exact along (gap_afterBlanks text)

/-- Behind a parenthesis a pattern is begun, or the parenthesis that closes it stands there. -/
theorem beginsPattern_parenthesis (text : List Char) :
    beginsPattern ('(' :: text) =
      (beginsPattern text || (afterBlanks text).head? == some ')') := by
  have whole (text : List Char) : beginsPattern ('(' :: text) =
      (beginsLeaf (text.dropWhile precedesPattern) ||
        (text.dropWhile precedesPattern).head? == some ')') := by
    rw [beginsPattern, List.dropWhile_cons_of_pos rfl, List.takeWhile_cons_of_pos rfl]
    simp
  rw [whole, ← dropWhile_precedesPattern_afterBlanks, ← beginsPattern_afterBlanks text]
  have solid : Solid (afterBlanks text) := solid_afterBlanks text
  by_cases opened : (afterBlanks text).head? = some '('
  · obtain ⟨rest, shape⟩ := List.head?_eq_some_iff.mp opened
    rw [shape, whole, List.dropWhile_cons_of_pos rfl]
    simp
  · rw [beginsPattern_leaf solid opened, (takeWhile_precedesPattern solid opened).2]

/-! ## Leaves -/

variable (inner : Grammar Pattern)

theorem here_bind_eq_noMatch {next : Nat → Grammar α} :
    (here >>= next) cursor = .noMatch ↔ next cursor.offset cursor = .noMatch :=
  .rfl

theorem literalPattern_eq_noMatch_iff :
    literalPattern cursor = .noMatch ↔ string cursor = .noMatch ∧ characterText cursor = .noMatch ∧
      number cursor = .noMatch ∧ boolean cursor = .noMatch := by
  simp only [literalPattern, here_bind_eq_noMatch, orElse_eq_noMatch, bind_certain_eq_noMatch]

theorem namePattern_eq_noMatch_iff : namePattern cursor = .noMatch ↔ name cursor = .noMatch := by
  rw [namePattern, here_bind_eq_noMatch, bind_certain_eq_noMatch]

/-- Once a qualified name has been read, it is a pattern if no payload follows. -/
theorem pathPattern_eq_noMatch_iff :
    pathPattern inner cursor = .noMatch ↔ path cursor = .noMatch := by
  rw [pathPattern, here_bind_eq_noMatch, bind_certain_eq_noMatch]

theorem leaf_eq_noMatch_iff :
    literalPattern cursor = .noMatch ∧ pathPattern inner cursor = .noMatch ∧
        namePattern cursor = .noMatch ↔
      beginsLeaf cursor.rest = false := by
  rw [literalPattern_eq_noMatch_iff, pathPattern_eq_noMatch_iff, namePattern_eq_noMatch_iff,
    beginsLeaf_eq_false_iff]
  simp only [and_assoc]

theorem beginsLeaf_parenthesis (text : List Char) : beginsLeaf ('(' :: text) = false := by
  have unbegun := (leaf_eq_noMatch_iff tooDeep).mp
    ⟨literalPattern_misses_bracket text 0, pathPattern_misses_bracket text 0,
      namePattern_misses_bracket text 0⟩
  exact unbegun

/-! ## Parentheses -/

/-- What stands in parentheses, up to the one that closes them. -/
def groupInside (start : Nat) : Grammar Pattern :=
  (do token ")"; return .tuple start [] []) <|> do
    let first ← inner
    (do token ")"; return first) <|> do
      let others ← many do
        token ","
        inner
      let _ ← optional (token ",")
      expect (token ")") .tupleEnd
      return .tuple start [] (first :: others)

theorem groupPattern_opened (opened : cursor.rest = '(' :: text) :
    ∃ behind : Cursor, behind.rest = afterBlanks text ∧
      groupPattern inner cursor = groupInside inner cursor.offset behind := by
  have spelled : SymbolAt "(" cursor.rest text := by
    rw [opened]
    exact .refl _
  rcases token_reads rfl spelled (gap_afterBlanks text) (solid_afterBlanks text) cursor.offset with
    ⟨_, offset, matched, _⟩
  exact ⟨⟨offset, afterBlanks text⟩, rfl, bind_of_matched matched⟩

/-- Behind its first item a tuple is read to its end or found malformed. -/
theorem groupInside_eq_noMatch_iff (start : Nat) :
    groupInside inner start cursor = .noMatch ↔
      token ")" cursor = .noMatch ∧ inner cursor = .noMatch := by
  rw [groupInside, orElse_eq_noMatch, bind_certain_eq_noMatch, bind_certain_eq_noMatch]

theorem token_closing_eq_noMatch_iff :
    token ")" cursor = .noMatch ↔ (afterBlanks cursor.rest).head? ≠ some ')' := by
  rw [token_eq_noMatch rfl]
  constructor
  · intro apart closes
    obtain ⟨rest, shape⟩ := List.head?_eq_some_iff.mp closes
    have gap := gap_afterBlanks cursor.rest
    rw [shape] at gap
    exact apart rest gap
  · exact fun apart rest spelled => apart (symbol_head rfl spelled)

theorem groupInside_eq_failed {start : Nat} {failure : Failure}
    (open' : token ")" cursor = .noMatch) (failed : inner cursor = .failed failure) :
    groupInside inner start cursor = .failed failure :=
  orElse_eq_failed.mpr (.inr ⟨bind_of_noMatch open', bind_eq_failed.mpr (.inl failed)⟩)

/-- Whether the rule gives up is told by what the text begins with, as far as the rule follows the
brackets. -/
structure CommitsAt (rule : Grammar Pattern) (cursor : Cursor) : Prop where
  begins : rule cursor = .noMatch → beginsPattern cursor.rest = false
  gives_up : beginsPattern cursor.rest = false →
    rule cursor = .noMatch ∨ ∃ offset, rule cursor = .failed (.tooDeep offset)

variable {inner}

theorem groupPattern_commits (commits : ∀ behind, CommitsAt inner behind)
    (opened : cursor.rest = '(' :: text) : CommitsAt (groupPattern inner) cursor := by
  obtain ⟨behind, rest, inside⟩ := groupPattern_opened inner opened
  have begun : beginsPattern cursor.rest =
      (beginsPattern behind.rest || behind.rest.head? == some ')') := by
    rw [opened, beginsPattern_parenthesis, rest, beginsPattern_afterBlanks]
  have closes : token ")" behind = .noMatch ↔ (behind.rest.head? == some ')') = false := by
    rw [token_closing_eq_noMatch_iff, rest, afterBlanks_of_solid (solid_afterBlanks text)]
    simp
  constructor
  · intro missed
    rw [inside, groupInside_eq_noMatch_iff] at missed
    rw [begun, (commits behind).begins missed.2, closes.mp missed.1]
    rfl
  · intro unbegun
    rw [begun, Bool.or_eq_false_iff] at unbegun
    have open' := closes.mpr unbegun.2
    rw [inside]
    rcases (commits behind).gives_up unbegun.1 with missed | ⟨offset, failed⟩
    · exact .inl ((groupInside_eq_noMatch_iff inner cursor.offset).mpr ⟨open', missed⟩)
    · exact .inr ⟨offset, groupInside_eq_failed inner open' failed⟩

theorem patternChoice_commits (commits : ∀ behind, CommitsAt inner behind)
    (solid : Solid cursor.rest) : CommitsAt (patternChoice inner) cursor := by
  by_cases opened : cursor.rest.head? = some '('
  · obtain ⟨text, shape⟩ := List.head?_eq_some_iff.mp opened
    obtain ⟨noLiteral, noName⟩ :=
      (leaf_eq_noMatch_iff inner).mpr (shape ▸ beginsLeaf_parenthesis text)
    have group : patternChoice inner cursor = groupPattern inner cursor := by
      rw [patternChoice, orElse_of_noMatch noLiteral]
      exact orElse_of_noMatch_right (orElse_eq_noMatch.mpr noName)
    have commitsAt := groupPattern_commits commits shape
    constructor
    · rw [group]
      exact commitsAt.begins
    · rw [group]
      exact commitsAt.gives_up
  · have noGroup : groupPattern inner cursor = .noMatch := by
      refine (groupPattern_misses ?_ : Misses (groupPattern inner) cursor.rest).eq_noMatch
      rwa [afterBlanks_of_solid solid]
    have leaf : patternChoice inner cursor = .noMatch ↔ beginsPattern cursor.rest = false := by
      rw [beginsPattern_leaf solid opened, ← leaf_eq_noMatch_iff inner]
      simp only [patternChoice, orElse_eq_noMatch, noGroup, true_and]
    exact ⟨leaf.mp, fun unbegun => .inl (leaf.mpr unbegun)⟩

/-- The blanks around a rule do not tell whether it gives up. -/
theorem spaced_commits {rule : Grammar Pattern} (commits : CommitsAt rule cursor.skipSpaces) :
    CommitsAt (spaced rule) cursor := by
  have begun : beginsPattern cursor.skipSpaces.rest = beginsPattern cursor.rest := by
    rw [skipSpaces_rest, beginsPattern_afterBlanks]
  have shape : spaced rule cursor =
      (rule >>= fun value => spaces >>= fun _ => pure value) cursor.skipSpaces := rfl
  constructor
  · intro missed
    rw [shape, bind_certain_eq_noMatch] at missed
    rw [← begun]
    exact commits.begins missed
  · intro unbegun
    simp only [shape, bind_certain_eq_noMatch, bind_eq_failed]
    exact (commits.gives_up (begun.trans unbegun)).imp_right fun ⟨offset, failed⟩ =>
      ⟨offset, .inl failed⟩

theorem patternOf_commits (commits : ∀ behind, CommitsAt inner behind) (cursor : Cursor) :
    CommitsAt (patternOf inner) cursor :=
  spaced_commits (patternChoice_commits commits (by
    rw [skipSpaces_rest]
    exact solid_afterBlanks cursor.rest))

theorem patternWithin_commits (brackets : Nat) (cursor : Cursor) :
    CommitsAt (patternWithin brackets) cursor := by
  -- With no bracket left the rule ends the parse, which a rule that commits may do.
  induction brackets generalizing cursor with
  | zero => exact ⟨nofun, fun _ => .inr ⟨_, rfl⟩⟩
  | succ brackets induction => exact patternOf_commits induction cursor

/-! ## Where the rules give up and where they end the parse -/

/-- Nothing that is written in an expression ends the parse. -/
theorem failed_tooDeep {rule : Grammar α} [blameless : Blaming (fun _ => false) rule]
    {failure : Failure} (failed : rule cursor = .failed failure) :
    ∃ offset, failure = .tooDeep offset := by
  cases failure with
  | tooDeep offset => exact ⟨offset, rfl⟩
  | malformed problem offset => cases blameless.admitted failed

/-- Wherever they are applied, the rules for expressions and for arguments end no parse except
where the text has more opening brackets than there is room for. The rule for patterns gives up
where no pattern is begun. Where one is, it yields a pattern or ends the parse with a fault of the
pattern. -/
theorem patterns_commit (cursor : Cursor) :
    (∀ failure, expression cursor = .failed failure →
      (∃ offset, failure = .tooDeep offset) ∧ bracketLimit ≤ openings cursor.rest) ∧
    (∀ failure, arguments cursor = .failed failure →
      (∃ offset, failure = .tooDeep offset) ∧ bracketLimit < openings cursor.rest) ∧
    match pattern cursor with
    | .matched _ _ => beginsPattern cursor.rest = true
    | .noMatch => beginsPattern cursor.rest = false
    | .failed (.malformed problem _) =>
        beginsPattern cursor.rest = true ∧ problem.code = .invalidPattern
    | .failed (.tooDeep _) => bracketLimit ≤ openings cursor.rest := by
  refine ⟨fun failure failed => ?_, fun failure failed => ?_, ?_⟩
  · obtain ⟨offset, rfl⟩ := failed_tooDeep failed
    exact ⟨⟨offset, rfl⟩, Deep.opened failed⟩
  · obtain ⟨offset, rfl⟩ := failed_tooDeep failed
    have opened : bracketLimit + 1 ≤ openings cursor.rest := Deep.opened failed
    exact ⟨⟨offset, rfl⟩, opened⟩
  · have commits : CommitsAt pattern cursor := patternWithin_commits bracketLimit cursor
    have begun (other : pattern cursor ≠ .noMatch)
        (follows : ∀ offset, pattern cursor ≠ .failed (.tooDeep offset)) :
        beginsPattern cursor.rest = true := by
      rw [← Bool.not_eq_false]
      exact fun unbegun => (commits.gives_up unbegun).elim other fun ⟨offset, failed⟩ =>
        follows offset failed
    cases outcome : pattern cursor with
    | matched found later => exact begun (by simp [outcome]) (by simp [outcome])
    | noMatch => exact commits.begins outcome
    | failed failure =>
        cases failure with
        | tooDeep offset => exact Deep.opened outcome
        | malformed problem offset =>
            exact ⟨begun (by simp [outcome]) (by simp [outcome]),
              Problem.code_of_isOfPattern (Blaming.admitted outcome)⟩

end Templating.Grammar

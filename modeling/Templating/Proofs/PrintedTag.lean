import Templating.Proofs.ConditionGrammar
import Templating.Proofs.Construct
import Templating.Proofs.PatternCompleteness
import Templating.Proofs.PrintedSpelling
import Templating.Proofs.Regular

/-! # Tags that are written

A tag that is written canonically is read back part by part: its marker, its word, what stands
behind the word, and its end. All that this takes of a dialect is that its delimiters cannot be
taken for a part of what stands in a tag. -/

namespace Templating

variable {room : Room}

open Text Grammar

/-! ## Delimiters -/

/-- No trim marker begins the delimiter. -/
def Delimiter.Unmarked (delimiter : Delimiter) : Prop :=
  ∀ first ∈ delimiter.chars.head?, Trim.ofMark? first = none

/-- Dialects in which what stands in a tag is told from where the tag ends. -/
structure Dialect.Legible (dialect : Dialect) : Prop where
  blockEnd : dialect.blockEnd.Unmarked
  exprEnd : dialect.exprEnd.Unmarked
  commentStart : dialect.commentStart.Unmarked
  commentEnd : dialect.commentEnd.Unmarked
  blockHalts (right : Option Trim) (rest : List Char) :
    Halts (Trim.printOnto right (dialect.blockEnd.chars ++ rest))
  exprHalts (right : Option Trim) (rest : List Char) :
    Halts (Trim.printOnto right (dialect.exprEnd.chars ++ rest))

theorem Dialect.legible_standard : Dialect.standard.Legible where
  blockEnd := by rintro _ ⟨⟩; rfl
  exprEnd := by rintro _ ⟨⟩; rfl
  commentStart := by rintro _ ⟨⟩; rfl
  commentEnd := by rintro _ ⟨⟩; rfl
  blockHalts right rest := halts_of_endsTag
    (.inr ⟨right, "%\x7d", rest, by decide, by simp [Trim.printOnto, standard]⟩)
  exprHalts right rest := halts_of_endsTag
    (.inr ⟨right, "\x7d\x7d", rest, by decide, by simp [Trim.printOnto, standard]⟩)

namespace Grammar

variable {dialect : Dialect} {rest : List Char} {trim : Option Trim}

/-! ## Markers and delimiters -/

theorem edge_reads (unmarked : ∀ first ∈ rest.head?, Trim.ofMark? first = none) :
    Reads edge (Trim.printOnto trim rest) (· = trim) rest := by
  cases trim with
  | none =>
      have misses : Misses marker rest := by
        intro offset
        cases rest with
        | nil => rfl
        | cons first rest => simp [marker, unmarked first rfl]
      exact misses.optional
  | some trim =>
      have reads : Reads marker (trim.mark :: rest) (· = trim) rest := fun offset =>
        ⟨trim, offset + 1, by simp [marker, Trim.ofMark?_mark, Cursor.advance], rfl⟩
      refine reads.optional.mono ?_
      rintro _ ⟨_, rfl, rfl⟩
      rfl

theorem edge_reads_delimiter {delimiter : Delimiter} (unmarked : delimiter.Unmarked) :
    Reads edge (Trim.printOnto trim (delimiter.chars ++ rest)) (· = trim)
      (delimiter.chars ++ rest) := by
  apply edge_reads
  intro first atHead
  apply unmarked
  have long := delimiter.long
  cases shape : delimiter.chars with
  | nil => simp [shape] at long
  | cons first' others => simpa [shape] using atHead

theorem tagEnd_reads : Reads (tagEnd dialect) (dialect.blockEnd.chars ++ rest) (fun _ => True) rest :=
  (exact_reads _ _).expect

theorem tagRest_reads (legible : dialect.Legible) :
    Reads (tagRest dialect) (Trim.printOnto trim (dialect.blockEnd.chars ++ rest)) (· = trim)
      rest := by
  apply (edge_reads_delimiter legible.blockEnd).bind
  rintro _ rfl
  apply tagEnd_reads.bind
  intro _ _
  exact .pure rfl

/-! ## Words of tags -/

theorem tag_eq (words : List String) : tag dialect words = (do
    let start ← tagStart dialect
    let word ← wordOf words
    spaces
    return ⟨start.1, start.2, word⟩) := by
  simp only [tag, tagStart, bind_assoc, pure_bind]

/-- The beginning of a tag, up to its word. -/
def tagHeadOnto (dialect : Dialect) (left : Option Trim) (word : String) (behind : List Char) :
    List Char :=
  dialect.blockStart.chars ++ Trim.printOnto left (' ' :: (word.toList ++ behind))

section

variable {left : Option Trim} {word : String} {behind : List Char} (isName : isName word.toList = true)
  (ends : EndsName behind)

include isName ends

theorem word_solid : Solid (word.toList ++ behind) :=
  NameAt.solid ⟨isName, rfl, ends⟩

theorem tagStart_reads :
    Reads (tagStart dialect) (tagHeadOnto dialect left word behind) (·.2 = left)
      (word.toList ++ behind) := by
  apply Reads.here.bind
  intro offset _
  apply (exact_reads _ _).bind
  intro _ _
  apply (edge_reads (by rintro _ ⟨⟩; rfl)).bind
  rintro _ rfl
  apply (spaces_reads (.cons rfl (.refl _)) (word_solid isName ends)).bind
  intro _ _
  exact .pure rfl

theorem tag_reads :
    Reads (tag dialect [word]) (tagHeadOnto dialect left word behind) (·.trim = left)
      (afterBlanks behind) := by
  rw [tag_eq]
  apply (tagStart_reads isName ends).bind
  intro start trimmed
  apply (word_reads ⟨rfl, ends⟩).orElse.bind
  intro _ _
  apply (spaces_reads (gap_afterBlanks _) (solid_afterBlanks _)).bind
  intro _ _
  exact .pure trimmed

theorem tag_misses {other : String} (isName' : Text.isName other.toList = true)
    (apart : word ≠ other) : Misses (tag dialect [other]) (tagHeadOnto dialect left word behind) := by
  rw [tag_eq]
  apply (tagStart_reads isName ends).bind_misses
  intro _ _
  refine Misses.bind (.orElse (word_misses ?_) fun _ => rfl)
  exact WordAt.not_wordAt (continuesName_of_isName isName) (continuesName_of_isName isName') apart
    ⟨rfl, ends⟩

/-- A tag begins a statement if its word is that of one. -/
theorem statementStart_reads {keyword : Keyword} (known : Keyword.ofWord? word = some keyword) :
    Reads (Parser.statementStart dialect) (tagHeadOnto dialect left word behind)
      (fun start => start.1.trim = left ∧ start.2 = keyword) (afterBlanks behind) := by
  rw [statementStart_eq]
  apply (tagStart_reads isName ends).bind
  intro start trimmed
  apply (name_reads ⟨isName, rfl, ends⟩).bind
  rintro _ rfl
  simp only [statementOf, known]
  apply (spaces_reads (gap_afterBlanks _) (solid_afterBlanks _)).bind
  intro _ _
  exact .pure ⟨trimmed, rfl⟩

theorem statementStart_misses (unknown : Keyword.ofWord? word = none) :
    Misses (Parser.statementStart dialect) (tagHeadOnto dialect left word behind) := by
  rw [statementStart_eq]
  apply (tagStart_reads isName ends).bind_misses
  intro start _
  apply (name_reads ⟨isName, rfl, ends⟩).bind_misses
  rintro _ rfl
  simp only [statementOf, unknown]
  exact fun _ => rfl

end

/-! ## What stands behind the word -/

variable {stop : List Char}

theorem expression_reads_regular {text : List Char} {expression : Expr}
    (regular : expression.Regular) (gap : Gap text (expression.printOnto (' ' :: stop)))
    (halts : Halts stop) :
    Reads Grammar.expression text (expression.same · = true) stop := by
  have stops : Stops 0 (' ' :: stop) := halts.stops (gap_space stop)
  have reads := expression_reads regular.wellFormed regular.nesting gap
    (Expr.spelled_printOnto regular.wellFormed parted_space) (stops.mono (Nat.zero_le _))
  rwa [halts.afterBlanks_space] at reads

theorem expression_solid {expression : Expr} (regular : expression.Regular) (rest : List Char) :
    Solid (expression.printOnto (' ' :: rest)) :=
  spelled_solid regular.wellFormed (Expr.spelled_printOnto regular.wellFormed parted_space)

theorem pattern_written {pattern : Pattern} (regular : pattern.Regular) (rest : List Char) :
    pattern.SpelledWithin bracketLimit (pattern.printOnto (' ' :: rest)) (' ' :: rest) := by
  rcases regular with ⟨_, _, spelled⟩
  exact Pattern.spelledWithin_printOnto (Nat.le_refl _) spelled _ parted_space

theorem pattern_reads_regular {pattern : Pattern} (regular : pattern.Regular)
    (ends : EndsPattern (' ' :: rest)) :
    Reads Grammar.pattern (pattern.printOnto (' ' :: rest)) (pattern.same · = true)
      (afterBlanks (' ' :: rest)) :=
  (patternWithin_complete bracketLimit).reads (.refl _) (pattern_written regular rest) ends

theorem pattern_solid {pattern : Pattern} (regular : pattern.Regular) (rest : List Char) :
    Solid (pattern.printOnto (' ' :: rest)) := by
  rcases (patternWithin_complete bracketLimit).head (pattern_written regular rest) with
    ⟨first, atHead, starts⟩
  rw [Solid, atHead]
  rintro _ ⟨⟩
  exact isSpace_eq_false_of_startsOperand
    (startsOperand_of_startsPrimary (startsPrimary_of_startsPattern starts))

/-- A condition without a pattern is not taken for a binding, and a binding is read as one. -/
theorem condition_reads_regular {condition : Condition} (regular : condition.Regular)
    (halts : Halts stop) :
    Reads Grammar.condition (condition.printOnto (' ' :: stop)) (condition.same · = true) stop := by
  rw [condition_eq]
  apply Reads.here.bind
  intro start _
  rcases condition with ⟨_, _ | pattern, expression⟩
  · rcases regular with ⟨regular, notFatal, notCompared⟩
    have padded : expression.Padded (expression.printOnto (' ' :: stop)) stop :=
      ⟨_, _, .refl _, Expr.spelled_printOnto regular.wellFormed parted_space, gap_space stop⟩
    have misses := binding_misses (binding_comes_before regular.wellFormed regular.nesting padded halts)
      notFatal notCompared
    apply misses.optional.bind
    rintro _ rfl
    apply (expression_reads_regular regular (.refl _) halts).expect.bind
    intro value agrees
    exact .pure agrees
  · rcases regular with ⟨regular, regular'⟩
    have word : Reads bindingWord ("let".toList ++ (' ' :: pattern.printOnto
        (' ' :: ('=' :: (' ' :: expression.printOnto (' ' :: stop)))))) (fun _ => True) _ :=
      bindingWord_reads rfl (.refl _) ⟨rfl, endsName_cons.mpr rfl⟩
    rw [(gap_space _).afterBlanks_eq (pattern_solid regular _)] at word
    have pattern_reads : Reads Grammar.pattern (pattern.printOnto
        (' ' :: ('=' :: (' ' :: expression.printOnto (' ' :: stop))))) (pattern.same · = true) _ :=
      pattern_reads_regular regular (by rintro _ ⟨⟩; rfl)
    have bound := bound_reads pattern_reads (gap_space _)
    rw [(gap_space _).afterBlanks_eq (expression_solid regular' _)] at bound
    have binding : Reads Grammar.binding _ (pattern.same · = true) _ := word.bind fun _ _ => bound
    apply binding.optional.bind
    rintro _ ⟨value, rfl, agrees⟩
    apply (expression_reads_regular regular' (.refl _) halts).expect.bind
    intro value' agrees'
    refine .pure ?_
    simp [Condition.same, Pattern.sameOption, agrees, agrees']

theorem condition_solid {condition : Condition} (regular : condition.Regular) (rest : List Char) :
    Solid (condition.printOnto (' ' :: rest)) := by
  rcases condition with ⟨_, _ | pattern, expression⟩
  · exact expression_solid regular.1 rest
  · rintro _ ⟨⟩
    rfl

end Grammar

end Templating

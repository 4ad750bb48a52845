import Templating.Proofs.PrintedTag

/-! # Statements that are written

Text, comments, outputs, raw text and the statements of a single tag are read back from how they
are written, whatever stands behind them. -/

namespace Templating.Grammar

variable {room : Room}

open Text

variable {dialect : Dialect} {text rest stop : List Char} {opened : OpenedTag}

-- What is read is compared with what was written, constructor by constructor.
attribute [simp] Node.same

/-! ## What begins with a delimiter -/

theorem text_misses (opens : opensTag dialect text = true) : Misses (Grammar.text dialect) text :=
  fun _ => text_eq_noMatch.mpr (.inr opens)

theorem exact_misses_of_apart {delimiter other : Delimiter} (apart : delimiter.Apart other)
    (rest : List Char) : Misses (exact other.chars) (delimiter.chars ++ rest) := by
  apply exact_misses
  intro starts
  rcases List.prefix_or_prefix_of_prefix starts (List.prefix_append _ _) with starts | starts
  · exact apart.2 starts
  · exact apart.1 starts

theorem comment_misses {delimiter : Delimiter} (apart : delimiter.Apart dialect.commentStart) :
    Misses (comment dialect) (delimiter.chars ++ rest) :=
  Reads.here.bind_misses fun _ _ => (exact_misses_of_apart apart rest).bind

theorem output_misses {delimiter : Delimiter} (apart : delimiter.Apart dialect.exprStart) :
    Misses (output dialect) (delimiter.chars ++ rest) :=
  Reads.here.bind_misses fun _ _ => (exact_misses_of_apart apart rest).bind

theorem solid_delimiter (delimiter : Delimiter) (rest : List Char) :
    Solid (delimiter.chars ++ rest) := by
  have long := delimiter.long
  cases shape : delimiter.chars with
  | nil => simp [shape] at long
  | cons first others => exact solid_cons.mpr (delimiter.isSpace_head shape)

/-! ## Text, comments and outputs -/

theorem text_reads {offset : Nat} {passage : Passage} (nonempty : passage.text ≠ "")
    {ends : List Char → Prop} (runs : passage.RunsTo (opensTag dialect) ends) (ended : ends rest) :
    Reads (Grammar.text dialect) (passage.text.toList ++ rest)
      ((Node.text offset passage).same · = true) rest := by
  rcases runs with ⟨run, rfl, whole⟩
  have nonempty : run ≠ [] := by
    rintro rfl
    exact nonempty rfl
  rw [Passage.chars_ofChars]
  apply Reads.here.bind
  intro start _
  apply (upTo_reads (whole rest ended)).bind
  rintro _ rfl
  rw [if_neg (by simpa using nonempty)]
  exact .pure (by simp [Node.same])

/-- A character that begins no delimiter is passed inside of a comment. -/
theorem commentStep_reads {first : Char}
    (noStart : dialect.commentStart.chars.head? ≠ some first)
    (noEnd : dialect.commentEnd.chars.head? ≠ some first) (state : CommentState)
    (outermost : state.level = 0) :
    Reads (commentStep dialect state) (first :: rest) (· = ⟨0, some first⟩) rest := by
  have misses {delimiter : Delimiter} (apart : delimiter.chars.head? ≠ some first) :
      ¬ delimiter.chars <+: first :: rest := by
    have long := delimiter.long
    rintro ⟨behind, shape⟩
    cases chars : delimiter.chars with
    | nil => simp [chars] at long
    | cons first' others =>
        rw [chars] at shape apart
        cases shape
        exact apart rfl
  unfold commentStep
  rw [outermost]
  refine .orElse_of_misses (.orElse_of_misses ?_ ?_) fun _ => rfl
  · have goesOn : (!dialect.commentEnd.chars.isPrefixOf (first :: rest)) = true := by
      rw [Bool.not_eq_true', Bool.eq_false_iff]
      exact fun starts => misses noEnd (List.isPrefixOf_iff_prefix.mp starts)
    have ahead : Reads (ahead fun rest => !dialect.commentEnd.chars.isPrefixOf rest) (first :: rest)
        (fun _ => True) (first :: rest) := fun offset =>
      ⟨(), offset, ahead_eq_matched.mpr ⟨goesOn, rfl⟩, trivial⟩
    apply ahead.bind
    intro _ _
    apply (character_reads rfl).bind
    rintro _ rfl
    exact .pure rfl
  · intro offset
    cases within : startsWithin dialect.commentEnd.chars dialect.commentStart.chars.length
        (first :: rest) with
    | true => simp [bind_apply, ahead, within]
    | false =>
        rw [bind_of_matched (ahead_eq_matched.mpr ⟨by simp [within], rfl⟩ : ahead _ _ = .matched () _)]
        exact (exact_misses (misses noStart)).bind offset

/-- The delimiter that ends a comment is not passed. -/
theorem commentStep_misses (state : CommentState) (outermost : state.level = 0) :
    Misses (commentStep dialect state) (dialect.commentEnd.chars ++ rest) := by
  intro offset
  have starts : dialect.commentEnd.chars.isPrefixOf (dialect.commentEnd.chars ++ rest) = true :=
    List.isPrefixOf_iff_prefix.mpr (List.prefix_append _ _)
  have within : startsWithin dialect.commentEnd.chars dialect.commentStart.chars.length
      (dialect.commentEnd.chars ++ rest) = true := by
    have long := dialect.commentStart.long
    cases count : dialect.commentStart.chars.length with
    | zero => omega
    | succ count => rw [startsWithin, starts, Bool.true_or]
  simp [commentStep, orElse_apply, bind_apply, ahead, outermost, starts, within, noMatch]

theorem not_head_of_unmarked {delimiter : Delimiter} (unmarked : delimiter.Unmarked) (trim : Trim) :
    delimiter.chars.head? ≠ some trim.mark := by
  intro atHead
  have := unmarked trim.mark atHead
  rw [Trim.ofMark?_mark] at this
  cases this

theorem not_head_space (delimiter : Delimiter) : delimiter.chars.head? ≠ some ' ' := by
  intro atHead
  cases shape : delimiter.chars with
  | nil => simp [shape] at atHead
  | cons first rest =>
      rw [shape] at atHead
      cases atHead
      cases delimiter.isSpace_head shape

/-- A comment that holds a blank and perhaps a marker. -/
theorem comment_body_reads (legible : dialect.Legible) (right : Option Trim) :
    Reads (chain (commentStep dialect) ⟨0, none⟩)
      (tagEndOnto dialect.commentEnd right rest) (·.last.bind Trim.ofMark? = right)
      (dialect.commentEnd.chars ++ rest) := by
  intro offset
  have step {first : Char} (noStart : dialect.commentStart.chars.head? ≠ some first)
      (noEnd : dialect.commentEnd.chars.head? ≠ some first) (last : Option Char)
      (behind : List Char) (offset : Nat) :
      ∃ offset', commentStep dialect ⟨0, last⟩ ⟨offset, first :: behind⟩ =
        .matched ⟨0, some first⟩ ⟨offset', behind⟩ := by
    rcases commentStep_reads noStart noEnd ⟨0, last⟩ rfl offset with ⟨_, offset', stepped, rfl⟩
    exact ⟨offset', stepped⟩
  rcases step (not_head_space _) (not_head_space _) none
    (Trim.printOnto right (dialect.commentEnd.chars ++ rest)) offset with ⟨middle, blank⟩
  cases right with
  | none =>
      exact ⟨⟨0, some ' '⟩, middle, chain_of_chained (.head blank (.refl _ _))
        (commentStep_misses _ rfl middle), rfl⟩
  | some trim =>
      rcases step (not_head_of_unmarked legible.commentStart trim)
        (not_head_of_unmarked legible.commentEnd trim) (some ' ')
        (dialect.commentEnd.chars ++ rest) middle with ⟨last, marked⟩
      exact ⟨⟨0, some trim.mark⟩, last,
        chain_of_chained (.head blank (.head marked (.refl _ _))) (commentStep_misses _ rfl last),
        Trim.ofMark?_mark trim⟩

theorem comment_reads (legible : dialect.Legible) {offset : Nat} {edges : Edges} :
    Reads (comment dialect) ((Node.comment offset edges).printOnto dialect rest)
      ((Node.comment offset edges).same · = true) rest := by
  apply Reads.here.bind
  intro start _
  apply (exact_reads _ _).bind
  intro _ _
  apply (edge_reads (by rintro _ ⟨⟩; rfl)).bind
  rintro _ rfl
  apply (comment_body_reads legible edges.right).bind
  intro state last
  apply (exact_reads _ _).orElse.bind
  intro _ _
  exact .pure (by simp [Node.same, last])

theorem output_reads (legible : dialect.Legible) {offset : Nat} {edges : Edges} {expression : Expr}
    (regular : expression.Regular) :
    Reads (output dialect) ((Node.output offset edges expression).printOnto dialect rest)
      ((Node.output offset edges expression).same · = true) rest := by
  apply Reads.here.bind
  intro start _
  apply (exact_reads _ _).bind
  intro _ _
  apply (edge_reads (by rintro _ ⟨⟩; rfl)).bind
  rintro _ rfl
  apply (expression_reads_regular regular (gap_space _)
    (legible.exprHalts edges.right rest)).expect.bind
  intro value agrees
  apply (edge_reads_delimiter legible.exprEnd).bind
  rintro _ rfl
  apply (exact_reads _ _).expect.bind
  intro _ _
  exact .pure (by simp [Node.same, agrees])

/-! ## Raw text -/

theorem rawEnd_reads (legible : dialect.Legible) (closing : Edges) :
    Reads (rawEnd dialect) (tagOnto dialect closing ("endraw".toList ++ ·) rest) (· = closing)
      (dialect.blockEnd.chars ++ rest) := by
  have ends : EndsName (tagEndOnto dialect.blockEnd closing.right rest) := endsName_cons.mpr rfl
  apply (exact_reads _ _).bind
  intro _ _
  apply (edge_reads (by rintro _ ⟨⟩; rfl)).bind
  rintro _ rfl
  apply (spaces_reads (gap_space _) (word_solid (by decide) ends)).bind
  intro _ _
  apply (word_reads ⟨rfl, ends⟩).bind
  intro _ _
  apply (spaces_reads (gap_space _) (legible.blockHalts closing.right rest).solid).bind
  intro _ _
  apply (edge_reads_delimiter legible.blockEnd).bind
  rintro _ rfl
  have stands : Reads (ahead fun rest => dialect.blockEnd.chars.isPrefixOf rest)
      (dialect.blockEnd.chars ++ rest) (fun _ => True) (dialect.blockEnd.chars ++ rest) :=
    fun offset => ⟨(), offset, ahead_eq_matched.mpr
      ⟨List.isPrefixOf_iff_prefix.mpr (List.prefix_append _ _), rfl⟩, trivial⟩
  apply stands.bind
  intro _ _
  exact .pure rfl

theorem matchesAt_of_reads {α : Type} {rule : Grammar α} {accept : α → Prop}
    (reads : Reads rule text accept rest) : matchesAt rule text = true := by
  rcases reads 0 with ⟨value, offset, matched, _⟩
  rw [matchesAt, matched]

theorem raw_reads (legible : dialect.Legible) {offset : Nat} {opening closing : Edges}
    {passage : Passage} (trimmed : opened.trim = opening.left)
    (runs : passage.RunsTo (matchesAt (rawEnd dialect)) (matchesAt (rawEnd dialect) · = true)) :
    Reads (raw dialect opened) (Trim.printOnto opening.right (dialect.blockEnd.chars ++
        (passage.text.toList ++ tagOnto dialect closing ("endraw".toList ++ ·) rest)))
      ((Node.raw offset opening passage closing).same · = true)
      (dialect.blockEnd.chars ++ rest) := by
  rcases runs with ⟨run, rfl, whole⟩
  rw [Passage.chars_ofChars]
  have closed : Reads (rawEnd dialect) (tagOnto dialect closing ("endraw".toList ++ ·) rest)
      (· = closing) _ := rawEnd_reads legible closing
  apply (edge_reads_delimiter legible.blockEnd).bind
  rintro _ rfl
  apply tagEnd_reads.bind
  intro _ _
  apply (upTo_reads (whole _ (matchesAt_of_reads closed))).bind
  rintro _ rfl
  apply closed.orElse.bind
  rintro _ rfl
  exact .pure (by simp [Node.same, trimmed])

/-! ## Statements of a single tag -/

theorem string_reads {template : String} (isBody : isBody '"' template.toList = true)
    (solid : Solid stop) :
    Reads stringToken (quotedOnto template (' ' :: stop)) (· = template) stop := by
  have shape : quotedOnto template (' ' :: stop) =
      '"' :: (template.toList ++ ['"']) ++ (' ' :: stop) := by
    simp [quotedOnto]
  have read : Reads string (quotedOnto template (' ' :: stop)) (· = template) (' ' :: stop) :=
    shape ▸ between_reads (by decide) isBody (' ' :: stop)
  exact spaced_reads (.refl _) (by rintro _ ⟨⟩; rfl) read (gap_space _) solid

theorem name_reads_solid {name : String} (isName : isName name.toList = true)
    (ends : EndsName rest) :
    Reads nameToken (name.toList ++ rest) (· = name) (afterBlanks rest) :=
  nameToken_reads (.refl _) ⟨isName, rfl, ends⟩ (gap_afterBlanks _) (solid_afterBlanks _)

theorem extension_reads (legible : dialect.Legible) {offset : Nat} {template : String}
    (isBody : isBody '"' template.toList = true) (untrimmed : opened.trim = none) :
    Reads (extension opened) (quotedOnto template (tagEndOnto dialect.blockEnd none rest))
      ((Node.extendTemplate offset template).same · = true) (dialect.blockEnd.chars ++ rest) := by
  unfold extension
  rw [untrimmed]
  apply (string_reads isBody (legible.blockHalts none rest).solid).expect.bind
  rintro _ rfl
  exact .pure (by simp [Node.same])

theorem endsName_argumentsOnto (arguments : List Expr) :
    EndsName (argumentsOnto arguments (' ' :: stop)) := by
  cases arguments <;> exact endsName_cons.mpr rfl

theorem callArguments_reads {arguments : List Expr}
    (regular : ∀ argument ∈ arguments, argument.Regular) (halts : Halts stop) :
    Reads callArguments (afterBlanks (argumentsOnto arguments (' ' :: stop)))
      (Expr.sameAll arguments · = true) stop := by
  cases arguments with
  | nil =>
      have misses : Misses (ahead fun rest => rest.head? == some '(') stop := by
        intro offset
        have apart : stop.head? ≠ some '(' := halts.not_mem_head rfl
        simp [ahead, apart]
      rw [argumentsOnto, halts.afterBlanks_space]
      exact .orElse_of_misses (.pure rfl) misses.bind
  | cons argument others =>
      have closed : Parted (')' :: (' ' :: stop)) := parted_close ')' rfl
      have spelled := Expr.spelledItems_printItemsOnto
        (fun item among _ parted => Expr.spelled_printOnto (regular item among).wellFormed parted)
        closed
      have reads := argumentsOf_reads (expressionWithin_complete bracketLimit)
        (fun item among => (regular item among).wellFormed)
        (Expr.nestingAll_le_iff.mpr fun item among => (regular item among).nesting) (.refl _) spelled
        (.refl _)
      rw [halts.afterBlanks_space] at reads
      have stands : Reads (ahead fun rest => rest.head? == some '(')
          (argumentsOnto (argument :: others) (' ' :: stop)) (fun _ => True)
          (argumentsOnto (argument :: others) (' ' :: stop)) :=
        fun offset => ⟨(), offset, rfl, trivial⟩
      rw [afterBlanks_of_solid (by rintro _ ⟨⟩; rfl)]
      exact .orElse (stands.bind fun _ _ => reads.expect)

/-- Behind the name of a macro no other name stands. -/
theorem scopeMark_misses (halts : Halts stop) (arguments : List Expr) :
    Misses (token "::") (afterBlanks (argumentsOnto arguments (' ' :: stop))) := by
  cases arguments with
  | nil =>
      rw [argumentsOnto, halts.afterBlanks_space]
      exact halts.token_misses rfl rfl
  | cons argument others =>
      apply token_misses_of_head _ (by decide)
      rintro _ ⟨⟩ ⟨⟩

section

variable (legible : dialect.Legible) {offset : Nat} {edges : Edges}
  (trimmed : opened.trim = edges.left)

include legible trimmed

theorem assignment_reads_assign {pattern : Pattern} {value : Expr} (regular : pattern.Regular)
    (regular' : value.Regular) :
    Reads (assignment opened) (pattern.printOnto (" = ".toList ++
        value.printOnto (tagEndOnto dialect.blockEnd edges.right rest)))
      ((Node.assign offset edges pattern value).same · = true) (dialect.blockEnd.chars ++ rest) := by
  have read : Reads Grammar.pattern (pattern.printOnto (' ' :: ('=' :: (' ' ::
      value.printOnto (tagEndOnto dialect.blockEnd edges.right rest))))) (pattern.same · = true)
      ('=' :: (' ' :: value.printOnto (tagEndOnto dialect.blockEnd edges.right rest))) :=
    pattern_reads_regular regular (by rintro _ ⟨⟩; rfl)
  apply read.expect.bind
  intro found agrees
  refine .orElse ((token_reads rfl (.refl _) (gap_space _) (expression_solid regular' _)).bind ?_)
  intro _ _
  apply (expression_reads_regular regular' (.refl _)
    (legible.blockHalts edges.right rest)).expect.bind
  intro found' agrees'
  apply (edge_reads_delimiter legible.blockEnd).bind
  rintro _ rfl
  exact .pure (by simp [Node.same, agrees, agrees', trimmed])

theorem assignment_reads_declare {pattern : Pattern} (regular : pattern.Regular) :
    Reads (assignment opened)
      (pattern.printOnto (tagEndOnto dialect.blockEnd edges.right rest))
      ((Node.declare offset edges pattern).same · = true) (dialect.blockEnd.chars ++ rest) := by
  have halts := legible.blockHalts edges.right rest
  have read := pattern_reads_regular regular halts.endsPattern
  rw [halts.afterBlanks_space] at read
  apply read.expect.bind
  intro found agrees
  refine .orElse_of_misses ?_ (halts.token_misses rfl rfl).bind
  apply (edge_reads_delimiter legible.blockEnd).bind
  rintro _ rfl
  exact .pure (by simp [Node.same, agrees, trimmed])

theorem inclusion_reads {template : String} (isBody : isBody '"' template.toList = true) :
    Reads (inclusion opened) (quotedOnto template (tagEndOnto dialect.blockEnd edges.right rest))
      ((Node.includeTemplate offset edges template).same · = true)
      (dialect.blockEnd.chars ++ rest) := by
  apply (string_reads isBody (legible.blockHalts edges.right rest).solid).expect.bind
  rintro _ rfl
  apply (edge_reads_delimiter legible.blockEnd).bind
  rintro _ rfl
  exact .pure (by simp [Node.same, trimmed])

theorem importation_reads {template scope : String} (isBody : isBody '"' template.toList = true)
    (isName : isName scope.toList = true) :
    Reads (importation opened) (quotedOnto template (" as ".toList ++
        (scope.toList ++ tagEndOnto dialect.blockEnd edges.right rest)))
      ((Node.importMacros offset edges template scope).same · = true)
      (dialect.blockEnd.chars ++ rest) := by
  have halts := legible.blockHalts edges.right rest
  have ends : EndsName (tagEndOnto dialect.blockEnd edges.right rest) := endsName_cons.mpr rfl
  have word : WordAt "as" ("as".toList ++ (' ' :: (scope.toList ++
      tagEndOnto dialect.blockEnd edges.right rest))) (' ' :: (scope.toList ++
        tagEndOnto dialect.blockEnd edges.right rest)) := ⟨rfl, endsName_cons.mpr rfl⟩
  apply (string_reads isBody (by rintro _ ⟨⟩; rfl)).expect.bind
  rintro _ rfl
  apply (keyword_reads (.refl _) (by rintro _ ⟨⟩; rfl) word (gap_space _)
    (word_solid isName ends)).expect.bind
  intro _ _
  apply (name_reads_solid isName ends).expect.bind
  rintro _ rfl
  rw [tagEndOnto, halts.afterBlanks_space]
  apply (edge_reads_delimiter legible.blockEnd).bind
  rintro _ rfl
  exact .pure (by simp [Node.same, trimmed])

theorem calledWith_reads {scope : Option String} {name : String} {arguments : List Expr}
    (regular : ∀ argument ∈ arguments, argument.Regular) :
    Reads (calledWith opened (scope, name))
      (afterBlanks (argumentsOnto arguments (tagEndOnto dialect.blockEnd edges.right rest)))
      ((Node.macroCall offset edges scope name arguments).same · = true)
      (dialect.blockEnd.chars ++ rest) := by
  apply (callArguments_reads regular (legible.blockHalts edges.right rest)).bind
  intro found agree
  apply (edge_reads_delimiter legible.blockEnd).bind
  rintro _ rfl
  exact .pure (by simp [Node.same, agree, trimmed])

theorem macroCall_reads {scope : Option String} {name : String} {arguments : List Expr}
    (scopeNamed : ∀ qualifier ∈ scope, isName qualifier.toList = true)
    (named : isName name.toList = true) (regular : ∀ argument ∈ arguments, argument.Regular) :
    Reads (macroCall opened) (pathOnto (scope.toList ++ [name])
        (argumentsOnto arguments (tagEndOnto dialect.blockEnd edges.right rest)))
      ((Node.macroCall offset edges scope name arguments).same · = true)
      (dialect.blockEnd.chars ++ rest) := by
  have halts := legible.blockHalts edges.right rest
  have ends : EndsName (argumentsOnto arguments (tagEndOnto dialect.blockEnd edges.right rest)) :=
    endsName_argumentsOnto arguments
  rw [macroCall_eq]
  cases scope with
  | none =>
      apply (name_reads_solid named ends).expect.bind
      intro found same
      rw [same]
      apply (scopeMark_misses halts arguments).bind.optional.bind
      rintro _ rfl
      exact calledWith_reads legible trimmed regular
  | some qualifier =>
      have mark : EndsName ("::".toList ++ (name.toList ++
          argumentsOnto arguments (tagEndOnto dialect.blockEnd edges.right rest))) :=
        endsName_cons.mpr rfl
      apply (name_reads_solid (scopeNamed qualifier rfl) mark).expect.bind
      intro found same
      rw [same, afterBlanks_of_solid (by rintro _ ⟨⟩; rfl)]
      have second : Reads (do
          token "::"
          expect nameToken (.missingName .scopedMacro)) _ (· = name) _ :=
        (token_reads rfl (.refl _) (.refl _) (word_solid named ends)).bind fun _ _ =>
          (name_reads_solid named ends).expect
      apply second.optional.bind
      rintro _ ⟨found, rfl, same⟩
      rw [same]
      exact calledWith_reads legible trimmed regular

end

/-! ## Parameters -/

/-- A parameter behind a comma. -/
def furtherParameter : Grammar String := do
  token ","
  expect nameToken (.missingName .parameter)

instance : Consuming furtherParameter := by
  have : Consuming (token ",") := consuming_token rfl
  unfold furtherParameter
  infer_instance

theorem agreeAll_eq {names found : List String} (agree : AgreeAll (· = ·) names found) :
    names = found := by
  induction names generalizing found with
  | nil =>
      cases found with
      | nil => rfl
      | cons => cases agree
  | cons name names induction =>
      cases found with
      | nil => cases agree
      | cons name' found => rw [agree.1, induction agree.2]

theorem furtherParameter_reads {name : String} {text comma start last : List Char}
    (symbol : SymbolAt "," text comma) (gap : Gap comma start) (written : NameAt name start last) :
    Reads furtherParameter text (name = ·) (afterBlanks last) := by
  apply (token_reads rfl symbol gap written.solid).bind
  intro _ _
  exact (nameToken_reads (.refl _) written (gap_afterBlanks last)
    (solid_afterBlanks last)).expect.mono fun _ same => same.symm

theorem close_misses_at_name {name : String} {text start last : List Char} (gap : Gap text start)
    (written : NameAt name start last) : Misses (token ")") text := by
  apply token_misses_of_head _ (by decide)
  rw [gap.afterBlanks_eq written.solid]
  rcases written.head? with ⟨first, atHead, starts⟩
  rw [atHead]
  rintro _ ⟨⟩ ⟨⟩
  cases starts

theorem parameters_reads_cons {first : String} {others : List String}
    (areNames : ∀ parameter ∈ first :: others, isName parameter.toList = true)
    (halts : Halts stop) :
    Reads Grammar.parameters (parametersOnto (first :: others) (' ' :: stop)) (· = first :: others)
      stop := by
  have each : ∀ name ∈ first :: others, ∀ rest, Parted rest →
      NameAt name (name.toList ++ rest) rest :=
    fun name among _ parted => ⟨areNames name among, rfl, parted.endsName⟩
  have closes : SymbolAt ")" (')' :: (' ' :: stop)) (' ' :: stop) := .refl _
  rcases Pattern.listed_listOnto each (parted_close ')' rfl) with
    ⟨start, last, gap, written, tail⟩
  have begun : Gap (afterBlanks (listOnto (fun name rest => name.toList ++ rest) (first :: others)
      (')' :: (' ' :: stop)))) start :=
    (gap_afterBlanks _).of_gap gap written.solid
  apply (token_reads rfl (.refl _) (gap_afterBlanks _) (solid_afterBlanks _)).bind
  intro _ _
  refine .orElse_of_misses ?_ (close_misses_at_name begun written).bind
  apply (nameToken_reads begun written (gap_afterBlanks last)
    (solid_afterBlanks last)).expect.bind
  intro name same
  have others_read : ReadsEach furtherParameter (afterBlanks last) (AgreeAll (· = ·) others) _ :=
    listedTail_reads (fun symbol gap written _ => furtherParameter_reads symbol gap written) tail
      (gap_afterBlanks last) (solid_afterBlanks last) (endsEntry_of_symbol rfl closes)
  have stopped : Misses furtherParameter (afterBlanks (')' :: (' ' :: stop))) :=
    (comma_misses_at_close (by decide) (symbolAt_afterBlanks rfl closes)).bind
  apply (others_read.stop stopped).bind
  intro names agree
  have closed : SymbolAt ")" (afterBlanks (')' :: (' ' :: stop))) (' ' :: stop) := .refl _
  apply (token_reads rfl closed (gap_space _) halts.solid).expect.bind
  intro _ _
  exact .pure (by rw [same, agreeAll_eq agree])

/-- A macro without parameters has no parentheses. -/
theorem parameters_reads {parameters : List String}
    (areNames : ∀ parameter ∈ parameters, isName parameter.toList = true) (halts : Halts stop) :
    Reads (optional Grammar.parameters) (afterBlanks (parametersOnto parameters (' ' :: stop)))
      (·.getD [] = parameters) stop := by
  cases parameters with
  | nil =>
      rw [parametersOnto, halts.afterBlanks_space]
      have missed : Misses Grammar.parameters stop := (halts.token_misses rfl rfl).bind
      refine missed.optional.mono ?_
      rintro _ rfl
      rfl
  | cons first others =>
      rw [afterBlanks_of_solid (by rintro _ ⟨⟩; rfl)]
      refine (parameters_reads_cons areNames halts).optional.mono ?_
      rintro _ ⟨_, rfl, same⟩
      exact same

end Templating.Grammar

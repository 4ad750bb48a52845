import Templating.Proofs.ExpressionItems

/-! # Single steps of expressions

Every primary expression is read from its spellings, and so is everything that can follow one:
attributes, items, calls, error marks and filters. The alternatives that are tried before the
right one miss because of the first character. -/

namespace Templating.Grammar

open Text Templating.Expr

variable {limit offset : Nat} {inner : Grammar Expr}
  {text start rest : List Char} {value : Expr}

-- What is read is compared with what was spelled, constructor by constructor.
attribute [simp] Expr.same

/-! ## Primary expressions -/

theorem agrees_literal {kind : LiteralKind} {literal : String} (origin : Nat) :
    Agrees (.literal offset kind literal) (.literal origin kind literal) := by
  simp [Agrees, same]

theorem primaryOf_reads_literal {kind : LiteralKind} {literal : String}
    (lexical : kind.Lexical literal) (spelled : kind.LiteralAt literal text rest) :
    Reads (primaryOf inner) text (Agrees (.literal offset kind literal)) rest := by
  have reads := literal_reads lexical spelled
  have further : ∀ origin, Reads (Grammar.literal kind >>= fun found =>
      pure (Expr.literal origin kind found)) text (Agrees (.literal offset kind literal)) rest := by
    intro origin
    apply reads.bind
    rintro _ rfl
    exact .pure (agrees_literal origin)
  have misses (other : LiteralKind) : other ≠ kind → Misses (Grammar.literal other) text :=
    literal_misses_at_literal lexical spelled
  apply Reads.here.bind
  intro origin _
  cases kind with
  | boolean => exact (further origin).orElse
  | number =>
      have noBoolean : Misses boolean text := misses .boolean nofun
      exact .orElse_of_misses (further origin).orElse noBoolean.bind
  | string =>
      have noBoolean : Misses boolean text := misses .boolean nofun
      have noNumber : Misses number text := misses .number nofun
      exact .orElse_of_misses (.orElse_of_misses (further origin).orElse noNumber.bind)
        noBoolean.bind
  | character =>
      have noBoolean : Misses boolean text := misses .boolean nofun
      have noNumber : Misses number text := misses .number nofun
      have noString : Misses string text := misses .string nofun
      exact .orElse_of_misses (.orElse_of_misses (.orElse_of_misses (further origin).orElse
        noString.bind) noNumber.bind) noBoolean.bind

theorem boolean_misses_of_wordAt {word : String} (spelled : WordAt word text rest)
    (continues : word.toList.all continuesName = true)
    (apart : word ≠ "true" ∧ word ≠ "false") : Misses boolean text :=
  .orElse (word_misses (WordAt.not_wordAt continues (by decide) apart.1 spelled))
    (word_misses (WordAt.not_wordAt continues (by decide) apart.2 spelled))

theorem boolean_misses_of_pathAt {segments : List String} (readable : IsReadable segments)
    (spelled : PathAt segments text rest) : Misses boolean text := by
  cases segments with
  | nil => cases spelled
  | cons first others =>
      rcases spelled with ⟨_, middle, begun, _⟩
      refine boolean_misses_of_wordAt begun ?_ (readable.2 first rfl)
      rcases readable.1.1 with ⟨rfl, _⟩ | ⟨isName, _⟩
      · rfl
      · exact continuesName_of_isName isName

/-- What is no literal and begins like a name or at the root is left to the rules for names. -/
theorem Reads.behind_literals {rule : Grammar Expr} {accept : Expr → Prop}
    (reads : Reads rule text accept rest)
    (starts : ∀ first ∈ text.head?, startsName first = true ∨ first = ':')
    (notBoolean : Misses boolean text) (origin : Nat) :
    Reads ((do return .literal origin .boolean (← boolean)) <|>
      (do return .literal origin .number (← number)) <|>
      (do return .literal origin .string (← string)) <|>
      (do return .literal origin .character (← characterText)) <|>
      rule) text accept rest := by
  have apart : ∀ first, startsName first = false → first ≠ ':' → first ∉ text.head? := by
    intro first noName noRoot atHead
    rcases starts first atHead with starts | rfl
    · rw [starts] at noName
      cases noName
    · exact noRoot rfl
  refine .orElse_of_misses (.orElse_of_misses (.orElse_of_misses (.orElse_of_misses
    reads (between_misses ?_).bind) (between_misses ?_).bind)
    (number_misses ?_).bind) notBoolean.bind
  · exact apart '\'' (by decide) (by decide)
  · exact apart '"' (by decide) (by decide)
  · intro first atHead
    cases digit : isDigit first with
    | false => rfl
    | true =>
        refine absurd atHead (apart first (startsName_eq_false_of_isDigit digit) ?_)
        rintro rfl
        cases digit

theorem primaryOf_reads_path {segments : List String} (readable : IsReadable segments)
    (spelled : PathAt segments text rest) (stops : Stops 14 rest) :
    Reads (primaryOf inner) text (Agrees (.path offset segments)) rest := by
  have notBoolean := boolean_misses_of_pathAt readable spelled
  apply Reads.here.bind
  intro origin _
  refine .behind_literals (.orElse ?_) ?_ notBoolean origin
  · apply (path_reads readable.1 spelled (stops.separators (by omega) (.refl _))).bind
    rintro _ rfl
    exact .pure (by simp [Agrees, same])
  · rcases path_head readable.1 spelled with ⟨first, atHead, starts⟩
    rw [atHead]
    rintro _ ⟨⟩
    exact starts

theorem primaryOf_reads_var {name : String} (named : NameAt name text rest)
    (notTrue : name ≠ "true") (notFalse : name ≠ "false")
    (small : name.toList.any isUppercase = false) (stops : Stops 14 rest) :
    Reads (primaryOf inner) text (Agrees (.var offset name)) rest := by
  have notBoolean := boolean_misses_of_wordAt named.2 (continuesName_of_isName named.1)
    ⟨notTrue, notFalse⟩
  have notPath := path_misses_of_nameAt named small (stops.separators (by omega) (.refl _))
  rcases named.head? with ⟨first, atHead, starts⟩
  have noList : Misses (listOf inner) text := by
    apply Reads.here.bind_misses
    intro _ _
    refine (exact_misses_of_head ?_).bind
    rw [atHead]
    rintro ⟨⟩
    cases starts
  apply Reads.here.bind
  intro origin _
  refine .behind_literals (.orElse_of_misses (.orElse_of_misses (.orElse ?_) noList) notPath.bind)
    ?_ notBoolean origin
  · apply (name_reads named).bind
    rintro _ rfl
    exact .pure (by simp [Agrees, same])
  · rw [atHead]
    rintro _ ⟨⟩
    exact .inl starts

/-- What begins with a bracket is left to the rules for brackets. -/
theorem Reads.behind_names {rule : Grammar Expr} {accept : Expr → Prop} {first : Char}
    {others : List Char} (reads : Reads rule (first :: others) accept rest)
    (bracket : first = '[' ∨ first = '(') (origin : Nat) :
    Reads ((do return .literal origin .boolean (← boolean)) <|>
      (do return .literal origin .number (← number)) <|>
      (do return .literal origin .string (← string)) <|>
      (do return .literal origin .character (← characterText)) <|>
      (do return .path origin (← path)) <|> rule) (first :: others) accept rest := by
  refine .orElse_of_misses (.orElse_of_misses (.orElse_of_misses (.orElse_of_misses
    (.orElse_of_misses reads (path_misses ?_ ?_).bind) (between_misses ?_).bind)
    (between_misses ?_).bind) (number_misses ?_).bind) (boolean_misses ?_).bind
  · rcases bracket with rfl | rfl <;> simp [isSpace]
  all_goals rcases bracket with rfl | rfl
  all_goals first
    | rintro _ ⟨⟩; decide
    | rintro ⟨⟩

theorem primaryOf_reads_list [Advancing inner] (complete : CompleteInside limit inner)
    {items : List Expr} (wellFormed : ∀ item ∈ items, item.WellFormed IsReadable)
    (nesting : nestingAll items ≤ limit) (spelled : (Expr.list offset items).Spelled text rest) :
    Reads (primaryOf inner) text (Agrees (.list offset items)) (afterBlanks rest) := by
  have reads := listOf_reads complete wellFormed nesting spelled
  rcases spelled with ⟨opened, _, _, rfl, _⟩
  apply Reads.here.bind
  intro origin _
  exact .behind_names reads.orElse (.inl rfl) origin

/-- What begins with a parenthesis is left to the rule for parentheses. -/
theorem primaryOf_reads_of_groupOf {accept : Expr → Prop} {opened : List Char}
    (reads : Reads (groupOf inner) ('(' :: opened) accept rest) :
    Reads (primaryOf inner) ('(' :: opened) accept rest := by
  have noList : Misses (listOf inner) ('(' :: opened) := by
    apply Reads.here.bind_misses
    intro _ _
    exact (exact_misses_of_head (by simp)).bind
  have noName : Misses Grammar.name ('(' :: opened) := by
    apply name_misses
    rintro _ ⟨⟩
    decide
  apply Reads.here.bind
  intro origin _
  exact .behind_names (.orElse_of_misses (.orElse_of_misses reads noName.bind) noList) (.inr rfl)
    origin

/-! ## What follows a primary expression -/

theorem postfixStep_reads_member {object : Expr} {name : String} {origin : Nat}
    {last point : List Char} (agrees : Agrees object value) (symbol : SymbolAt "." last point)
    (gap : Gap point start) (named : NameAt name start rest) :
    Reads (postfixStep inner origin value) last (Agrees (.member offset object name))
      (afterBlanks rest) := by
  refine .orElse ((token_reads rfl symbol gap named.solid).bind ?_)
  intro _ _
  apply (nameToken_reads (.refl _) named (gap_afterBlanks rest) (solid_afterBlanks rest)).bind
  rintro _ rfl
  refine .pure ?_
  simp only [Agrees, same, beq_self_eq_true, Bool.and_true]
  exact agrees

theorem postfixStep_reads_item (complete : CompleteInside limit inner) {object key : Expr}
    {origin : Nat} {last opened closing : List Char} (agrees : Agrees object value)
    (wellFormed : key.WellFormed IsReadable) (nesting : key.nesting < limit)
    (symbol : SymbolAt "[" last opened) (gap : Gap opened start)
    (spelled : key.Spelled start closing) (close : SymbolAt "]" closing rest) :
    Reads (postfixStep inner origin value) last (Agrees (.item offset object key))
      (afterBlanks rest) := by
  have noPoint : Misses (token ".") last :=
    token_misses_at_symbol rfl symbol (by decide) (by decide)
  have stops := (itemEnds_of_symbol rfl close).stops
  refine .orElse_of_misses (.orElse ?_) noPoint.bind
  apply (token_reads rfl symbol gap (spelled_solid wellFormed spelled)).bind
  intro _ _
  apply (complete.reads wellFormed nesting (.refl _) spelled stops).bind
  intro found agreesKey
  apply (close_reads rfl close).bind
  intro _ _
  refine .pure ?_
  simp only [Agrees, same, Bool.and_eq_true]
  exact ⟨agrees, agreesKey⟩

theorem postfixStep_reads_call [Advancing inner] (complete : CompleteInside limit inner)
    {function : Expr} {arguments : List Expr} {origin : Nat} {last opened closing : List Char}
    (agrees : Agrees function value)
    (wellFormed : ∀ argument ∈ arguments, argument.WellFormed IsReadable)
    (nesting : nestingAll arguments ≤ limit) (symbol : SymbolAt "(" last opened)
    (spelled : SpelledItems arguments opened closing) (close : SymbolAt ")" closing rest) :
    Reads (postfixStep inner origin value) last (Agrees (.call offset function arguments))
      (afterBlanks rest) := by
  have noPoint : Misses (token ".") last :=
    token_misses_at_symbol rfl symbol (by decide) (by decide)
  have noItem : Misses (token "[") last :=
    token_misses_at_symbol rfl symbol (by decide) (by decide)
  refine .orElse_of_misses (.orElse_of_misses (.orElse ?_) noItem.bind) noPoint.bind
  apply (argumentsOf_reads complete wellFormed nesting symbol spelled close).bind
  intro values agreesAll
  refine .pure ?_
  simp only [Agrees, same, Bool.and_eq_true]
  exact ⟨agrees, agreesAll⟩

theorem postfixStep_reads_attempt {origin : Nat} {operand : Expr} {last : List Char}
    (agrees : Agrees operand value) (symbol : SymbolAt "?" last rest) :
    Reads (postfixStep inner origin value) last (Agrees (.attempt offset operand))
      (afterBlanks rest) := by
  have noPoint : Misses (token ".") last :=
    token_misses_at_symbol rfl symbol (by decide) (by decide)
  have noItem : Misses (token "[") last :=
    token_misses_at_symbol rfl symbol (by decide) (by decide)
  have noCall : Misses (argumentsOf inner) last := by
    apply argumentsOf_misses
    rw [symbol_head rfl symbol]
    rintro ⟨⟩
  refine .orElse_of_misses (.orElse_of_misses (.orElse_of_misses ?_ noCall.bind) noItem.bind)
    noPoint.bind
  apply (token_reads rfl symbol (gap_afterBlanks rest) (solid_afterBlanks rest)).bind
  intro _ _
  exact .pure agrees

/-! ## Filters -/

theorem filterStep_reads [Advancing inner] (complete : CompleteInside limit inner)
    {operand : Expr} {name : String} {arguments : List Expr} {origin : Nat}
    {last bar named : List Char} (agrees : Agrees operand value)
    (wellFormed : ∀ argument ∈ arguments, argument.WellFormed IsReadable)
    (nesting : nestingAll arguments ≤ limit) (symbol : SymbolAt "|" last bar) (gap : Gap bar start)
    (spelledName : NameAt name start named)
    (spelled : arguments = [] ∧ named = rest ∨
      ∃ opened closing, SymbolAt "(" named opened ∧ SpelledItems arguments opened closing ∧
        SymbolAt ")" closing rest)
    (stops : Stops 13 rest) :
    Reads (filterStep inner origin value) last (Agrees (.filter offset operand name arguments))
      (afterBlanks rest) := by
  apply (token_reads rfl symbol gap spelledName.solid).bind
  intro _ _
  have single : Reads (ahead fun rest => rest.head? != some '|') start (fun _ => True) start := by
    rcases spelledName.head? with ⟨first, atHead, starts⟩
    have noBar : (start.head? != some '|') = true := by
      rw [atHead]
      apply bne_iff_ne.mpr
      rintro ⟨⟩
      cases starts
    exact fun offset => ⟨(), offset, by simp [ahead, noBar], trivial⟩
  apply single.bind
  intro _ _
  apply (nameToken_reads (.refl _) spelledName (gap_afterBlanks named)
    (solid_afterBlanks named)).bind
  rintro _ rfl
  have reads : Reads (argumentsOf inner <|> pure []) (afterBlanks named) (AgreesAll arguments)
      (afterBlanks rest) := by
    rcases spelled with ⟨rfl, rfl⟩ | ⟨opened, closing, opening, spelled, close⟩
    · exact .orElse_of_misses (.pure rfl)
        (stops.argumentsOf_misses (by omega) (gap_afterBlanks _) inner)
    · have opening : SymbolAt "(" (afterBlanks named) opened :=
        (gap_afterBlanks named).of_gap opening (solid_symbol rfl opened)
      exact (argumentsOf_reads complete wellFormed nesting opening spelled close).orElse
  apply reads.bind
  intro values agreesAll
  refine .pure ?_
  simp only [Agrees, same, Bool.and_eq_true, beq_self_eq_true, and_true]
  exact ⟨agrees, agreesAll⟩

end Templating.Grammar

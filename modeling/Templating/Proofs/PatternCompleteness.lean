import Templating.Proofs.PatternItems

/-! # Reading patterns back

Where a pattern is spelled and cannot go on, it is read. What could go on with one is the rest of
a qualified name, a payload, or the word before a payload. -/

namespace Templating.Grammar

open Text Templating.Pattern
open Templating.Expr (TrailingComma)

variable {brackets offset : Nat} {rule : Grammar Pattern} {pattern : Pattern}
  {text middle start next rest : List Char} {first : Char}

/-! ## Patterns by what they begin with -/

/-- A pattern begins with the character. -/
def startsPattern (first : Char) : Bool :=
  continuesName first || ['"', '\'', '(', ':'].contains first

theorem literalPattern_misses (refused : ∀ first ∈ text.head?, isDigit first = false ∧
    first ≠ '"' ∧ first ≠ '\'') (notBoolean : Misses boolean text) :
    Misses literalPattern text := by
  apply Reads.here.bind_misses
  intro _ _
  have noString : Misses string text := between_misses fun atHead => (refused '"' atHead).2.1 rfl
  have noCharacter : Misses characterText text :=
    between_misses fun atHead => (refused '\'' atHead).2.2 rfl
  have noNumber : Misses number text :=
    number_misses fun first atHead => (refused first atHead).1
  exact noString.bind.orElse (noCharacter.bind.orElse (noNumber.bind.orElse notBoolean.bind))

theorem groupPattern_misses (refused : '(' ∉ (afterBlanks text).head?) :
    Misses (groupPattern rule) text := by
  apply Reads.here.bind_misses
  intro _ _
  apply Misses.bind
  apply token_misses_of_head _ (by decide)
  intro _ atHead same
  cases same
  exact refused atHead

/-- Where no pattern begins, none is read. -/
theorem patternOf_misses (refused : ∀ first ∈ (afterBlanks text).head?,
    startsPattern first = false) : Misses (patternOf rule) text := by
  apply spaced_misses
  have apart : ∀ first, startsPattern first = true → first ∉ (afterBlanks text).head? := by
    intro first starts atHead
    rw [refused first atHead] at starts
    cases starts
  have small : ∀ first ∈ (afterBlanks text).head?, continuesName first = false :=
    fun first atHead => (Bool.or_eq_false_iff.mp (refused first atHead)).1
  have noStart : ∀ first ∈ (afterBlanks text).head?, startsName first = false := fun first atHead =>
    (Bool.or_eq_false_iff.mp (small first atHead)).1
  have notBoolean : Misses boolean (afterBlanks text) := by
    apply boolean_misses
    intro first atHead
    constructor
    · rintro rfl
      exact apart 't' (by decide) atHead
    · rintro rfl
      exact apart 'f' (by decide) atHead
  have noLiteral : Misses literalPattern (afterBlanks text) := by
    apply literalPattern_misses _ notBoolean
    intro first atHead
    refine ⟨(Bool.or_eq_false_iff.mp (small first atHead)).2, ?_, ?_⟩
    · rintro rfl
      exact apart '"' (by decide) atHead
    · rintro rfl
      exact apart '\'' (by decide) atHead
  have noGroup : Misses (groupPattern rule) (afterBlanks text) := by
    apply groupPattern_misses
    rw [afterBlanks_afterBlanks]
    exact apart '(' (by decide)
  have noPath : Misses path (afterBlanks text) := by
    apply path_misses (solid_afterBlanks text)
    intro first atHead
    refine ⟨noStart first atHead, ?_⟩
    rintro rfl
    exact apart ':' (by decide) atHead
  have noName : Misses Grammar.name (afterBlanks text) := name_misses noStart
  have noPathPattern : Misses (pathPattern rule) (afterBlanks text) :=
    Reads.here.bind_misses fun _ _ => noPath.bind
  have noNamePattern : Misses namePattern (afterBlanks text) :=
    Reads.here.bind_misses fun _ _ => noName.bind
  exact noLiteral.orElse (noGroup.orElse (noPathPattern.orElse noNamePattern))

theorem literalPattern_reads {kind : LiteralKind} {value : String} (lexical : kind.Lexical value)
    (written : kind.LiteralAt value text rest) :
    Reads literalPattern text ((Pattern.literal offset kind value).same · = true) rest := by
  have reads := literal_reads lexical written
  have same (origin : Nat) :
      (Pattern.literal offset kind value).same (.literal origin kind value) = true := by
    simp [Pattern.same]
  have further : ∀ origin, Reads (literal kind >>= fun found =>
      pure (Pattern.literal origin kind found)) text
        ((Pattern.literal offset kind value).same · = true) rest := by
    intro origin
    apply reads.bind
    rintro _ rfl
    exact .pure (same origin)
  have misses (other : LiteralKind) : other ≠ kind → Misses (literal other) text :=
    literal_misses_at_literal lexical written
  apply Reads.here.bind
  intro origin _
  cases kind with
  | string => exact (further origin).orElse
  | character =>
      have noString : Misses string text := misses .string nofun
      exact .orElse_of_misses (further origin).orElse noString.bind
  | number =>
      have noString : Misses string text := misses .string nofun
      have noCharacter : Misses characterText text := misses .character nofun
      exact .orElse_of_misses (.orElse_of_misses (further origin).orElse noCharacter.bind)
        noString.bind
  | boolean =>
      have noString : Misses string text := misses .string nofun
      have noCharacter : Misses characterText text := misses .character nofun
      have noNumber : Misses number text := misses .number nofun
      exact .orElse_of_misses (.orElse_of_misses (.orElse_of_misses (further origin)
        noNumber.bind) noCharacter.bind) noString.bind

/-- What begins like a name or at the root and is no literal is left to the rules for names. -/
theorem bracket_misses (starts : ∃ first, text.head? = some first ∧
    (startsName first = true ∨ first = ':')) (notBoolean : Misses boolean text) :
    Misses literalPattern text ∧ Misses (groupPattern rule) text := by
  rcases starts with ⟨first, atHead, starts⟩
  constructor
  · apply literalPattern_misses _ notBoolean
    rw [atHead]
    rintro _ ⟨⟩
    rcases starts with starts | rfl
    · refine ⟨?_, ?_, ?_⟩
      · cases digit : isDigit first with
        | false => rfl
        | true =>
            rw [startsName_eq_false_of_isDigit digit] at starts
            cases starts
      · rintro rfl
        cases starts
      · rintro rfl
        cases starts
    · decide
  · apply groupPattern_misses
    have solid : Solid text := by
      rw [Solid, atHead]
      rintro _ ⟨⟩
      rcases starts with starts | rfl
      · cases space : isSpace first with
        | false => rfl
        | true =>
            have := continuesName_eq_false_of_isSpace space
            rw [continuesName_of_startsName starts] at this
            cases this
      · rfl
    rw [afterBlanks_of_solid solid, atHead]
    rintro ⟨⟩
    rcases starts with starts | starts <;> cases starts

theorem Reads.behind_brackets {named : Grammar Pattern} {accept : Pattern → Prop}
    (reads : Reads named text accept rest)
    (starts : ∃ first, text.head? = some first ∧ (startsName first = true ∨ first = ':'))
    (notBoolean : Misses boolean text) :
    Reads (literalPattern <|> groupPattern rule <|> named) text accept rest := by
  rcases bracket_misses starts notBoolean with ⟨noLiteral, noGroup⟩
  exact .orElse_of_misses (.orElse_of_misses reads noGroup) noLiteral

/-! ## Patterns -/

theorem sameAll_of_agreeAll {patterns values : List Pattern}
    (agree : AgreeAll (fun pattern value => pattern.same value = true) patterns values) :
    Pattern.sameAll patterns values = true := by
  induction patterns generalizing values with
  | nil =>
      cases values with
      | nil => rfl
      | cons value values => cases agree
  | cons pattern patterns induction =>
      cases values with
      | nil => cases agree
      | cons value values =>
          rw [Pattern.sameAll, agree.1, induction agree.2]
          rfl

theorem sameAll_of_agreeAll_fields {fields values : List Field}
    (agree : AgreeAll (fun field value => field.same value = true) fields values) :
    Field.sameAll fields values = true := by
  induction fields generalizing values with
  | nil =>
      cases values with
      | nil => rfl
      | cons value values => cases agree
  | cons field fields induction =>
      cases values with
      | nil => cases agree
      | cons value values =>
          rw [Field.sameAll, agree.1, induction agree.2]
          rfl

/-- The rule reads every pattern that is written in a given way, and it misses where a
parenthesis closes. -/
structure CompletePattern (inner : Pattern → (text rest : List Char) → Prop)
    (rule : Grammar Pattern) : Prop where
  reads {pattern : Pattern} {text start rest : List Char} : Gap text start →
    inner pattern start rest → EndsPattern rest →
      Reads rule text (pattern.same · = true) (Text.afterBlanks rest)
  head {pattern : Pattern} {start rest : List Char} : inner pattern start rest →
    ∃ first, start.head? = some first ∧ startsPattern first = true
  misses {pattern : Pattern} {start rest text : List Char} : inner pattern start rest →
    (Text.afterBlanks text).head? = some ')' → Misses rule text

theorem startsPrimary_of_startsPattern (starts : startsPattern first = true) :
    startsPrimary first = true := by
  simp only [startsPattern, Bool.or_eq_true, List.contains_iff_mem, List.mem_cons,
    List.not_mem_nil, or_false] at starts
  rcases starts with continues | rfl | rfl | rfl | rfl
  · simp [startsPrimary, continues]
  all_goals rfl

section

variable {inner : Pattern → (text rest : List Char) → Prop}

theorem CompletePattern.entry (complete : CompletePattern inner rule) :
    CompleteEntry inner (fun pattern value => pattern.same value = true) rule where
  reads gap written ends := complete.reads gap written ends.endsPattern
  head written := by
    rcases complete.head written with ⟨first, atHead, starts⟩
    exact ⟨first, atHead, startsPrimary_of_startsPattern starts⟩

theorem field_reads_name {field : Field} {origin : Nat}
    (shape : field.pattern = .name origin field.name) (gap : Gap text start)
    (named : NameAt field.name start rest) (ends : EndsEntry rest) :
    Reads (Grammar.field rule) text (field.same · = true) (Text.afterBlanks rest) := by
  have noColon : Misses (token ":") (Text.afterBlanks rest) := by
    apply token_misses_of_head _ (by decide)
    rw [afterBlanks_afterBlanks]
    intro first atHead same
    cases same
    exact ends.endsPattern.not_mem_head (by decide) atHead
  apply (spaces_reads gap named.solid).bind
  intro _ _
  apply Reads.here.bind
  intro origin' _
  apply (nameToken_reads (.refl _) named (gap_afterBlanks rest) (solid_afterBlanks rest)).bind
  rintro _ rfl
  refine .orElse_of_misses (.pure ?_) noColon.bind
  rcases field with ⟨name, pattern⟩
  dsimp only at shape
  subst shape
  simp [Field.same, Pattern.same]

theorem field_reads_pattern (complete : CompletePattern inner rule) {field : Field}
    {named colon last : List Char} (gap : Gap text start) (nameAt : NameAt field.name start named)
    (symbol : SymbolAt ":" named colon) (gap' : Gap colon last)
    (written : inner field.pattern last rest) (ends : EndsEntry rest) :
    Reads (Grammar.field rule) text (field.same · = true) (Text.afterBlanks rest) := by
  have symbol : SymbolAt ":" (Text.afterBlanks named) colon :=
    (gap_afterBlanks named).of_gap symbol (solid_symbol rfl colon)
  apply (spaces_reads gap nameAt.solid).bind
  intro _ _
  apply Reads.here.bind
  intro origin _
  apply (nameToken_reads (.refl _) nameAt (gap_afterBlanks named) (solid_afterBlanks named)).bind
  rintro _ rfl
  refine .orElse ?_
  apply (token_reads rfl symbol gap' (complete.entry.solid written)).bind
  intro _ _
  apply (complete.reads (.refl _) written ends.endsPattern).expect.bind
  intro value agrees
  refine .pure ?_
  rcases field with ⟨name, pattern⟩
  simpa [Field.same] using agrees

theorem CompletePattern.field (complete : CompletePattern inner rule) :
    CompleteEntry (FieldAt inner) (fun field value => field.same value = true)
      (Grammar.field rule) where
  reads gap written ends := by
    rcases written with ⟨⟨origin, shape⟩, named⟩ | ⟨_, _, _, named, symbol, gap', written⟩
    · exact field_reads_name shape gap named ends
    · exact field_reads_pattern complete gap named symbol gap' written ends
  head {field start rest} written := by
    have named : ∃ last, NameAt field.name start last := by
      rcases written with ⟨_, named⟩ | ⟨_, _, _, named, _⟩
      · exact ⟨_, named⟩
      · exact ⟨_, named⟩
    rcases named with ⟨last, named⟩
    rcases named.head? with ⟨first, atHead, starts⟩
    exact ⟨first, atHead, startsPrimary_of_startsName starts⟩

/-- A pattern behind a comma. -/
def furtherPattern (rule : Grammar Pattern) : Grammar Pattern := do
  token ","
  rule

instance [Advancing rule] : Consuming (furtherPattern rule) :=
  inferInstanceAs (Consuming (token "," >>= fun _ => rule))

theorem groupPattern_reads_single (complete : CompletePattern inner rule) {opened closing : List Char}
    (gap : Gap opened start) (written : inner pattern start closing)
    (symbol : SymbolAt ")" closing rest) :
    Reads (groupPattern rule) ('(' :: opened) (pattern.same · = true) (Text.afterBlanks rest) := by
  have solid := complete.entry.solid written
  have noClose : Misses (token ")") start :=
    close_misses_at_entry complete.entry (by decide) (.refl start) written
  have opening : SymbolAt "(" ('(' :: opened) opened := .refl _
  apply Reads.here.bind
  intro origin _
  apply (token_reads rfl opening gap solid).bind
  intro _ _
  refine .orElse_of_misses ?_ noClose.bind
  apply (complete.reads (.refl start) written (endsEntry_of_symbol rfl symbol).endsPattern).bind
  intro value agrees
  refine .orElse ((close_reads (by decide) symbol).bind ?_)
  intro _ _
  exact .pure agrees

theorem groupPattern_reads_tuple [Advancing rule] (complete : CompletePattern inner rule)
    {items : List Pattern} {opened : List Char}
    (written : PayloadAt inner ")" (items.length == 1) items opened rest) :
    Reads (groupPattern rule) ('(' :: opened) ((Pattern.tuple offset [] items).same · = true)
      (Text.afterBlanks rest) := by
  rcases written with ⟨last, closing, listed, comma, symbol⟩
  have opening : SymbolAt "(" ('(' :: opened) opened := .refl _
  apply Reads.here.bind
  intro origin _
  apply (token_reads rfl opening (gap_afterBlanks opened) (solid_afterBlanks opened)).bind
  intro _ _
  cases items with
  | nil =>
      cases listed
      rcases comma with ⟨_, rfl⟩ | ⟨⟨⟩, _⟩
      refine .orElse ((close_reads (by decide) symbol).bind ?_)
      intro _ _
      exact .pure rfl
  | cons item items =>
      rcases listed with ⟨start, middle, gap, written, listed⟩
      have solid := complete.entry.solid written
      rw [gap.afterBlanks_eq solid]
      have noClose : Misses (token ")") start :=
        close_misses_at_entry complete.entry (by decide) (.refl start) written
      have ends := endsEntry_of_comma (by decide) comma symbol
      -- A comma stands behind the first item in any case, so that no parenthesis closes there.
      have noSingle : Misses (token ")") (Text.afterBlanks middle) := by
        rcases end_or_comma_of_tail listed comma with ⟨rfl, ⟨⟩, _⟩ | ⟨behind, commaAt⟩
        exact close_misses_at_comma (by decide) (symbolAt_afterBlanks rfl commaAt)
      have others : ReadsEach (furtherPattern rule) (Text.afterBlanks middle)
          (AgreeAll (fun pattern value => pattern.same value = true) items)
            (Text.afterBlanks last) := by
        apply listedTail_reads _ listed (gap_afterBlanks middle) (solid_afterBlanks middle) ends
        intro value text comma start last symbol gap written ends
        apply (token_reads rfl symbol gap (complete.entry.solid written)).bind
        intro _ _
        exact complete.reads (.refl start) written ends.endsPattern
      refine .orElse_of_misses ?_ noClose.bind
      apply (complete.entry.reads (.refl start) written (endsEntry_of_listedTail listed ends)).bind
      intro first agrees
      refine .orElse_of_misses ?_ noSingle.bind
      have closed : Misses rule (Text.afterBlanks closing) := by
        apply complete.misses written
        rw [afterBlanks_afterBlanks, symbol_head rfl symbol]
        rfl
      apply (others.stop (further_misses (by decide) comma symbol closed)).bind
      intro rest' agreeAll
      apply (trailingComma_reads (by decide) comma symbol).bind
      intro _ _
      apply (close_reads (by decide) symbol).expect.bind
      intro _ _
      refine .pure ?_
      simp [Pattern.same, Pattern.sameAll, agrees, sameAll_of_agreeAll agreeAll]

theorem with_reads (written : WithAt text middle) (gap : Gap middle rest) (solid : Solid rest)
    (apart : 'w' ∉ rest.head?) :
    ∃ between, Reads (optional (keyword "with")) text (fun _ => True) between ∧ Gap between rest := by
  rcases written with rfl | ⟨start, before, word⟩
  · have misses : Misses (keyword "with") text := by
      apply keyword_misses_of_head (by decide)
      rw [gap.afterBlanks_eq solid]
      intro first atHead same
      cases same
      exact apart atHead
    exact ⟨text, misses.optional.mono fun _ _ => trivial, gap⟩
  · have solid' : Solid start := by
      rw [word.1]
      rintro _ ⟨⟩
      decide
    exact ⟨rest, (keyword_reads before solid' word gap solid).optional.mono fun _ _ => trivial,
      .refl rest⟩

/-- Before a payload no name goes on. -/
theorem furtherName_misses_of_withAt {symbol : String} {payload opened : List Char}
    (among : ["(", "\x7b"].contains symbol = true) (written : WithAt text payload)
    (symbolAt : SymbolAt symbol payload opened) : Misses furtherName text := by
  have cases : symbol = "(" ∨ symbol = "\x7b" := by simpa using among
  apply Misses.bind
  apply separator_misses
  rcases written with rfl | ⟨start, before, word⟩
  · have isSymbol : isSymbol symbol = true := by rcases cases with rfl | rfl <;> rfl
    rw [symbol_head isSymbol symbolAt]
    rcases cases with rfl | rfl <;> (rintro _ ⟨⟩; decide)
  · have solid : Solid start := by
      rw [word.1]
      rintro _ ⟨⟩
      decide
    rw [before.afterBlanks_eq solid, word.1]
    rintro _ ⟨⟩
    decide

theorem opening_reads {symbol : String} {payload opened : List Char}
    (among : ["(", "\x7b"].contains symbol = true) (written : WithAt text payload)
    (symbolAt : SymbolAt symbol payload opened) :
    ∃ between, Reads (optional (keyword "with")) text (fun _ => True) between ∧
      SymbolAt symbol between opened := by
  have cases : symbol = "(" ∨ symbol = "\x7b" := by simpa using among
  have isSymbol : isSymbol symbol = true := by rcases cases with rfl | rfl <;> rfl
  have apart : 'w' ∉ (symbol.toList ++ opened).head? := by
    rcases cases with rfl | rfl <;> rintro ⟨⟩
  exact with_reads written symbolAt (solid_symbol isSymbol opened) apart

theorem pathPattern_reads_tuple [Advancing rule] (complete : CompletePattern inner rule)
    {segments : List String} {items : List Pattern} {named payload opened : List Char}
    (readable : IsReadable segments) (written : PathAt segments text named)
    (withAt : WithAt named payload) (symbol : SymbolAt "(" payload opened)
    (inside : PayloadAt inner ")" false items opened rest) :
    Reads (pathPattern rule) text ((Pattern.tuple offset segments items).same · = true)
      (Text.afterBlanks rest) := by
  rcases opening_reads rfl withAt symbol with ⟨between, word, bracket⟩
  apply Reads.here.bind
  intro origin _
  apply (path_reads readable.1 written (furtherName_misses_of_withAt rfl withAt symbol)).bind
  rintro _ rfl
  refine .orElse ?_
  apply word.bind
  intro _ _
  apply (token_reads rfl bracket (gap_afterBlanks opened) (solid_afterBlanks opened)).bind
  intro _ _
  apply (payload_reads complete.entry ')' (by decide) (by decide) inside).bind
  intro values agreeAll
  refine .pure ?_
  simp [Pattern.same, sameAll_of_agreeAll agreeAll]

theorem pathPattern_reads_record [Advancing rule] (complete : CompletePattern inner rule)
    {segments : List String} {fields : List Field} {named payload opened : List Char}
    (readable : IsReadable segments) (written : PathAt segments text named)
    (withAt : WithAt named payload) (symbol : SymbolAt "\x7b" payload opened)
    (inside : PayloadAt (FieldAt inner) "\x7d" false fields opened rest) :
    Reads (pathPattern rule) text ((Pattern.record offset segments fields).same · = true)
      (Text.afterBlanks rest) := by
  rcases opening_reads rfl withAt symbol with ⟨between, word, bracket⟩
  have noTuple : Misses (token "(") between :=
    token_misses_at_symbol rfl bracket (by decide) (by decide)
  apply Reads.here.bind
  intro origin _
  apply (path_reads readable.1 written (furtherName_misses_of_withAt rfl withAt symbol)).bind
  rintro _ rfl
  refine .orElse_of_misses (.orElse ?_) (word.bind_misses fun _ _ => noTuple.bind)
  apply word.bind
  intro _ _
  apply (token_reads rfl bracket (gap_afterBlanks opened) (solid_afterBlanks opened)).bind
  intro _ _
  apply (payload_reads complete.field '\x7d' (by decide) (by decide) inside).bind
  intro values agreeAll
  refine .pure ?_
  simp [Pattern.same, sameAll_of_agreeAll_fields agreeAll]

theorem pathPattern_reads_path {segments : List String} (readable : IsReadable segments)
    (written : PathAt segments text rest) (ends : EndsPattern rest) :
    Reads (pathPattern rule) text ((Pattern.path offset segments).same · = true) rest := by
  have noWord : Misses (keyword "with") rest := by
    apply keyword_misses_of_head (by decide)
    intro first atHead same
    cases same
    exact ends.not_mem_head (by decide) atHead
  have noBracket (symbol : String) (among : ["(", "\x7b"].contains symbol = true) :
      Misses (token symbol) rest := by
    have cases : symbol = "(" ∨ symbol = "\x7b" := by simpa using among
    rcases cases with rfl | rfl
    all_goals
      apply token_misses_of_head _ (by decide)
      intro first atHead same
      cases same
      exact ends.not_mem_head (by decide) atHead
  apply Reads.here.bind
  intro origin _
  apply (path_reads readable.1 written ends.furtherName_misses).bind
  rintro _ rfl
  refine .orElse_of_misses (.orElse_of_misses (.pure (by simp [Pattern.same])) ?_) ?_
  · exact noWord.optional.bind_misses fun _ _ => (noBracket "\x7b" (by decide)).bind
  · exact noWord.optional.bind_misses fun _ _ => (noBracket "(" (by decide)).bind

theorem namePattern_reads {name : String} (named : NameAt name text rest) :
    Reads namePattern text ((Pattern.name offset name).same · = true) rest := by
  apply Reads.here.bind
  intro origin _
  apply (name_reads named).bind
  rintro _ rfl
  exact .pure (by simp [Pattern.same])

theorem startsPattern_of_startsName (starts : startsName first = true) :
    startsPattern first = true := by
  simp [startsPattern, continuesName_of_startsName starts]

theorem literal_startsPattern {kind : LiteralKind} {value : String} (lexical : kind.Lexical value)
    (written : kind.LiteralAt value text rest) :
    ∃ first, text.head? = some first ∧ startsPattern first = true := by
  rcases written with ⟨rfl, _⟩
  cases kind with
  | boolean =>
      rcases lexical with rfl | rfl
      · exact ⟨'t', rfl, rfl⟩
      · exact ⟨'f', rfl, rfl⟩
  | number =>
      rcases number_head lexical with ⟨first, others, shape, digit⟩
      exact ⟨first, by simp [LiteralKind.written, shape], by simp [startsPattern, continuesName,
        digit]⟩
  | string => exact ⟨'"', rfl, rfl⟩
  | character => exact ⟨'\'', rfl, rfl⟩

theorem path_startsPattern {segments : List String} (readable : IsReadable segments)
    (written : PathAt segments text rest) :
    ∃ first, text.head? = some first ∧ startsPattern first = true := by
  rcases path_head readable.1 written with ⟨first, atHead, starts | rfl⟩
  · exact ⟨first, atHead, startsPattern_of_startsName starts⟩
  · exact ⟨':', atHead, rfl⟩

theorem spelledOf_head (written : SpelledOf inner pattern text rest) :
    ∃ first, text.head? = some first ∧ startsPattern first = true := by
  rcases written with written | ⟨_, _, _, rfl, _⟩
  · cases pattern with
    | literal => exact literal_startsPattern written.1 written.2
    | name =>
        rcases written.2.head? with ⟨first, atHead, starts⟩
        exact ⟨first, atHead, startsPattern_of_startsName starts⟩
    | path => exact path_startsPattern written.1 written.2
    | tuple _ segments =>
        cases segments with
        | nil =>
            rcases written with ⟨_, rfl, _⟩
            exact ⟨'(', rfl, rfl⟩
        | cons =>
            rcases written with ⟨readable, _, _, _, written, _⟩
            exact path_startsPattern readable written
    | record =>
        rcases written with ⟨readable, _, _, _, written, _⟩
        exact path_startsPattern readable written
  · exact ⟨'(', rfl, rfl⟩

/-- The alternatives of a pattern, in the order in which they are tried. -/
def patternChoice (rule : Grammar Pattern) : Grammar Pattern :=
  literalPattern <|> groupPattern rule <|> pathPattern rule <|> namePattern

theorem literalPattern_misses_bracket (opened : List Char) :
    Misses literalPattern ('(' :: opened) := by
  have notBoolean : Misses boolean ('(' :: opened) := by
    apply boolean_misses
    rintro _ ⟨⟩
    decide
  apply literalPattern_misses _ notBoolean
  rintro _ ⟨⟩
  decide

theorem pathPattern_misses_bracket (opened : List Char) :
    Misses (pathPattern rule) ('(' :: opened) := by
  refine Reads.here.bind_misses fun _ _ => (path_misses (by simp [isSpace]) ?_).bind
  rintro _ ⟨⟩
  decide

theorem namePattern_misses_bracket (opened : List Char) : Misses namePattern ('(' :: opened) := by
  refine Reads.here.bind_misses fun _ _ => (name_misses ?_).bind
  rintro _ ⟨⟩
  rfl

theorem patternChoice_reads_bracket {accept : Pattern → Prop} {opened : List Char}
    (reads : Reads (groupPattern rule) ('(' :: opened) accept rest) :
    Reads (patternChoice rule) ('(' :: opened) accept rest :=
  .orElse_of_misses reads.orElse (literalPattern_misses_bracket opened)

theorem patternChoice_reads_path {accept : Pattern → Prop} {segments : List String}
    (readable : IsReadable segments) (written : PathAt segments text middle)
    (reads : Reads (pathPattern rule) text accept rest) :
    Reads (patternChoice rule) text accept rest :=
  Reads.behind_brackets reads.orElse (path_head readable.1 written)
    (boolean_misses_of_pathAt readable written)

theorem patternChoice_reads_name {name : String} (named : NameAt name text rest)
    (apart : name ≠ "true" ∧ name ≠ "false") (small : name.toList.any isUppercase = false)
    (stops : Misses furtherName rest) :
    Reads (patternChoice rule) text ((Pattern.name offset name).same · = true) rest := by
  have noPath : Misses (pathPattern rule) text :=
    Reads.here.bind_misses fun _ _ => (path_misses_of_nameAt named small stops).bind
  rcases named.head? with ⟨first, atHead, starts⟩
  exact Reads.behind_brackets (.orElse_of_misses (namePattern_reads named) noPath)
    ⟨first, atHead, .inl starts⟩
    (boolean_misses_of_wordAt named.2 (continuesName_of_isName named.1) apart)

theorem patternChoice_reads [Advancing rule] (complete : CompletePattern inner rule)
    (written : SpelledOf inner pattern text rest) (ends : EndsPattern rest) :
    ∃ stop, Reads (patternChoice rule) text (pattern.same · = true) stop ∧
      Gap stop (Text.afterBlanks rest) := by
  have behind := gap_afterBlanks rest
  rcases written with written | ⟨opened, start, closing, rfl, gap, written, symbol⟩
  · cases pattern with
    | literal =>
        exact ⟨rest, (literalPattern_reads written.1 written.2).orElse, behind⟩
    | name =>
        rcases written with ⟨⟨notTrue, notFalse, small⟩, named⟩
        exact ⟨rest, patternChoice_reads_name named ⟨notTrue, notFalse⟩ small
          ends.furtherName_misses, behind⟩
    | path =>
        exact ⟨rest, patternChoice_reads_path written.1 written.2
          (pathPattern_reads_path written.1 written.2 ends), behind⟩
    | tuple _ segments =>
        refine ⟨_, ?_, .refl _⟩
        cases segments with
        | nil =>
            rcases written with ⟨opened, rfl, inside⟩
            exact patternChoice_reads_bracket (groupPattern_reads_tuple complete inside)
        | cons =>
            rcases written with ⟨readable, _, _, _, named, withAt, symbol, inside⟩
            exact patternChoice_reads_path readable named
              (pathPattern_reads_tuple complete readable named withAt symbol inside)
    | record =>
        rcases written with ⟨readable, _, _, _, named, withAt, symbol, inside⟩
        exact ⟨_, patternChoice_reads_path readable named
          (pathPattern_reads_record complete readable named withAt symbol inside), .refl _⟩
  · exact ⟨_, patternChoice_reads_bracket (groupPattern_reads_single complete gap written symbol),
      .refl _⟩

theorem CompletePattern.step [Advancing rule] (complete : CompletePattern inner rule) :
    CompletePattern (SpelledOf inner) (patternOf rule) where
  reads {pattern text start rest} gap written ends := by
    rcases spelledOf_head written with ⟨first, atHead, starts⟩
    have solid : Solid start := by
      rw [Solid, atHead]
      rintro _ ⟨⟩
      exact isSpace_eq_false_of_startsOperand
        (startsOperand_of_startsPrimary (startsPrimary_of_startsPattern starts))
    rcases patternChoice_reads complete written ends with ⟨stop, reads, behind⟩
    exact spaced_reads gap solid reads behind (solid_afterBlanks _)
  head := spelledOf_head
  misses _ atHead := by
    apply patternOf_misses
    rw [atHead]
    rintro _ ⟨⟩
    rfl

end

/-- Every spelling of a pattern is read where no pattern goes on. -/
theorem patternWithin_complete (brackets : Nat) :
    CompletePattern (SpelledWithin brackets) (patternWithin brackets) := by
  induction brackets with
  | zero => exact ⟨nofun, nofun, nofun⟩
  | succ brackets induction => exact induction.step

end Templating.Grammar

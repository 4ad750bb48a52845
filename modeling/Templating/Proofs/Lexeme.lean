import Templating.Proofs.Repetition
import Templating.Proofs.Spelling

/-! # Rules for lexemes

Each rule reads the lexeme that its name says, spelled as it should be, and it reads every
such lexeme. -/

namespace Templating.Grammar

open Text

variable {α : Type} {rule : Grammar α} {cursor later : Cursor} {text middle rest next : List Char}

/-! ## Characters -/

theorem drop_length_takeWhile (accept : Char → Bool) (text : List Char) :
    text.drop (text.takeWhile accept).length = text.dropWhile accept := by
  have whole : text.takeWhile accept ++ text.dropWhile accept = text :=
    List.takeWhile_append_dropWhile
  conv => lhs; arg 2; rw [← whole]
  exact List.drop_left

@[simp] theorem skipSpaces_rest (cursor : Cursor) :
    cursor.skipSpaces.rest = afterBlanks cursor.rest :=
  drop_length_takeWhile isSpace cursor.rest

theorem exact_reads (expected rest : List Char) :
    Reads (exact expected) (expected ++ rest) (fun _ => True) rest :=
  fun offset => ⟨(), offset + expected.length, exact_eq_matched.mpr ⟨rfl, rfl⟩, trivial⟩

theorem exact_misses {expected : List Char} (apart : ¬ expected <+: text) :
    Misses (exact expected) text := by
  intro offset
  unfold exact
  rw [if_neg (mt List.isPrefixOf_iff_prefix.mp apart)]

theorem character_eq_matched {accept : Char → Bool} {first : Char} :
    character accept cursor = .matched first later ↔
      accept first = true ∧ cursor.rest = first :: later.rest ∧
        later.offset = cursor.offset + 1 := by
  rcases cursor with ⟨offset, _ | ⟨atHead, rest⟩⟩
  · simp [character]
  · rcases later with ⟨offset', rest'⟩
    unfold character
    dsimp only
    split
    case isTrue accepted =>
        constructor
        · rintro ⟨⟩
          exact ⟨accepted, rfl, rfl⟩
        · rintro ⟨_, same, rfl⟩
          cases same
          rfl
    case isFalse refused =>
        constructor
        · rintro ⟨⟩
        · rintro ⟨accepted, same, _⟩
          cases same
          exact absurd accepted refused

theorem character_reads {accept : Char → Bool} {first : Char} (accepted : accept first = true) :
    Reads (character accept) (first :: rest) (· = first) rest :=
  fun offset => ⟨first, offset + 1, character_eq_matched.mpr ⟨accepted, rfl, rfl⟩, rfl⟩

theorem character_misses {accept : Char → Bool}
    (refused : ∀ first ∈ text.head?, accept first = false) : Misses (character accept) text := by
  intro offset
  cases text with
  | nil => rfl
  | cons first text =>
      have := refused first rfl
      simp [character, this]

theorem characters_yields {accept : Char → Bool} {run : List Char}
    (matched : characters accept cursor = .matched run later) :
    cursor.rest = run ++ later.rest ∧ run.all accept = true ∧
      ∀ first ∈ later.rest.head?, accept first = false := by
  cases matched
  have dropped : (cursor.advance (cursor.rest.takeWhile accept).length).rest =
      cursor.rest.dropWhile accept :=
    drop_length_takeWhile accept cursor.rest
  rw [dropped]
  refine ⟨List.takeWhile_append_dropWhile.symm, List.all_takeWhile, ?_⟩
  intro first atHead
  have := List.head?_dropWhile_not accept cursor.rest
  rw [Option.mem_def.mp atHead] at this
  simpa using this

theorem characters_reads {accept : Char → Bool} {run : List Char} (accepted : run.all accept = true)
    (stopped : ∀ first ∈ rest.head?, accept first = false) :
    Reads (characters accept) (run ++ rest) (· = run) rest := by
  intro offset
  have taken : (run ++ rest).takeWhile accept = run := by
    rw [List.takeWhile_append_of_pos (List.all_eq_true.mp accepted)]
    cases rest with
    | nil => simp
    | cons first rest => simp [stopped first rfl]
  exact ⟨run, offset + run.length, by simp [characters, taken, Cursor.advance], rfl⟩

/-! ## Blanks -/

theorem spaces_reads (gap : Gap text rest) (solid : Solid rest) :
    Reads spaces text (fun _ => True) rest := by
  intro offset
  refine ⟨(), (Cursor.mk offset text).skipSpaces.offset, ?_, trivial⟩
  rw [← gap.afterBlanks_eq solid]
  exact congrArg (Outcome.matched ()) (congrArg (Cursor.mk _) (skipSpaces_rest ⟨offset, text⟩))

theorem spaces_yields (matched : spaces cursor = .matched () later) :
    Gap cursor.rest later.rest ∧ Solid later.rest := by
  cases matched
  rw [skipSpaces_rest]
  exact ⟨gap_afterBlanks _, solid_afterBlanks _⟩

theorem nextOffset_reads (text : List Char) : Reads nextOffset text (fun _ => True) text :=
  fun _ => ⟨_, _, rfl, trivial⟩

theorem spaced_yields {value : α} (matched : spaced rule cursor = .matched value later) :
    ∃ start stop, Gap cursor.rest start.rest ∧ Solid start.rest ∧
      rule start = .matched value stop ∧ Gap stop.rest later.rest ∧ Solid later.rest := by
  simp only [spaced, bind_eq_matched, pure_eq_matched] at matched
  rcases matched with ⟨_, start, before, _, stop, read, _, _, behind, rfl, rfl⟩
  rcases spaces_yields before with ⟨gap, solid⟩
  rcases spaces_yields behind with ⟨gap', solid'⟩
  exact ⟨start, stop, gap, solid, read, gap', solid'⟩

theorem spaced_reads {accept : α → Prop} {start stop : List Char} (before : Gap text start)
    (solid : Solid start) (reads : Reads rule start accept stop) (behind : Gap stop rest)
    (solid' : Solid rest) : Reads (spaced rule) text accept rest := by
  apply (spaces_reads before solid).bind
  intro _ _
  apply reads.bind
  intro value accepted
  apply (spaces_reads behind solid').bind
  intro _ _
  exact .pure accepted

theorem spaced_misses (misses : Misses rule (afterBlanks text)) : Misses (spaced rule) text :=
  (spaces_reads (gap_afterBlanks text) (solid_afterBlanks text)).bind_misses fun _ _ =>
    misses.bind

/-! ## Symbols -/

theorem token_yields {symbol : String} (matched : token symbol cursor = .matched () later) :
    ∃ middle, SymbolAt symbol cursor.rest middle ∧ Gap middle later.rest ∧ Solid later.rest := by
  rcases spaced_yields matched with ⟨start, stop, gap, _, read, gap', solid'⟩
  refine ⟨stop.rest, ?_, gap', solid'⟩
  rw [SymbolAt, ← (exact_eq_matched.mp read).1]
  exact gap

theorem token_reads {symbol : String} (isSymbol : isSymbol symbol = true)
    (spelled : SymbolAt symbol text middle) (gap : Gap middle rest) (solid : Solid rest) :
    Reads (token symbol) text (fun _ => True) rest :=
  spaced_reads spelled (solid_symbol isSymbol middle) (exact_reads _ _) gap solid

theorem token_misses {symbol : String} (apart : ¬ symbol.toList <+: afterBlanks text) :
    Misses (token symbol) text :=
  spaced_misses (exact_misses apart)

/-! ## Words -/

theorem endOfWord_yields (matched : endOfWord cursor = .matched () later) :
    later = cursor ∧ EndsName cursor.rest := by
  rcases cursor with ⟨offset, _ | ⟨first, rest⟩⟩
  · cases matched
    exact ⟨rfl, endsName_nil⟩
  · unfold endOfWord ahead at matched
    dsimp only at matched
    split at matched
    case isTrue ends =>
        cases matched
        exact ⟨rfl, by simpa using ends⟩
    case isFalse => cases matched

theorem endOfWord_reads (ends : EndsName text) : Reads endOfWord text (fun _ => True) text := by
  intro offset
  refine ⟨(), offset, ?_, trivial⟩
  cases text with
  | nil => rfl
  | cons first text => simp [endOfWord, ahead, endsName_cons.mp ends]

theorem endOfWord_misses (goesOn : ¬ EndsName text) : Misses endOfWord text := by
  intro offset
  cases text with
  | nil => exact absurd endsName_nil goesOn
  | cons first text =>
      have continues : continuesName first = true := by simpa using goesOn
      simp [endOfWord, ahead, continues]

theorem word_yields {word value : String}
    (matched : Grammar.word word cursor = .matched value later) :
    value = word ∧ WordAt word cursor.rest later.rest := by
  simp only [Grammar.word, bind_eq_matched, pure_eq_matched] at matched
  rcases matched with ⟨_, middle, read, _, _, ended, rfl, rfl⟩
  rcases endOfWord_yields ended with ⟨rfl, ends⟩
  exact ⟨rfl, (exact_eq_matched.mp read).1, ends⟩

theorem word_reads {word : String} (spelled : WordAt word text rest) :
    Reads (Grammar.word word) text (· = word) rest := by
  rcases spelled with ⟨rfl, ends⟩
  apply (exact_reads _ _).bind
  intro _ _
  apply (endOfWord_reads ends).bind
  intro _ _
  exact .pure rfl

theorem word_misses {word : String} (apart : ∀ rest, ¬ WordAt word text rest) :
    Misses (Grammar.word word) text := by
  intro offset
  by_cases begins : word.toList <+: text
  case pos =>
      rcases begins with ⟨rest, rfl⟩
      have goesOn : ¬ EndsName rest := fun ends => apart rest ⟨rfl, ends⟩
      apply (exact_reads _ _).bind_misses
      intro _ _
      exact (endOfWord_misses goesOn).bind
  case neg => exact (exact_misses begins).bind offset

theorem keyword_yields {word value : String}
    (matched : keyword word cursor = .matched value later) :
    value = word ∧ ∃ start middle, Gap cursor.rest start ∧ WordAt word start middle ∧
      Gap middle later.rest ∧ Solid later.rest := by
  rcases spaced_yields matched with ⟨start, stop, gap, _, read, gap', solid'⟩
  rcases word_yields read with ⟨rfl, spelled⟩
  exact ⟨rfl, start.rest, stop.rest, gap, spelled, gap', solid'⟩

theorem keyword_reads {word : String} {start : List Char} (before : Gap text start)
    (solid : Solid start) (spelled : WordAt word start middle) (gap : Gap middle rest)
    (solid' : Solid rest) : Reads (keyword word) text (· = word) rest :=
  spaced_reads before solid (word_reads spelled) gap solid'

theorem keyword_misses {word : String} (apart : ∀ rest, ¬ WordAt word (afterBlanks text) rest) :
    Misses (keyword word) text :=
  spaced_misses (word_misses apart)

/-! ## Names -/

theorem name_yields {value : String} (matched : name cursor = .matched value later) :
    NameAt value cursor.rest later.rest := by
  simp only [name, bind_eq_matched, pure_eq_matched] at matched
  rcases matched with ⟨first, middle, begun, others, _, goneOn, rfl, rfl⟩
  rcases character_eq_matched.mp begun with ⟨starts, read, _⟩
  rcases characters_yields goneOn with ⟨read', continues, ends⟩
  rw [read'] at read
  refine ⟨?_, ?_, ends⟩
  · simp [isName, starts, continues]
  · simpa using read

theorem name_reads {value : String} (spelled : NameAt value text rest) :
    Reads name text (· = value) rest := by
  rcases spelled with ⟨isName, read, ends⟩
  cases shape : value.toList with
  | nil => simp [shape, Text.isName] at isName
  | cons first others =>
      rw [shape, Text.isName, Bool.and_eq_true] at isName
      rw [read, shape]
      apply (character_reads isName.1).bind
      rintro _ rfl
      apply (characters_reads isName.2 ends).bind
      rintro _ rfl
      apply Reads.pure
      rw [← shape, String.ofList_toList]

theorem nameToken_yields {value : String} (matched : nameToken cursor = .matched value later) :
    ∃ start middle, Gap cursor.rest start ∧ NameAt value start middle ∧ Gap middle later.rest ∧
      Solid later.rest := by
  rcases spaced_yields matched with ⟨start, stop, gap, _, read, gap', solid⟩
  exact ⟨start.rest, stop.rest, gap, name_yields read, gap', solid⟩

theorem nameToken_reads {value : String} {start : List Char} (before : Gap text start)
    (spelled : NameAt value start middle) (gap : Gap middle rest) (solid : Solid rest) :
    Reads nameToken text (· = value) rest :=
  spaced_reads before spelled.solid (name_reads spelled) gap solid

theorem name_misses (refused : ∀ first ∈ text.head?, startsName first = false) :
    Misses name text :=
  (character_misses refused).bind

theorem nameToken_misses
    (refused : ∀ first ∈ (afterBlanks text).head?, startsName first = false) :
    Misses nameToken text :=
  spaced_misses (name_misses refused)

end Templating.Grammar

import Templating.Proofs.ExpressionSoundness
import Templating.Proofs.PatternForm

/-! # What the rules for patterns read

The text that a rule for patterns has read is a spelling of the pattern that it yields. -/

namespace Templating.Grammar

open Text Templating.Pattern
open Templating.Expr (TrailingComma)

/-- The rule reads what is spelled in a given way, between blanks. -/
def SoundPattern {α : Type} (spelled : α → (text rest : List Char) → Prop) (rule : Grammar α) :
    Prop :=
  ∀ {cursor value later}, rule cursor = .matched value later →
    ∃ start last, Gap cursor.rest start ∧ spelled value start last ∧ Gap last later.rest ∧
      Solid later.rest

variable {α : Type} {inner : Pattern → (text rest : List Char) → Prop} {rule : Grammar Pattern}
  {pattern : Pattern} {cursor later : Cursor} {text rest : List Char}

/-! ## Lists -/

section

variable {spelled : α → (text rest : List Char) → Prop} {further item : Grammar α}

/-- Items each of which a rule reads behind a comma. -/
theorem listedTail_of_repeated {values : List α}
    (sound : ∀ {cursor value later}, further cursor = .matched value later →
      ∃ comma start last, SymbolAt "," cursor.rest comma ∧ Gap comma start ∧
        spelled value start last ∧ Gap last later.rest)
    (repeated : Repeated further cursor values later) (gap : Gap text cursor.rest) :
    ∃ last, ListedTail spelled values text last ∧ Gap last later.rest := by
  induction repeated generalizing text with
  | nil => exact ⟨text, rfl, gap⟩
  | cons first _ induction =>
      rcases sound first with ⟨comma, start, last, symbol, behind, spelledItem, after⟩
      rcases induction after with ⟨stop, listed, after'⟩
      exact ⟨stop, ⟨comma, start, last, gap.trans symbol, behind, spelledItem, listed⟩, after'⟩

theorem payload_sound (sound : SoundPattern spelled item) {closing : Char} {values : List α}
    (matched : payload closing item cursor = .matched values later) :
    ∃ stop, PayloadAt spelled (String.singleton closing) false values cursor.rest stop ∧
      Gap stop later.rest := by
  simp only [payload, orElse_eq_matched, bind_eq_matched, pure_eq_matched, expect_eq_matched]
    at matched
  rcases matched with ⟨_, _, closed, rfl, rfl⟩ | ⟨_, first, _, read, others, middle, repeated, _, _,
    commaRead, _, _, closed, rfl, rfl⟩
  · rcases token_yields closed with ⟨stop, symbol, after, _⟩
    exact ⟨stop, ⟨cursor.rest, cursor.rest, rfl, .inl ⟨rfl, rfl⟩, symbol⟩, after⟩
  · rcases sound read with ⟨start, last, before, spelledFirst, behind, _⟩
    have further : ∃ stop, ListedTail spelled others last stop ∧ Gap stop middle.rest := by
      apply listedTail_of_repeated _ (repeated_of_many repeated) behind
      intro cursor value later matched
      simp only [bind_eq_matched, ahead_eq_matched, expect_eq_matched] at matched
      rcases matched with ⟨_, _, comma, _, _, ⟨_, rfl⟩, read⟩
      rcases token_yields comma with ⟨commaRest, symbol, after, _⟩
      rcases sound read with ⟨start, last, before, spelledItem, behind, _⟩
      exact ⟨commaRest, start, last, symbol, after.trans before, spelledItem, behind⟩
    rcases further with ⟨stop, listed, behind⟩
    rcases trailingComma_yields commaRead with ⟨closing, comma, behind'⟩
    rcases comma.of_gap behind with ⟨closing', comma, gap⟩
    rcases token_yields closed with ⟨rest, symbol, after, _⟩
    exact ⟨rest, ⟨stop, closing', ⟨start, last, before, spelledFirst, listed⟩, comma,
      gap.trans (behind'.trans symbol)⟩, after⟩

end

/-! ## Patterns -/

theorem literalPattern_sound (matched : literalPattern cursor = .matched pattern later) :
    BareAt inner pattern cursor.rest later.rest := by
  have sound (kind : LiteralKind) {text : String} (read : literal kind cursor = .matched text later) :
      BareAt inner (.literal cursor.offset kind text) cursor.rest later.rest :=
    literal_yields read
  simp only [literalPattern, bind_eq_matched, here_eq_matched, orElse_eq_matched,
    pure_eq_matched] at matched
  rcases matched with ⟨_, _, ⟨rfl, rfl⟩, ⟨_, _, read, rfl, rfl⟩ | ⟨_, matched⟩⟩
  · exact sound .string read
  rcases matched with ⟨_, _, read, rfl, rfl⟩ | ⟨_, matched⟩
  · exact sound .character read
  rcases matched with ⟨_, _, read, rfl, rfl⟩ | ⟨_, _, _, read, rfl, rfl⟩
  · exact sound .number read
  · exact sound .boolean read

/-- Where no literal stands, no qualified name or name is `true` or `false`. -/
theorem boolean_noMatch_of_literalPattern (missed : literalPattern cursor = .noMatch) :
    boolean cursor = .noMatch := by
  unfold literalPattern at missed
  rw [bind_of_matched (show here cursor = .matched cursor.offset cursor from rfl)] at missed
  simp only [orElse_eq_noMatch] at missed
  exact noMatch_of_bind_pure missed.2.2.2

theorem groupPattern_sound (sound : SoundPattern inner rule) (solid : Solid cursor.rest)
    (matched : groupPattern rule cursor = .matched pattern later) :
    ∃ stop, SpelledOf inner pattern cursor.rest stop ∧ Gap stop later.rest := by
  simp only [groupPattern, bind_eq_matched, here_eq_matched, orElse_eq_matched, pure_eq_matched,
    expect_eq_matched] at matched
  rcases matched with ⟨_, _, ⟨rfl, rfl⟩, _, begun, opening, matched⟩
  rcases token_yields opening with ⟨opened, symbol, gap, _⟩
  have shape : cursor.rest = '(' :: opened := symbol.eq_of_solid solid
  rcases matched with ⟨_, _, closed, rfl, rfl⟩ | ⟨_, first, middle, read, matched⟩
  · rcases token_yields closed with ⟨stop, symbol, after, _⟩
    exact ⟨stop, .inl ⟨opened, shape, opened, opened, rfl, .inl ⟨rfl, rfl⟩, gap.trans symbol⟩,
      after⟩
  rcases sound read with ⟨start, last, before, spelled, behind, _⟩
  rcases matched with ⟨_, _, closed, rfl, rfl⟩ | ⟨open', others, final, repeated, _, _, commaRead,
    _, ended, closed, rfl, rfl⟩
  · rcases token_yields closed with ⟨stop, symbol, after, _⟩
    exact ⟨stop, .inr ⟨opened, start, last, shape, gap.trans before, spelled,
      behind.trans symbol⟩, after⟩
  have further : ∃ stop, ListedTail inner others last stop ∧ Gap stop final.rest := by
    apply listedTail_of_repeated _ (repeated_of_many repeated) behind
    intro cursor value later matched
    simp only [bind_eq_matched] at matched
    rcases matched with ⟨_, _, comma, read⟩
    rcases token_yields comma with ⟨commaRest, symbol, after, _⟩
    rcases sound read with ⟨start, last, before, spelledItem, behind, _⟩
    exact ⟨commaRest, start, last, symbol, after.trans before, spelledItem, behind⟩
  rcases further with ⟨stop, listed, behind'⟩
  -- A comma has to stand behind a single item, else the parenthesis would close behind it.
  have comma : ∃ closing, TrailingComma (others.length == 0) true stop closing ∧
      ∃ rest, SymbolAt ")" closing rest ∧ Gap rest ended.rest := by
    rcases token_yields closed with ⟨rest, symbol, after, _⟩
    rcases optional_eq_matched.mp commaRead with ⟨_, _, found⟩ | ⟨_, rfl, _⟩
    · rcases token_yields found with ⟨closing, comma, gap, _⟩
      exact ⟨closing, .inr ⟨rfl, behind'.trans comma⟩, rest, gap.trans symbol, after⟩
    · cases others with
      | nil =>
          cases repeated_of_many repeated
          rw [noMatch_of_bind_pure open'] at closed
          cases closed
      | cons other others => exact ⟨stop, .inl ⟨rfl, rfl⟩, rest, behind'.trans symbol, after⟩
  rcases comma with ⟨closing, comma, rest, symbol, after⟩
  exact ⟨rest, .inl ⟨opened, shape, stop, closing,
    ⟨start, last, gap.trans before, spelled, listed⟩, by simpa using comma, symbol⟩, after⟩

theorem namePattern_sound (notLiteral : literalPattern cursor = .noMatch)
    (notPath : path cursor = .noMatch)
    (matched : namePattern cursor = .matched pattern later) :
    BareAt inner pattern cursor.rest later.rest := by
  simp only [namePattern, bind_eq_matched, here_eq_matched, pure_eq_matched] at matched
  rcases matched with ⟨_, _, ⟨rfl, rfl⟩, value, _, read, rfl, rfl⟩
  have named := name_yields read
  have notBoolean := boolean_noMatch_of_literalPattern notLiteral
  refine ⟨⟨?_, ?_, any_isUppercase_of_path_noMatch named notPath⟩, named⟩
  · rintro rfl
    exact boolean_ne_noMatch (.inl rfl) named.2 notBoolean
  · rintro rfl
    exact boolean_ne_noMatch (.inr rfl) named.2 notBoolean

theorem with_yields {found : Option String}
    (matched : optional (keyword "with") cursor = .matched found later) :
    ∃ stop, WithAt cursor.rest stop ∧ Gap stop later.rest := by
  rcases optional_eq_matched.mp matched with ⟨_, rfl, read⟩ | ⟨rfl, rfl, _⟩
  · rcases keyword_yields read with ⟨_, start, stop, before, word, after, _⟩
    exact ⟨stop, .inr ⟨start, before, word⟩, after⟩
  · exact ⟨later.rest, .inl rfl, .refl _⟩

theorem field_sound (sound : SoundPattern inner rule) : SoundPattern (FieldAt inner) (field rule) := by
  intro cursor value later matched
  simp only [field, bind_eq_matched, here_eq_matched, orElse_eq_matched, pure_eq_matched,
    expect_eq_matched] at matched
  rcases matched with ⟨_, begun, blanks, _, _, ⟨rfl, rfl⟩, label, named, labelled, matched⟩
  have gap := (spaces_yields blanks).1
  rcases nameToken_yields labelled with ⟨start, stop, before, nameAt, behind, solid⟩
  rcases matched with ⟨_, _, colon, inside, _, read, rfl, rfl⟩ | ⟨_, rfl, rfl⟩
  · rcases token_yields colon with ⟨after, symbol, gap', _⟩
    rcases sound read with ⟨start', last, before', spelled, behind', solid'⟩
    exact ⟨start, last, gap.trans before, .inr ⟨stop, after, start', nameAt, behind.trans symbol,
      gap'.trans before', spelled⟩, behind', solid'⟩
  · exact ⟨start, stop, gap.trans before, .inl ⟨⟨_, rfl⟩, nameAt⟩, behind, solid⟩

/-- A qualified name is a pattern without a payload. -/
theorem path_noMatch_of_pathPattern (missed : pathPattern rule cursor = .noMatch) :
    path cursor = .noMatch := by
  unfold pathPattern at missed
  rw [bind_of_matched (show here cursor = .matched cursor.offset cursor from rfl),
    bind_eq_noMatch] at missed
  rcases missed with missed | ⟨_, _, _, missed⟩
  · exact missed
  · simp only [orElse_eq_noMatch] at missed
    cases missed.2.2

theorem pathPattern_sound (sound : SoundPattern inner rule)
    (notLiteral : literalPattern cursor = .noMatch) (solid : Solid cursor.rest)
    (matched : pathPattern rule cursor = .matched pattern later) :
    ∃ stop, BareAt inner pattern cursor.rest stop ∧ Gap stop later.rest := by
  simp only [pathPattern, bind_eq_matched, here_eq_matched, orElse_eq_matched,
    pure_eq_matched] at matched
  rcases matched with ⟨_, _, ⟨rfl, rfl⟩, segments, named, read, matched⟩
  rcases readable_of_boolean_noMatch (boolean_noMatch_of_literalPattern notLiteral) read with
    ⟨readable, start, gap, pathAt⟩
  cases gap.eq_of_solid solid
  rcases matched with matched | ⟨_, matched | ⟨_, rfl, rfl⟩⟩
  · rcases matched with ⟨_, _, word, _, _, bracket, items, _, payload, rfl, rfl⟩
    rcases with_yields word with ⟨before, withAt, gap⟩
    rcases token_yields bracket with ⟨opened, symbol, gap', _⟩
    rcases payload_sound sound payload with ⟨stop, spelled, behind⟩
    refine ⟨stop, ?_, behind⟩
    cases segments with
    | nil => cases readable.1
    | cons first others =>
        exact ⟨readable, _, before, opened, pathAt, withAt, gap.trans symbol, spelled.of_gap gap'⟩
  · rcases matched with ⟨_, _, word, _, _, bracket, fields, _, payload, rfl, rfl⟩
    rcases with_yields word with ⟨before, withAt, gap⟩
    rcases token_yields bracket with ⟨opened, symbol, gap', _⟩
    rcases payload_sound (field_sound sound) payload with ⟨stop, spelled, behind⟩
    exact ⟨stop, ⟨readable, _, before, opened, pathAt, withAt, gap.trans symbol,
      spelled.of_gap gap'⟩, behind⟩
  · exact ⟨_, ⟨readable, pathAt⟩, .refl _⟩

theorem patternOf_sound (sound : SoundPattern inner rule) :
    SoundPattern (SpelledOf inner) (patternOf rule) := by
  intro cursor value later matched
  rcases spaced_yields matched with ⟨begun, ended, before, solid, read, after, solid'⟩
  suffices spelled : ∃ stop, SpelledOf inner value begun.rest stop ∧ Gap stop ended.rest by
    rcases spelled with ⟨stop, spelled, behind⟩
    exact ⟨begun.rest, stop, before, spelled, behind.trans after, solid'⟩
  simp only [orElse_eq_matched] at read
  rcases read with read | ⟨notLiteral, read | ⟨_, read | ⟨notPath, read⟩⟩⟩
  · exact ⟨_, .inl (literalPattern_sound read), .refl _⟩
  · exact groupPattern_sound sound solid read
  · rcases pathPattern_sound sound notLiteral solid read with ⟨stop, spelled, behind⟩
    exact ⟨stop, .inl spelled, behind⟩
  · exact ⟨_, .inl (namePattern_sound notLiteral (path_noMatch_of_pathPattern notPath) read),
      .refl _⟩

/-- Whatever the rule for patterns yields, the text that it has read is a spelling of it. -/
theorem patternWithin_sound (brackets : Nat) :
    SoundPattern (SpelledWithin brackets) (patternWithin brackets) := by
  induction brackets with
  | zero =>
      intro _ _ _ matched
      cases matched
  | succ brackets induction => exact patternOf_sound induction

end Templating.Grammar

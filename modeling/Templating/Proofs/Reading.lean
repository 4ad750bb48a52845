import Templating.Grammar.Expression
import Templating.Grammar.Pattern

/-! # What a rule reads

A rule that matches has read some text and left the rest of the source. What a composed rule
reads is told from its parts, in both directions: how a match came about, and how a match is
put together. -/

namespace Templating

namespace Cursor

/-- The later cursor lies behind some text that stands at the earlier one. -/
def Reaches (cursor later : Cursor) : Prop :=
  ∃ text, cursor.rest = text ++ later.rest ∧ later.offset = cursor.offset + text.length

/-- The later cursor lies behind the earlier one and not at the same place. -/
def Passes (cursor later : Cursor) : Prop :=
  cursor.Reaches later ∧ later.rest.length < cursor.rest.length

variable {cursor later last : Cursor}

theorem Reaches.refl (cursor : Cursor) : cursor.Reaches cursor :=
  ⟨[], by simp⟩

theorem Reaches.trans (first : cursor.Reaches later) (second : later.Reaches last) :
    cursor.Reaches last := by
  rcases first with ⟨text, read, moved⟩
  rcases second with ⟨text', read', moved'⟩
  refine ⟨text ++ text', ?_, ?_⟩
  · rw [read, read', List.append_assoc]
  · rw [moved', moved, List.length_append, Nat.add_assoc]

theorem Reaches.offset_le (reaches : cursor.Reaches later) : cursor.offset ≤ later.offset := by
  rcases reaches with ⟨text, _, moved⟩
  omega

theorem Reaches.length_le (reaches : cursor.Reaches later) :
    later.rest.length ≤ cursor.rest.length := by
  rcases reaches with ⟨text, read, _⟩
  simp [read]

theorem Passes.offset_lt (passes : cursor.Passes later) : cursor.offset < later.offset := by
  rcases passes with ⟨⟨text, read, moved⟩, shorter⟩
  rw [read, List.length_append] at shorter
  omega

theorem Passes.trans_reaches (first : cursor.Passes later) (second : later.Reaches last) :
    cursor.Passes last :=
  ⟨first.1.trans second, Nat.lt_of_le_of_lt second.length_le first.2⟩

theorem Reaches.trans_passes (first : cursor.Reaches later) (second : later.Passes last) :
    cursor.Passes last :=
  ⟨first.trans second.1, Nat.lt_of_lt_of_le second.2 first.length_le⟩

theorem reaches_advance (cursor : Cursor) {count : Nat} (within : count ≤ cursor.rest.length) :
    cursor.Reaches (cursor.advance count) :=
  ⟨cursor.rest.take count, by simp [advance], by simp [advance, within]⟩

theorem reaches_skipSpaces (cursor : Cursor) : cursor.Reaches cursor.skipSpaces :=
  cursor.reaches_advance (List.takeWhile_prefix _).length_le

end Cursor

namespace Grammar

variable {α β : Type} {rule other : Grammar α} {next : α → Grammar β} {value : α} {result : β}
  {cursor later : Cursor}

/-! ## How a match came about -/

theorem bind_eq_matched :
    (rule >>= next) cursor = .matched result later ↔
      ∃ value middle, rule cursor = .matched value middle ∧
        next value middle = .matched result later := by
  rw [bind_apply]
  cases rule cursor <;> simp [and_assoc]

theorem orElse_eq_matched :
    (rule <|> other) cursor = .matched value later ↔
      rule cursor = .matched value later ∨
        rule cursor = .noMatch ∧ other cursor = .matched value later := by
  rw [orElse_apply]
  cases rule cursor <;> simp

theorem optional_eq_matched {value : Option α} :
    optional rule cursor = .matched value later ↔
      (∃ inner, value = some inner ∧ rule cursor = .matched inner later) ∨
        value = none ∧ later = cursor ∧ rule cursor = .noMatch := by
  rw [optional, orElse_apply, bind_apply]
  cases rule cursor with
  | matched inner middle =>
      constructor
      · rintro ⟨⟩
        exact .inl ⟨inner, rfl, rfl⟩
      · rintro (⟨_, rfl, ⟨⟩⟩ | ⟨_, _, ⟨⟩⟩)
        rfl
  | noMatch => simp [eq_comm, and_comm]
  | failed failure => simp

theorem pure_eq_matched {value' : α} :
    (pure value : Grammar α) cursor = .matched value' later ↔ value = value' ∧ cursor = later := by
  simp

theorem here_eq_matched {offset : Nat} :
    here cursor = .matched offset later ↔ cursor.offset = offset ∧ cursor = later := by
  simp [here]

theorem ahead_eq_matched {test : List Char → Bool} {found : Unit} :
    ahead test cursor = .matched found later ↔ test cursor.rest = true ∧ cursor = later := by
  unfold ahead
  split <;> simp [*]

theorem expect_eq_matched {problem : Problem} :
    expect rule problem cursor = .matched value later ↔ rule cursor = .matched value later := by
  rw [expect, orElse_eq_matched]
  simp [fail]

theorem bind_eq_noMatch :
    (rule >>= next) cursor = .noMatch ↔
      rule cursor = .noMatch ∨
        ∃ value middle, rule cursor = .matched value middle ∧ next value middle = .noMatch := by
  rw [bind_apply]
  cases rule cursor <;> simp [and_assoc]

theorem orElse_eq_noMatch :
    (rule <|> other) cursor = .noMatch ↔ rule cursor = .noMatch ∧ other cursor = .noMatch := by
  rw [orElse_apply]
  cases rule cursor <;> simp

theorem bind_eq_failed {failure : Failure} :
    (rule >>= next) cursor = .failed failure ↔
      rule cursor = .failed failure ∨
        ∃ value middle, rule cursor = .matched value middle ∧
          next value middle = .failed failure := by
  rw [bind_apply]
  cases rule cursor <;> simp [and_assoc]

theorem orElse_eq_failed {failure : Failure} :
    (rule <|> other) cursor = .failed failure ↔
      rule cursor = .failed failure ∨ rule cursor = .noMatch ∧ other cursor = .failed failure := by
  rw [orElse_apply]
  cases rule cursor <;> simp

theorem noMatch_of_bind_pure {embed : α → β}
    (missed : (rule >>= fun value => pure (embed value)) cursor = .noMatch) :
    rule cursor = .noMatch := by
  rcases bind_eq_noMatch.mp missed with missed | ⟨_, _, _, missed⟩
  · exact missed
  · cases missed

theorem optional_ne_noMatch : optional rule cursor ≠ .noMatch := by
  rw [optional, orElse_apply, bind_apply]
  cases rule cursor <;> simp

/-! ## How a match is put together -/

theorem bind_of_matched {middle : Cursor} (matched : rule cursor = .matched value middle) :
    (rule >>= next) cursor = next value middle := by
  rw [bind_apply, matched]

theorem bind_of_noMatch (missed : rule cursor = .noMatch) :
    (rule >>= next) cursor = .noMatch := by
  rw [bind_apply, missed]

theorem orElse_of_matched (matched : rule cursor = .matched value later) :
    (rule <|> other) cursor = .matched value later := by
  rw [orElse_apply, matched]

theorem orElse_of_noMatch (missed : rule cursor = .noMatch) :
    (rule <|> other) cursor = other cursor := by
  rw [orElse_apply, missed]

theorem orElse_of_noMatch_right (missed : other cursor = .noMatch) :
    (rule <|> other) cursor = rule cursor := by
  rw [orElse_apply, missed]
  cases rule cursor <;> rfl

theorem optional_of_matched (matched : rule cursor = .matched value later) :
    optional rule cursor = .matched (some value) later :=
  optional_eq_matched.mpr (.inl ⟨value, rfl, matched⟩)

theorem optional_of_noMatch (missed : rule cursor = .noMatch) :
    optional rule cursor = .matched none cursor :=
  optional_eq_matched.mpr (.inr ⟨rfl, rfl, missed⟩)

theorem expect_of_matched {problem : Problem} (matched : rule cursor = .matched value later) :
    expect rule problem cursor = .matched value later :=
  expect_eq_matched.mpr matched

theorem ahead_of_true {test : List Char → Bool} (holds : test cursor.rest = true) :
    ahead test cursor = .matched () cursor :=
  if_pos holds

theorem ahead_of_false {test : List Char → Bool} (fails : test cursor.rest = false) :
    ahead test cursor = .noMatch :=
  if_neg (Bool.eq_false_iff.mp fails)

/-! ## Matching at a text

A rule reads a text if it matches there, wherever the text stands in the source, with a value
that is accepted, and leaves the rest. It misses a text if it does not match there. -/

def Reads (rule : Grammar α) (text : List Char) (accept : α → Prop) (rest : List Char) : Prop :=
  ∀ offset, ∃ value offset', rule ⟨offset, text⟩ = .matched value ⟨offset', rest⟩ ∧ accept value

def Misses (rule : Grammar α) (text : List Char) : Prop :=
  ∀ offset, rule ⟨offset, text⟩ = .noMatch

section

variable {rule other : Grammar α} {next : α → Grammar β} {accept : α → Prop} {welcome : β → Prop}
  {text middle rest : List Char}

theorem Reads.bind (first : Reads rule text accept middle)
    (second : ∀ value, accept value → Reads (next value) middle welcome rest) :
    Reads (rule >>= next) text welcome rest := by
  intro offset
  rcases first offset with ⟨value, offset', matched, accepted⟩
  rcases second value accepted offset' with ⟨result, offset'', matched', welcomed⟩
  exact ⟨result, offset'', by rw [bind_of_matched matched, matched'], welcomed⟩

theorem Reads.mono {accept' : α → Prop} (reads : Reads rule text accept rest)
    (weaker : ∀ value, accept value → accept' value) : Reads rule text accept' rest := by
  intro offset
  rcases reads offset with ⟨value, offset', matched, accepted⟩
  exact ⟨value, offset', matched, weaker value accepted⟩

theorem Reads.pure {value : α} (accepted : accept value) :
    Reads (pure value) text accept text :=
  fun offset => ⟨value, offset, rfl, accepted⟩

theorem Reads.here : Reads here text (fun _ => True) text :=
  fun offset => ⟨offset, offset, rfl, trivial⟩

theorem Reads.orElse (reads : Reads rule text accept rest) :
    Reads (rule <|> other) text accept rest := by
  intro offset
  rcases reads offset with ⟨value, offset', matched, accepted⟩
  exact ⟨value, offset', orElse_of_matched matched, accepted⟩

theorem Reads.orElse_of_misses (reads : Reads other text accept rest)
    (misses : Misses rule text) : Reads (rule <|> other) text accept rest := by
  intro offset
  rcases reads offset with ⟨value, offset', matched, accepted⟩
  exact ⟨value, offset', by rw [orElse_of_noMatch (misses offset), matched], accepted⟩

theorem Reads.expect {problem : Problem} (reads : Reads rule text accept rest) :
    Reads (expect rule problem) text accept rest :=
  reads.orElse

theorem Reads.optional (reads : Reads rule text accept rest) :
    Reads (optional rule) text (fun value => ∃ inner, value = some inner ∧ accept inner) rest := by
  intro offset
  rcases reads offset with ⟨value, offset', matched, accepted⟩
  exact ⟨some value, offset', optional_of_matched matched, value, rfl, accepted⟩

theorem Misses.optional (misses : Misses rule text) :
    Reads (optional rule) text (· = none) text :=
  fun offset => ⟨none, offset, optional_of_noMatch (misses offset), rfl⟩

theorem Misses.bind (misses : Misses rule text) : Misses (rule >>= next) text :=
  fun offset => bind_of_noMatch (misses offset)

theorem Reads.bind_misses (first : Reads rule text accept middle)
    (second : ∀ value, accept value → Misses (next value) middle) :
    Misses (rule >>= next) text := by
  intro offset
  rcases first offset with ⟨value, offset', matched, accepted⟩
  rw [bind_of_matched matched, second value accepted offset']

theorem Misses.orElse (first : Misses rule text) (second : Misses other text) :
    Misses (rule <|> other) text := by
  intro offset
  rw [orElse_of_noMatch (first offset), second offset]

end

theorem Reads.ne_noMatch {rule : Grammar α} {accept : α → Prop} {rest : List Char}
    {cursor : Cursor} (reads : Reads rule cursor.rest accept rest) : rule cursor ≠ .noMatch := by
  rcases reads cursor.offset with ⟨value, offset', matched, _⟩
  intro missed
  rw [show rule cursor = _ from matched] at missed
  cases missed

theorem Misses.eq_noMatch {rule : Grammar α} {cursor : Cursor} (misses : Misses rule cursor.rest) :
    rule cursor = .noMatch :=
  misses cursor.offset

/-! ## Rules that go forward -/

/-- The rule never goes back. -/
class Advancing {α : Type} (rule : Grammar α) : Prop where
  reaches {cursor : Cursor} {value : α} {later : Cursor} :
    rule cursor = .matched value later → cursor.Reaches later

/-- The rule reads at least one character. -/
class Consuming {α : Type} (rule : Grammar α) : Prop where
  passes {cursor : Cursor} {value : α} {later : Cursor} :
    rule cursor = .matched value later → cursor.Passes later

section

variable {α β : Type} {rule other : Grammar α} {next : α → Grammar β}

instance (priority := low) [Consuming rule] : Advancing rule :=
  ⟨fun matched => (Consuming.passes matched).1⟩

instance (value : α) : Advancing (pure value) :=
  ⟨fun matched => by
    rcases pure_eq_matched.mp matched with ⟨_, rfl⟩
    exact .refl _⟩

instance : Consuming (noMatch : Grammar α) := ⟨nofun⟩

instance (problem : Problem) (offset : Nat) : Consuming (failAt problem offset : Grammar α) :=
  ⟨nofun⟩

instance (problem : Problem) : Consuming (fail problem : Grammar α) := ⟨nofun⟩

instance : Consuming (tooDeep : Grammar α) := ⟨nofun⟩

instance [Advancing rule] [∀ value, Advancing (next value)] : Advancing (rule >>= next) :=
  ⟨fun matched => by
    rcases bind_eq_matched.mp matched with ⟨_, _, first, second⟩
    exact (Advancing.reaches first).trans (Advancing.reaches second)⟩

instance [Advancing rule] [∀ value, Consuming (next value)] : Consuming (rule >>= next) :=
  ⟨fun matched => by
    rcases bind_eq_matched.mp matched with ⟨_, _, first, second⟩
    exact (Advancing.reaches first).trans_passes (Consuming.passes second)⟩

instance [Consuming rule] [∀ value, Advancing (next value)] : Consuming (rule >>= next) :=
  ⟨fun matched => by
    rcases bind_eq_matched.mp matched with ⟨_, _, first, second⟩
    exact (Consuming.passes first).trans_reaches (Advancing.reaches second)⟩

instance [Advancing rule] [Advancing other] : Advancing (rule <|> other) :=
  ⟨fun matched => by
    rcases orElse_eq_matched.mp matched with matched | ⟨_, matched⟩
    · exact Advancing.reaches matched
    · exact Advancing.reaches matched⟩

instance [Consuming rule] [Consuming other] : Consuming (rule <|> other) :=
  ⟨fun matched => by
    rcases orElse_eq_matched.mp matched with matched | ⟨_, matched⟩
    · exact Consuming.passes matched
    · exact Consuming.passes matched⟩

instance [Advancing rule] : Advancing (optional rule) :=
  inferInstanceAs (Advancing ((rule >>= fun value => pure (some value)) <|> pure none))

instance [Advancing rule] (problem : Problem) : Advancing (expect rule problem) :=
  inferInstanceAs (Advancing (rule <|> fail problem))

instance [Consuming rule] (problem : Problem) : Consuming (expect rule problem) :=
  inferInstanceAs (Consuming (rule <|> fail problem))

instance (condition : Prop) [Decidable condition] [Advancing rule] [Advancing other] :
    Advancing (if condition then rule else other) := by
  split <;> infer_instance

instance : Advancing here :=
  ⟨fun matched => by
    rcases here_eq_matched.mp matched with ⟨_, rfl⟩
    exact .refl _⟩

instance (test : List Char → Bool) : Advancing (ahead test) :=
  ⟨fun {cursor _ _} matched => by
    unfold ahead at matched
    split at matched
    · cases matched
      exact .refl cursor
    · cases matched⟩

instance (accept : Char → Bool) : Consuming (character accept) :=
  ⟨fun {cursor _ _} matched => by
    rcases cursor with ⟨offset, rest⟩
    unfold character at matched
    cases rest with
    | nil => cases matched
    | cons first rest =>
        dsimp only at matched
        split at matched
        · cases matched
          exact ⟨Cursor.reaches_advance _ (by simp), by simp [Cursor.advance]⟩
        · cases matched⟩

instance (accept : Char → Bool) : Advancing (characters accept) :=
  ⟨fun {cursor _ _} matched => by
    cases matched
    exact cursor.reaches_advance (List.takeWhile_prefix _).length_le⟩

theorem exact_eq_matched {text : List Char} {cursor later : Cursor} :
    exact text cursor = .matched () later ↔
      cursor.rest = text ++ later.rest ∧ later.offset = cursor.offset + text.length := by
  rcases cursor with ⟨offset, rest⟩
  rcases later with ⟨offset', rest'⟩
  unfold exact
  split
  case isTrue found =>
    rcases List.isPrefixOf_iff_prefix.mp found with ⟨after, rfl⟩
    simp [Cursor.advance, eq_comm, and_comm]
  case isFalse missing =>
    have apart : rest ≠ text ++ rest' := by
      rintro rfl
      exact missing (List.isPrefixOf_iff_prefix.mpr (List.prefix_append _ _))
    simp [apart]

instance (text : List Char) : Advancing (exact text) :=
  ⟨fun matched => ⟨text, exact_eq_matched.mp matched⟩⟩

theorem consuming_exact {text : List Char} (nonempty : text ≠ []) : Consuming (exact text) :=
  ⟨fun {cursor _ later} matched => by
    refine ⟨Advancing.reaches matched, ?_⟩
    rw [(exact_eq_matched.mp matched).1, List.length_append]
    have := List.length_pos_iff.mpr nonempty
    omega⟩

instance (first : Char) (others : List Char) : Consuming (exact (first :: others)) :=
  consuming_exact (by simp)

instance : Advancing spaces :=
  ⟨fun {cursor _ _} matched => by
    cases matched
    exact cursor.reaches_skipSpaces⟩

instance [Advancing rule] : Advancing (spaced rule) :=
  inferInstanceAs (Advancing (spaces >>= fun _ => rule >>= fun value => spaces >>= fun _ =>
    pure value))

instance [Consuming rule] : Consuming (spaced rule) :=
  inferInstanceAs (Consuming (spaces >>= fun _ => rule >>= fun value => spaces >>= fun _ =>
    pure value))

end

end Grammar

end Templating

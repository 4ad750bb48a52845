import Templating.Proofs.Reading

/-! # Rules that are repeated

A chain of steps and a repeated rule are defined with a turn for each character that is left.
As long as every step reads something the turns never run out, and the steps alone tell what
comes of them. -/

namespace Templating.Grammar

variable {α : Type}

/-! ## Chains -/

/-- Steps lead from a value at a cursor to another value at a later cursor. -/
inductive Chained (step : α → Grammar α) : α → Cursor → α → Cursor → Prop
  | refl (value : α) (cursor : Cursor) : Chained step value cursor value cursor
  | head {value middle last : α} {cursor between later : Cursor} :
      step value cursor = .matched middle between →
      Chained step middle between last later →
      Chained step value cursor last later

section

variable {step : α → Grammar α} {value middle last : α} {cursor between later : Cursor}

theorem Chained.tail (chained : Chained step value cursor middle between)
    (final : step middle between = .matched last later) :
    Chained step value cursor last later := by
  induction chained with
  | refl => exact .head final (.refl _ _)
  | head first _ induction => exact .head first (induction final)

theorem chained_of_chain (matched : chain step value cursor = .matched last later) :
    Chained step value cursor last later := by
  unfold chain at matched
  generalize cursor.rest = turns at matched
  induction turns generalizing value cursor with
  | nil =>
      cases matched
      exact .refl _ _
  | cons turn turns induction =>
      rw [chainFor] at matched
      split at matched
      case h_1 next between stepped => exact .head stepped (induction matched)
      case h_2 =>
          cases matched
          exact .refl _ _
      case h_3 => cases matched

/-- It is one of its steps that a chain fails at. -/
theorem failed_of_chain {failure : Failure} (failed : chain step value cursor = .failed failure) :
    ∃ last later, Chained step value cursor last later ∧ step last later = .failed failure := by
  unfold chain at failed
  generalize cursor.rest = turns at failed
  induction turns generalizing value cursor with
  | nil => cases failed
  | cons turn turns induction =>
      rw [chainFor] at failed
      split at failed
      case h_1 next between stepped =>
          rcases induction failed with ⟨last, later, chained, failed⟩
          exact ⟨last, later, .head stepped chained, failed⟩
      case h_2 => cases failed
      case h_3 stepFailed =>
          cases failed
          exact ⟨value, cursor, .refl _ _, stepFailed⟩

theorem Chained.reaches [∀ value, Advancing (step value)]
    (chained : Chained step value cursor last later) : cursor.Reaches later := by
  induction chained with
  | refl => exact .refl _
  | head first _ induction => exact (Advancing.reaches first).trans induction

/-- A chain goes on for as long as its steps match. -/
theorem chain_of_chained [∀ value, Consuming (step value)]
    (chained : Chained step value cursor last later) (stopped : step last later = .noMatch) :
    chain step value cursor = .matched last later := by
  suffices enough : ∀ turns : List Char, cursor.rest.length ≤ turns.length →
      chainFor step turns value cursor = .matched last later from enough _ (Nat.le_refl _)
  intro turns enough
  induction chained generalizing turns with
  | refl value cursor =>
      cases turns with
      | nil => rfl
      | cons turn turns => rw [chainFor, stopped]
  | head first _ induction =>
      have shorter := (Consuming.passes first).2
      cases turns with
      | nil =>
          rw [List.length_nil] at enough
          omega
      | cons turn turns =>
          rw [chainFor, first]
          rw [List.length_cons] at enough
          exact induction stopped turns (by omega)

/-- A chain ends before the text does only where no step matches. -/
theorem noMatch_of_chain [∀ value, Consuming (step value)]
    (matched : chain step value cursor = .matched last later) (further : later.rest ≠ []) :
    step last later = .noMatch := by
  have run : ∃ turns : List Char, cursor.rest.length ≤ turns.length ∧
      chainFor step turns value cursor = .matched last later := ⟨_, Nat.le_refl _, matched⟩
  clear matched
  rcases run with ⟨turns, enough, matched⟩
  induction turns generalizing value cursor with
  | nil =>
      cases matched
      exact absurd (List.length_eq_zero_iff.mp (Nat.le_zero.mp enough)) further
  | cons turn turns induction =>
      rw [chainFor] at matched
      split at matched
      case h_1 next between stepped =>
          have shorter := (Consuming.passes stepped).2
          rw [List.length_cons] at enough
          exact induction (by omega) matched
      case h_2 stopped =>
          cases matched
          exact stopped
      case h_3 => cases matched

/-- What the steps keep, a chain of them keeps. -/
theorem chain_preserves {motive : α → Cursor → Prop}
    (matched : chain step value cursor = .matched last later)
    (preserved : ∀ {value cursor value' cursor'}, motive value cursor →
      step value cursor = .matched value' cursor' → motive value' cursor')
    (holds : motive value cursor) : motive last later := by
  have chained := chained_of_chain matched
  clear matched
  induction chained with
  | refl => exact holds
  | head first _ induction => exact induction (preserved holds first)

instance [∀ value, Advancing (step value)] : Advancing (chain step value) :=
  ⟨fun {cursor _ _} matched =>
    chain_preserves (motive := fun _ later => cursor.Reaches later) matched
      (fun reached stepped => reached.trans (Advancing.reaches stepped)) (.refl cursor)⟩

end

/-- The rule reads the text up to the rest and is in the middle of a chain of steps there. -/
def Arrives (rule : Grammar α) (step : Nat → α → Grammar α) (text : List Char)
    (accept : α → Prop) (rest : List Char) : Prop :=
  ∀ offset, ∃ start first cursor value offset',
    rule ⟨offset, text⟩ = chain (step start) first cursor ∧
      Chained (step start) first cursor value ⟨offset', rest⟩ ∧ accept value

section

variable {rule : Grammar α} {step : Nat → α → Grammar α} {accept welcome : α → Prop}
  {text middle rest : List Char}

/-- A chain that has been begun and has made no step yet. -/
theorem Arrives.of_reads {origin : Grammar Nat} {first : Grammar α}
    (located : Reads origin text (fun _ => True) text) (reads : Reads first text accept rest) :
    Arrives (origin >>= fun start => first >>= chain (step start)) step text accept rest := by
  intro offset
  rcases located offset with ⟨start, offset', located, _⟩
  rcases reads offset' with ⟨value, offset'', read, accepted⟩
  refine ⟨start, value, ⟨offset'', rest⟩, value, offset'', ?_, .refl _ _, accepted⟩
  rw [bind_of_matched located, bind_of_matched read]

theorem Arrives.after {β : Type} {first : Grammar β} {other : β → Prop} {start : List Char}
    (arrives : Arrives rule step start accept rest) (reads : Reads first text other start) :
    Arrives (first >>= fun _ => rule) step text accept rest := by
  intro offset
  rcases reads offset with ⟨_, offset', read, _⟩
  rw [bind_of_matched read]
  exact arrives offset'

theorem Arrives.further (arrives : Arrives rule step text accept middle)
    (steps : ∀ start value, accept value → Reads (step start value) middle welcome rest) :
    Arrives rule step text welcome rest := by
  intro offset
  rcases arrives offset with ⟨start, first, cursor, value, offset', equal, chained, accepted⟩
  rcases steps start value accepted offset' with ⟨next, offset'', stepped, welcomed⟩
  exact ⟨start, first, cursor, next, offset'', equal, chained.tail stepped, welcomed⟩

theorem Arrives.stop [∀ start value, Consuming (step start value)]
    (arrives : Arrives rule step text accept rest)
    (stops : ∀ start value, Misses (step start value) rest) :
    Reads rule text accept rest := by
  intro offset
  rcases arrives offset with ⟨start, first, cursor, value, offset', equal, chained, accepted⟩
  exact ⟨value, offset',
    equal.trans (chain_of_chained chained (stops start value offset')), accepted⟩

end

/-! ## Repetition -/

/-- The rule matches once for each value, one match behind the other. -/
inductive Repeated (rule : Grammar α) : Cursor → List α → Cursor → Prop
  | nil (cursor : Cursor) : Repeated rule cursor [] cursor
  | cons {value : α} {values : List α} {cursor middle later : Cursor} :
      rule cursor = .matched value middle →
      Repeated rule middle values later →
      Repeated rule cursor (value :: values) later

section

variable {rule : Grammar α} {values : List α} {cursor later : Cursor}

theorem repeated_of_many (matched : many rule cursor = .matched values later) :
    Repeated rule cursor values later := by
  unfold many at matched
  generalize cursor.rest = turns at matched
  induction turns generalizing cursor values with
  | nil =>
      cases matched
      exact .nil _
  | cons turn turns induction =>
      rw [manyFor, orElse_eq_matched] at matched
      rcases matched with matched | ⟨_, matched⟩
      · rcases bind_eq_matched.mp matched with ⟨value, middle, first, others⟩
        rcases bind_eq_matched.mp others with ⟨values, last, others, done⟩
        cases done
        exact .cons first (induction others)
      · cases matched
        exact .nil _

/-- It is behind some of its matches that a repeated rule fails. -/
theorem failed_of_many {failure : Failure} (failed : many rule cursor = .failed failure) :
    ∃ values later, Repeated rule cursor values later ∧ rule later = .failed failure := by
  unfold many at failed
  generalize cursor.rest = turns at failed
  induction turns generalizing cursor with
  | nil => cases failed
  | cons turn turns induction =>
      rw [manyFor, orElse_eq_failed] at failed
      rcases failed with failed | ⟨_, failed⟩
      · rcases bind_eq_failed.mp failed with failed | ⟨value, middle, first, failed⟩
        · exact ⟨[], cursor, .nil _, failed⟩
        · rcases bind_eq_failed.mp failed with failed | ⟨_, _, _, failed⟩
          · rcases induction failed with ⟨values, later, others, failed⟩
            exact ⟨value :: values, later, .cons first others, failed⟩
          · cases failed
      · cases failed

/-- What every match of a rule yields, its repetition yields. -/
theorem Repeated.forall_mem {wanted : α → Prop} (repeated : Repeated rule cursor values later)
    (each : ∀ {cursor value later}, rule cursor = .matched value later → wanted value) :
    ∀ value ∈ values, wanted value := by
  induction repeated with
  | nil => exact List.forall_mem_nil _
  | cons first _ induction => exact List.forall_mem_cons.mpr ⟨each first, induction⟩

/-- A rule is repeated for as long as it matches. -/
theorem many_of_repeated [Consuming rule] (repeated : Repeated rule cursor values later)
    (stopped : rule later = .noMatch) : many rule cursor = .matched values later := by
  suffices enough : ∀ turns : List Char, cursor.rest.length ≤ turns.length →
      manyFor rule turns cursor = .matched values later from enough _ (Nat.le_refl _)
  intro turns enough
  induction repeated generalizing turns with
  | nil cursor =>
      cases turns with
      | nil => rfl
      | cons turn turns => exact orElse_of_noMatch (bind_of_noMatch stopped)
  | cons first _ induction =>
      have shorter := (Consuming.passes first).2
      cases turns with
      | nil =>
          rw [List.length_nil] at enough
          omega
      | cons turn turns =>
          rw [List.length_cons] at enough
          apply orElse_of_matched
          rw [bind_of_matched first, bind_of_matched (induction stopped turns (by omega))]
          rfl

/-- A rule that is repeated fails where it does, if there is anything left to try it at. -/
theorem many_of_repeated_failed [Consuming rule] {failure : Failure}
    (repeated : Repeated rule cursor values later)
    (failed : rule later = .failed failure) (left : later.rest ≠ []) :
    many rule cursor = .failed failure := by
  suffices enough : ∀ turns : List Char, cursor.rest.length ≤ turns.length →
      manyFor rule turns cursor = .failed failure from enough _ (Nat.le_refl _)
  intro turns enough
  induction repeated generalizing turns with
  | nil cursor =>
      cases turns with
      | nil => exact absurd (List.eq_nil_of_length_eq_zero (Nat.le_zero.mp enough)) left
      | cons turn turns =>
          rw [manyFor, orElse_apply, bind_apply, failed]
  | cons first _ induction =>
      have shorter := (Consuming.passes first).2
      cases turns with
      | nil =>
          rw [List.length_nil] at enough
          omega
      | cons turn turns =>
          rw [List.length_cons] at enough
          rw [manyFor, orElse_apply, bind_of_matched first, bind_apply,
            induction failed left turns (by omega)]

/-- A repetition ends before the text does only where its rule does not match. -/
theorem noMatch_of_many [Consuming rule] (matched : many rule cursor = .matched values later)
    (further : later.rest ≠ []) : rule later = .noMatch := by
  have run : ∃ turns : List Char, cursor.rest.length ≤ turns.length ∧
      manyFor rule turns cursor = .matched values later := ⟨_, Nat.le_refl _, matched⟩
  clear matched
  rcases run with ⟨turns, enough, matched⟩
  induction turns generalizing cursor values with
  | nil =>
      cases matched
      exact absurd (List.length_eq_zero_iff.mp (Nat.le_zero.mp enough)) further
  | cons turn turns induction =>
      rw [manyFor, orElse_eq_matched] at matched
      rcases matched with matched | ⟨stopped, matched⟩
      · rcases bind_eq_matched.mp matched with ⟨value, middle, first, others⟩
        rcases bind_eq_matched.mp others with ⟨values, last, others, done⟩
        cases done
        have shorter := (Consuming.passes first).2
        rw [List.length_cons] at enough
        exact induction (by omega) others
      · cases matched
        rcases bind_eq_noMatch.mp stopped with stopped | ⟨_, _, _, others⟩
        · exact stopped
        · rcases bind_eq_noMatch.mp others with others | ⟨_, _, _, done⟩
          · exact absurd others (manyFor_ne_noMatch rule turns _)
          · cases done

theorem repeated_append {others : List α} :
    Repeated rule cursor (values ++ others) later ↔
      ∃ middle, Repeated rule cursor values middle ∧ Repeated rule middle others later := by
  constructor
  · intro repeated
    induction values generalizing cursor with
    | nil => exact ⟨cursor, .nil _, repeated⟩
    | cons value values induction =>
        rcases repeated with _ | ⟨first, repeated⟩
        rcases induction repeated with ⟨middle, front, back⟩
        exact ⟨middle, .cons first front, back⟩
  · rintro ⟨middle, front, back⟩
    induction front with
    | nil => exact back
    | cons first _ induction => exact .cons first (induction back)

theorem Repeated.reaches [Advancing rule] (repeated : Repeated rule cursor values later) :
    cursor.Reaches later := by
  induction repeated with
  | nil => exact .refl _
  | cons first _ induction => exact (Advancing.reaches first).trans induction

section

variable [Consuming rule] (ends : ∀ offset, rule ⟨offset, []⟩ = .noMatch)

include ends

/-- If the rule does not match where nothing is left, further turns change nothing. -/
theorem manyFor_eq_manyFor {turns turns' : List Char} (enough : cursor.rest.length ≤ turns.length)
    (enough' : cursor.rest.length ≤ turns'.length) :
    manyFor rule turns cursor = manyFor rule turns' cursor := by
  have stopped (offset : Nat) (turns : List Char) :
      manyFor rule turns ⟨offset, []⟩ = .matched [] ⟨offset, []⟩ := by
    cases turns with
    | nil => rfl
    | cons turn turns => exact orElse_of_noMatch (bind_of_noMatch (ends offset))
  induction turns generalizing turns' cursor with
  | nil =>
      rcases cursor with ⟨offset, rest⟩
      obtain rfl : rest = [] := List.length_eq_zero_iff.mp (Nat.le_zero.mp enough)
      rw [stopped, stopped]
  | cons turn turns induction =>
      cases turns' with
      | nil =>
          rcases cursor with ⟨offset, rest⟩
          obtain rfl : rest = [] := List.length_eq_zero_iff.mp (Nat.le_zero.mp enough')
          rw [stopped, stopped]
      | cons turn' turns' =>
          rw [manyFor, manyFor, orElse_apply, orElse_apply, bind_apply, bind_apply]
          cases first : rule cursor with
          | matched value middle =>
              have shorter := (Consuming.passes first).2
              rw [List.length_cons] at enough enough'
              have same : manyFor rule turns middle = manyFor rule turns' middle :=
                induction (by omega) (by omega)
              dsimp only
              rw [bind_apply, bind_apply, same]
          | noMatch => rfl
          | failed failure => rfl

/-- A repetition that has come to a place goes on from there. -/
theorem many_of_cons {value : α} {middle : Cursor} (first : rule cursor = .matched value middle) :
    many rule cursor = (many rule >>= fun others => pure (value :: others)) middle := by
  have shorter := (Consuming.passes first).2
  rcases cursor with ⟨offset, _ | ⟨turn, turns⟩⟩
  · cases shorter
  · have turns_enough : manyFor rule turns middle = many rule middle :=
      manyFor_eq_manyFor ends (Nat.lt_succ_iff.mp shorter) (Nat.le_refl _)
    show manyFor rule (turn :: turns) _ = _
    rw [manyFor, orElse_apply, bind_of_matched first, bind_apply, bind_apply, turns_enough]
    cases run : many rule middle with
    | matched others later => rfl
    | noMatch => exact absurd run (manyFor_ne_noMatch rule _ _)
    | failed failure => rfl

theorem many_of_repeated_append (repeated : Repeated rule cursor values later) :
    many rule cursor = (many rule >>= fun others => pure (values ++ others)) later := by
  induction repeated with
  | nil cursor =>
      rw [bind_apply]
      cases many rule cursor <;> rfl
  | cons first _ induction =>
      rw [many_of_cons ends first, bind_apply, induction, bind_apply, bind_apply]
      cases many rule _ <;> rfl

end

instance [Advancing rule] : Advancing (many rule) :=
  ⟨fun matched => (repeated_of_many matched).reaches⟩

end

/-- The rule reads the text up to the rest by matching once for each value. -/
def ReadsEach (rule : Grammar α) (text : List Char) (accept : List α → Prop)
    (rest : List Char) : Prop :=
  ∀ offset, ∃ values offset',
    Repeated rule ⟨offset, text⟩ values ⟨offset', rest⟩ ∧ accept values

section

variable {rule : Grammar α} {accept : α → Prop} {welcome : List α → Prop}
  {text middle rest : List Char}

theorem ReadsEach.nil (welcomed : welcome []) : ReadsEach rule text welcome text :=
  fun offset => ⟨[], offset, .nil _, welcomed⟩

theorem ReadsEach.cons {welcome' : List α → Prop} (first : Reads rule text accept middle)
    (others : ReadsEach rule middle welcome rest)
    (together : ∀ value values, accept value → welcome values → welcome' (value :: values)) :
    ReadsEach rule text welcome' rest := by
  intro offset
  rcases first offset with ⟨value, offset', matched, accepted⟩
  rcases others offset' with ⟨values, offset'', repeated, welcomed⟩
  exact ⟨value :: values, offset'', .cons matched repeated,
    together value values accepted welcomed⟩

theorem ReadsEach.stop [Consuming rule] (reads : ReadsEach rule text welcome rest)
    (stops : Misses rule rest) : Reads (many rule) text welcome rest := by
  intro offset
  rcases reads offset with ⟨values, offset', repeated, welcomed⟩
  exact ⟨values, offset', many_of_repeated repeated (stops offset'), welcomed⟩

end

end Templating.Grammar

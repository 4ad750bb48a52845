import Templating.Statement.Parser

/-! # What a rule that counts reads

How a match of a rule with counters came about. The counters are carried along; what a rule has read
is told from its parts as for the rules of the grammar. -/

namespace Templating.Parser

variable {α β : Type} {rule other : Parser α} {next : α → Parser β} {value : α} {result : β}
  {counters counters' : Counters} {cursor later : Cursor}

theorem bind_eq_matched :
    (rule >>= next) counters cursor = (.matched result later, counters') ↔
      ∃ value middle between, rule counters cursor = (.matched value middle, between) ∧
        next value between middle = (.matched result later, counters') := by
  rw [bind_apply]
  rcases rule counters cursor with ⟨_ | _ | _, _⟩ <;> simp [and_assoc]

theorem orElse_eq_matched :
    (rule <|> other) counters cursor = (.matched value later, counters') ↔
      rule counters cursor = (.matched value later, counters') ∨
        ∃ between, rule counters cursor = (.noMatch, between) ∧
          other between cursor = (.matched value later, counters') := by
  rw [orElse_apply]
  rcases rule counters cursor with ⟨_ | _ | _, _⟩ <;> simp

theorem pure_eq_matched {value' : α} :
    (pure value : Parser α) counters cursor = (.matched value' later, counters') ↔
      value = value' ∧ cursor = later ∧ counters = counters' := by
  simp [and_assoc]

theorem liftM_eq_matched {rule : Grammar α} :
    (liftM rule : Parser α) counters cursor = (.matched value later, counters') ↔
      rule cursor = .matched value later ∧ counters = counters' := by
  simp

theorem ofGrammar_eq_matched {rule : Grammar α} :
    ofGrammar rule counters cursor = (.matched value later, counters') ↔
      rule cursor = .matched value later ∧ counters = counters' := by
  simp [ofGrammar]

theorem getCounters_eq_matched {found : Counters} :
    getCounters counters cursor = (.matched found later, counters') ↔
      counters = found ∧ cursor = later ∧ counters = counters' := by
  simp [getCounters, and_assoc]

theorem inLoop_eq_matched :
    inLoop rule counters cursor = (.matched value later, counters') ↔
      ∃ between, rule counters.enterLoop cursor = (.matched value later, between) ∧
        between.leaveLoop = counters' := by
  unfold inLoop Counters.inLoopDo
  dsimp only
  generalize rule counters.enterLoop cursor = run
  rcases run with ⟨_ | _ | _, _⟩ <;> simp [and_assoc]

theorem inBody_eq_matched :
    inBody rule counters cursor = (.matched value later, counters') ↔
      ∃ between, rule counters.enterBody cursor = (.matched value later, between) ∧
        between.leaveBody = counters' := by
  unfold inBody Counters.inBodyDo
  dsimp only
  generalize rule counters.enterBody cursor = run
  rcases run with ⟨_ | _ | _, _⟩ <;> simp [and_assoc]

theorem optional_eq_matched {value : Option α} :
    optional rule counters cursor = (.matched value later, counters') ↔
      (∃ inner, value = some inner ∧ rule counters cursor = (.matched inner later, counters')) ∨
        value = none ∧ later = cursor ∧ rule counters cursor = (.noMatch, counters') := by
  rw [optional, orElse_apply, bind_apply]
  rcases rule counters cursor with ⟨_ | _ | _, _⟩
  case matched =>
      constructor
      · intro same
        cases same
        exact .inl ⟨_, rfl, rfl⟩
      · intro either
        rcases either with ⟨_, rfl, same⟩ | ⟨_, _, same⟩
        · cases same
          rfl
        · cases same
  case noMatch => simp [eq_comm, and_assoc]
  case failed => simp

/-! ## Repetition -/

/-- The rule matches once for each value, one match behind the other. -/
inductive Repeated (rule : Parser α) :
    Counters → Cursor → List α → Cursor → Counters → Prop
  | nil {counters counters' : Counters} {cursor : Cursor} :
      rule counters cursor = (.noMatch, counters') ∨ counters = counters' →
      Repeated rule counters cursor [] cursor counters'
  | cons {value : α} {values : List α} {counters between counters' : Counters}
      {cursor middle later : Cursor} :
      rule counters cursor = (.matched value middle, between) →
      Repeated rule between middle values later counters' →
      Repeated rule counters cursor (value :: values) later counters'

theorem repeated_of_many {values : List α}
    (matched : many rule counters cursor = (.matched values later, counters')) :
    Repeated rule counters cursor values later counters' := by
  unfold many at matched
  generalize cursor.rest = turns at matched
  induction turns generalizing counters cursor values with
  | nil =>
      cases matched
      exact .nil (.inr rfl)
  | cons turn turns induction =>
      rw [manyFor, orElse_eq_matched] at matched
      rcases matched with matched | ⟨between, missed, matched⟩
      · simp only [bind_eq_matched, pure_eq_matched] at matched
        rcases matched with ⟨value, middle, between, first, values, _, _, others, rfl, rfl, rfl⟩
        exact .cons first (induction others)
      · cases matched
        refine .nil (.inl ?_)
        rw [bind_apply] at missed
        split at missed
        case h_1 value middle between' read =>
            rw [bind_apply] at missed
            have := manyFor_ne_noMatch rule turns between' middle
            split at missed
            case h_1 => cases missed
            case h_2 between'' missed' => simp [missed'] at this
            case h_3 => cases missed
        case h_2 between' read =>
            cases missed
            exact read
        case h_3 => cases missed

end Templating.Parser

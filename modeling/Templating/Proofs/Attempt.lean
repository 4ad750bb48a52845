import Templating.Proofs.ScopeProgress

/-! # Attempts with one cursor

A rule of the grammar tells no cursor where it does not match: what is tried next begins where the
rule began. An attempt has one cursor that all its steps move. Where it gives up, the cursor is
wherever it has come to, unless the attempt has put it back, and a loop in it ends after as many
turns as there are characters left and one more, or else is out of turns. -/

namespace Templating

/-- What became of an attempt, and where the cursor is then. -/
inductive Attempted (α : Type) where
  | got (value : α) (cursor : Cursor)
  | gaveUp (cursor : Cursor)
  | failed (failure : Failure)
  | outOfTurns
  deriving Repr

def Attempt (α : Type) : Type :=
  Cursor → Attempted α

namespace Attempt

variable {α β γ : Type}

/-! ## Attempts -/

def andThen (attempt : Attempt α) (next : α → Attempt β) : Attempt β := fun cursor =>
  match attempt cursor with
  | .got value cursor => next value cursor
  | .gaveUp cursor => .gaveUp cursor
  | .failed failure => .failed failure
  | .outOfTurns => .outOfTurns

/-- The second attempt from where the first one gives up. -/
def orElse (attempt : Attempt α) (other : Unit → Attempt α) : Attempt α := fun cursor =>
  match attempt cursor with
  | .got value cursor => .got value cursor
  | .gaveUp cursor => other () cursor
  | .failed failure => .failed failure
  | .outOfTurns => .outOfTurns

instance : Monad Attempt where
  pure value := fun cursor => .got value cursor
  bind := andThen

instance : OrElse (Attempt α) where
  orElse := orElse

/-- One attempt behind the first if that gets a value, and else another one from where it gives
up. -/
def branch (attempt : Attempt α) (next : α → Attempt β) (other : Attempt β) : Attempt β :=
  fun cursor =>
    match attempt cursor with
    | .got value cursor => next value cursor
    | .gaveUp cursor => other cursor
    | .failed failure => .failed failure
    | .outOfTurns => .outOfTurns

/-- What a rule finds at the cursor, which is moved if it matches. -/
def scan (rule : Grammar α) : Attempt α := fun cursor =>
  match rule cursor with
  | .matched value later => .got value later
  | .noMatch => .gaveUp cursor
  | .failed failure => .failed failure

def mark : Attempt Cursor := fun cursor => .got cursor cursor

/-- Puts the cursor back. -/
def goTo (before : Cursor) : Attempt Unit := fun _ => .got () before

/-- Puts the cursor back and gives up. -/
def backTo (before : Cursor) : Attempt α := fun _ => .gaveUp before

def giveUp : Attempt α := fun cursor => .gaveUp cursor

def failWith (problem : Problem) : Attempt α := fun cursor =>
  .failed (.malformed problem cursor.skipSpaces.offset)

def expect (attempt : Attempt α) (problem : Problem) : Attempt α :=
  attempt <|> failWith problem

def optional (attempt : Attempt α) : Attempt (Option α) :=
  branch attempt (fun value => pure (some value)) (pure none)

/-! ## Loops -/

/-- What a turn of a loop comes to. -/
inductive Turn (σ β : Type) where
  | again (state : σ)
  | done (result : β)
  deriving Repr

/-- Takes turns until one is the last, but no more than there are. -/
def loopFor {σ : Type} (turn : σ → Attempt (Turn σ β)) : (turns : Nat) → σ → Attempt β
  | 0, _ => fun _ => .outOfTurns
  | turns + 1, state => do
      match ← turn state with
      | .again state => loopFor turn turns state
      | .done result => return result

/-- Takes turns until one is the last. There are as many as characters are left, and one more. -/
def loop {σ : Type} (turn : σ → Attempt (Turn σ β)) (state : σ) : Attempt β := fun cursor =>
  loopFor turn (cursor.rest.length + 1) state cursor

end Attempt

open Attempt
open Grammar (Consuming)

variable {α β : Type} {attempt other : Attempt α} {next : α → Attempt β} {rule rule' : Grammar α}
  {next' : α → Grammar β} {before cursor : Cursor}

/-! ## What an attempt comes to -/

/-- The outcome of a rule, with the cursor at `before` if the rule does not match. -/
def Outcome.from (before : Cursor) : Outcome α → Attempted α
  | .matched value later => .got value later
  | .noMatch => .gaveUp before
  | .failed failure => .failed failure

/-- What became of an attempt, wherever it has given up. -/
def Attempted.outcome? : Attempted α → Option (Outcome α)
  | .got value later => some (.matched value later)
  | .gaveUp _ => some .noMatch
  | .failed failure => some (.failed failure)
  | .outOfTurns => none

/-- Begun at the cursor, the attempt comes to what the rule comes to there. -/
def Attempt.Follows (attempt : Attempt α) (rule : Grammar α) (cursor : Cursor) : Prop :=
  (attempt cursor).outcome? = some (rule cursor)

/-- It also has the cursor at `before` where it gives up. -/
def Attempt.Returns (before : Cursor) (attempt : Attempt α) (rule : Grammar α)
    (cursor : Cursor) : Prop :=
  attempt cursor = (rule cursor).from before

/-- The attempt comes to what the rule comes to, and where it gives up, the cursor is where it
was. -/
def Attempt.Keeps (attempt : Attempt α) (rule : Grammar α) : Prop :=
  ∀ cursor, attempt.Returns cursor rule cursor

namespace Attempt

@[simp] theorem outcome?_from (before : Cursor) (outcome : Outcome α) :
    (outcome.from before).outcome? = some outcome := by
  cases outcome <;> rfl

theorem from_eq_from {outcome : Outcome α} {before before' : Cursor} (certain : outcome ≠ .noMatch) :
    outcome.from before = outcome.from before' := by
  cases outcome <;> first | rfl | exact absurd rfl certain

theorem Returns.follows (returns : attempt.Returns before rule cursor) :
    attempt.Follows rule cursor := by
  rw [Follows, returns, outcome?_from]

theorem Keeps.follows (keeps : attempt.Keeps rule) (cursor : Cursor) : attempt.Follows rule cursor :=
  (keeps cursor).follows

theorem bind_apply (attempt : Attempt α) (next : α → Attempt β) (cursor : Cursor) :
    (attempt >>= next) cursor =
      match attempt cursor with
      | .got value cursor => next value cursor
      | .gaveUp cursor => .gaveUp cursor
      | .failed failure => .failed failure
      | .outOfTurns => .outOfTurns := rfl

theorem orElse_apply (attempt other : Attempt α) (cursor : Cursor) :
    (attempt <|> other) cursor =
      match attempt cursor with
      | .got value cursor => .got value cursor
      | .gaveUp cursor => other cursor
      | .failed failure => .failed failure
      | .outOfTurns => .outOfTurns := rfl

section

variable {value : α} {later : Cursor} {next : α → Attempt β}

theorem bind_of_got (got : attempt cursor = .got value later) :
    (attempt >>= next) cursor = next value later := by
  rw [bind_apply, got]

theorem bind_pure_of_got {embed : α → β} (got : attempt cursor = .got value later) :
    (attempt >>= fun value => pure (embed value)) cursor = .got (embed value) later :=
  bind_of_got got

theorem bind_of_gaveUp (gaveUp : attempt cursor = .gaveUp later) :
    (attempt >>= next) cursor = .gaveUp later := by
  rw [bind_apply, gaveUp]

theorem bind_of_failed {failure : Failure} (failed : attempt cursor = .failed failure) :
    (attempt >>= next) cursor = .failed failure := by
  rw [bind_apply, failed]

theorem orElse_of_got (got : attempt cursor = .got value later) :
    (attempt <|> other) cursor = .got value later := by
  rw [orElse_apply, got]

theorem orElse_of_gaveUp (gaveUp : attempt cursor = .gaveUp later) :
    (attempt <|> other) cursor = other later := by
  rw [orElse_apply, gaveUp]

theorem orElse_of_failed {failure : Failure} (failed : attempt cursor = .failed failure) :
    (attempt <|> other) cursor = .failed failure := by
  rw [orElse_apply, failed]

theorem branch_of_got {other : Attempt β} (got : attempt cursor = .got value later) :
    branch attempt next other cursor = next value later := by
  rw [branch, got]

theorem branch_of_gaveUp {other : Attempt β} (gaveUp : attempt cursor = .gaveUp later) :
    branch attempt next other cursor = other later := by
  rw [branch, gaveUp]

theorem branch_of_failed {other : Attempt β} {failure : Failure}
    (failed : attempt cursor = .failed failure) :
    branch attempt next other cursor = .failed failure := by
  rw [branch, failed]

theorem scan_of_matched (matched : rule cursor = .matched value later) :
    scan rule cursor = .got value later := by
  rw [scan, matched]

theorem scan_of_noMatch (missed : rule cursor = .noMatch) : scan rule cursor = .gaveUp cursor := by
  rw [scan, missed]

end

theorem scan_apply (rule : Grammar α) (cursor : Cursor) :
    scan rule cursor = (rule cursor).from cursor := by
  rw [scan]
  cases rule cursor <;> rfl

/-! ## Attempts that are put together -/

theorem scan_keeps (rule : Grammar α) : (scan rule).Keeps rule :=
  scan_apply rule

theorem pure_keeps (value : α) : (pure value : Attempt α).Keeps (pure value) :=
  fun _ => rfl

theorem pure_returns (before : Cursor) (value : α) (cursor : Cursor) :
    (pure value : Attempt α).Returns before (pure value) cursor := rfl

theorem pure_follows (value : α) (cursor : Cursor) :
    (pure value : Attempt α).Follows (pure value) cursor := rfl

theorem giveUp_keeps : (giveUp : Attempt α).Keeps Grammar.noMatch :=
  fun _ => rfl

theorem backTo_returns (before cursor : Cursor) :
    (backTo before : Attempt α).Returns before Grammar.noMatch cursor := rfl

theorem Returns.bind (first : attempt.Returns before rule cursor)
    (second : ∀ value later, rule cursor = .matched value later →
      (next value).Returns before (next' value) later) :
    (attempt >>= next).Returns before (rule >>= next') cursor := by
  rw [Returns, bind_apply, Grammar.bind_apply, first]
  cases matched : rule cursor with
  | matched value later => exact second value later matched
  | noMatch => rfl
  | failed failure => rfl

theorem Follows.bind (first : attempt.Follows rule cursor)
    (second : ∀ value later, rule cursor = .matched value later →
      (next value).Follows (next' value) later) :
    (attempt >>= next).Follows (rule >>= next') cursor := by
  rw [Follows, bind_apply, Grammar.bind_apply]
  rw [Follows] at first
  cases attempted : attempt cursor with
  | got value later =>
      rw [attempted] at first
      rw [← Option.some_inj.mp first]
      exact second value later (Option.some_inj.mp first).symm
  | gaveUp later =>
      rw [attempted] at first
      rw [← Option.some_inj.mp first]
      rfl
  | failed failure =>
      rw [attempted] at first
      rw [← Option.some_inj.mp first]
      rfl
  | outOfTurns =>
      rw [attempted] at first
      cases first

/-- Where a rule always matches, it does not matter where the cursor would be put back. -/
theorem Keeps.returns [Grammar.Certain rule] (keeps : attempt.Keeps rule) (before cursor : Cursor) :
    attempt.Returns before rule cursor :=
  (keeps cursor).trans (from_eq_from (Grammar.Certain.ne_noMatch cursor))

theorem Returns.orElse (first : attempt.Returns cursor rule cursor)
    (second : rule cursor = .noMatch → other.Returns before rule' cursor) :
    (attempt <|> other).Returns before (rule <|> rule') cursor := by
  rw [Returns, orElse_apply, Grammar.orElse_apply, first]
  cases matched : rule cursor with
  | matched value later => rfl
  | noMatch => exact second matched
  | failed failure => rfl

theorem Keeps.orElse (first : attempt.Keeps rule) (second : other.Keeps rule') :
    (attempt <|> other).Keeps (rule <|> rule') :=
  fun cursor => (first cursor).orElse fun _ => second cursor

/-- An attempt that puts the cursor back itself where it gives up. -/
theorem Follows.orBackTo (follows : attempt.Follows rule cursor) (before : Cursor) :
    (attempt <|> backTo before).Returns before rule cursor := by
  rw [Returns, orElse_apply]
  rw [Follows] at follows
  cases attempted : attempt cursor <;> rw [attempted] at follows
  case outOfTurns => cases follows
  all_goals
    rw [← Option.some_inj.mp follows]
    rfl

theorem Keeps.expect (keeps : attempt.Keeps rule) (problem : Problem) :
    (expect attempt problem).Keeps (Grammar.expect rule problem) :=
  keeps.orElse fun _ => rfl

theorem Returns.optional (returns : attempt.Returns cursor rule cursor) :
    (optional attempt).Returns before (Grammar.optional rule) cursor := by
  rw [Returns, Attempt.optional, branch, returns, Grammar.optional, Grammar.orElse_apply,
    Grammar.bind_apply]
  cases rule cursor <;> rfl

theorem Keeps.optional (keeps : attempt.Keeps rule) :
    (optional attempt).Keeps (Grammar.optional rule) :=
  fun cursor => (keeps cursor).optional

/-- Behind a match nothing else is tried, and nothing else would match. -/
theorem Returns.branch {next : α → Attempt β} {other : Attempt β} {next' : α → Grammar β}
    {rule' : Grammar β} (first : attempt.Returns cursor rule cursor)
    (second : ∀ value later, rule cursor = .matched value later →
      (next value).Returns before (next' value) later ∧
        (next' value later = .noMatch → rule' cursor = .noMatch))
    (third : rule cursor = .noMatch → other.Returns before rule' cursor) :
    (branch attempt next other).Returns before (rule >>= next' <|> rule') cursor := by
  rw [Returns, Attempt.branch, Grammar.orElse_apply, Grammar.bind_apply, first]
  cases matched : rule cursor with
  | matched value later =>
      rcases second value later matched with ⟨returns, apart⟩
      show next value later = _
      rw [returns]
      dsimp only
      cases run : next' value later with
      | noMatch => rw [apart run]
      | _ => rfl
  | noMatch => exact third matched
  | failed failure => rfl

/-- What stands ahead decides which of two attempts is made. -/
theorem Returns.branch_ahead {test : List Char → Bool} {yes no : Attempt α} {yes' no' : Grammar α}
    (first : test cursor.rest = true →
      yes.Returns before yes' cursor ∧ (yes' cursor = .noMatch → no' cursor = .noMatch))
    (second : test cursor.rest = false → yes' cursor = .noMatch ∧ no.Returns before no' cursor) :
    (Attempt.branch (scan (Grammar.ahead test)) (fun _ => yes) no).Returns before (yes' <|> no')
      cursor := by
  rw [Returns, Grammar.orElse_apply]
  cases stands : test cursor.rest with
  | true =>
      rcases first stands with ⟨returns, apart⟩
      have ahead : Grammar.ahead test cursor = .matched () cursor := if_pos stands
      rw [branch_of_got (scan_of_matched ahead), returns]
      cases run : yes' cursor with
      | noMatch => rw [apart run]
      | _ => rfl
  | false =>
      rcases second stands with ⟨missed, returns⟩
      have ahead : Grammar.ahead test cursor = .noMatch := by
        rw [Grammar.ahead, stands]
        rfl
      rw [branch_of_gaveUp (scan_of_noMatch ahead), returns, missed]

theorem mark_bind {next : Cursor → Attempt α} (cursor : Cursor) :
    (mark >>= next) cursor = next cursor cursor := rfl

/-- An attempt that keeps in mind where it begins. -/
theorem keeps_of_mark {next : Cursor → Attempt α}
    (returns : ∀ cursor, (next cursor).Returns cursor rule cursor) : (mark >>= next).Keeps rule :=
  returns

/-! ## Loops -/

/-- What has become of a turn fits in with what a loop is expected to come to: the turn is the last,
or the loop goes on behind the cursor and comes to the same. -/
def Fits {σ : Type} (result : σ → Cursor → Attempted β) (cursor : Cursor)
    (expected : Attempted β) : Attempted (Turn σ β) → Prop
  | .got (.again state) later =>
      later.rest.length < cursor.rest.length ∧ result state later = expected
  | .got (.done value) later => expected = .got value later
  | .gaveUp later => expected = .gaveUp later
  | .failed failure => expected = .failed failure
  | .outOfTurns => False

theorem loop_eq {σ : Type} {turn : σ → Attempt (Turn σ β)} (result : σ → Cursor → Attempted β)
    (fits : ∀ state cursor, Fits result cursor (result state cursor) (turn state cursor))
    (state : σ) (cursor : Cursor) : loop turn state cursor = result state cursor := by
  suffices enough : ∀ turns, cursor.rest.length < turns →
      loopFor turn turns state cursor = result state cursor from enough _ (Nat.lt_succ_self _)
  intro turns enough
  induction turns generalizing state cursor with
  | zero => omega
  | succ turns induction =>
      have fit := fits state cursor
      rw [loopFor, bind_apply]
      cases turned : turn state cursor with
      | got outcome later =>
          rw [turned] at fit
          cases outcome with
          | again state' => exact (induction state' later (by have := fit.1; omega)).trans fit.2
          | done value => exact fit.symm
      | gaveUp later =>
          rw [turned] at fit
          exact fit.symm
      | failed failure =>
          rw [turned] at fit
          exact fit.symm
      | outOfTurns =>
          rw [turned] at fit
          exact fit.elim

/-- A turn that ends with another one to come, behind what a rule reads. -/
theorem fits_again {σ : Type} {state : α → σ} {further : σ → Grammar β} {later : Cursor}
    [∀ state, Grammar.Certain (further state)] [Grammar.Advancing rule]
    (returns : attempt.Returns before rule later)
    (shorter : later.rest.length < cursor.rest.length) :
    Fits (fun state cursor => (further state cursor).from cursor) cursor
      (((rule >>= fun value => further (state value)) later).from before)
      ((attempt >>= fun value => pure (.again (state value))) later) := by
  rw [bind_apply, Grammar.bind_apply, returns]
  cases matched : rule later with
  | matched value last =>
      have behind := (Grammar.Advancing.reaches matched).length_le
      exact ⟨by omega, from_eq_from (Grammar.Certain.ne_noMatch last)⟩
  | noMatch => rfl
  | failed failure => rfl

end Attempt

/-! ## Rules that never end a parse -/

namespace Grammar

/-- The rule matches or does not match. -/
class Quiet (rule : Grammar α) : Prop where
  ne_failed (cursor : Cursor) (failure : Failure) : rule cursor ≠ .failed failure

theorem Quiet.cases (rule : Grammar α) [Quiet rule] (cursor : Cursor) :
    rule cursor = .noMatch ∨ ∃ value later, rule cursor = .matched value later := by
  cases run : rule cursor with
  | matched value later => exact .inr ⟨value, later, rfl⟩
  | noMatch => exact .inl rfl
  | failed failure => exact absurd run (Quiet.ne_failed cursor failure)

section

variable {next : α → Grammar β}

instance (value : α) : Quiet (pure value) := ⟨fun _ _ => nofun⟩

instance : Quiet (noMatch : Grammar α) := ⟨fun _ _ => nofun⟩

instance : Quiet here := ⟨fun _ _ => nofun⟩

instance : Quiet spaces := ⟨fun _ _ => nofun⟩

instance (text : List Char) : Quiet (exact text) :=
  ⟨fun cursor failure => by
    unfold exact
    split <;> nofun⟩

instance (test : List Char → Bool) : Quiet (ahead test) :=
  ⟨fun cursor failure => by
    unfold ahead
    split <;> nofun⟩

instance : Quiet marker :=
  ⟨fun cursor failure => by
    unfold marker
    split
    · split <;> nofun
    · nofun⟩

instance [Quiet rule] [∀ value, Quiet (next value)] : Quiet (rule >>= next) :=
  ⟨fun cursor failure failed => by
    rcases Quiet.cases rule cursor with missed | ⟨value, later, matched⟩
    · rw [bind_of_noMatch missed] at failed
      cases failed
    · rw [bind_of_matched matched] at failed
      exact Quiet.ne_failed later failure failed⟩

instance [Quiet rule] [Quiet rule'] : Quiet (rule <|> rule') :=
  ⟨fun cursor failure failed => by
    rcases Quiet.cases rule cursor with missed | ⟨value, later, matched⟩
    · rw [orElse_of_noMatch missed] at failed
      exact Quiet.ne_failed cursor failure failed
    · rw [orElse_of_matched matched] at failed
      cases failed⟩

instance [Quiet rule] : Quiet (optional rule) :=
  inferInstanceAs (Quiet ((rule >>= fun value => pure (some value)) <|> pure none))

instance [Quiet rule] : Quiet (spaced rule) :=
  inferInstanceAs (Quiet (spaces >>= fun _ => rule >>= fun value => spaces >>= fun _ => pure value))

instance (symbol : String) : Quiet (token symbol) :=
  inferInstanceAs (Quiet (spaced (exact symbol.toList)))

instance (text : String) : Quiet (word text) :=
  inferInstanceAs (Quiet (exact text.toList >>= fun _ => ahead _ >>= fun _ => pure text))

instance (text : String) : Quiet (keyword text) :=
  inferInstanceAs (Quiet (spaced (word text)))

instance (words : List String) : Quiet (wordOf words) := by
  induction words with
  | nil => exact inferInstanceAs (Quiet noMatch)
  | cons text others induction => exact inferInstanceAs (Quiet (word text <|> wordOf others))

instance (dialect : Dialect) : Quiet (tagStart dialect) := by
  unfold tagStart edge
  infer_instance

instance : Quiet edge :=
  inferInstanceAs (Quiet (optional marker))

instance (dialect : Dialect) (words : List String) : Quiet (tag dialect words) := by
  unfold tag
  infer_instance

end

end Grammar

/-! ## Repetition, turn by turn -/

namespace Grammar

/-- Behind what a rule reads, an alternative is not tried if something has to match there. -/
theorem orElse_of_committed {first : Grammar β} {next : β → Grammar α} {value : β} {later : Cursor}
    [Certain (next value)] (matched : first cursor = .matched value later) :
    (first >>= next <|> rule') cursor = next value later := by
  rw [orElse_apply, bind_of_matched matched]
  cases run : next value later with
  | noMatch => exact absurd run (Certain.ne_noMatch later)
  | _ => rfl

theorem bind_pure_of_matched {embed : α → β} {value : α} {later : Cursor}
    (matched : rule cursor = .matched value later) :
    (rule >>= fun value => pure (embed value)) cursor = .matched (embed value) later :=
  bind_of_matched matched

theorem bind_of_failed {next : α → Grammar β} {failure : Failure}
    (failed : rule cursor = .failed failure) : (rule >>= next) cursor = .failed failure := by
  rw [bind_apply, failed]

theorem orElse_of_failed {failure : Failure} (failed : rule cursor = .failed failure) :
    (rule <|> rule') cursor = .failed failure := by
  rw [orElse_apply, failed]

section

variable {step : α → Grammar α} [∀ value, Consuming (step value)]
  (ends : ∀ value offset, step value ⟨offset, []⟩ = .noMatch)

include ends

/-- If no step matches where nothing is left, further turns change nothing. -/
theorem chainFor_eq_chainFor {turns turns' : List Char} {value : α} {cursor : Cursor}
    (enough : cursor.rest.length ≤ turns.length) (enough' : cursor.rest.length ≤ turns'.length) :
    chainFor step turns value cursor = chainFor step turns' value cursor := by
  have stopped (value : α) (offset : Nat) (turns : List Char) :
      chainFor step turns value ⟨offset, []⟩ = .matched value ⟨offset, []⟩ := by
    cases turns with
    | nil => rfl
    | cons turn turns => rw [chainFor, ends]
  induction turns generalizing turns' value cursor with
  | nil =>
      rcases cursor with ⟨offset, rest⟩
      obtain rfl : rest = [] := List.length_eq_zero_iff.mp (Nat.le_zero.mp enough)
      rw [stopped, stopped]
  | cons turn turns induction =>
      cases turns' with
      | nil =>
          rcases cursor with ⟨offset, rest⟩
          obtain rfl : rest = [] := List.length_eq_zero_iff.mp (Nat.le_zero.mp enough')
          rw [stopped, stopped]
      | cons turn' turns' =>
          rw [chainFor, chainFor]
          cases stepped : step value cursor with
          | matched next later =>
              have shorter := (Consuming.passes stepped).2
              rw [List.length_cons] at enough enough'
              exact induction (by omega) (by omega)
          | noMatch => rfl
          | failed failure => rfl

/-- A chain makes a step if it can, and goes on from there. -/
theorem chain_unfold (value : α) (cursor : Cursor) :
    chain step value cursor =
      match step value cursor with
      | .matched next later => chain step next later
      | .noMatch => .matched value cursor
      | .failed failure => .failed failure := by
  rcases cursor with ⟨offset, _ | ⟨turn, turns⟩⟩
  · rw [ends]
    rfl
  · show chainFor step (turn :: turns) value _ = _
    rw [chainFor]
    cases stepped : step value ⟨offset, turn :: turns⟩ with
    | matched next later =>
        have shorter := (Consuming.passes stepped).2
        exact chainFor_eq_chainFor ends (Nat.lt_succ_iff.mp shorter) (Nat.le_refl _)
    | noMatch => rfl
    | failed failure => rfl

end

/-- A repetition matches its rule if it can, and goes on from there. -/
theorem many_bind_unfold {rule : Grammar α} [Consuming rule]
    (ends : ∀ offset, rule ⟨offset, []⟩ = .noMatch) (next : List α → Grammar β) (cursor : Cursor) :
    (many rule >>= next) cursor =
      match rule cursor with
      | .matched value later => (many rule >>= fun values => next (value :: values)) later
      | .noMatch => next [] cursor
      | .failed failure => .failed failure := by
  rw [bind_apply]
  cases first : rule cursor with
  | matched value later =>
      rw [many_of_cons ends first, bind_apply]
      dsimp only
      rw [bind_apply]
      cases many rule later <;> rfl
  | noMatch =>
      have none : many rule cursor = .matched [] cursor := by
        unfold many
        cases cursor.rest with
        | nil => rfl
        | cons turn turns => exact orElse_of_noMatch (bind_of_noMatch first)
      rw [none]
  | failed failure =>
      rcases cursor with ⟨offset, _ | ⟨turn, turns⟩⟩
      · rw [ends] at first
        cases first
      · have ended : many rule ⟨offset, turn :: turns⟩ = .failed failure := by
          show manyFor rule (turn :: turns) _ = _
          rw [manyFor, orElse_apply, bind_apply, first]
        rw [ended]

end Grammar

namespace Attempt

/-- What a turn comes to that makes a step if it can: else it is the last, with the cursor at
`before`. -/
def turned (before : Cursor) (value : α) : Outcome α → Attempted (Turn α α)
  | .matched next later => .got (.again next) later
  | .noMatch => .got (.done value) before
  | .failed failure => .failed failure

theorem loop_keeps_chain {turn : α → Attempt (Turn α α)} {step : α → Grammar α}
    [∀ value, Consuming (step value)] (ends : ∀ value offset, step value ⟨offset, []⟩ = .noMatch)
    (turns : ∀ value cursor, turn value cursor = turned cursor value (step value cursor))
    (value : α) : (loop turn value).Keeps (Grammar.chain step value) := by
  intro cursor
  refine loop_eq (fun value cursor => (Grammar.chain step value cursor).from cursor)
    (fun value cursor => ?_) value cursor
  rw [turns value cursor, Grammar.chain_unfold ends value cursor]
  cases stepped : step value cursor with
  | matched next later =>
      exact ⟨(Consuming.passes stepped).2, from_eq_from (Grammar.Certain.ne_noMatch later)⟩
  | noMatch => rfl
  | failed failure => rfl

/-- A loop that collects what its turns get is the repetition of a rule. -/
theorem loop_keeps_many {turn : List α → Attempt (Turn (List α) (List α))} {rule : Grammar α}
    [Consuming rule] (ends : ∀ offset, rule ⟨offset, []⟩ = .noMatch)
    (turns : ∀ values cursor, turn values cursor =
      turned cursor values ((rule >>= fun value => pure (values ++ [value])) cursor))
    (values : List α) :
    (loop turn values).Keeps (Grammar.many rule >>= fun others => pure (values ++ others)) := by
  intro cursor
  refine loop_eq (fun values cursor =>
    ((Grammar.many rule >>= fun others => pure (values ++ others)) cursor).from cursor)
    (fun values cursor => ?_) values cursor
  rw [turns values cursor, Grammar.many_bind_unfold ends]
  cases first : rule cursor with
  | matched value later =>
      rw [Grammar.bind_pure_of_matched first]
      refine ⟨(Consuming.passes first).2, ?_⟩
      simp only [List.append_assoc, List.singleton_append]
      exact from_eq_from (Grammar.Certain.ne_noMatch later)
  | noMatch =>
      rw [Grammar.bind_of_noMatch first, List.append_nil]
      rfl
  | failed failure =>
      rw [Grammar.bind_of_failed first]
      rfl

section

variable {value : α} {cursor before : Cursor}

/-- A turn that makes its step as an attempt, and else puts the cursor back and is the last. -/
theorem turned_of_follows {attempt : Attempt (Turn α α)} {step : Grammar α} {cursor : Cursor}
    (follows : attempt.Follows (step >>= fun next => pure (.again next)) cursor) :
    (attempt <|> (do goTo before; return .done value) : Attempt (Turn α α)) cursor =
      turned before value (step cursor) := by
  rw [Follows, Grammar.bind_apply] at follows
  rw [orElse_apply]
  cases stepped : step cursor <;> cases attempted : attempt cursor <;>
    rw [stepped, attempted] at follows <;> cases follows <;> rfl

/-- What is read first decides how a step goes on. -/
theorem branch_turned {next : γ → Attempt (Turn α α)} {other : Attempt (Turn α α)}
    {first : Attempt γ} {first' : Grammar γ} {next' : γ → Grammar α} {other' : Grammar α}
    (keeps : first.Keeps first')
    (yes : ∀ found later, first' cursor = .matched found later →
      next found later = turned cursor value (next' found later) ∧ other' cursor = .noMatch)
    (no : other cursor = turned cursor value (other' cursor)) :
    branch first next other cursor = turned cursor value ((first' >>= next' <|> other') cursor) := by
  have found := keeps cursor
  rw [Returns] at found
  cases read : first' cursor with
  | matched result later =>
      rw [read] at found
      rcases yes result later read with ⟨goesOn, missed⟩
      rw [branch_of_got found, goesOn, Grammar.orElse_apply, Grammar.bind_of_matched read]
      cases next' result later with
      | noMatch => rw [missed]
      | _ => rfl
  | noMatch =>
      rw [read] at found
      rw [branch_of_gaveUp found, no, Grammar.orElse_of_noMatch (Grammar.bind_of_noMatch read)]
  | failed failure =>
      rw [read] at found
      rw [branch_of_failed found, Grammar.orElse_of_failed (Grammar.bind_of_failed read)]
      rfl

end

end Attempt

end Templating

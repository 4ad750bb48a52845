import Templating.Proofs.GrammarLocality
import Templating.Proofs.ScopeProgress

/-! # Text that is added behind

When a rule for a statement has matched, the text that it left tells whether anything behind it
can have been looked at. From the last token of a tag back to its first one, the fences that end
the tag stand behind all of its tokens, so that no text that is added behind the tag changes
what has been read of it. -/

namespace Templating

open Grammar

/-- Both fences stand somewhere in the text, outside quotes. -/
def Fenced (text : List Char) : Prop :=
  Closed .expression text ∧ Closed .pattern text

/-- Two characters at least, because the fences are different ones. -/
theorem Fenced.two_le {text : List Char} (fenced : Fenced text) : 2 ≤ text.length := by
  rcases fenced.1.mem with ⟨brace, member, closing⟩
  rcases fenced.2.mem with ⟨percent, member', closing'⟩
  match text with
  | [only] =>
      cases List.mem_singleton.mp member
      cases List.mem_singleton.mp member'
      simp only [Fence.closes, beq_iff_eq] at closing closing'
      subst closing
      cases closing'
  | _ :: _ :: _ => simp

theorem Fenced.ne_nil {text : List Char} (fenced : Fenced text) : text ≠ [] :=
  fenced.1.ne_nil

theorem Walk.fenced {fence : Fence} {text rest : List Char} (walk : Walk fence text rest)
    (fenced : Fenced rest) : Fenced text :=
  ⟨walk.closed_back fenced.1, walk.closed_back fenced.2⟩

namespace Grammar

variable {α β : Type}

/-- Wherever the rule leaves a text with the second property it has started at one with the
first, and it matches in the same way if more text stands behind. -/
def Persists (before behind : List Char → Prop) (rule : Grammar α) : Prop :=
  ∀ ⦃cursor : Cursor⦄ ⦃value : α⦄ ⦃later : Cursor⦄,
    rule cursor = .matched value later → behind later.rest →
      before cursor.rest ∧
        ∀ more, rule (cursor.extended more) = .matched value (later.extended more)

/-- Where the rule does not match a text with the property it does not match if more text stands
behind. -/
def Refuses (before : List Char → Prop) (rule : Grammar α) : Prop :=
  ∀ ⦃cursor : Cursor⦄, rule cursor = .noMatch → before cursor.rest →
    ∀ more, rule (cursor.extended more) = .noMatch

section

variable {before between behind before' behind' : List Char → Prop} {rule other : Grammar α}
  {next : α → Grammar β} {fence : Fence}

theorem Persists.mono (persists : Persists before behind rule)
    (weaker : ∀ text, before text → before' text) (stronger : ∀ text, behind' text → behind text) :
    Persists before' behind' rule := by
  intro cursor value later matched left
  rcases persists matched (stronger _ left) with ⟨started, same⟩
  exact ⟨weaker _ started, same⟩

theorem Refuses.mono (refuses : Refuses before rule)
    (stronger : ∀ text, before' text → before text) : Refuses before' rule :=
  fun _ missed started => refuses missed (stronger _ started)

theorem Persists.pure (value : α) : Persists behind behind (pure value : Grammar α) := by
  intro cursor value' later matched left
  cases matched
  exact ⟨left, fun _ => rfl⟩

theorem Persists.here : Persists behind behind here := by
  intro cursor value later matched left
  cases matched
  exact ⟨left, fun _ => rfl⟩

theorem Persists.bind (first : Persists before between rule)
    (second : ∀ value, Persists between behind (next value)) :
    Persists before behind (rule >>= next) := by
  intro cursor result later matched left
  rcases bind_eq_matched.mp matched with ⟨value, middle, matched, matched'⟩
  rcases second value matched' left with ⟨started, same'⟩
  rcases first matched started with ⟨started, same⟩
  refine ⟨started, fun more => ?_⟩
  rw [bind_of_matched (same more), same' more]

theorem Persists.orElse (first : Persists before behind rule) (refuses : Refuses before rule)
    (second : Persists before behind other) : Persists before behind (rule <|> other) := by
  intro cursor value later matched left
  rcases orElse_eq_matched.mp matched with matched | ⟨missed, matched⟩
  · rcases first matched left with ⟨started, same⟩
    exact ⟨started, fun more => orElse_of_matched (same more)⟩
  · rcases second matched left with ⟨started, same⟩
    refine ⟨started, fun more => ?_⟩
    rw [orElse_of_noMatch (refuses missed started more), same more]

theorem Persists.expect {problem : Problem} (persists : Persists before behind rule) :
    Persists before behind (expect rule problem) := by
  intro cursor value later matched left
  rcases persists (expect_eq_matched.mp matched) left with ⟨started, same⟩
  exact ⟨started, fun more => expect_of_matched (same more)⟩

theorem Persists.optional (persists : Persists behind behind rule) (refuses : Refuses behind rule) :
    Persists behind behind (optional rule) :=
  .orElse (persists.bind fun value => .pure (some value))
    (fun _ missed started more => bind_of_noMatch (refuses (noMatch_of_bind_pure missed) started more))
    (.pure none)

theorem Persists.repeated (persists : Persists before before rule) {values : List α}
    {cursor later : Cursor} (repeated : Repeated rule cursor values later)
    (left : before later.rest) :
    before cursor.rest ∧ ∀ more, Repeated rule (cursor.extended more) values (later.extended more) := by
  induction repeated with
  | nil => exact ⟨left, fun _ => .nil _⟩
  | cons first _ induction =>
      rcases induction left with ⟨started, run⟩
      rcases persists first started with ⟨started, same⟩
      exact ⟨started, fun more => .cons (same more) (run more)⟩

/-- A repetition ends at a text with a property of its own. -/
theorem Persists.many [Consuming rule] (persists : Persists before before rule)
    (refuses : Refuses behind rule) (weaker : ∀ text, behind text → before text)
    (nonempty : ∀ text, behind text → text ≠ []) : Persists before behind (many rule) := by
  intro cursor values later matched left
  have stopped := noMatch_of_many matched (nonempty _ left)
  have run := persists.repeated (repeated_of_many matched) (weaker _ left)
  exact ⟨run.1, fun more => many_of_repeated (run.2 more) (refuses stopped left more)⟩

/-- A chain of steps ends at a text with a property of its own. -/
theorem Persists.chain {step : α → Grammar α} [∀ value, Consuming (step value)]
    (persists : ∀ value, Persists before before (step value))
    (refuses : ∀ value, Refuses behind (step value)) (weaker : ∀ text, behind text → before text)
    (nonempty : ∀ text, behind text → text ≠ []) (value : α) :
    Persists before behind (chain step value) := by
  intro cursor last later matched left
  have stopped := noMatch_of_chain matched (nonempty _ left)
  have chained := chained_of_chain matched
  suffices run : before cursor.rest ∧
      ∀ more, Chained step value (cursor.extended more) last (later.extended more) from
    ⟨run.1, fun more => chain_of_chained (run.2 more) (refuses _ stopped left more)⟩
  clear matched
  induction chained with
  | refl => exact ⟨weaker _ left, fun _ => .refl _ _⟩
  | head first _ induction =>
      rcases induction left stopped with ⟨started, run⟩
      rcases persists _ first started with ⟨started, same⟩
      exact ⟨started, fun more => .head (same more) (run more)⟩

/-! ## Rules that look no further than a fence -/

theorem persists_of_local [Local fence rule]
    (closed : ∀ text, behind text → Closed fence text)
    (back : ∀ {text rest}, Walk fence text rest → behind rest → before text) :
    Persists before behind rule := by
  intro cursor value later matched left
  have walk : Walk fence cursor.rest later.rest := Local.walks matched
  refine ⟨back walk left, fun more => ?_⟩
  rw [apply_extended rule more (walk.closed_back (closed _ left)), matched]
  rfl

theorem Persists.expression (rule : Grammar α) [Local .expression rule] :
    Persists Fenced Fenced rule :=
  persists_of_local (fun _ => And.left) Walk.fenced

theorem Persists.pattern (rule : Grammar α) [Local .pattern rule] :
    Persists Fenced Fenced rule :=
  persists_of_local (fun _ => And.right) Walk.fenced

theorem Persists.closed (rule : Grammar α) [Local .expression rule] :
    Persists (Closed .expression) (Closed .expression) rule :=
  persists_of_local (fun _ => id) Walk.closed_back

theorem Refuses.of_local (rule : Grammar α) [Local fence rule] : Refuses (Closed fence) rule := by
  intro cursor missed closed more
  rw [apply_extended rule more closed, missed]
  rfl

theorem Refuses.certain (rule : Grammar α) [Certain rule] : Refuses before rule :=
  fun cursor missed => absurd missed (Certain.ne_noMatch cursor)

theorem Refuses.andThen (refuses : Refuses before rule) [∀ value, Certain (next value)] :
    Refuses before (rule >>= next) := by
  intro cursor missed started more
  rcases bind_eq_noMatch.mp missed with missed | ⟨value, middle, _, missed⟩
  · exact bind_of_noMatch (refuses missed started more)
  · exact absurd missed (Certain.ne_noMatch middle)

theorem Refuses.here {next : Nat → Grammar α} (second : ∀ start, Refuses before (next start)) :
    Refuses before (here >>= next) :=
  fun cursor missed => second cursor.offset missed

theorem Refuses.orElse (first : Refuses before rule) (second : Refuses before other) :
    Refuses before (rule <|> other) := by
  intro cursor missed started more
  rcases orElse_eq_noMatch.mp missed with ⟨missed, missed'⟩
  exact orElse_eq_noMatch.mpr ⟨first missed started more, second missed' started more⟩

theorem Refuses.bind [Local fence rule] (second : ∀ value, Refuses (Closed fence) (next value)) :
    Refuses (Closed fence) (rule >>= next) := by
  intro cursor missed closed more
  rw [bind_apply, apply_extended rule more closed]
  rcases bind_eq_noMatch.mp missed with missed | ⟨value, middle, matched, missed⟩
  · rw [missed]
    rfl
  · rw [matched]
    exact second value missed ((Local.walks matched).closed closed) more

end

end Grammar

end Templating

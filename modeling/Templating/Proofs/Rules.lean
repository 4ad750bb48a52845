/-! # Rules in order

A check that stops at the first fault is described by a list of rules: it succeeds if all of them
are kept, and otherwise it reports the problem of the first that is broken. Checks one after the
other have their lists one after the other. -/

namespace Templating

/-- Whether something is as it should be, and what is reported where it is not. -/
structure Rule (ε : Type) where
  kept : Bool
  problem : ε

variable {ε ε' α β : Type}

namespace Rule

/-- The same rule with its problem reported as part of another. -/
def within (embed : ε → ε') (rule : Rule ε) : Rule ε' :=
  ⟨rule.kept, embed rule.problem⟩

/-- The problem of the first rule that is broken, if one is. -/
def firstBroken? (rules : List (Rule ε)) : Option ε :=
  (rules.find? fun rule => !rule.kept).map problem

theorem firstBroken?_eq_none {rules : List (Rule ε)} :
    firstBroken? rules = none ↔ ∀ rule ∈ rules, rule.kept = true := by
  simp [firstBroken?]

theorem firstBroken?_append (rules others : List (Rule ε)) :
    firstBroken? (rules ++ others) = (firstBroken? rules).or (firstBroken? others) := by
  simp [firstBroken?, List.find?_append, Option.map_or]

theorem kept_within {embed : ε → ε'} {rules : List (Rule ε)} :
    (∀ rule ∈ rules.map (within embed), rule.kept = true) ↔ ∀ rule ∈ rules, rule.kept = true := by
  simp [within]

theorem firstBroken?_within (embed : ε → ε') (rules : List (Rule ε)) :
    firstBroken? (rules.map (within embed)) = (firstBroken? rules).map embed := by
  rw [firstBroken?, firstBroken?, List.find?_map, Option.map_map, Option.map_map]
  rfl

end Rule

/-- A check that the rules describe. Where they are all kept, it gives a value that is as
expected. -/
structure Decides (rules : List (Rule ε)) (expected : α → Prop) (result : Except ε α) : Prop where
  kept {value : α} : result = .ok value → Rule.firstBroken? rules = none ∧ expected value
  broken {problem : ε} : result = .error problem → Rule.firstBroken? rules = some problem

namespace Decides

variable {rules others : List (Rule ε)} {expected : α → Prop} {result : Except ε α}

theorem error_iff (decides : Decides rules expected result) {problem : ε} :
    result = .error problem ↔ Rule.firstBroken? rules = some problem := by
  refine ⟨decides.broken, fun broken => ?_⟩
  cases result with
  | ok value => cases broken.symm.trans (decides.kept rfl).1
  | error other => cases broken.symm.trans (decides.broken rfl); rfl

theorem ok_iff (decides : Decides rules expected result) :
    (∃ value, result = .ok value) ↔ ∀ rule ∈ rules, rule.kept = true := by
  rw [← Rule.firstBroken?_eq_none]
  constructor
  · rintro ⟨value, succeeded⟩
    exact (decides.kept succeeded).1
  · intro kept
    cases result with
    | ok value => exact ⟨value, rfl⟩
    | error problem => cases kept.symm.trans (decides.broken rfl)

/-- The value is what the check has given. -/
theorem itself (decides : Decides rules expected result) :
    Decides rules (fun value => result = .ok value) result where
  kept succeeded := ⟨(decides.kept succeeded).1, succeeded⟩
  broken := decides.broken

theorem mono {expected' : α → Prop} (decides : Decides rules expected result)
    (follows : ∀ value, expected value → expected' value) : Decides rules expected' result where
  kept succeeded := (decides.kept succeeded).imp_right (follows _)
  broken := decides.broken

/-- Nothing is checked. -/
theorem ok {value : α} (holds : expected value) : Decides [] expected (.ok value : Except ε α) where
  kept := by
    rintro _ ⟨⟩
    exact ⟨rfl, holds⟩
  broken := nofun

/-- What is wrong at once is not checked any further. -/
theorem refused {rule : Rule ε} (breaks : rule.kept = false) :
    Decides (rule :: rules) expected (.error rule.problem : Except ε α) where
  kept := nofun
  broken := by
    rintro _ ⟨⟩
    simp [Rule.firstBroken?, breaks]

theorem passed {rule : Rule ε} (keeps : rule.kept = true) (follows : Decides rules expected result) :
    Decides (rule :: rules) expected result := by
  have kept : Rule.firstBroken? (rule :: rules) = Rule.firstBroken? rules := by
    simp [Rule.firstBroken?, keeps]
  constructor
  · rw [kept]
    exact follows.kept
  · rw [kept]
    exact follows.broken

/-- One rule is checked, and what follows is checked only where it is kept. -/
theorem checkWith {condition : Prop} [Decidable condition] {rule : Rule ε}
    {result : condition → Except ε α} (keeps : rule.kept = true ↔ condition)
    (follows : ∀ holds, Decides rules expected (result holds)) :
    Decides (rule :: rules) expected
      (if holds : condition then result holds else .error rule.problem) := by
  by_cases holds : condition
  · rw [dif_pos holds]
    exact passed (keeps.mpr holds) (follows holds)
  · rw [dif_neg holds]
    exact refused (Bool.not_eq_true _ ▸ mt keeps.mp holds)

theorem check {condition : Prop} [Decidable condition] {rule : Rule ε}
    (keeps : rule.kept = true ↔ condition) (follows : condition → Decides rules expected result) :
    Decides (rule :: rules) expected (if condition then result else .error rule.problem) :=
  checkWith keeps follows

/-- A rule that forbids what is looked for. -/
theorem checkNot {condition : Prop} [Decidable condition] {rule : Rule ε}
    (keeps : rule.kept = true ↔ ¬ condition)
    (follows : ¬ condition → Decides rules expected result) :
    Decides (rule :: rules) expected (if condition then .error rule.problem else result) := by
  rw [← ite_not]
  exact check keeps follows

/-- A check within another, whose problems are reported as those of the other. -/
theorem bindWithin {embed : ε → ε'} {expected' : β → Prop} {others : List (Rule ε')}
    {whole : Except ε' β} (first : Decides rules expected result)
    (fails : ∀ problem, result = .error problem → whole = .error (embed problem))
    (follows : ∀ value, result = .ok value → expected value → Decides others expected' whole) :
    Decides (rules.map (.within embed) ++ others) expected' whole := by
  cases result with
  | ok value =>
      obtain ⟨kept, holds⟩ := first.kept rfl
      have decides := follows value rfl holds
      have same : Rule.firstBroken? (rules.map (.within embed) ++ others) =
          Rule.firstBroken? others := by
        rw [Rule.firstBroken?_append, Rule.firstBroken?_within, kept]
        rfl
      constructor
      · rw [same]
        exact decides.kept
      · rw [same]
        exact decides.broken
  | error problem =>
      obtain rfl := fails problem rfl
      have broken := first.broken rfl
      constructor
      · nofun
      · rintro _ ⟨⟩
        rw [Rule.firstBroken?_append, Rule.firstBroken?_within, broken]
        rfl

theorem bind {expected' : β → Prop} {next : α → Except ε β} (first : Decides rules expected result)
    (follows : ∀ value, result = .ok value → expected value →
      Decides others expected' (next value)) :
    Decides (rules ++ others) expected' (result >>= next) := by
  have same : rules.map (.within id) = rules := List.map_id rules
  rw [← same]
  apply first.bindWithin
  · rintro problem rfl
    rfl
  · rintro value rfl holds
    exact follows value rfl holds

end Decides

end Templating

import Templating.Proofs.Bare

/-! # Strict and lax runs

A strict run of a rule objects to some parts of a template where a lax run accepts them, and
ends the parse there; otherwise the two do the same. What a strict run becomes is told by what
the lax run yields: with something to object to it ends there, and without it yields the same.
-/

namespace Templating

/-- What a strict run objects to: that a body is opened, or that a statement controls a loop,
inside the bodies that are open. The objections in a part of a template stand between two
offsets of the source, and a run that meets some of them reports a failure. -/
structure Strictness (Fault : Type) where
  opening : (scope : List Part) → List Fault
  control : (scope : List Part) → Keyword → (offset : Nat) → List Fault
  within : (start stop : Nat) → Fault → Prop
  reports : List Fault → Failure → Prop
  within_mono {start stop start' stop' : Nat} {fault : Fault} :
    within start stop fault → start' ≤ start → stop ≤ stop' → within start' stop' fault
  control_within {scope : List Part} {keyword : Keyword} {start offset stop : Nat} {fault : Fault} :
    fault ∈ control scope keyword offset → start ≤ offset → offset < stop →
      within start stop fault
  alternative_subset (scope : List Part) :
    opening (.alternative :: scope) ⊆ opening (.loopBody :: scope)
  reports_append {start middle stop : Nat} {first further : List Fault} {failure : Failure} :
    (∀ fault ∈ first, within start middle fault) → (∀ fault ∈ further, within middle stop fault) →
      reports first failure → reports (first ++ further) failure
  ne_nil_of_reports {faults : List Fault} {failure : Failure} :
    reports faults failure → faults ≠ []

variable {Fault : Type} (strictness : Strictness Fault)

/-! ## Objections in a tree -/

mutual

/-- What is objected to in a node inside these bodies. -/
def Node.faults (scope : List Part) : Node → List Fault
  | .conditional _ branches _ => Branch.faults scope branches
  | .loop _ _ _ _ _ body _ alternative _ =>
      strictness.opening (.loopBody :: scope) ++ Node.faultsAll (.loopBody :: scope) body ++
        (strictness.opening (.alternative :: scope) ++
          Node.faultsAll (.alternative :: scope) alternative)
  | .choice _ _ _ arms _ => Arm.faults scope arms
  | .macroDef _ _ _ _ body _ =>
      strictness.opening (.macroBody :: scope) ++ Node.faultsAll (.macroBody :: scope) body
  | .block _ _ _ body _ =>
      strictness.opening (.block :: scope) ++ Node.faultsAll (.block :: scope) body
  | .breakLoop offset _ => strictness.control scope .breakLoop offset
  | .continueLoop offset _ => strictness.control scope .continueLoop offset
  | .text .. | .comment .. | .output .. | .raw .. | .macroCall .. | .assign .. | .declare ..
  | .extendTemplate .. | .includeTemplate .. | .importMacros .. => []
termination_by structural node => node

def Node.faultsAll (scope : List Part) : List Node → List Fault
  | [] => []
  | node :: nodes => node.faults scope ++ Node.faultsAll scope nodes
termination_by structural nodes => nodes

def Branch.faults (scope : List Part) : List Branch → List Fault
  | [] => []
  | ⟨_, _, _, body⟩ :: branches =>
      strictness.opening (.branch :: scope) ++ Node.faultsAll (.branch :: scope) body ++
        Branch.faults scope branches
termination_by structural branches => branches

def Arm.faults (scope : List Part) : List Arm → List Fault
  | [] => []
  | ⟨_, _, _, body⟩ :: arms =>
      strictness.opening (.arm :: scope) ++ Node.faultsAll (.arm :: scope) body ++
        Arm.faults scope arms
termination_by structural arms => arms

end

/-- What is objected to in a body, and to its being opened, inside the bodies behind the first
of `scope`. -/
def Node.bodyFaults (scope : List Part) (nodes : List Node) : List Fault :=
  strictness.opening scope ++ Node.faultsAll strictness scope nodes

section

variable {strictness}

theorem Node.faults_of_isBare {scope : List Part} {node : Node} (bare : node.isBare = true) :
    node.faults strictness scope = [] := by
  cases node <;> first | rfl | cases bare

theorem Node.faultsAll_eq (scope : List Part) (nodes : List Node) :
    Node.faultsAll strictness scope nodes = nodes.flatMap (Node.faults strictness scope) := by
  induction nodes with
  | nil => rfl
  | cons node nodes induction =>
      rw [Node.faultsAll, induction]
      rfl

theorem Branch.faults_eq (scope : List Part) (branches : List Branch) :
    Branch.faults strictness scope branches =
      branches.flatMap fun branch =>
        Node.bodyFaults strictness (.branch :: scope) branch.body := by
  induction branches with
  | nil => rfl
  | cons branch branches induction =>
      rcases branch with ⟨offset, edges, condition, body⟩
      rw [Branch.faults, induction]
      rfl

theorem Arm.faults_eq (scope : List Part) (arms : List Arm) :
    Arm.faults strictness scope arms =
      arms.flatMap fun arm => Node.bodyFaults strictness (.arm :: scope) arm.body := by
  induction arms with
  | nil => rfl
  | cons arm arms induction =>
      rcases arm with ⟨offset, edges, pattern, body⟩
      rw [Arm.faults, induction]
      rfl

end

/-! ## The outcomes of the two runs -/

/-- What became of the strict run against what became of the lax one. The value of the lax run
holds what has been carried there, to which neither run objects, and what is objected to from
`start` on. -/
inductive Cut {α : Type} (faults : α → List Fault) (carried : List Fault) (start : Nat) :
    (strict lax : Outcome α) → Prop
  | same {value : α} {later : Cursor} :
      (∀ fault, fault ∈ faults value ↔ fault ∈ carried) →
      Cut faults carried start (.matched value later) (.matched value later)
  | ended {value : α} {later : Cursor} {failure : Failure} (new : List Fault) :
      (∀ fault, fault ∈ faults value ↔ fault ∈ carried ∨ fault ∈ new) →
      (∀ fault ∈ new, strictness.within start later.offset fault) →
      strictness.reports new failure →
      Cut faults carried start (.failed failure) (.matched value later)
  | noMatch : Cut faults carried start .noMatch .noMatch
  | failed {failure : Failure} : Cut faults carried start (.failed failure) (.failed failure)
  | endedBefore {failure failure' : Failure} (new : List Fault) :
      strictness.reports new failure →
      Cut faults carried start (.failed failure) (.failed failure')

/-- The two rules, tried at the same cursor, whatever cursor it is. -/
def Cuts {α : Type} (faults : α → List Fault) (carried : List Fault) (strict lax : Grammar α) :
    Prop :=
  ∀ cursor, Cut strictness faults carried cursor.offset (strict cursor) (lax cursor)

open Grammar (Advancing Certain)

namespace Cut

variable {strictness} {α β : Type} {faults : α → List Fault} {faults' : β → List Fault}
  {carried carried' : List Fault} {start start' : Nat} {strict lax : Outcome α}

/-- Where nothing has been carried there is nothing to object to in what both runs yield. -/
theorem faults_eq_nil {found : List Fault} (held : ∀ fault, fault ∈ found ↔ fault ∈ ([] : List Fault)) :
    found = [] :=
  List.eq_nil_iff_forall_not_mem.mpr fun fault member => List.not_mem_nil ((held fault).mp member)

theorem mono (cut : Cut strictness faults carried start strict lax) (earlier : start' ≤ start) :
    Cut strictness faults carried start' strict lax := by
  cases cut with
  | same held => exact .same held
  | ended new held inside reported =>
      exact .ended new held
        (fun fault member => strictness.within_mono (inside fault member) earlier (Nat.le_refl _))
        reported
  | noMatch => exact .noMatch
  | failed => exact .failed
  | endedBefore new reported => exact .endedBefore new reported

theorem of_carried (cut : Cut strictness faults carried start strict lax)
    (same : ∀ fault, fault ∈ carried ↔ fault ∈ carried') :
    Cut strictness faults carried' start strict lax := by
  cases cut with
  | same held => exact .same fun fault => (held fault).trans (same fault)
  | ended new held inside reported =>
      exact .ended new (fun fault => (held fault).trans (or_congr_left (same fault))) inside reported
  | noMatch => exact .noMatch
  | failed => exact .failed
  | endedBefore new reported => exact .endedBefore new reported

/-- What is objected to behind the place where the strict run has ended comes behind what ended
it. -/
theorem ended_further {collected new : List Fault} {failure : Failure} {middle : Nat}
    (held : ∀ fault, fault ∈ collected ↔ fault ∈ carried ∨ fault ∈ new)
    (inside : ∀ fault ∈ new, strictness.within start middle fault)
    (reported : strictness.reports new failure) (behind : start ≤ middle)
    (further : Cut strictness faults collected middle strict lax)
    (reaches : ∀ {value later}, lax = .matched value later → middle ≤ later.offset)
    (certain : lax ≠ .noMatch) : Cut strictness faults carried start (.failed failure) lax := by
  cases further with
  | same held' =>
      refine .ended new (fun fault => (held' fault).trans (held fault)) ?_ reported
      exact fun fault member =>
        strictness.within_mono (inside fault member) (Nat.le_refl _) (reaches rfl)
  | ended more held' inside' reported' =>
      refine .ended (new ++ more) ?_ ?_ (strictness.reports_append inside inside' reported)
      · intro fault
        rw [held', held, List.mem_append, or_assoc]
      · intro fault member
        rcases List.mem_append.mp member with member | member
        · exact strictness.within_mono (inside fault member) (Nat.le_refl _) (reaches rfl)
        · exact strictness.within_mono (inside' fault member) behind (Nat.le_refl _)
  | noMatch => exact absurd rfl certain
  | failed => exact .endedBefore new reported
  | endedBefore => exact .endedBefore new reported

/-- Behind the first rule, which may be ended where it is objected to, nothing is tried again. -/
theorem bind {strict lax : Grammar α} {strictNext laxNext : α → Grammar β} {cursor : Cursor}
    [Advancing lax] [∀ value, Advancing (laxNext value)] [∀ value, Certain (laxNext value)]
    (behind : start ≤ cursor.offset) (known : carried' ⊆ carried)
    (first : Cut strictness faults carried' start (strict cursor) (lax cursor))
    (second : ∀ value, Cuts strictness faults' (carried ++ faults value) (strictNext value)
      (laxNext value)) :
    Cut strictness faults' carried start ((strict >>= strictNext) cursor)
      ((lax >>= laxNext) cursor) := by
  rw [Grammar.bind_apply, Grammar.bind_apply]
  generalize eq : lax cursor = laxRun at first ⊢
  generalize strict cursor = strictRun at first ⊢
  cases first with
  | same held =>
      rename_i value middle
      have reached := (Advancing.reaches eq).offset_le
      refine ((second value middle).mono (by omega)).of_carried fun fault => ?_
      rw [List.mem_append, held]
      exact or_iff_left_of_imp (@known fault)
  | ended new held inside reported =>
      rename_i value middle failure
      have reached := (Advancing.reaches eq).offset_le
      refine ended_further ?_ inside reported (by omega) (second value middle)
        (fun eq' => (Advancing.reaches eq').offset_le) (Certain.ne_noMatch middle)
      intro fault
      rw [List.mem_append, held, ← or_assoc, or_iff_left_of_imp (@known fault)]
  | noMatch => exact .noMatch
  | failed => exact .failed
  | endedBefore new reported => exact .endedBefore new reported

/-- Neither run objects to anything in the first rule. -/
theorem after {first : Grammar α} {strictNext laxNext : α → Grammar β} {cursor : Cursor}
    [Advancing first] (behind : start ≤ cursor.offset)
    (second : ∀ value middle, first cursor = .matched value middle →
      start ≤ middle.offset →
      Cut strictness faults' carried start (strictNext value middle) (laxNext value middle)) :
    Cut strictness faults' carried start ((first >>= strictNext) cursor)
      ((first >>= laxNext) cursor) := by
  rw [Grammar.bind_apply, Grammar.bind_apply]
  cases eq : first cursor with
  | matched value middle =>
      have reached := (Advancing.reaches eq).offset_le
      exact second value middle eq (by omega)
  | noMatch => exact .noMatch
  | failed failure => exact .failed

end Cut

namespace Cuts

variable {strictness} {α β : Type} {faults : α → List Fault} {faults' : β → List Fault}
  {carried : List Fault} {strict lax strict' lax' : Grammar α}
  {strictNext laxNext : α → Grammar β}

theorem bind [Advancing lax] [∀ value, Advancing (laxNext value)]
    [∀ value, Certain (laxNext value)] (first : Cuts strictness faults [] strict lax)
    (second : ∀ value, Cuts strictness faults' (carried ++ faults value) (strictNext value)
      (laxNext value)) :
    Cuts strictness faults' carried (strict >>= strictNext) (lax >>= laxNext) :=
  fun cursor => .bind (Nat.le_refl _) (List.nil_subset _) (first cursor) second

/-- As `bind`, where the value of the first rule tells what has been carried to it. -/
theorem bind_carried [Advancing lax] [∀ value, Advancing (laxNext value)]
    [∀ value, Certain (laxNext value)] (first : Cuts strictness faults carried strict lax)
    (second : ∀ value, Cuts strictness faults' (carried ++ faults value) (strictNext value)
      (laxNext value)) :
    Cuts strictness faults' carried (strict >>= strictNext) (lax >>= laxNext) :=
  fun cursor => .bind (Nat.le_refl _) (List.Subset.refl _) (first cursor) second

theorem after {first : Grammar α} [Advancing first]
    (second : ∀ value, Cuts strictness faults' carried (strictNext value) (laxNext value)) :
    Cuts strictness faults' carried (first >>= strictNext) (first >>= laxNext) := by
  intro cursor
  apply Cut.after (Nat.le_refl _)
  intro value middle _ behind
  exact (second value middle).mono behind

theorem pure {value : α} (held : ∀ fault, fault ∈ faults value ↔ fault ∈ carried) :
    Cuts strictness faults carried (pure value) (pure value) :=
  fun _ => .same held

theorem failing {rule : Grammar α} (unmatched : ∀ cursor value later,
    rule cursor ≠ .matched value later) : Cuts strictness faults carried rule rule := by
  intro cursor
  cases eq : rule cursor with
  | matched value later => exact absurd eq (unmatched cursor value later)
  | noMatch => exact .noMatch
  | failed failure => exact .failed

theorem orElse (first : Cuts strictness faults carried strict lax)
    (second : Cuts strictness faults carried strict' lax') :
    Cuts strictness faults carried (strict <|> strict') (lax <|> lax') := by
  intro cursor
  have first := first cursor
  rw [Grammar.orElse_apply, Grammar.orElse_apply]
  generalize lax cursor = laxRun at first ⊢
  generalize strict cursor = strictRun at first ⊢
  cases first with
  | same held => exact .same held
  | ended new held inside reported => exact .ended new held inside reported
  | noMatch => exact second cursor
  | failed => exact .failed
  | endedBefore new reported => exact .endedBefore new reported

theorem optional [Advancing lax] (cuts : Cuts strictness faults [] strict lax) :
    Cuts strictness (fun value : Option α => value.toList.flatMap faults) []
      (Grammar.optional strict) (Grammar.optional lax) := by
  apply orElse
  · apply bind cuts
    intro value
    exact pure (by simp)
  · exact pure (by simp)

theorem many [Advancing lax] (cuts : Cuts strictness faults [] strict lax) :
    Cuts strictness (List.flatMap faults) [] (Grammar.many strict) (Grammar.many lax) := by
  have turn (turns : List Char) : Cuts strictness (List.flatMap faults) []
      (Grammar.manyFor strict turns) (Grammar.manyFor lax turns) := by
    induction turns with
    | nil => exact pure (by simp)
    | cons turn turns induction =>
        apply orElse
        · apply bind cuts
          intro value
          apply bind induction
          intro values
          exact pure (by simp)
        · exact pure (by simp)
  exact fun cursor => turn cursor.rest cursor

end Cuts

end Templating

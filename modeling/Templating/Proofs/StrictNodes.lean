import Templating.Proofs.Strictness

/-! # Strict and lax runs of constructs

If a strict and a lax run agree on the bodies of a construct up to what the strict one objects
to, they agree so on the construct. -/

namespace Templating.Scoped

variable {room : Room}

open Grammar

variable {Fault : Type} {strictness : Strictness Fault} {dialect : Dialect} {opened : OpenedTag}
  {scope : List Part}

section

variable {strict lax : Grammar (List Node)} [Advancing lax] {part : Part}

theorem cuts_elseIfBranch
    (body : Cuts strictness (Node.bodyFaults strictness (.branch :: scope)) [] strict lax) :
    Cuts strictness (fun branch => Branch.faults strictness scope [branch]) []
      (elseIfBranch dialect strict) (elseIfBranch dialect lax) := by
  unfold elseIfBranch
  refine .after fun opened => .after fun _ => .after fun condition => .after fun right => ?_
  apply Cuts.bind body
  intro nodes
  exact .pure (by simp [Branch.faults_eq])

theorem cuts_elseBranch
    (body : Cuts strictness (Node.bodyFaults strictness (.branch :: scope)) [] strict lax) :
    Cuts strictness (fun branch => Branch.faults strictness scope [branch]) []
      (elseBranch dialect strict) (elseBranch dialect lax) := by
  unfold elseBranch
  refine .after fun opened => .after fun right => ?_
  apply Cuts.bind body
  intro nodes
  exact .pure (by simp [Branch.faults_eq])

theorem cuts_conditional
    (body : Cuts strictness (Node.bodyFaults strictness (.branch :: scope)) [] strict lax) :
    Cuts strictness (Node.faults strictness scope) []
      (conditional dialect strict opened) (conditional dialect lax opened) := by
  unfold conditional
  refine .after fun condition => .after fun right => ?_
  apply Cuts.bind body
  intro first
  apply Cuts.bind (cuts_elseIfBranch body).many
  intro others
  apply Cuts.bind (cuts_elseBranch body).optional
  intro last
  refine .after fun _ => .after fun closingLeft => .after fun closingRight => .pure fun fault => ?_
  simp only [Node.faults, Branch.faults_eq]
  simp

theorem cuts_loopRest
    (body : Cuts strictness (Node.bodyFaults strictness (.alternative :: scope)) [] strict lax)
    {carried : List Fault} (covered : strictness.opening (.alternative :: scope) ⊆ carried) :
    Cuts strictness
      (fun rest => carried ++ Node.bodyFaults strictness (.alternative :: scope) rest.2.1) carried
      (loopRest dialect opened strict) (loopRest dialect opened lax) := by
  unfold loopRest
  apply Cuts.orElse
  · refine .after fun closing => .after fun right => .pure fun fault => ?_
    have := @covered fault
    simpa [Node.bodyFaults, Node.faultsAll] using this
  · apply Cuts.orElse
    · refine .after fun middle => .after fun right => ?_
      apply Cuts.bind body
      intro nodes
      exact .after fun closingLeft => .after fun closingRight => .pure fun fault => Iff.rfl
    · exact .failing fun cursor value later => Grammar.missingEndTag_ne_matched dialect

theorem cuts_loop {strict' lax' : Grammar (List Node)} [Advancing lax']
    (body : Cuts strictness (Node.bodyFaults strictness (.loopBody :: scope)) [] strict lax)
    (alternative :
      Cuts strictness (Node.bodyFaults strictness (.alternative :: scope)) [] strict' lax') :
    Cuts strictness (Node.faults strictness scope) []
      (loop dialect strict opened strict') (loop dialect lax opened lax') := by
  unfold loop
  refine .after fun pattern => .after fun _ => .after fun iterable => .after fun guard =>
    .after fun right => ?_
  apply Cuts.bind body
  intro nodes
  apply Cuts.bind_carried (cuts_loopRest alternative ?_)
  · intro rest
    refine .pure fun fault => ?_
    simp only [Node.faults, Node.bodyFaults, List.mem_append, List.not_mem_nil]
    grind
  · intro fault member
    exact List.mem_append_right [] (List.mem_append_left _ (strictness.alternative_subset scope member))

theorem cuts_whenArm
    (body : Cuts strictness (Node.bodyFaults strictness (.arm :: scope)) [] strict lax) :
    Cuts strictness (fun arm => Arm.faults strictness scope [arm]) []
      (whenArm dialect strict) (whenArm dialect lax) := by
  unfold whenArm
  refine .after fun opened => .after fun pattern => .after fun right => ?_
  apply Cuts.bind body
  intro nodes
  exact .pure (by simp [Arm.faults_eq])

theorem cuts_elseArm
    (body : Cuts strictness (Node.bodyFaults strictness (.arm :: scope)) [] strict lax) :
    Cuts strictness (fun arm => Arm.faults strictness scope [arm]) []
      (elseArm dialect strict) (elseArm dialect lax) := by
  unfold elseArm
  refine .after fun opened => .after fun right => ?_
  apply Cuts.bind body
  intro nodes
  exact .pure (by simp [Arm.faults_eq])

theorem cuts_laterArms
    (body : Cuts strictness (Node.bodyFaults strictness (.arm :: scope)) [] strict lax)
    (otherwise : Option Arm) :
    Cuts strictness (List.flatMap fun arm => Arm.faults strictness scope [arm]) []
      (laterArms dialect strict otherwise) (laterArms dialect lax otherwise) := by
  cases otherwise with
  | none => exact .pure (by simp)
  | some otherwise => exact (cuts_whenArm body).many

theorem cuts_choice
    (body : Cuts strictness (Node.bodyFaults strictness (.arm :: scope)) [] strict lax) :
    Cuts strictness (Node.faults strictness scope) []
      (choice dialect strict opened) (choice dialect lax opened) := by
  unfold choice
  refine .after fun subject => .after fun right => .after fun _ => ?_
  apply Cuts.bind (cuts_whenArm body).many
  intro before
  apply Cuts.bind (cuts_elseArm body).optional
  intro otherwise
  apply Cuts.bind (cuts_laterArms body otherwise)
  intro after
  refine .after fun _ => .after fun _ => .after fun closingLeft => .after fun closingRight =>
    .pure fun fault => ?_
  simp only [Node.faults, Arm.faults_eq]
  simp [or_comm]

theorem cuts_block
    (body : Cuts strictness (Node.bodyFaults strictness (.block :: scope)) [] strict lax) :
    Cuts strictness (Node.faults strictness scope) []
      (block dialect strict opened) (block dialect lax opened) := by
  unfold block
  refine .after fun name => .after fun right => ?_
  apply Cuts.bind body
  intro nodes
  exact .after fun closingLeft => .after fun _ => .after fun closingRight => .pure fun fault =>
    Iff.rfl

theorem cuts_macroDef
    (body : Cuts strictness (Node.bodyFaults strictness (.macroBody :: scope)) [] strict lax) :
    Cuts strictness (Node.faults strictness scope) []
      (macroDef dialect strict opened) (macroDef dialect lax opened) := by
  unfold macroDef
  refine .after fun _ => .after fun nameOffset => .after fun name => .after fun _ =>
    .after fun parameters => .after fun right => ?_
  apply Cuts.bind body
  intro nodes
  exact .after fun closingLeft => .after fun _ => .after fun closingRight => .pure fun fault =>
    Iff.rfl

end

/-- Neither run objects to anything in a node without bodies that controls no loop. -/
theorem cut_of_isBare {rule : Grammar Node} (bare : Always (fun node => node.isBare = true) rule)
    {start : Nat} {cursor : Cursor} :
    Cut strictness (Node.faults strictness scope) [] start (rule cursor) (rule cursor) := by
  cases eq : rule cursor with
  | matched node later =>
      refine .same fun fault => ?_
      rw [Node.faults_of_isBare (bare _ _ _ eq)]
  | noMatch => exact .noMatch
  | failed failure => exact .failed

/-- Where the strict run knows no loop and the lax one does, the strict one reports what it
objects to; where they know the same there is nothing to object to. -/
structure Controlled (strictness : Strictness Fault) (scope : List Part)
    (strictLoop laxLoop : Bool) : Prop where
  agree {keyword : Keyword} {offset : Nat} : strictLoop = laxLoop → laxLoop = true →
    strictness.control scope keyword offset = []
  differ {keyword : Keyword} {offset : Nat} : strictLoop ≠ laxLoop →
    strictLoop = false ∧ strictness.reports (strictness.control scope keyword offset)
      (.malformed (.loopControlOutside keyword.word) offset)

theorem cut_loopControl {strictLoop laxLoop : Bool}
    (controlled : Controlled strictness scope strictLoop laxLoop) (keyword : Keyword)
    (control : Nat → Edges → Node) {cursor : Cursor} (behind : opened.offset < cursor.offset)
    (faults : ∀ edges, (control opened.offset edges).faults strictness scope =
      strictness.control scope keyword opened.offset) :
    Cut strictness (Node.faults strictness scope) [] opened.offset
      (loopControl opened strictLoop keyword control cursor)
      (loopControl opened laxLoop keyword control cursor) := by
  by_cases same : strictLoop = laxLoop
  · subst same
    cases strictLoop with
    | false => exact .failed
    | true =>
        apply Cut.after (Nat.le_of_lt behind)
        intro right middle _ _
        exact .same (by simp [faults, controlled.agree rfl rfl])
  · rcases controlled.differ same with ⟨rfl, reported⟩
    have inside : laxLoop = true := by
      cases laxLoop with
      | false => exact absurd rfl same
      | true => rfl
    subst inside
    unfold loopControl
    simp only [Bool.false_eq_true, if_false, if_true]
    rw [Grammar.bind_apply]
    cases eq : Grammar.edge cursor with
    | matched right later =>
        have reached := (Advancing.reaches eq).offset_le
        refine .ended _ (fun fault => ?_) (fun fault member => ?_) reported
        · simp [faults]
        · exact strictness.control_within member (Nat.le_refl _) (by omega)
    | noMatch => exact absurd eq (Certain.ne_noMatch cursor)
    | failed failure => exact .endedBefore _ reported

section

variable {strictBodies laxBodies : Part → Grammar (List Node)} [∀ part, Advancing (laxBodies part)]
  {strictLoop laxLoop : Bool}

theorem cut_statementRest (controlled : Controlled strictness scope strictLoop laxLoop)
    (bodies : ∀ part, Cuts strictness (Node.bodyFaults strictness (part :: scope)) []
      (strictBodies part) (laxBodies part))
    (keyword : Keyword) {cursor : Cursor} (behind : opened.offset < cursor.offset) :
    Cut strictness (Node.faults strictness scope) [] opened.offset
      (statementRest dialect opened strictLoop strictBodies keyword cursor)
      (statementRest dialect opened laxLoop laxBodies keyword cursor) := by
  have earlier := Nat.le_of_lt behind
  cases keyword with
  | conditional => exact (cuts_conditional (bodies .branch) cursor).mono earlier
  | loop => exact (cuts_loop (bodies .loopBody) (bodies .alternative) cursor).mono earlier
  | choice => exact (cuts_choice (bodies .arm) cursor).mono earlier
  | block => exact (cuts_block (bodies .block) cursor).mono earlier
  | macroDef => exact (cuts_macroDef (bodies .macroBody) cursor).mono earlier
  | breakLoop => exact cut_loopControl controlled .breakLoop .breakLoop behind fun _ => rfl
  | continueLoop =>
      exact cut_loopControl controlled .continueLoop .continueLoop behind fun _ => rfl
  | call => exact cut_of_isBare (bare_macroCall opened)
  | letBinding => exact cut_of_isBare (bare_assignment opened)
  | setBinding => exact cut_of_isBare (bare_assignment opened)
  | extendTemplate => exact cut_of_isBare (bare_extension opened)
  | includeTemplate => exact cut_of_isBare (bare_inclusion opened)
  | importMacros => exact cut_of_isBare (bare_importation opened)
  | raw => exact cut_of_isBare (bare_raw dialect opened)

theorem cuts_statement (controlled : Controlled strictness scope strictLoop laxLoop)
    (bodies : ∀ part, Cuts strictness (Node.bodyFaults strictness (part :: scope)) []
      (strictBodies part) (laxBodies part)) :
    Cuts strictness (Node.faults strictness scope) [] (statement dialect strictLoop strictBodies)
      (statement dialect laxLoop laxBodies) := by
  intro cursor
  apply Cut.after (Nat.le_refl _)
  intro start middle begun _
  rcases start with ⟨opened, keyword⟩
  have passed := (Grammar.Consuming.passes begun).offset_lt
  rw [← (Parser.statementStart_offset begun)] at passed ⊢
  apply Cut.bind (Nat.le_of_lt passed) (List.Subset.refl _)
    (cut_statementRest controlled bodies keyword passed)
  intro node
  exact .after fun _ => .pure (by simp)

theorem cuts_node (controlled : Controlled strictness scope strictLoop laxLoop)
    (bodies : ∀ part, Cuts strictness (Node.bodyFaults strictness (part :: scope)) []
      (strictBodies part) (laxBodies part)) :
    Cuts strictness (Node.faults strictness scope) [] (node dialect strictLoop strictBodies)
      (node dialect laxLoop laxBodies) := by
  have bare {rule : Grammar Node} (bare : Always (fun node => node.isBare = true) rule) :
      Cuts strictness (Node.faults strictness scope) [] rule rule :=
    fun cursor => cut_of_isBare bare
  exact .orElse (bare (bare_text dialect)) (.orElse (bare (bare_comment dialect))
    (.orElse (bare (bare_output dialect)) (cuts_statement controlled bodies)))

end

end Templating.Scoped

import Templating.Proofs.StrictNodes

/-! # The nesting limit

The limit of a dialect only cuts a parse short, and it does so exactly where bodies are nested
more deeply than it admits. -/

namespace Templating

variable {room : Room}

/-! ## How deeply bodies are nested -/

mutual

/-- How many levels of bodies are nested in a node. -/
def Node.levels : Node → Nat
  | .conditional _ branches _ => Branch.levels branches
  | .loop _ _ _ _ _ body _ alternative _ =>
      max (1 + Node.levelsAll body) (1 + Node.levelsAll alternative)
  | .choice _ _ _ arms _ => Arm.levels arms
  | .macroDef _ _ _ _ body _ | .block _ _ _ body _ => 1 + Node.levelsAll body
  | .text .. | .comment .. | .output .. | .raw .. | .breakLoop .. | .continueLoop ..
  | .macroCall .. | .assign .. | .declare .. | .extendTemplate .. | .includeTemplate ..
  | .importMacros .. => 0
termination_by structural node => node

def Node.levelsAll : List Node → Nat
  | [] => 0
  | node :: nodes => max node.levels (Node.levelsAll nodes)
termination_by structural nodes => nodes

def Branch.levels : List Branch → Nat
  | [] => 0
  | ⟨_, _, _, body⟩ :: branches => max (1 + Node.levelsAll body) (Branch.levels branches)
termination_by structural branches => branches

def Arm.levels : List Arm → Nat
  | [] => 0
  | ⟨_, _, _, body⟩ :: arms => max (1 + Node.levelsAll body) (Arm.levels arms)
termination_by structural arms => arms

end

/-- How deeply bodies are nested in a template, the outermost one included. -/
def Template.depth (template : Template) : Nat :=
  1 + Node.levelsAll template.body

/-! ## What a limit objects to -/

/-- A limit objects to bodies that are opened inside as many as it admits, wherever they stand. -/
def nestingLimit (limit : Nat) : Strictness Unit where
  opening scope := if limit < scope.length then [()] else []
  control _ _ _ := []
  within _ _ _ := True
  reports faults failure :=
    faults ≠ [] ∧ ∃ offset, failure = .malformed (.nestingLimit limit) offset
  within_mono _ _ _ := trivial
  control_within member := nomatch member
  alternative_subset _ := List.Subset.refl _
  reports_append _ _ reported := ⟨by simp [reported.1], reported.2⟩
  ne_nil_of_reports reported := reported.1

section

variable (limit : Nat)

/-- A body that is opened inside `scope`, if what is nested in it is known. -/
theorem Node.bodyFaults_nestingLimit_of {scope : List Part} {part : Part} {nodes : List Node}
    (inside : Node.faultsAll (nestingLimit limit) (part :: scope) nodes = [] ↔
      Node.levelsAll nodes = 0 ∨ (part :: scope).length + Node.levelsAll nodes ≤ limit) :
    Node.bodyFaults (nestingLimit limit) (part :: scope) nodes = [] ↔
      scope.length + (1 + Node.levelsAll nodes) ≤ limit := by
  have opening : (nestingLimit limit).opening (part :: scope) = [] ↔ scope.length + 1 ≤ limit := by
    show (if limit < (part :: scope).length then [()] else []) = [] ↔ _
    rw [List.length_cons]
    split <;> simp <;> omega
  rw [Node.bodyFaults, List.append_eq_nil_iff, opening, inside, List.length_cons]
  omega

mutual

theorem Node.faults_nestingLimit (scope : List Part) (node : Node) :
    node.faults (nestingLimit limit) scope = [] ↔
      node.levels = 0 ∨ scope.length + node.levels ≤ limit := by
  cases node with
  | conditional offset branches closing => exact Branch.faults_nestingLimit scope branches
  | loop offset opening pattern iterable guard body middle alternative closing =>
      have inside := Node.bodyFaults_nestingLimit_of limit
        (Node.faultsAll_nestingLimit (.loopBody :: scope) body)
      have otherwise := Node.bodyFaults_nestingLimit_of limit
        (Node.faultsAll_nestingLimit (.alternative :: scope) alternative)
      rw [Node.bodyFaults] at inside otherwise
      rw [Node.faults, Node.levels, List.append_eq_nil_iff, inside, otherwise]
      omega
  | choice offset opening subject arms closing => exact Arm.faults_nestingLimit scope arms
  | macroDef offset name opening parameters body closing =>
      have inside := Node.bodyFaults_nestingLimit_of limit
        (Node.faultsAll_nestingLimit (.macroBody :: scope) body)
      rw [Node.bodyFaults] at inside
      rw [Node.faults, Node.levels, inside]
      omega
  | block offset opening name body closing =>
      have inside := Node.bodyFaults_nestingLimit_of limit
        (Node.faultsAll_nestingLimit (.block :: scope) body)
      rw [Node.bodyFaults] at inside
      rw [Node.faults, Node.levels, inside]
      omega
  | _ => simp [Node.faults, Node.levels, nestingLimit]
termination_by structural node

theorem Node.faultsAll_nestingLimit (scope : List Part) (nodes : List Node) :
    Node.faultsAll (nestingLimit limit) scope nodes = [] ↔
      Node.levelsAll nodes = 0 ∨ scope.length + Node.levelsAll nodes ≤ limit := by
  cases nodes with
  | nil => simp [Node.faultsAll, Node.levelsAll]
  | cons node nodes =>
      rw [Node.faultsAll, Node.levelsAll, List.append_eq_nil_iff,
        Node.faults_nestingLimit scope node, Node.faultsAll_nestingLimit scope nodes]
      omega
termination_by structural nodes

theorem Branch.faults_nestingLimit (scope : List Part) (branches : List Branch) :
    Branch.faults (nestingLimit limit) scope branches = [] ↔
      Branch.levels branches = 0 ∨ scope.length + Branch.levels branches ≤ limit := by
  rcases branches with _ | ⟨⟨offset, edges, condition, body⟩, branches⟩
  · simp [Branch.faults, Branch.levels]
  · have inside := Node.bodyFaults_nestingLimit_of limit
      (Node.faultsAll_nestingLimit (.branch :: scope) body)
    rw [Node.bodyFaults] at inside
    rw [Branch.faults, Branch.levels, List.append_eq_nil_iff, inside,
      Branch.faults_nestingLimit scope branches]
    omega
termination_by structural branches

theorem Arm.faults_nestingLimit (scope : List Part) (arms : List Arm) :
    Arm.faults (nestingLimit limit) scope arms = [] ↔
      Arm.levels arms = 0 ∨ scope.length + Arm.levels arms ≤ limit := by
  rcases arms with _ | ⟨⟨offset, edges, pattern, body⟩, arms⟩
  · simp [Arm.faults, Arm.levels]
  · have inside := Node.bodyFaults_nestingLimit_of limit
      (Node.faultsAll_nestingLimit (.arm :: scope) body)
    rw [Node.bodyFaults] at inside
    rw [Arm.faults, Arm.levels, List.append_eq_nil_iff, inside,
      Arm.faults_nestingLimit scope arms]
    omega
termination_by structural arms

end

end

/-! ## Two limits -/

namespace Dialect

/-- The dialects differ in their nesting limits at most. -/
def SameDelimiters (dialect dialect' : Dialect) : Prop :=
  ∀ role, dialect.delimiter role = dialect'.delimiter role

/-- The dialect with another nesting limit. -/
def withLimit (dialect : Dialect) (limit : Nat) (positive : 0 < limit) : Dialect :=
  { dialect with maxDepth := limit, maxDepth_pos := positive }

theorem SameDelimiters.eq_withLimit {dialect dialect' : Dialect}
    (same : dialect.SameDelimiters dialect') :
    dialect' = dialect.withLimit dialect'.maxDepth dialect'.maxDepth_pos := by
  have blockStart := same .blockStart
  have blockEnd := same .blockEnd
  have exprStart := same .exprStart
  have exprEnd := same .exprEnd
  have commentStart := same .commentStart
  have commentEnd := same .commentEnd
  cases dialect
  cases dialect'
  simp only [delimiter] at blockStart blockEnd exprStart exprEnd commentStart commentEnd
  subst blockStart blockEnd exprStart exprEnd commentStart commentEnd
  rfl

end Dialect

namespace Scoped

variable {dialect dialect' : Dialect}

theorem tooDeep_zero_within (scope : List Part) (limit : Nat) :
    (Counters.zero.within scope).tooDeep limit = decide (limit < scope.length) := by
  simp [Counters.tooDeep, Counters.within, Counters.zero]

/-- A body that is opened too deeply ends the parse. -/
theorem nodesWithin_of_tooDeep {scope : List Part} (deep : dialect.maxDepth < scope.length)
    (levels : Nat) :
    nodesWithin dialect .zero levels scope = Grammar.fail (.nestingLimit dialect.maxDepth) := by
  cases levels with
  | zero => rfl
  | succ levels => rw [nodesWithin, tooDeep_zero_within, if_pos (decide_eq_true deep)]

/-- The limit is not consulted but where a body is opened. -/
theorem node_of_sameDelimiters (same : dialect.SameDelimiters dialect') :
    node dialect' = node dialect := by
  rw [same.eq_withLimit]
  rfl

/-- The run with the smaller limit is cut where a body is opened too deeply for it. -/
theorem cuts_nodesWithin_of_tooDeep {scope : List Part} (deep : dialect.maxDepth < scope.length)
    (levels levels' : Nat) :
    Cuts (nestingLimit dialect.maxDepth) (Node.bodyFaults (nestingLimit dialect.maxDepth) scope) []
      (nodesWithin dialect .zero levels scope) (nodesWithin dialect' .zero levels' scope) := by
  intro cursor
  rw [nodesWithin_of_tooDeep deep]
  cases eq : nodesWithin dialect' .zero levels' scope cursor with
  | matched nodes later =>
      refine .ended (Node.bodyFaults (nestingLimit dialect.maxDepth) scope nodes) (by simp)
        (fun _ _ => trivial) ⟨?_, _, rfl⟩
      simp [Node.bodyFaults, nestingLimit, deep]
  | noMatch => exact absurd eq (Grammar.Certain.ne_noMatch cursor)
  | failed failure => exact .endedBefore [()] ⟨List.cons_ne_nil _ _, _, rfl⟩

theorem cuts_nodesWithin_limit (same : dialect.SameDelimiters dialect')
    (smaller : dialect.maxDepth ≤ dialect'.maxDepth) {levels levels' : Nat} {scope : List Part}
    (enough : dialect.maxDepth < levels + scope.length)
    (enough' : dialect'.maxDepth < levels' + scope.length) :
    Cuts (nestingLimit dialect.maxDepth) (Node.bodyFaults (nestingLimit dialect.maxDepth) scope) []
      (nodesWithin dialect .zero levels scope) (nodesWithin dialect' .zero levels' scope) := by
  -- On the levels under the smaller limit: once these are used up the strict run has ended, and
  -- nothing is asked of the other one.
  induction levels generalizing levels' scope with
  | zero => exact cuts_nodesWithin_of_tooDeep (by omega) 0 levels'
  | succ levels induction =>
      by_cases deep : dialect.maxDepth < scope.length
      · exact cuts_nodesWithin_of_tooDeep deep _ levels'
      · obtain ⟨levels', rfl⟩ : ∃ further, levels' = further + 1 := ⟨levels' - 1, by omega⟩
        rw [nodesWithin, nodesWithin, tooDeep_zero_within, tooDeep_zero_within,
          if_neg (by simpa using deep), if_neg (by simp; omega), node_of_sameDelimiters same]
        have opened : Node.bodyFaults (nestingLimit dialect.maxDepth) scope =
            List.flatMap (Node.faults (nestingLimit dialect.maxDepth) scope) := by
          funext nodes
          rw [Node.bodyFaults, Node.faultsAll_eq]
          simp [nestingLimit, deep]
        rw [opened]
        apply Cuts.many
        have controlled (inLoop : Bool) :
            Controlled (nestingLimit dialect.maxDepth) scope inLoop inLoop :=
          ⟨fun _ _ => rfl, fun differ => absurd rfl differ⟩
        apply cuts_node (controlled _)
        intro part
        apply induction <;> rw [List.length_cons] <;> omega

theorem cuts_document_limit [Room] (same : dialect.SameDelimiters dialect')
    (smaller : dialect.maxDepth ≤ dialect'.maxDepth) :
    Cuts (nestingLimit dialect.maxDepth)
      (Node.bodyFaults (nestingLimit dialect.maxDepth) [.template]) []
      (document dialect) (document dialect') := by
  have ended : Grammar.endOfSource dialect' = Grammar.endOfSource dialect := by
    rw [same.eq_withLimit]
    rfl
  unfold document
  rw [ended]
  apply Cuts.bind (cuts_nodesWithin_limit same smaller
    (by rw [List.length_singleton]; omega) (by rw [List.length_singleton]; omega))
  intro body
  exact .after fun _ => .pure (by simp)

end Scoped

namespace Template

variable {dialect dialect' : Dialect}

/-- The limit of a dialect never changes what a source is. Under the smaller of two limits a
parse is ended by the limit, or it comes to the same as under the larger one; and of the
templates that the larger limit admits the smaller one ends the parse of those in which bodies
are nested more deeply. -/
theorem nesting_limit_only_cuts (same : dialect.SameDelimiters dialect')
    (smaller : dialect.maxDepth ≤ dialect'.maxDepth) (source : Source) :
    ((∃ offset, parse dialect source = .error (.malformed (.nestingLimit dialect.maxDepth) offset)) ∨
      parse dialect source = parse dialect' source) ∧
    ∀ template, parse dialect' source = .ok template →
      ((∃ template', parse dialect source = .ok template') ↔ template.depth ≤ dialect.maxDepth) ∧
      (dialect.maxDepth < template.depth →
        ∃ offset, parse dialect source =
          .error (.malformed (.nestingLimit dialect.maxDepth) offset)) := by
  have cut := Scoped.cuts_document_limit same smaller (.start source.chars)
  have fits (nodes : List Node) :
      Node.bodyFaults (nestingLimit dialect.maxDepth) [.template] nodes = [] ↔
        (⟨nodes, source.name⟩ : Template).depth ≤ dialect.maxDepth := by
    rw [Node.bodyFaults_nestingLimit_of _ (Node.faultsAll_nestingLimit _ _ nodes)]
    simp [depth]
  rw [parse_eq_scoped, parse_eq_scoped]
  generalize Scoped.document dialect' (.start source.chars) = lax at cut
  generalize Scoped.document dialect (.start source.chars) = strict at cut
  cases cut with
  | same held =>
      rename_i body later
      refine ⟨.inr rfl, fun template parsed => ?_⟩
      cases parsed
      have fitting := (fits body).mp (Cut.faults_eq_nil held)
      exact ⟨⟨fun _ => fitting, fun _ => ⟨_, rfl⟩⟩, fun deep => absurd fitting (by omega)⟩
  | ended new held inside reported =>
      rename_i body later failure
      have some : Node.bodyFaults (nestingLimit dialect.maxDepth) [.template] body ≠ [] := by
        rcases List.exists_mem_of_ne_nil _ reported.1 with ⟨fault, member⟩
        exact List.ne_nil_of_mem ((held fault).mpr (.inr member))
      rcases reported with ⟨_, offset, rfl⟩
      refine ⟨.inl ⟨offset, rfl⟩, fun template parsed => ?_⟩
      cases parsed
      exact ⟨⟨nofun, fun fitting => absurd ((fits body).mpr fitting) some⟩, fun _ => ⟨offset, rfl⟩⟩
  | noMatch => exact ⟨.inr rfl, nofun⟩
  | failed => exact ⟨.inr rfl, nofun⟩
  | endedBefore new reported =>
      rcases reported with ⟨_, offset, rfl⟩
      exact ⟨.inl ⟨offset, rfl⟩, nofun⟩

/-- A conditional at the top level is one level too many for a limit that admits the top level
alone. -/
theorem nesting_limit_cuts_conditional :
    let _ : Room := ⟨20⟩
    (Dialect.standard.withLimit 1 (by decide)).SameDelimiters .standard ∧
      ∃ offset, parse (Dialect.standard.withLimit 1 (by decide))
        ⟨"\x7b% if x %\x7d\x7b% endif %\x7d", none, none⟩ =
          .error (.malformed (.nestingLimit 1) offset) := by
  intro room
  have same : (Dialect.standard.withLimit 1 (by decide)).SameDelimiters .standard := by
    intro role
    cases role <;> rfl
  have depth : (parse .standard ⟨"\x7b% if x %\x7d\x7b% endif %\x7d", none, none⟩).toOption.map
      Template.depth = some 2 := by
    decide +kernel
  generalize parsed : parse .standard _ = outcome at depth
  cases outcome with
  | error failure => cases depth
  | ok template =>
      have deep : 1 < template.depth := by
        rw [Option.some.inj depth]
        decide
      exact ⟨same, ((nesting_limit_only_cuts same (by decide) _).2 template parsed).2 deep⟩

end Template

end Templating

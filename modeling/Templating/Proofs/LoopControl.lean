import Templating.Proofs.StrictNodes

/-! # Loop control

A statement that leaves a loop or goes on with it is accepted exactly inside the body of a
loop. A parse that begins outside of all loops is ended by the first one that is not. -/

namespace Templating

variable {room : Room}

/-- A statement that controls a loop, and where it begins. -/
structure Stray where
  keyword : Keyword
  offset : Nat
  deriving Repr, DecidableEq

/-! ## Statements that control no loop -/

mutual

/-- What controls a loop in a node and has no loop around it there in whose body it lies. -/
def Node.strays : Node → List Stray
  | .conditional _ branches _ => Branch.strays branches
  | .loop _ _ _ _ _ _ _ alternative _ => Node.straysAll alternative
  | .choice _ _ _ arms _ => Arm.strays arms
  | .macroDef _ _ _ _ body _ | .block _ _ _ body _ => Node.straysAll body
  | .breakLoop offset _ => [⟨.breakLoop, offset⟩]
  | .continueLoop offset _ => [⟨.continueLoop, offset⟩]
  | .text .. | .comment .. | .output .. | .raw .. | .macroCall .. | .assign .. | .declare ..
  | .extendTemplate .. | .includeTemplate .. | .importMacros .. => []
termination_by structural node => node

def Node.straysAll : List Node → List Stray
  | [] => []
  | node :: nodes => node.strays ++ Node.straysAll nodes
termination_by structural nodes => nodes

def Branch.strays : List Branch → List Stray
  | [] => []
  | ⟨_, _, _, body⟩ :: branches => Node.straysAll body ++ Branch.strays branches
termination_by structural branches => branches

def Arm.strays : List Arm → List Stray
  | [] => []
  | ⟨_, _, _, body⟩ :: arms => Node.straysAll body ++ Arm.strays arms
termination_by structural arms => arms

end

/-- The failure of a parse that finds these outside of loops: it is about the first of them. -/
def Stray.Reported (strays : List Stray) (failure : Failure) : Prop :=
  ∃ stray ∈ strays, (∀ other ∈ strays, stray.offset ≤ other.offset) ∧
    failure = .malformed (.loopControlOutside stray.keyword.word) stray.offset

/-- A run outside of all loops objects to what controls a loop, unless the body of a loop has
been opened in the meantime. -/
def outsideLoops : Strictness Stray where
  opening _ := []
  control scope keyword offset := if .loopBody ∈ scope then [] else [⟨keyword, offset⟩]
  within start stop stray := start ≤ stray.offset ∧ stray.offset < stop
  reports := Stray.Reported
  within_mono inside earlier later := by omega
  control_within member earlier later := by
    split at member
    · cases member
    · cases List.mem_singleton.mp member
      exact ⟨earlier, later⟩
  alternative_subset _ := List.Subset.refl _
  reports_append inside inside' reported := by
    rcases reported with ⟨stray, member, first, rfl⟩
    refine ⟨stray, List.mem_append_left _ member, fun other member' => ?_, rfl⟩
    rcases List.mem_append.mp member' with member' | member'
    · exact first other member'
    · have := inside stray member
      have := inside' other member'
      omega
  ne_nil_of_reports reported := by
    rcases reported with ⟨stray, member, _⟩
    exact List.ne_nil_of_mem member

mutual

theorem Node.faults_outsideLoops (scope : List Part) (node : Node) :
    node.faults outsideLoops scope = if .loopBody ∈ scope then [] else node.strays := by
  cases node with
  | conditional offset branches closing =>
      exact Branch.faults_outsideLoops scope branches
  | loop offset opening pattern iterable guard body middle alternative closing =>
      have inside := Node.faultsAll_outsideLoops (.loopBody :: scope) body
      have otherwise := Node.faultsAll_outsideLoops (.alternative :: scope) alternative
      rw [Node.faults, Node.strays, inside, otherwise]
      simp [outsideLoops]
  | choice offset opening subject arms closing => exact Arm.faults_outsideLoops scope arms
  | macroDef offset name opening parameters body closing =>
      rw [Node.faults, Node.strays, Node.faultsAll_outsideLoops (.macroBody :: scope) body]
      simp [outsideLoops]
  | block offset opening name body closing =>
      rw [Node.faults, Node.strays, Node.faultsAll_outsideLoops (.block :: scope) body]
      simp [outsideLoops]
  | breakLoop offset edges => rfl
  | continueLoop offset edges => rfl
  | _ => simp [Node.faults, Node.strays]
termination_by structural node

theorem Node.faultsAll_outsideLoops (scope : List Part) (nodes : List Node) :
    Node.faultsAll outsideLoops scope nodes =
      if .loopBody ∈ scope then [] else Node.straysAll nodes := by
  cases nodes with
  | nil => simp [Node.faultsAll, Node.straysAll]
  | cons node nodes =>
      rw [Node.faultsAll, Node.straysAll, Node.faults_outsideLoops scope node,
        Node.faultsAll_outsideLoops scope nodes]
      split <;> rfl
termination_by structural nodes

theorem Branch.faults_outsideLoops (scope : List Part) (branches : List Branch) :
    Branch.faults outsideLoops scope branches =
      if .loopBody ∈ scope then [] else Branch.strays branches := by
  rcases branches with _ | ⟨⟨offset, edges, condition, body⟩, branches⟩
  · simp [Branch.faults, Branch.strays]
  · rw [Branch.faults, Branch.strays, Node.faultsAll_outsideLoops (.branch :: scope) body,
      Branch.faults_outsideLoops scope branches]
    by_cases inside : Part.loopBody ∈ scope <;> simp [outsideLoops, inside]
termination_by structural branches

theorem Arm.faults_outsideLoops (scope : List Part) (arms : List Arm) :
    Arm.faults outsideLoops scope arms =
      if .loopBody ∈ scope then [] else Arm.strays arms := by
  rcases arms with _ | ⟨⟨offset, edges, pattern, body⟩, arms⟩
  · simp [Arm.faults, Arm.strays]
  · rw [Arm.faults, Arm.strays, Node.faultsAll_outsideLoops (.arm :: scope) body,
      Arm.faults_outsideLoops scope arms]
    by_cases inside : Part.loopBody ∈ scope <;> simp [outsideLoops, inside]
termination_by structural arms

end

/-! ## A run outside of loops and one inside -/

namespace Scoped

variable {dialect : Dialect} {loops depth : Int}

/-- Whether the body of a loop is open differs only where none has been opened by the run
itself. -/
theorem controlled_outsideLoops (inside : 0 < loops) (scope : List Part) :
    Controlled outsideLoops scope ((⟨0, depth⟩ : Counters).within scope).inLoop
      ((⟨loops, depth⟩ : Counters).within scope).inLoop := by
  have lax : ((⟨loops, depth⟩ : Counters).within scope).inLoop = true := by
    apply decide_eq_true
    show 0 < loops + (scope.count .loopBody : Int)
    omega
  have strict : ((⟨0, depth⟩ : Counters).within scope).inLoop = decide (.loopBody ∈ scope) := by
    simp [Counters.inLoop, Counters.within]
  rw [lax, strict]
  constructor
  · intro keyword offset same _
    exact if_pos (of_decide_eq_true same)
  · intro keyword offset differ
    have outside := decide_eq_false fun member => differ (decide_eq_true member)
    refine ⟨outside, ⟨keyword, offset⟩, ?_, fun other member => ?_, rfl⟩
    · show _ ∈ if _ then _ else _
      rw [if_neg (of_decide_eq_false outside)]
      exact List.mem_singleton_self _
    · change _ ∈ if _ then _ else _ at member
      rw [if_neg (of_decide_eq_false outside)] at member
      cases List.mem_singleton.mp member
      exact Nat.le_refl _

theorem cuts_nodesWithin_outsideLoops (inside : 0 < loops) (levels : Nat) (scope : List Part) :
    Cuts outsideLoops (Node.bodyFaults outsideLoops scope) []
      (nodesWithin dialect ⟨0, depth⟩ levels scope)
      (nodesWithin dialect ⟨loops, depth⟩ levels scope) := by
  induction levels generalizing scope with
  | zero => exact fun cursor => .failed
  | succ levels induction =>
      have deep : ((⟨loops, depth⟩ : Counters).within scope).tooDeep dialect.maxDepth =
          ((⟨0, depth⟩ : Counters).within scope).tooDeep dialect.maxDepth := rfl
      have opened : Node.bodyFaults outsideLoops scope =
          List.flatMap (Node.faults outsideLoops scope) := by
        funext nodes
        rw [Node.bodyFaults, Node.faultsAll_eq]
        rfl
      rw [nodesWithin, nodesWithin, deep]
      split
      · exact fun cursor => .failed
      · rw [opened]
        exact Cuts.many (cuts_node (controlled_outsideLoops inside scope) fun part =>
          induction (part :: scope))

theorem cut_nodes [Room] (dialect : Dialect) (inside : 0 < loops) (depth : Int) (cursor : Cursor) :
    Cut outsideLoops Node.straysAll [] cursor.offset (nodes dialect ⟨0, depth⟩ cursor)
      (nodes dialect ⟨loops, depth⟩ cursor) := by
  have strays : Node.bodyFaults outsideLoops [.template] = Node.straysAll := by
    funext nodes
    rw [Node.bodyFaults, Node.faultsAll_outsideLoops]
    rfl
  rw [← strays]
  exact cuts_nodesWithin_outsideLoops inside (dialect.maxDepth + 1) [.template] cursor

end Scoped

namespace Parser

variable (dialect : Dialect)

/-- At every point of a parse the first counter tells how many bodies of loops are open, of those
that the parse has opened itself and on top of those it was begun in. So a template has nothing
that controls a loop outside of the body of a loop; and a body that is read inside of loops is
read the same outside of them if it has nothing of the kind either, while otherwise the first
such statement of the source ends the parse. -/
theorem loop_control_only_in_loop_bodies :
    (∀ (outside : Counters) (levels : Nat) (part : Part) (scope : List Part) (cursor : Cursor),
      nodesWithin dialect levels ((outside.within scope).atPart part) cursor =
        (Scoped.nodesWithin dialect outside levels (part :: scope) cursor,
          (outside.within scope).atPart part)) ∧
    (∀ (source : Source) (template : Template), Template.parse dialect source = .ok template →
      Node.straysAll template.body = []) ∧
    ∀ (loops depth : Int) (cursor later : Cursor) (body : List Node), 0 < loops →
      (nodes dialect ⟨loops, depth⟩ cursor).1 = .matched body later →
        (Node.straysAll body = [] →
          nodes dialect ⟨0, depth⟩ cursor = (.matched body later, ⟨0, depth⟩)) ∧
        (Node.straysAll body ≠ [] → ∃ failure, Stray.Reported (Node.straysAll body) failure ∧
          nodes dialect ⟨0, depth⟩ cursor = (.failed failure, ⟨0, depth⟩)) := by
  refine ⟨fun outside levels part scope cursor => ?_, fun source template parsed => ?_,
    fun loops depth cursor later body inside read => ?_⟩
  · rw [apply_eq_under (nodesWithin dialect levels), under_nodesWithin]
  · rcases (parse_eq_ok dialect).mp parsed with ⟨later, counters, read, _⟩
    have cut := Scoped.cut_nodes dialect Int.one_pos 0 (.start source.chars)
    rw [nodes_eq_scoped] at read
    rw [show Scoped.nodes dialect ⟨0, 0⟩ (.start source.chars) = .matched template.body later from
      congrArg Prod.fst read] at cut
    generalize Scoped.nodes dialect ⟨1, 0⟩ (.start source.chars) = lax at cut
    cases cut with
    | same held => exact Cut.faults_eq_nil held
  · have cut := Scoped.cut_nodes dialect inside depth cursor
    rw [nodes_eq_scoped] at read
    rw [nodes_eq_scoped]
    rw [show Scoped.nodes dialect ⟨loops, depth⟩ cursor = .matched body later from read] at cut
    generalize Scoped.nodes dialect ⟨0, depth⟩ cursor = strict at cut ⊢
    cases cut with
    | same held =>
        exact ⟨fun _ => rfl, fun some => absurd (Cut.faults_eq_nil held) some⟩
    | ended new held _ reported =>
        have held (stray : Stray) : stray ∈ Node.straysAll body ↔ stray ∈ new := by
          rw [held stray, or_iff_right List.not_mem_nil]
        rcases reported with ⟨stray, member, first, rfl⟩
        refine ⟨fun none => ?_, fun _ => ⟨_, ⟨stray, (held stray).mpr member, ?_, rfl⟩, rfl⟩⟩
        · have := (held stray).mpr member
          rw [none] at this
          cases this
        · exact fun other member' => first other ((held other).mp member')

/-- What a match has yielded. -/
def yield? {α : Type} : Outcome α → Option α
  | .matched value _ => some value
  | .noMatch | .failed _ => none

/-- Inside of a loop a conditional may hold a `break`; outside the `break` ends the parse. -/
theorem break_outside_of_loops_is_reported :
    let _ : Room := ⟨20⟩
    ∃ body later, (nodes .standard ⟨1, 0⟩
        (.start "\x7b% if a %\x7d\x7b% break %\x7d\x7b% endif %\x7d".toList)).1 =
          .matched body later ∧
      (nodes .standard ⟨0, 0⟩
        (.start "\x7b% if a %\x7d\x7b% break %\x7d\x7b% endif %\x7d".toList)).1 =
          .failed (.malformed (.loopControlOutside "break") 10) := by
  intro room
  have strays : (yield? (nodes .standard ⟨1, 0⟩
      (.start "\x7b% if a %\x7d\x7b% break %\x7d\x7b% endif %\x7d".toList)).1).map
        Node.straysAll = some [⟨.breakLoop, 10⟩] := by
    decide +kernel
  generalize read : (nodes .standard ⟨1, 0⟩ _).1 = outcome at strays
  cases outcome with
  | matched body later =>
      have found := ((loop_control_only_in_loop_bodies .standard).2.2 1 0 _ later body (by decide)
        read).2 (by simp [Option.some.inj strays])
      rcases found with ⟨failure, ⟨stray, member, _, rfl⟩, failed⟩
      rw [Option.some.inj strays] at member
      cases List.mem_singleton.mp member
      exact ⟨body, later, rfl, congrArg Prod.fst failed⟩
  | noMatch => cases strays
  | failed failure => cases strays

end Parser

end Templating

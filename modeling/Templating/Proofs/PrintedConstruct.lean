import Templating.Proofs.PrintedStatement
import Templating.Proofs.ScopeProgress

/-! # Constructs that are written

A construct is read back from how it is written if its bodies are, each in front of the tag that
ends it. -/

namespace Templating

variable {room : Room}

open Text Grammar

/-! ## Trees that are the same -/

theorem Branch.sameAll_append {first first' others others' : List Branch}
    (same : sameAll first first' = true) (same' : sameAll others others' = true) :
    sameAll (first ++ others) (first' ++ others') = true := by
  induction first generalizing first' with
  | nil =>
      cases first' with
      | nil => exact same'
      | cons => cases same
  | cons branch branches induction =>
      cases first' with
      | nil => cases same
      | cons branch' branches' =>
          rw [sameAll, Bool.and_eq_true] at same
          simp [sameAll, same.1, induction same.2]

theorem Branch.printAllOnto_append (dialect : Dialect) (branches others : List Branch)
    (rest : List Char) :
    printAllOnto dialect false (branches ++ others) rest =
      printAllOnto dialect false branches (printAllOnto dialect false others rest) := by
  induction branches with
  | nil => rfl
  | cons branch branches induction => simp [printAllOnto, induction]

/-- Perhaps the last branch has no condition. -/
theorem Branch.exists_last {branches : List Branch}
    (ordered : ∀ branch ∈ branches.dropLast, branch.condition.isSome = true) :
    ∃ (middle : List Branch) (last : Option Branch), branches = middle ++ last.toList ∧
      (∀ branch ∈ middle, branch.condition.isSome = true) ∧
        ∀ branch ∈ last, branch.condition = none := by
  rcases List.eq_nil_or_concat branches with rfl | ⟨front, final, rfl⟩
  · exact ⟨[], none, rfl, List.forall_mem_nil _, nofun⟩
  · rw [List.concat_eq_append, List.dropLast_concat] at ordered
    rw [List.concat_eq_append]
    cases shape : final.condition with
    | none =>
        refine ⟨front, some final, rfl, ordered, ?_⟩
        rintro _ ⟨⟩
        exact shape
    | some condition =>
        refine ⟨front ++ [final], none, (List.append_nil _).symm, fun branch member => ?_, nofun⟩
        rcases List.mem_append.mp member with member | member
        · exact ordered branch member
        · rw [List.mem_singleton.mp member, shape]
          rfl

namespace Scoped

variable {dialect : Dialect} {rest stop : List Char} {opened : OpenedTag} {edges : Edges}

/-! ## Tags between bodies -/

/-- A tag stands here whose word begins no statement. -/
def EndsBody (dialect : Dialect) (rest : List Char) : Prop :=
  ∃ left word behind, isName word.toList = true ∧ EndsName behind ∧ Keyword.ofWord? word = none ∧
    rest = tagHeadOnto dialect left word behind

/-- The nodes are read back as a body that such a tag ends. -/
def ReadsBody (dialect : Dialect) (body : Grammar (List Node)) (nodes : List Node) : Prop :=
  ∀ rest, EndsBody dialect rest →
    Reads body (Node.printAllOnto dialect nodes rest) (Node.sameAll nodes · = true) rest

section

variable {word : String}

theorem endsBody_closing (isName : isName word.toList = true)
    (unknown : Keyword.ofWord? word = none) :
    EndsBody dialect (tagOnto dialect edges (word.toList ++ ·) rest) :=
  ⟨edges.left, word, _, isName, endsName_cons.mpr rfl, unknown, rfl⟩

variable (isName : isName word.toList = true)

include isName

/-- A tag with nothing but its word. -/
theorem bareTag_reads (legible : dialect.Legible) :
    Reads (tag dialect [word]) (tagOnto dialect edges (word.toList ++ ·) rest)
      (·.trim = edges.left) (Trim.printOnto edges.right (dialect.blockEnd.chars ++ rest)) := by
  have reads : Reads (tag dialect [word]) (tagHeadOnto dialect edges.left word
      (tagEndOnto dialect.blockEnd edges.right rest)) (·.trim = edges.left) _ :=
    tag_reads isName (endsName_cons.mpr rfl)
  rwa [tagEndOnto, (legible.blockHalts edges.right rest).afterBlanks_space] at reads

theorem bareTag_misses {other : String} (isName' : Text.isName other.toList = true)
    (apart : word ≠ other) :
    Misses (tag dialect [other]) (tagOnto dialect edges (word.toList ++ ·) rest) :=
  tag_misses isName (endsName_cons.mpr rfl) isName' apart

theorem endTag_reads (legible : dialect.Legible) {opener : String} {start : Nat} :
    Reads (endTag dialect opener word start) (tagOnto dialect edges (word.toList ++ ·) rest)
      (· = edges.left) (Trim.printOnto edges.right (dialect.blockEnd.chars ++ rest)) := by
  refine .orElse ((bareTag_reads isName legible).bind ?_)
  intro opened trimmed
  exact .pure trimmed

theorem rejectElse_reads (apart : word ≠ "else") {problem : Problem} :
    Reads (Parser.rejectElse dialect problem) (tagOnto dialect edges (word.toList ++ ·) rest)
      (fun _ => True) (tagOnto dialect edges (word.toList ++ ·) rest) :=
  .orElse_of_misses (.pure trivial) (bareTag_misses isName (by decide) apart).bind

end

section

variable {α : Type} {next : Option Trim → List Node → Grammar α} {accept : α → Prop}
  {body : Grammar (List Node)} {nodes : List Node} (legible : dialect.Legible)

include legible

/-- The end of a tag and the body behind it. -/
theorem body_reads {right : Option Trim} (readsBody : ReadsBody dialect body nodes)
    (ends : EndsBody dialect rest)
    (goesOn : ∀ found, Node.sameAll nodes found = true → Reads (next right found) rest accept stop) :
    Reads (tagRest dialect >>= fun right => body >>= next right)
      (Trim.printOnto right (dialect.blockEnd.chars ++ Node.printAllOnto dialect nodes rest)) accept
      stop := by
  apply (tagRest_reads legible).bind
  rintro _ rfl
  exact (readsBody rest ends).bind goesOn

end

/-- Behind the word of an end tag no name is written. -/
theorem noName_reads (halts : Halts stop) :
    Reads (optional nameToken) stop (fun _ => True) stop := by
  have missed : Misses nameToken stop := by
    apply nameToken_misses
    rw [afterBlanks_of_solid halts.solid]
    exact halts.noName
  exact missed.optional.mono fun _ _ => trivial

/-! ## Conditionals -/

section

variable (legible : dialect.Legible) {body : Grammar (List Node)}

theorem elseIf_eq (offset : Nat) (edges : Edges) (condition : Condition) (nodes : List Node)
    (rest : List Char) :
    Branch.printOnto dialect false ⟨offset, edges, some condition, nodes⟩ rest =
      tagHeadOnto dialect edges.left "else" (' ' :: ("if".toList ++ (' ' :: condition.printOnto
        (tagEndOnto dialect.blockEnd edges.right (Node.printAllOnto dialect nodes rest))))) := rfl

theorem endsBody_branches {branches : List Branch} (ends : EndsBody dialect rest) :
    EndsBody dialect (Branch.printAllOnto dialect false branches rest) := by
  cases branches with
  | nil => exact ends
  | cons branch branches =>
      rcases branch with ⟨offset, edges, condition, nodes⟩
      cases condition with
      | none => exact ⟨edges.left, "else", _, by decide, endsName_cons.mpr rfl, by decide, rfl⟩
      | some condition =>
          rw [Branch.printAllOnto, elseIf_eq]
          exact ⟨edges.left, "else", _, by decide, endsName_cons.mpr rfl, by decide, rfl⟩

include legible

theorem elseIfBranch_reads {branch : Branch} (conditional : branch.condition.isSome = true)
    (regular : ∀ condition ∈ branch.condition, condition.Regular)
    (readsBody : ReadsBody dialect body branch.body) (ends : EndsBody dialect rest) :
    Reads (elseIfBranch dialect body) (branch.printOnto dialect false rest)
      (branch.same · = true) rest := by
  rcases branch with ⟨offset, edges, _ | condition, nodes⟩
  · cases conditional
  have regular := regular condition rfl
  have word : WordAt "if" ("if".toList ++ (' ' :: condition.printOnto
      (tagEndOnto dialect.blockEnd edges.right (Node.printAllOnto dialect nodes rest)))) _ :=
    ⟨rfl, endsName_cons.mpr rfl⟩
  rw [elseIf_eq]
  apply (tag_reads (by decide) (endsName_cons.mpr rfl)).bind
  intro opened trimmed
  rw [(gap_space _).afterBlanks_eq (by rintro _ ⟨⟩; rfl)]
  apply (keyword_reads (.refl _) (by rintro _ ⟨⟩; rfl) word (gap_space _)
    (condition_solid regular _)).bind
  intro _ _
  apply (condition_reads_regular regular (legible.blockHalts edges.right _)).bind
  intro found agrees
  refine body_reads legible readsBody ends ?_
  intro nodes' agree
  exact .pure (by simp [Branch.same, Condition.sameOption, trimmed, agrees, agree])

theorem elseBranch_reads {branch : Branch} (last : branch.condition = none)
    (readsBody : ReadsBody dialect body branch.body) (ends : EndsBody dialect rest) :
    Reads (elseBranch dialect body) (branch.printOnto dialect false rest)
      (branch.same · = true) rest := by
  rcases branch with ⟨offset, edges, condition, nodes⟩
  cases last
  apply (bareTag_reads (by decide) legible).bind
  intro opened trimmed
  refine body_reads legible readsBody ends ?_
  intro nodes' agree
  exact .pure (by simp [Branch.same, Condition.sameOption, trimmed, agree])

theorem elseIfBranch_misses {branch : Branch} (last : branch.condition = none) :
    Misses (elseIfBranch dialect body) (branch.printOnto dialect false rest) := by
  rcases branch with ⟨offset, edges, condition, nodes⟩
  cases last
  have halts := legible.blockHalts edges.right (Node.printAllOnto dialect nodes rest)
  apply (bareTag_reads (by decide) legible).bind_misses
  intro opened _
  apply Misses.bind
  apply keyword_misses_of_head (by decide)
  rw [afterBlanks_of_solid halts.solid]
  rintro first atHead ⟨⟩
  exact halts.not_mem_head rfl atHead

theorem elseIfBranches_read {branches : List Branch}
    (conditional : ∀ branch ∈ branches, branch.condition.isSome = true)
    (regular : ∀ branch ∈ branches, (∀ condition ∈ branch.condition, condition.Regular) ∧
      ReadsBody dialect body branch.body) (ends : EndsBody dialect rest) :
    ReadsEach (elseIfBranch dialect body) (Branch.printAllOnto dialect false branches rest)
      (Branch.sameAll branches · = true) rest := by
  induction branches with
  | nil => exact .nil rfl
  | cons branch branches induction =>
      rw [List.forall_mem_cons] at conditional regular
      refine .cons (elseIfBranch_reads legible conditional.1 regular.1.1 regular.1.2
        (endsBody_branches ends)) (induction conditional.2 regular.2) ?_
      intro found others agrees agree
      simp [Branch.sameAll, agrees, agree]

theorem lastBranch_reads {last : Option Branch} {closing : Edges}
    (final : ∀ branch ∈ last, branch.condition = none)
    (readsBody : ∀ branch ∈ last, ReadsBody dialect body branch.body) :
    Misses (elseIfBranch dialect body) (Branch.printAllOnto dialect false last.toList
        (tagOnto dialect closing ("endif".toList ++ ·) rest)) ∧
      Reads (optional (elseBranch dialect body)) (Branch.printAllOnto dialect false last.toList
          (tagOnto dialect closing ("endif".toList ++ ·) rest))
        (fun found => Branch.sameAll last.toList found.toList = true)
        (tagOnto dialect closing ("endif".toList ++ ·) rest) := by
  have missed : Misses (tag dialect ["else"]) (tagOnto dialect closing ("endif".toList ++ ·) rest) :=
    bareTag_misses (by decide) (by decide) (by decide)
  cases last with
  | none =>
      refine ⟨missed.bind, missed.bind.optional.mono ?_⟩
      rintro _ rfl
      rfl
  | some last =>
      have ends : EndsBody dialect (tagOnto dialect closing ("endif".toList ++ ·) rest) :=
        endsBody_closing (by decide) (by decide)
      have read := elseBranch_reads legible (final last rfl) (readsBody last rfl) ends
      refine ⟨elseIfBranch_misses legible (final last rfl), read.optional.mono ?_⟩
      rintro _ ⟨found, rfl, agrees⟩
      simp [Branch.sameAll, agrees]

theorem conditional_reads [Advancing body] {offset first : Nat} {condition : Condition}
    {nodes : List Node} {others : List Branch} {closing : Edges} (trimmed : opened.trim = edges.left)
    (regular : condition.Regular) (readsBody : ReadsBody dialect body nodes)
    (ordered : ∀ branch ∈ others.dropLast, branch.condition.isSome = true)
    (regular' : ∀ branch ∈ others, (∀ condition ∈ branch.condition, condition.Regular) ∧
      ReadsBody dialect body branch.body) :
    Reads (conditional dialect body opened)
      (condition.printOnto (tagEndOnto dialect.blockEnd edges.right (Node.printAllOnto dialect nodes
        (Branch.printAllOnto dialect false others
          (tagOnto dialect closing ("endif".toList ++ ·) rest)))))
      ((Node.conditional offset (⟨first, edges, some condition, nodes⟩ :: others) closing).same
        · = true) (dialect.blockEnd.chars ++ rest) := by
  have ends : EndsBody dialect (tagOnto dialect closing ("endif".toList ++ ·) rest) :=
    endsBody_closing (by decide) (by decide)
  rcases Branch.exists_last ordered with ⟨middle, last, rfl, conditional, final⟩
  rw [List.forall_mem_append] at regular'
  have readsLast : ∀ branch ∈ last, ReadsBody dialect body branch.body := fun branch among =>
    (regular'.2 branch (Option.mem_toList.mpr among)).2
  rcases lastBranch_reads legible final readsLast with ⟨stopped, lastRead⟩
  apply (condition_reads_regular regular (legible.blockHalts edges.right _)).bind
  intro found agrees
  refine body_reads legible readsBody (endsBody_branches ends) ?_
  intro nodes' agree
  rw [Branch.printAllOnto_append]
  apply ((elseIfBranches_read legible conditional regular'.1 (endsBody_branches ends)).stop
    stopped).bind
  intro others' agreeOthers
  apply lastRead.bind
  intro last' agreeLast
  apply (rejectElse_reads (by decide) (by decide)).bind
  intro _ _
  apply (endTag_reads (by decide) legible).bind
  rintro _ rfl
  apply (edge_reads_delimiter legible.blockEnd).bind
  rintro _ rfl
  refine .pure ?_
  simp [Node.same, Branch.sameAll, Branch.same, Condition.sameOption, trimmed, agrees, agree,
    Branch.sameAll_append agreeOthers agreeLast]

end

/-! ## Loops -/

/-- The expression that a loop goes through, and its guard. Where an expression could stand behind
the first, the guard would be taken for it. -/
theorem guarded_reads {iterable : Expr} {guard : Option Expr} (regular : iterable.Regular)
    (regular' : ∀ condition ∈ guard, condition.Regular ∧ 0 < iterable.rank) (halts : Halts stop) :
    ∃ middle, Reads Grammar.expression (iterable.printOnto (guardOnto guard (' ' :: stop)))
        (iterable.same · = true) middle ∧
      Reads (optional Scoped.guard) middle (Expr.sameOption guard · = true) stop := by
  cases guard with
  | none =>
      refine ⟨stop, expression_reads_regular regular (.refl _) halts, ?_⟩
      have missed : Misses Scoped.guard stop := by
        apply Misses.bind
        apply keyword_misses_of_head (by decide)
        rw [afterBlanks_of_solid halts.solid]
        rintro first atHead ⟨⟩
        exact halts.not_mem_head rfl atHead
      refine missed.optional.mono ?_
      rintro _ rfl
      rfl
  | some guard =>
      rcases regular' guard rfl with ⟨regular', closed⟩
      have stops : Stops 1 (' ' :: ("if".toList ++ (' ' :: guard.printOnto (' ' :: stop)))) := by
        apply stops_of_head
        rw [(gap_space _).afterBlanks_eq (by rintro _ ⟨⟩; rfl)]
        rintro _ ⟨⟩
        rfl
      have reads := expression_reads regular.wellFormed regular.nesting (.refl _)
        (Expr.spelled_printOnto regular.wellFormed parted_space) (stops.mono (by omega))
      rw [(gap_space _).afterBlanks_eq (by rintro _ ⟨⟩; rfl)] at reads
      have word : WordAt "if" ("if".toList ++ (' ' :: guard.printOnto (' ' :: stop))) _ :=
        ⟨rfl, endsName_cons.mpr rfl⟩
      have guarded : Reads Scoped.guard _ (guard.same · = true) stop :=
        (keyword_reads (.refl _) (by rintro _ ⟨⟩; rfl) word (gap_space _)
          (expression_solid regular' _)).bind fun _ _ =>
            (expression_reads_regular regular' (.refl _) halts).expect
      refine ⟨_, reads, guarded.optional.mono ?_⟩
      rintro _ ⟨found, rfl, agrees⟩
      exact agrees

/-- What stands behind the body of a loop. -/
def loopEndOnto (dialect : Dialect) (middle : Edges) (others : List Node) (closing : Edges)
    (rest : List Char) : List Char :=
  if endsPlainly middle others closing then
    tagOnto dialect ⟨middle.left, closing.right⟩ ("endfor".toList ++ ·) rest
  else
    tagOnto dialect middle ("else".toList ++ ·) (Node.printAllOnto dialect others
      (tagOnto dialect closing ("endfor".toList ++ ·) rest))

section

variable {body alternative : Grammar (List Node)} {offset : Nat} {middle closing : Edges}
  {nodes others : List Node}

theorem endsBody_loopEndOnto : EndsBody dialect (loopEndOnto dialect middle others closing rest) := by
  unfold loopEndOnto
  split
  · exact endsBody_closing (by decide) (by decide)
  · exact endsBody_closing (by decide) (by decide)

variable (legible : dialect.Legible)

include legible

theorem loopRest_reads (readsBody : ReadsBody dialect alternative others) :
    Reads (loopRest dialect opened alternative) (loopEndOnto dialect middle others closing rest)
      (fun found => found.1 = middle ∧ Node.sameAll others found.2.1 = true ∧ found.2.2 = closing)
      (dialect.blockEnd.chars ++ rest) := by
  unfold loopEndOnto
  split
  case isTrue plainly =>
      simp only [endsPlainly, Bool.and_eq_true, List.isEmpty_iff, Option.isNone_iff_eq_none]
        at plainly
      rcases plainly with ⟨⟨rfl, noRight⟩, noLeft⟩
      refine .orElse ((bareTag_reads (by decide) legible).bind ?_)
      intro found trimmed
      apply (edge_reads_delimiter legible.blockEnd).bind
      rintro _ rfl
      refine .pure ⟨?_, rfl, ?_⟩
      · rw [trimmed, ← noRight]
      · rw [← noLeft]
  case isFalse =>
      refine .orElse_of_misses (.orElse ?_) (bareTag_misses (by decide) (by decide) (by decide)).bind
      apply (bareTag_reads (by decide) legible).bind
      intro found trimmed
      refine body_reads legible readsBody (endsBody_closing (by decide) (by decide)) ?_
      intro others' agree
      apply (endTag_reads (by decide) legible).bind
      rintro _ rfl
      apply (edge_reads_delimiter legible.blockEnd).bind
      rintro _ rfl
      exact .pure ⟨by rw [trimmed], agree, rfl⟩

theorem loop_reads {pattern : Pattern} {iterable : Expr} {guard : Option Expr}
    (trimmed : opened.trim = edges.left) (regularPattern : pattern.Regular)
    (regular : iterable.Regular)
    (regular' : ∀ condition ∈ guard, condition.Regular ∧ 0 < iterable.rank)
    (readsBody : ReadsBody dialect body nodes) (readsBody' : ReadsBody dialect alternative others) :
    Reads (loop dialect body opened alternative)
      (loopOnto pattern iterable guard (tagEndOnto dialect.blockEnd edges.right
        (Node.printAllOnto dialect nodes (loopEndOnto dialect middle others closing rest))))
      ((Node.loop offset edges pattern iterable guard nodes middle others closing).same · = true)
      (dialect.blockEnd.chars ++ rest) := by
  rcases guarded_reads regular regular' (legible.blockHalts edges.right (Node.printAllOnto dialect
    nodes (loopEndOnto dialect middle others closing rest))) with ⟨between, reads, guarded⟩
  have iterable_solid : Solid (iterable.printOnto (guardOnto guard (tagEndOnto dialect.blockEnd
      edges.right (Node.printAllOnto dialect nodes
        (loopEndOnto dialect middle others closing rest))))) := by
    cases guard <;> exact expression_solid regular _
  have read : Reads Grammar.pattern (loopOnto pattern iterable guard (tagEndOnto dialect.blockEnd
      edges.right (Node.printAllOnto dialect nodes
        (loopEndOnto dialect middle others closing rest)))) (pattern.same · = true) _ :=
    pattern_reads_regular regularPattern (by rintro _ ⟨⟩; rfl)
  rw [(gap_space _).afterBlanks_eq (by rintro _ ⟨⟩; rfl)] at read
  apply read.expect.bind
  intro found agrees
  apply (keyword_reads (.refl _) (by rintro _ ⟨⟩; rfl) ⟨rfl, endsName_cons.mpr rfl⟩ (gap_space _)
    iterable_solid).expect.bind
  intro _ _
  apply reads.expect.bind
  intro iterable' agrees'
  apply guarded.bind
  intro guard' agreesGuard
  refine body_reads legible readsBody endsBody_loopEndOnto ?_
  intro nodes' agree
  apply (loopRest_reads legible readsBody').bind
  rintro ⟨middle', others', closing'⟩ ⟨rfl, agree', rfl⟩
  exact .pure (by simp [Node.same, trimmed, agrees, agrees', agreesGuard, agree, agree'])

end

/-! ## Choices -/

theorem whenArm_eq (offset : Nat) (edges : Edges) (pattern : Pattern) (nodes : List Node)
    (rest : List Char) :
    Arm.printOnto dialect ⟨offset, edges, pattern, nodes⟩ rest =
      tagHeadOnto dialect edges.left "when" (' ' :: pattern.printOnto
        (tagEndOnto dialect.blockEnd edges.right (Node.printAllOnto dialect nodes rest))) := rfl

theorem endsBody_arms {arms : List Arm} (ends : EndsBody dialect rest) :
    EndsBody dialect (Arm.printAllOnto dialect arms rest) := by
  cases arms with
  | nil => exact ends
  | cons arm arms =>
      rcases arm with ⟨offset, edges, pattern, nodes⟩
      rw [Arm.printAllOnto, whenArm_eq]
      exact ⟨edges.left, "when", _, by decide, endsName_cons.mpr rfl, by decide, rfl⟩

/-- No comment stands where a body ends. -/
theorem skipComments_reads (ends : EndsBody dialect rest) :
    Reads (skipComments dialect) rest (fun _ => True) rest := by
  rcases ends with ⟨left, word, behind, _, _, _, rfl⟩
  have stopped : Misses (comment dialect >>= fun _ => spaces) (tagHeadOnto dialect left word behind) :=
    (comment_misses dialect.block_apart_comment).bind
  have none : ReadsEach (comment dialect >>= fun _ => spaces) (tagHeadOnto dialect left word behind)
      (fun _ => True) _ := .nil trivial
  apply (spaces_reads (.refl _) (solid_delimiter _ _)).bind
  intro _ _
  apply (none.stop stopped).bind
  intro _ _
  exact .pure trivial

section

variable (legible : dialect.Legible) {body : Grammar (List Node)}

include legible

theorem whenArm_reads {arm : Arm} (regular : arm.pattern.Regular)
    (readsBody : ReadsBody dialect body arm.body) (ends : EndsBody dialect rest) :
    Reads (whenArm dialect body) (arm.printOnto dialect rest) (arm.same · = true) rest := by
  rcases arm with ⟨offset, edges, pattern, nodes⟩
  have regular : pattern.Regular := regular
  have halts := legible.blockHalts edges.right (Node.printAllOnto dialect nodes rest)
  have read := pattern_reads_regular regular halts.endsPattern
  rw [halts.afterBlanks_space] at read
  have solid : Solid (pattern.printOnto (tagEndOnto dialect.blockEnd edges.right
      (Node.printAllOnto dialect nodes rest))) := pattern_solid regular _
  rw [whenArm_eq]
  apply (tag_reads (by decide) (endsName_cons.mpr rfl)).bind
  intro opened trimmed
  rw [(gap_space _).afterBlanks_eq solid]
  apply read.expect.bind
  intro found agrees
  refine body_reads legible readsBody ends ?_
  intro nodes' agree
  exact .pure (by simp [Arm.same, trimmed, agrees, agree])

theorem whenArms_read {arms : List Arm}
    (regular : ∀ arm ∈ arms, arm.pattern.Regular ∧ ReadsBody dialect body arm.body)
    (ends : EndsBody dialect rest) :
    ReadsEach (whenArm dialect body) (Arm.printAllOnto dialect arms rest)
      (Arm.sameAll arms · = true) rest := by
  induction arms with
  | nil => exact .nil rfl
  | cons arm arms induction =>
      rw [List.forall_mem_cons] at regular
      refine .cons (whenArm_reads legible regular.1.1 regular.1.2 (endsBody_arms ends))
        (induction regular.2) ?_
      intro found others agrees agree
      simp [Arm.sameAll, agrees, agree]

theorem choice_reads [Advancing body] {offset : Nat} {subject : Expr} {arms : List Arm}
    {closing : Edges} (trimmed : opened.trim = edges.left) (regular : subject.Regular)
    (nonempty : arms ≠ [])
    (regular' : ∀ arm ∈ arms, arm.pattern.Regular ∧ ReadsBody dialect body arm.body) :
    Reads (choice dialect body opened)
      (subject.printOnto (tagEndOnto dialect.blockEnd edges.right (Arm.printAllOnto dialect arms
        (tagOnto dialect closing ("endmatch".toList ++ ·) rest))))
      ((Node.choice offset edges subject arms closing).same · = true)
      (dialect.blockEnd.chars ++ rest) := by
  have ends : EndsBody dialect (tagOnto dialect closing ("endmatch".toList ++ ·) rest) :=
    endsBody_closing (by decide) (by decide)
  have stopped : Misses (whenArm dialect body)
      (tagOnto dialect closing ("endmatch".toList ++ ·) rest) :=
    (bareTag_misses (by decide) (by decide) (by decide)).bind
  have noElse : Misses (elseArm dialect body)
      (tagOnto dialect closing ("endmatch".toList ++ ·) rest) :=
    (bareTag_misses (by decide) (by decide) (by decide)).bind
  apply (expression_reads_regular regular (.refl _) (legible.blockHalts edges.right _)).expect.bind
  intro found agrees
  apply (tagRest_reads legible).bind
  rintro _ rfl
  apply (skipComments_reads (endsBody_arms ends)).bind
  intro _ _
  apply ((whenArms_read legible regular' ends).stop stopped).bind
  intro arms' agree
  apply noElse.optional.bind
  rintro _ rfl
  have noLater : Reads (laterArms dialect body none)
      (tagOnto dialect closing ("endmatch".toList ++ ·) rest) (· = []) _ := .pure rfl
  apply noLater.bind
  rintro _ rfl
  apply (rejectElse_reads (by decide) (by decide)).bind
  intro _ _
  have required : Parser.requireArm (arms' ++ []) = pure () := by
    cases arms' with
    | nil =>
        cases arms with
        | nil => exact absurd rfl nonempty
        | cons => cases agree
    | cons => rfl
  rw [required]
  apply (Reads.pure trivial : Reads (pure ()) _ (fun _ => True) _).bind
  intro _ _
  apply (endTag_reads (by decide) legible).bind
  rintro _ rfl
  apply (edge_reads_delimiter legible.blockEnd).bind
  rintro _ rfl
  exact .pure (by simp [Node.same, trimmed, agrees, agree])

/-! ## Blocks and macros -/

theorem block_reads {offset : Nat} {name : String} {nodes : List Node} {closing : Edges}
    (trimmed : opened.trim = edges.left) (isName : isName name.toList = true)
    (readsBody : ReadsBody dialect body nodes) :
    Reads (block dialect body opened)
      (name.toList ++ tagEndOnto dialect.blockEnd edges.right (Node.printAllOnto dialect nodes
        (tagOnto dialect closing ("endblock".toList ++ ·) rest)))
      ((Node.block offset edges name nodes closing).same · = true)
      (dialect.blockEnd.chars ++ rest) := by
  have read : Reads nameToken (name.toList ++ tagEndOnto dialect.blockEnd edges.right
      (Node.printAllOnto dialect nodes (tagOnto dialect closing ("endblock".toList ++ ·) rest)))
      (· = name) _ := name_reads_solid isName (endsName_cons.mpr rfl)
  rw [tagEndOnto, (legible.blockHalts _ _).afterBlanks_space] at read
  apply read.expect.bind
  rintro _ rfl
  refine body_reads legible readsBody (endsBody_closing (by decide) (by decide)) ?_
  intro nodes' agree
  apply (endTag_reads (by decide) legible).bind
  rintro _ rfl
  apply (noName_reads (legible.blockHalts closing.right rest)).bind
  intro _ _
  apply (edge_reads_delimiter legible.blockEnd).bind
  rintro _ rfl
  exact .pure (by simp [Node.same, trimmed, agree])

theorem macroDef_reads {offset : Nat} {name : String} {parameters : List String} {nodes : List Node}
    {closing : Edges} (trimmed : opened.trim = edges.left) (isName : isName name.toList = true)
    (free : Parser.reservedMacroNames.contains name = false)
    (areNames : ∀ parameter ∈ parameters, Text.isName parameter.toList = true)
    (readsBody : ReadsBody dialect body nodes) :
    Reads (macroDef dialect body opened)
      (name.toList ++ parametersOnto parameters (tagEndOnto dialect.blockEnd edges.right
        (Node.printAllOnto dialect nodes (tagOnto dialect closing ("endmacro".toList ++ ·) rest))))
      ((Node.macroDef offset name edges parameters nodes closing).same · = true)
      (dialect.blockEnd.chars ++ rest) := by
  have ends (stop : List Char) : EndsName (parametersOnto parameters (' ' :: stop)) := by
    cases parameters <;> exact endsName_cons.mpr rfl
  apply (spaces_reads (.refl _) (word_solid isName (ends _))).bind
  intro _ _
  apply Reads.here.bind
  intro nameOffset _
  apply (name_reads_solid isName (ends _)).expect.bind
  intro found same
  rw [same]
  have checked : Parser.checkMacroName name nameOffset = pure () := by
    rw [Parser.checkMacroName, free]
    rfl
  rw [checked]
  apply (Reads.pure trivial : Reads (pure ()) _ (fun _ => True) _).bind
  intro _ _
  apply (parameters_reads areNames (legible.blockHalts edges.right _)).bind
  intro parameters' agreeParameters
  refine body_reads legible readsBody (endsBody_closing (by decide) (by decide)) ?_
  intro nodes' agree
  apply (endTag_reads (by decide) legible).bind
  rintro _ rfl
  apply (noName_reads (legible.blockHalts closing.right rest)).bind
  intro _ _
  apply (edge_reads_delimiter legible.blockEnd).bind
  rintro _ rfl
  exact .pure (by simp [Node.same, trimmed, agree, agreeParameters])

end

/-! ## Loop control -/

theorem loopControl_reads (legible : dialect.Legible) {keyword : Keyword}
    {node : Nat → Edges → Node} (trimmed : opened.trim = edges.left) :
    Reads (loopControl opened true keyword node) (Trim.printOnto edges.right
        (dialect.blockEnd.chars ++ rest))
      (fun found => ∃ offset, found = node offset edges) (dialect.blockEnd.chars ++ rest) := by
  apply (edge_reads_delimiter legible.blockEnd).bind
  rintro _ rfl
  exact .pure ⟨opened.offset, by rw [trimmed]⟩

end Scoped

end Templating

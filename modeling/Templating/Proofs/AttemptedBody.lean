import Templating.Proofs.AttemptedTag

/-! # Bodies that are attempted

Constructs and bodies as they are run with one cursor: a loop over the nodes of a body, one over
the branches of a conditional, one over the arms of a choice. Only the beginning of a node is given
back. -/

namespace Templating.Attempt

variable {room : Room}

open Grammar (Consuming Advancing Certain nameToken keyword here spaces edge tagRest)

/-! ## Constructs -/

section

variable (dialect : Dialect) (body : Attempt (List Node)) (opened : OpenedTag)

/-- The branches of a conditional, and whether the last of them has a condition, so that others may
follow. -/
structure BranchState where
  branches : List Branch
  goesOn : Bool

/-- What stands behind the words of a branch with a condition. -/
def conditionedBranch [Room] : Attempt Branch := do
  let condition ← condition
  let right ← scan (tagRest dialect)
  return ⟨opened.offset, ⟨opened.trim, right⟩, some condition, ← body⟩

def lastBranch : Attempt Branch := do
  let right ← scan (tagRest dialect)
  return ⟨opened.offset, ⟨opened.trim, right⟩, none, ← body⟩

/-- Another branch. Behind the one without a condition there may be none. -/
def branchTurn [Room] (state : BranchState) : Attempt (Turn BranchState (List Branch)) :=
  branch (tag dialect ["else"])
    (fun opened =>
      if state.goesOn then
        branch (scan (keyword "if"))
          (fun _ => do
            return .again ⟨state.branches ++ [← conditionedBranch dialect body opened], true⟩)
          (do return .again ⟨state.branches ++ [← lastBranch dialect body opened], false⟩)
      else
        scan (Grammar.failAt .elseNotLast opened.offset))
    (return .done state.branches)

def conditional [Room] : Attempt Node := do
  let condition ← condition
  let right ← scan (tagRest dialect)
  let first ← body
  let branches ← loop (branchTurn dialect body)
    ⟨[⟨opened.offset, ⟨opened.trim, right⟩, some condition, first⟩], true⟩
  let closingLeft ← endTag dialect "if" "endif" opened.offset
  let closingRight ← scan edge
  return .conditional opened.offset branches ⟨closingLeft, closingRight⟩

def loopRest (alternative : Attempt (List Node)) : Attempt (Edges × List Node × Edges) :=
  branch (tag dialect ["else", "endfor"])
    (fun middle =>
      if middle.word = "else" then do
        let right ← scan (tagRest dialect)
        let alternative ← alternative
        let closingLeft ← endTag dialect "for" "endfor" opened.offset
        return (⟨middle.trim, right⟩, alternative, ⟨closingLeft, ← scan edge⟩)
      else
        return (⟨middle.trim, none⟩, [], ⟨none, ← scan edge⟩))
    (scan (Grammar.missingEndTag dialect "for" "endfor" opened.offset))

def forLoop [Room] (alternative : Attempt (List Node)) : Attempt Node := do
  let pattern ← expect pattern (.missingPattern .loopVariable)
  let _ ← expect (scan (keyword "in")) (.missingWord "in")
  let iterable ← expect expression (.missingExpr .iterable)
  let guard ← optional do
    let _ ← scan (keyword "if")
    expect expression (.missingExpr .condition)
  let right ← scan (tagRest dialect)
  let nodes ← body
  let rest ← loopRest dialect opened alternative
  return .loop opened.offset ⟨opened.trim, right⟩ pattern iterable guard nodes rest.1 rest.2.1
    rest.2.2

/-- The arms of a choice, and the one that is taken when no other is. -/
structure ArmState where
  arms : List Arm
  otherwise : Option Arm

def patternArm [Room] : Attempt Arm := do
  let pattern ← expect pattern (.missingPattern .arm)
  let right ← scan (tagRest dialect)
  return ⟨opened.offset, ⟨opened.trim, right⟩, pattern, ← body⟩

def lastArm : Attempt Arm := do
  let right ← scan (tagRest dialect)
  return ⟨opened.offset, ⟨opened.trim, right⟩, .name opened.offset "_", ← body⟩

/-- Another arm. There may be one only that is taken when no other is. -/
def armTurn [Room] (state : ArmState) : Attempt (Turn ArmState ArmState) :=
  branch (tag dialect ["when", "else"])
    (fun opened =>
      if opened.word = "when" then do
        return .again ⟨state.arms ++ [← patternArm dialect body opened], state.otherwise⟩
      else if state.otherwise.isSome then
        scan (Grammar.failAt .secondElse opened.offset)
      else do
        return .again ⟨state.arms, some (← lastArm dialect body opened)⟩)
    (return .done state)

def choice [Room] : Attempt Node := do
  let subject ← expect expression (.missingExpr .subject)
  let right ← scan (tagRest dialect)
  skipComments dialect
  let state ← loop (armTurn dialect body) ⟨[], none⟩
  scan (Parser.requireArm state.arms)
  let closingLeft ← endTag dialect "match" "endmatch" opened.offset
  let closingRight ← scan edge
  return .choice opened.offset ⟨opened.trim, right⟩ subject
    (state.arms ++ state.otherwise.toList) ⟨closingLeft, closingRight⟩

def block : Attempt Node := do
  let name ← expect (scan nameToken) (.missingName .block)
  let right ← scan (tagRest dialect)
  let nodes ← body
  let closingLeft ← endTag dialect "block" "endblock" opened.offset
  let _ ← optional (scan nameToken)
  let closingRight ← scan edge
  return .block opened.offset ⟨opened.trim, right⟩ name nodes ⟨closingLeft, closingRight⟩

def macroDef : Attempt Node := do
  scan spaces
  let nameOffset ← scan here
  let name ← expect (scan nameToken) (.missingName .macroDef)
  scan (Parser.checkMacroName name nameOffset)
  let parameters ← optional (scan Grammar.parameters)
  let right ← scan (tagRest dialect)
  let nodes ← body
  let closingLeft ← endTag dialect "macro" "endmacro" opened.offset
  let _ ← optional (scan nameToken)
  let closingRight ← scan edge
  return .macroDef opened.offset name ⟨opened.trim, right⟩ (parameters.getD []) nodes
    ⟨closingLeft, closingRight⟩

end

/-! ## Statements and bodies -/

section

variable (dialect : Dialect) (inLoop : Bool) (bodies : Part → Attempt (List Node))

def statementRest [Room] (opened : OpenedTag) : Keyword → Attempt Node
  | .call => macroCall opened
  | .letBinding | .setBinding => assignment opened
  | .conditional => conditional dialect (bodies .branch) opened
  | .loop => forLoop dialect (bodies .loopBody) opened (bodies .alternative)
  | .choice => choice dialect (bodies .arm) opened
  | .extendTemplate => scan (Grammar.extension opened)
  | .includeTemplate => scan (Grammar.inclusion opened)
  | .importMacros => scan (Grammar.importation opened)
  | .block => block dialect (bodies .block) opened
  | .macroDef => macroDef dialect (bodies .macroBody) opened
  | .raw => scan (Grammar.raw dialect opened)
  | .breakLoop => scan (Scoped.loopControl opened inLoop .breakLoop .breakLoop)
  | .continueLoop => scan (Scoped.loopControl opened inLoop .continueLoop .continueLoop)

def statement [Room] : Attempt Node := do
  let start ← statementStart dialect
  let node ← statementRest dialect inLoop bodies start.1 start.2
  scan (Grammar.tagEnd dialect)
  return node

def nodeTurn [Room] (nodes : List Node) : Attempt (Turn (List Node) (List Node)) :=
  branch (text dialect <|> comment dialect <|> output dialect <|> statement dialect inLoop bodies)
    (fun node => return .again (nodes ++ [node])) (return .done nodes)

end

/-- A body, where these bodies are open and the first of them is the body itself. -/
def nodesWithin [Room] (dialect : Dialect) (outside : Counters) :
    (levels : Nat) → (scope : List Part) → Attempt (List Node)
  | 0, _ => failWith (.nestingLimit dialect.maxDepth)
  | levels + 1, scope =>
      if (outside.within scope).tooDeep dialect.maxDepth then
        failWith (.nestingLimit dialect.maxDepth)
      else
        loop (nodeTurn dialect (outside.within scope).inLoop fun part =>
          nodesWithin dialect outside levels (part :: scope)) []

/-- A whole source. -/
def document [Room] (dialect : Dialect) : Attempt (List Node) := do
  let body ← nodesWithin dialect .zero (dialect.maxDepth + 1) [.template]
  scan (Grammar.endOfSource dialect)
  return body

/-! ## What they come to -/

section

variable (dialect : Dialect) {body : Attempt (List Node)} {body' : Grammar (List Node)}
  [Advancing body'] [Certain body'] (keeps : body.Keeps body') (opened : OpenedTag)

/-! ### Conditionals -/

/-- The branches behind those that have been read. -/
def furtherBranches [Room] (body' : Grammar (List Node)) (state : BranchState) : Grammar (List Branch) :=
  if state.goesOn then do
    let others ← Grammar.many (Scoped.elseIfBranch dialect body')
    let last ← Grammar.optional (Scoped.elseBranch dialect body')
    Parser.rejectElse dialect .elseNotLast
    return state.branches ++ others ++ last.toList
  else do
    Parser.rejectElse dialect .elseNotLast
    return state.branches

omit [Advancing body'] [Certain body'] in
theorem conditional_eq_furtherBranches : Scoped.conditional dialect body' opened = (do
    let condition ← Grammar.condition
    let right ← tagRest dialect
    let first ← body'
    let branches ← furtherBranches dialect body'
      ⟨[⟨opened.offset, ⟨opened.trim, right⟩, some condition, first⟩], true⟩
    let closingLeft ← Grammar.endTag dialect "if" "endif" opened.offset
    let closingRight ← edge
    return .conditional opened.offset branches ⟨closingLeft, closingRight⟩) := by
  simp only [Scoped.conditional, furtherBranches, if_pos, bind_assoc, pure_bind, List.singleton_append]

instance (state : BranchState) : Certain (furtherBranches dialect body' state) := by
  unfold furtherBranches
  infer_instance

omit [Advancing body'] [Certain body'] in
theorem elseIfBranch_ends (offset : Nat) :
    Scoped.elseIfBranch dialect body' ⟨offset, []⟩ = .noMatch :=
  Grammar.bind_of_noMatch (tag_ends _ offset)

section

variable {dialect} {state : BranchState} {opened : OpenedTag} {cursor later last : Cursor}

omit [Advancing body'] [Certain body']

theorem rejectElse_of_noTag {problem : Problem}
    (missed : Grammar.tag dialect ["else"] cursor = .noMatch) :
    Parser.rejectElse dialect problem cursor = .matched () cursor :=
  (Parser.rejectElse_eq_matched dialect).mpr ⟨missed, rfl⟩

theorem rejectElse_of_tag {problem : Problem}
    (found : Grammar.tag dialect ["else"] cursor = .matched opened later) :
    Parser.rejectElse dialect problem cursor = .failed (.malformed problem opened.offset) :=
  Grammar.orElse_of_failed (Grammar.bind_of_matched found)

theorem furtherBranches_of_noTag [Advancing body']
    (missed : Grammar.tag dialect ["else"] cursor = .noMatch) :
    furtherBranches dialect body' state cursor = .matched state.branches cursor := by
  unfold furtherBranches
  split
  · have noLast : Grammar.optional (Scoped.elseBranch dialect body') cursor = .matched none cursor :=
      Grammar.optional_of_noMatch (Grammar.bind_of_noMatch missed)
    rw [Grammar.many_bind_unfold (elseIfBranch_ends dialect), Scoped.elseIfBranch,
      Grammar.bind_of_noMatch missed]
    refine (Grammar.bind_of_matched noLast).trans ?_
    refine (Grammar.bind_of_matched (rejectElse_of_noTag missed)).trans ?_
    simp
  · exact Grammar.bind_of_matched (rejectElse_of_noTag missed)

theorem furtherBranches_of_closed (closed : state.goesOn = false)
    (found : Grammar.tag dialect ["else"] cursor = .matched opened later) :
    furtherBranches dialect body' state cursor =
      .failed (.malformed .elseNotLast opened.offset) := by
  rw [furtherBranches, closed]
  exact Grammar.bind_of_failed (rejectElse_of_tag found)

theorem furtherBranches_of_if [Advancing body'] [Certain body'] (goesOn : state.goesOn = true)
    {word : String} (found : Grammar.tag dialect ["else"] cursor = .matched opened later)
    (conditioned : keyword "if" later = .matched word last) :
    furtherBranches dialect body' state cursor = ((do
      let condition ← Grammar.condition
      let right ← tagRest dialect
      return ⟨opened.offset, ⟨opened.trim, right⟩, some condition, ← body'⟩) >>= fun branch =>
        furtherBranches dialect body' ⟨state.branches ++ [branch], true⟩) last := by
  rw [furtherBranches, if_pos goesOn, Grammar.many_bind_unfold (elseIfBranch_ends dialect),
    Scoped.elseIfBranch, Grammar.bind_of_matched found, Grammar.bind_of_matched conditioned]
  generalize shape : (do
    let condition ← Grammar.condition
    let right ← tagRest dialect
    return ⟨opened.offset, ⟨opened.trim, right⟩, some condition, ← body'⟩ : Grammar Branch) = rule
  have certain : Certain rule := shape ▸ inferInstance
  cases run : rule last with
  | matched branch behind =>
      rw [Grammar.bind_of_matched run, furtherBranches, if_pos rfl]
      simp only [List.append_assoc, List.singleton_append]
      rfl
  | noMatch => exact absurd run (certain.ne_noMatch last)
  | failed failure => rw [Grammar.bind_of_failed run]

theorem furtherBranches_of_else [Advancing body'] [Certain body'] (goesOn : state.goesOn = true)
    (found : Grammar.tag dialect ["else"] cursor = .matched opened later)
    (plain : keyword "if" later = .noMatch) :
    furtherBranches dialect body' state cursor = ((do
      let right ← tagRest dialect
      return ⟨opened.offset, ⟨opened.trim, right⟩, none, ← body'⟩) >>= fun branch =>
        furtherBranches dialect body' ⟨state.branches ++ [branch], false⟩) later := by
  rw [furtherBranches, if_pos goesOn, Grammar.many_bind_unfold (elseIfBranch_ends dialect),
    Scoped.elseIfBranch, Grammar.bind_of_matched found, Grammar.bind_of_noMatch plain]
  have begun : Scoped.elseBranch dialect body' cursor = (do
      let right ← tagRest dialect
      return ⟨opened.offset, ⟨opened.trim, right⟩, none, ← body'⟩ : Grammar Branch) later :=
    Grammar.bind_of_matched found
  generalize shape : (do
    let right ← tagRest dialect
    return ⟨opened.offset, ⟨opened.trim, right⟩, none, ← body'⟩ : Grammar Branch) = rule at begun ⊢
  have certain : Certain rule := shape ▸ inferInstance
  cases run : rule later with
  | matched branch behind =>
      refine (Grammar.bind_of_matched (Grammar.optional_of_matched (begun.trans run))).trans ?_
      rw [Grammar.bind_of_matched run, furtherBranches, if_neg Bool.false_ne_true, List.append_nil]
      rfl
  | noMatch => exact absurd run (certain.ne_noMatch later)
  | failed failure =>
      rw [Grammar.bind_of_failed run]
      exact Grammar.bind_of_failed
        (Grammar.orElse_of_failed (Grammar.bind_of_failed (begun.trans run)))

end

include keeps

omit [Advancing body'] in
theorem conditionedBranch_returns (before cursor : Cursor) :
    (conditionedBranch dialect body opened).Returns before (do
      let condition ← Grammar.condition
      let right ← tagRest dialect
      return ⟨opened.offset, ⟨opened.trim, right⟩, some condition, ← body'⟩) cursor := by
  refine (condition_keeps.returns before cursor).bind fun condition behind _ => ?_
  refine ((scan_keeps _).returns before behind).bind fun right later _ => ?_
  exact (keeps.returns before later).bind fun _ _ _ => pure_returns ..

omit [Advancing body'] in
theorem lastBranch_returns (before cursor : Cursor) :
    (lastBranch dialect body opened).Returns before (do
      let right ← tagRest dialect
      return ⟨opened.offset, ⟨opened.trim, right⟩, none, ← body'⟩) cursor := by
  refine ((scan_keeps _).returns before cursor).bind fun right later _ => ?_
  exact (keeps.returns before later).bind fun _ _ _ => pure_returns ..

theorem branchLoop_keeps (state : BranchState) :
    (loop (branchTurn dialect body) state).Keeps (furtherBranches dialect body' state) := by
  intro cursor
  refine loop_eq
    (fun state cursor => (furtherBranches dialect body' state cursor).from cursor)
    (fun state cursor => ?_) state cursor
  have found := tag_keeps dialect ["else"] cursor
  rw [Returns] at found
  rw [branchTurn]
  cases tagged : Grammar.tag dialect ["else"] cursor with
  | noMatch =>
      rw [tagged] at found
      rw [branch_of_gaveUp found, furtherBranches_of_noTag tagged]
      rfl
  | failed failure => exact absurd tagged (Grammar.Quiet.ne_failed cursor failure)
  | matched opened later =>
      rw [tagged] at found
      rw [branch_of_got found]
      have shorter := (Consuming.passes tagged).2
      cases further : state.goesOn with
      | false =>
          rw [furtherBranches_of_closed further tagged]
          rfl
      | true =>
          rw [if_pos rfl]
          have word := scan_apply (keyword "if") later
          cases conditioned : keyword "if" later with
          | matched text last =>
              rw [conditioned] at word
              have shorter' := (Advancing.reaches conditioned).length_le
              rw [branch_of_got word, furtherBranches_of_if further tagged conditioned]
              exact fits_again (conditionedBranch_returns dialect keeps opened cursor last)
                (by omega)
          | noMatch =>
              rw [conditioned] at word
              rw [branch_of_gaveUp word, furtherBranches_of_else further tagged conditioned]
              exact fits_again (lastBranch_returns dialect keeps opened cursor later) shorter
          | failed failure => exact absurd conditioned (Grammar.Quiet.ne_failed later failure)

theorem conditional_keeps :
    (conditional dialect body opened).Keeps (Scoped.conditional dialect body' opened) := by
  intro cursor
  rw [conditional_eq_furtherBranches]
  refine (condition_keeps cursor).bind fun condition behind _ => ?_
  refine ((scan_keeps _).returns cursor behind).bind fun right later _ => ?_
  refine (keeps.returns cursor later).bind fun first last _ => ?_
  refine ((branchLoop_keeps dialect keeps _).returns cursor last).bind fun branches ending _ => ?_
  refine ((endTag_keeps dialect _ _ _).returns cursor ending).bind fun _ closing _ => ?_
  exact ((scan_keeps _).returns cursor closing).bind fun _ _ _ => pure_returns ..

/-! ### Loops -/

omit [Advancing body'] in
theorem loopRest_keeps :
    (loopRest dialect opened body).Keeps (Scoped.loopRest dialect opened body') := by
  intro cursor
  have found := tag_keeps dialect ["else", "endfor"] cursor
  rw [Returns] at found
  rw [Returns, loopRest, Scoped.loopRest]
  rcases tag_pair_cases dialect "else" "endfor" (by decide) (by decide)
    (by decide) cursor with ⟨missed, noElse, noEnd⟩ | ⟨middle, later, tagged, which⟩
  · rw [missed] at found
    rw [branch_of_gaveUp found, Grammar.orElse_of_noMatch (Grammar.bind_of_noMatch noEnd),
      Grammar.orElse_of_noMatch (Grammar.bind_of_noMatch noElse)]
    exact scan_keeps _ cursor
  · rw [tagged] at found
    rw [branch_of_got found]
    rcases which with ⟨isElse, first, noEnd⟩ | ⟨isEnd, noElse, second⟩
    · rw [if_pos isElse, Grammar.orElse_of_noMatch (Grammar.bind_of_noMatch noEnd),
        Grammar.orElse_of_committed first]
      refine ((scan_keeps _).returns cursor later).bind fun right behind _ => ?_
      refine (keeps.returns cursor behind).bind fun nodes last _ => ?_
      refine ((endTag_keeps dialect _ _ _).returns cursor last).bind fun _ closing _ => ?_
      exact ((scan_keeps _).returns cursor closing).bind fun _ _ _ => pure_returns ..
    · rw [if_neg (by rw [isEnd]; decide), Grammar.orElse_of_committed second]
      exact ((scan_keeps _).returns cursor later).bind fun _ _ _ => pure_returns ..

omit [Advancing body'] in
theorem forLoop_keeps {alternative : Attempt (List Node)} {alternative' : Grammar (List Node)}
    [Certain alternative'] (keepsAlternative : alternative.Keeps alternative') :
    (forLoop dialect body opened alternative).Keeps
      (Scoped.loop dialect body' opened alternative') := by
  intro cursor
  refine (pattern_keeps.expect _ cursor).bind fun pattern behind _ => ?_
  refine (((scan_keeps _).expect _).returns cursor behind).bind fun _ between _ => ?_
  refine ((expression_keeps.expect _).returns cursor between).bind fun iterable headed _ => ?_
  have guards : (do
      let _ ← scan (keyword "if")
      expect expression (.missingExpr .condition) : Attempt Expr).Keeps Scoped.guard := fun cursor =>
    (scan_keeps _ cursor).bind fun _ later _ => (expression_keeps.expect _).returns cursor later
  refine (guards.optional.returns cursor headed).bind fun guard guarded _ => ?_
  refine ((scan_keeps _).returns cursor guarded).bind fun right later _ => ?_
  refine (keeps.returns cursor later).bind fun nodes last _ => ?_
  refine ((loopRest_keeps dialect keepsAlternative opened).returns cursor last).bind fun _ _ _ => ?_
  exact pure_returns ..

/-! ### Choices -/

/-- The arms behind those that have been read. -/
def furtherArms [Room] (body' : Grammar (List Node)) (state : ArmState) : Grammar ArmState := do
  let before ← Grammar.many (Scoped.whenArm dialect body')
  match state.otherwise with
  | none => do
      let otherwise ← Grammar.optional (Scoped.elseArm dialect body')
      let after ← Scoped.laterArms dialect body' otherwise
      Parser.rejectElse dialect .secondElse
      return ⟨state.arms ++ before ++ after, otherwise⟩
  | some otherwise => do
      Parser.rejectElse dialect .secondElse
      return ⟨state.arms ++ before, some otherwise⟩

omit keeps [Advancing body'] [Certain body'] in
theorem choice_eq_furtherArms : Scoped.choice dialect body' opened = (do
    let subject ← Grammar.expect Grammar.expression (.missingExpr .subject)
    let right ← tagRest dialect
    Grammar.skipComments dialect
    let state ← furtherArms dialect body' ⟨[], none⟩
    Parser.requireArm state.arms
    let closingLeft ← Grammar.endTag dialect "match" "endmatch" opened.offset
    let closingRight ← edge
    return .choice opened.offset ⟨opened.trim, right⟩ subject
      (state.arms ++ state.otherwise.toList) ⟨closingLeft, closingRight⟩) := by
  simp only [Scoped.choice, furtherArms, bind_assoc, pure_bind, List.nil_append]

omit keeps [Advancing body'] [Certain body'] in
theorem whenArm_ends (offset : Nat) : Scoped.whenArm dialect body' ⟨offset, []⟩ = .noMatch :=
  Grammar.bind_of_noMatch (tag_ends _ offset)

instance (state : ArmState) : Certain (furtherArms dialect body' state) := by
  rcases state with ⟨arms, otherwise⟩
  cases otherwise <;> unfold furtherArms <;> infer_instance

section

variable {dialect} {state : ArmState} {opened : OpenedTag} {cursor later : Cursor}

omit keeps

omit [Certain body'] in
theorem furtherArms_of_noTag (noWhen : Grammar.tag dialect ["when"] cursor = .noMatch)
    (noElse : Grammar.tag dialect ["else"] cursor = .noMatch) :
    furtherArms dialect body' state cursor = .matched state cursor := by
  have none : Scoped.whenArm dialect body' cursor = .noMatch := Grammar.bind_of_noMatch noWhen
  have noLast : Grammar.optional (Scoped.elseArm dialect body') cursor = .matched .none cursor :=
    Grammar.optional_of_noMatch (Grammar.bind_of_noMatch noElse)
  rcases state with ⟨arms, otherwise⟩
  rw [furtherArms, Grammar.many_bind_unfold (whenArm_ends dialect), none]
  cases otherwise with
  | none =>
      refine (Grammar.bind_of_matched noLast).trans ?_
      refine (Grammar.bind_of_matched (rejectElse_of_noTag noElse)).trans ?_
      simp
  | some otherwise =>
      refine (Grammar.bind_of_matched (rejectElse_of_noTag noElse)).trans ?_
      simp

theorem furtherArms_of_when (found : Grammar.tag dialect ["when"] cursor = .matched opened later) :
    furtherArms dialect body' state cursor = ((do
      let pattern ← Grammar.expect Grammar.pattern (.missingPattern .arm)
      let right ← tagRest dialect
      return ⟨opened.offset, ⟨opened.trim, right⟩, pattern, ← body'⟩) >>= fun arm =>
        furtherArms dialect body' ⟨state.arms ++ [arm], state.otherwise⟩) later := by
  rcases state with ⟨arms, otherwise⟩
  rw [furtherArms, Grammar.many_bind_unfold (whenArm_ends dialect), Scoped.whenArm,
    Grammar.bind_of_matched found]
  generalize shape : (do
    let pattern ← Grammar.expect Grammar.pattern (.missingPattern .arm)
    let right ← tagRest dialect
    return ⟨opened.offset, ⟨opened.trim, right⟩, pattern, ← body'⟩ : Grammar Arm) = rule
  have certain : Certain rule := shape ▸ inferInstance
  cases run : rule later with
  | matched arm behind =>
      rw [Grammar.bind_of_matched run, furtherArms]
      cases otherwise <;> simp only [List.append_assoc, List.singleton_append] <;> rfl
  | noMatch => exact absurd run (certain.ne_noMatch later)
  | failed failure => rw [Grammar.bind_of_failed run]

theorem furtherArms_of_else (noWhen : Grammar.tag dialect ["when"] cursor = .noMatch)
    (found : Grammar.tag dialect ["else"] cursor = .matched opened later)
    (first : state.otherwise = none) :
    furtherArms dialect body' state cursor = ((do
      let right ← tagRest dialect
      return ⟨opened.offset, ⟨opened.trim, right⟩, .name opened.offset "_", ← body'⟩) >>= fun arm =>
        furtherArms dialect body' ⟨state.arms, some arm⟩) later := by
  have none : Scoped.whenArm dialect body' cursor = .noMatch := Grammar.bind_of_noMatch noWhen
  have begun : Scoped.elseArm dialect body' cursor = (do
      let right ← tagRest dialect
      return ⟨opened.offset, ⟨opened.trim, right⟩, .name opened.offset "_", ← body'⟩ :
        Grammar Arm) later :=
    Grammar.bind_of_matched found
  rw [furtherArms, Grammar.many_bind_unfold (whenArm_ends dialect), none, first]
  generalize shape : (do
    let right ← tagRest dialect
    return ⟨opened.offset, ⟨opened.trim, right⟩, .name opened.offset "_", ← body'⟩ :
      Grammar Arm) = rule at begun ⊢
  have certain : Certain rule := shape ▸ inferInstance
  cases run : rule later with
  | matched arm behind =>
      refine (Grammar.bind_of_matched (Grammar.optional_of_matched (begun.trans run))).trans ?_
      rw [Grammar.bind_of_matched run, furtherArms, List.append_nil]
      rfl
  | noMatch => exact absurd run (certain.ne_noMatch later)
  | failed failure =>
      rw [Grammar.bind_of_failed run]
      exact Grammar.bind_of_failed
        (Grammar.orElse_of_failed (Grammar.bind_of_failed (begun.trans run)))

omit [Certain body'] in
theorem furtherArms_of_second (noWhen : Grammar.tag dialect ["when"] cursor = .noMatch)
    (found : Grammar.tag dialect ["else"] cursor = .matched opened later) {otherwise : Arm}
    (second : state.otherwise = some otherwise) :
    furtherArms dialect body' state cursor =
      .failed (.malformed .secondElse opened.offset) := by
  have none : Scoped.whenArm dialect body' cursor = .noMatch := Grammar.bind_of_noMatch noWhen
  rw [furtherArms, Grammar.many_bind_unfold (whenArm_ends dialect), none, second]
  exact Grammar.bind_of_failed (rejectElse_of_tag found)

end

omit [Advancing body'] in
theorem patternArm_returns (before cursor : Cursor) :
    (patternArm dialect body opened).Returns before (do
      let pattern ← Grammar.expect Grammar.pattern (.missingPattern .arm)
      let right ← tagRest dialect
      return ⟨opened.offset, ⟨opened.trim, right⟩, pattern, ← body'⟩) cursor := by
  refine ((pattern_keeps.expect _).returns before cursor).bind fun pattern behind _ => ?_
  refine ((scan_keeps _).returns before behind).bind fun right later _ => ?_
  exact (keeps.returns before later).bind fun _ _ _ => pure_returns ..

omit [Advancing body'] in
theorem lastArm_returns (before cursor : Cursor) :
    (lastArm dialect body opened).Returns before (do
      let right ← tagRest dialect
      return ⟨opened.offset, ⟨opened.trim, right⟩, .name opened.offset "_", ← body'⟩) cursor := by
  refine ((scan_keeps _).returns before cursor).bind fun right later _ => ?_
  exact (keeps.returns before later).bind fun _ _ _ => pure_returns ..

theorem armLoop_keeps (state : ArmState) :
    (loop (armTurn dialect body) state).Keeps (furtherArms dialect body' state) := by
  intro cursor
  refine loop_eq (fun state cursor => (furtherArms dialect body' state cursor).from cursor)
    (fun state cursor => ?_) state cursor
  have found := tag_keeps dialect ["when", "else"] cursor
  rw [Returns] at found
  rw [armTurn]
  rcases tag_pair_cases dialect "when" "else" (by decide) (by decide)
    (by decide) cursor with ⟨missed, noWhen, noElse⟩ | ⟨opened, later, tagged, which⟩
  · rw [missed] at found
    rw [branch_of_gaveUp found, furtherArms_of_noTag noWhen noElse]
    rfl
  · rw [tagged] at found
    rw [branch_of_got found]
    have shorter := (Consuming.passes tagged).2
    rcases which with ⟨isWhen, first, -⟩ | ⟨isElse, noWhen, second⟩
    · rw [if_pos isWhen, furtherArms_of_when first]
      exact fits_again (patternArm_returns dialect keeps opened cursor later) shorter
    · rw [if_neg (by rw [isElse]; decide)]
      cases taken : state.otherwise with
      | none =>
          rw [furtherArms_of_else noWhen second taken]
          exact fits_again (lastArm_returns dialect keeps opened cursor later) shorter
      | some otherwise =>
          rw [furtherArms_of_second noWhen second taken]
          rfl

theorem choice_keeps : (choice dialect body opened).Keeps (Scoped.choice dialect body' opened) := by
  intro cursor
  rw [choice_eq_furtherArms]
  refine (expression_keeps.expect _ cursor).bind fun subject behind _ => ?_
  refine ((scan_keeps _).returns cursor behind).bind fun right headed _ => ?_
  refine ((skipComments_keeps dialect).returns cursor headed).bind fun _ prologue _ => ?_
  refine ((armLoop_keeps dialect keeps _).returns cursor prologue).bind fun state last _ => ?_
  refine ((scan_keeps _).returns cursor last).bind fun _ required _ => ?_
  refine ((endTag_keeps dialect _ _ _).returns cursor required).bind fun _ closing _ => ?_
  exact ((scan_keeps _).returns cursor closing).bind fun _ _ _ => pure_returns ..

/-! ### Blocks and macros -/

omit [Advancing body'] in
theorem block_keeps : (block dialect body opened).Keeps (Scoped.block dialect body' opened) := by
  intro cursor
  refine ((scan_keeps _).expect _ cursor).bind fun name behind _ => ?_
  refine ((scan_keeps _).returns cursor behind).bind fun right later _ => ?_
  refine (keeps.returns cursor later).bind fun nodes last _ => ?_
  refine ((endTag_keeps dialect _ _ _).returns cursor last).bind fun _ closing _ => ?_
  refine ((scan_keeps _).optional.returns cursor closing).bind fun _ named _ => ?_
  exact ((scan_keeps _).returns cursor named).bind fun _ _ _ => pure_returns ..

omit [Advancing body'] in
theorem macroDef_keeps :
    (macroDef dialect body opened).Keeps (Scoped.macroDef dialect body' opened) := by
  intro cursor
  refine ((scan_keeps _).returns cursor cursor).bind fun _ blanks _ => ?_
  refine ((scan_keeps _).returns cursor blanks).bind fun nameOffset _ begun => ?_
  cases begun
  refine (((scan_keeps _).expect _).returns cursor blanks).bind fun name behind _ => ?_
  refine ((scan_keeps _).returns cursor behind).bind fun _ checked _ => ?_
  refine ((scan_keeps _).optional.returns cursor checked).bind fun parameters listed _ => ?_
  refine ((scan_keeps _).returns cursor listed).bind fun right later _ => ?_
  refine (keeps.returns cursor later).bind fun nodes last _ => ?_
  refine ((endTag_keeps dialect _ _ _).returns cursor last).bind fun _ closing _ => ?_
  refine ((scan_keeps _).optional.returns cursor closing).bind fun _ named _ => ?_
  exact ((scan_keeps _).returns cursor named).bind fun _ _ _ => pure_returns ..

end

/-! ### Statements and bodies -/

section

variable {dialect : Dialect} {inLoop : Bool} {bodies : Part → Attempt (List Node)}
  {bodies' : Part → Grammar (List Node)} [∀ part, Advancing (bodies' part)]
  [∀ part, Certain (bodies' part)] (keeps : ∀ part, (bodies part).Keeps (bodies' part))

include keeps

theorem statementRest_keeps (opened : OpenedTag) (keyword : Keyword) :
    (statementRest dialect inLoop bodies opened keyword).Keeps
      (Scoped.statementRest dialect opened inLoop bodies' keyword) := by
  cases keyword with
  | call => exact macroCall_keeps opened
  | letBinding => exact assignment_keeps opened
  | setBinding => exact assignment_keeps opened
  | conditional => exact conditional_keeps dialect (keeps _) opened
  | loop => exact forLoop_keeps dialect (keeps _) opened (keeps _)
  | choice => exact choice_keeps dialect (keeps _) opened
  | block => exact block_keeps dialect (keeps _) opened
  | macroDef => exact macroDef_keeps dialect (keeps _) opened
  | _ => exact scan_keeps _

theorem statement_keeps :
    (statement dialect inLoop bodies).Keeps (Scoped.statement dialect inLoop bodies') := by
  intro cursor
  refine (statementStart_keeps dialect cursor).bind fun start behind _ => ?_
  refine ((statementRest_keeps keeps start.1 start.2).returns cursor behind).bind fun _ last _ => ?_
  exact ((scan_keeps _).returns cursor last).bind fun _ _ _ => pure_returns ..

theorem nodeTurn_eq (nodes : List Node) (cursor : Cursor) :
    nodeTurn dialect inLoop bodies nodes cursor =
      turned cursor nodes
        ((Scoped.node dialect inLoop bodies' >>= fun node => pure (nodes ++ [node])) cursor) := by
  have found : (text dialect <|> comment dialect <|> output dialect <|>
      statement dialect inLoop bodies).Keeps (Scoped.node dialect inLoop bodies') :=
    (text_keeps dialect).orElse <| (comment_keeps dialect).orElse <|
      (output_keeps dialect).orElse (statement_keeps keeps)
  have found := found cursor
  rw [Returns] at found
  rw [nodeTurn]
  cases read : Scoped.node dialect inLoop bodies' cursor with
  | matched node later =>
      rw [read] at found
      rw [branch_of_got found, Grammar.bind_of_matched read]
      rfl
  | noMatch =>
      rw [read] at found
      rw [branch_of_gaveUp found, Grammar.bind_of_noMatch read]
      rfl
  | failed failure =>
      rw [read] at found
      rw [branch_of_failed found, Grammar.bind_of_failed read]
      rfl

omit keeps [∀ part, Advancing (bodies' part)] [∀ part, Certain (bodies' part)] in
/-- No node begins at the end of a source. -/
theorem node_ends (offset : Nat) : Scoped.node dialect inLoop bodies' ⟨offset, []⟩ = .noMatch := by
  have noOutput : Grammar.output dialect ⟨offset, []⟩ = .noMatch :=
    (Grammar.bind_of_matched rfl).trans
      (Grammar.bind_of_noMatch (exact_ends dialect.exprStart offset))
  have noStart : Parser.statementStart dialect ⟨offset, []⟩ = .noMatch :=
    (Grammar.bind_of_matched rfl).trans
      (Grammar.bind_of_noMatch (exact_ends dialect.blockStart offset))
  exact Grammar.orElse_eq_noMatch.mpr ⟨rfl, Grammar.orElse_eq_noMatch.mpr
    ⟨comment_ends dialect offset, Grammar.orElse_eq_noMatch.mpr
      ⟨noOutput, Grammar.bind_of_noMatch noStart⟩⟩⟩

variable (dialect inLoop) in
theorem nodeLoop_keeps (nodes : List Node) :
    (loop (nodeTurn dialect inLoop bodies) nodes).Keeps
      (Grammar.many (Scoped.node dialect inLoop bodies') >>= fun others => pure (nodes ++ others)) :=
  loop_keeps_many node_ends (nodeTurn_eq keeps) nodes

end

theorem nodesWithin_keeps (dialect : Dialect) (outside : Counters) (levels : Nat)
    (scope : List Part) :
    (nodesWithin dialect outside levels scope).Keeps
      (Scoped.nodesWithin dialect outside levels scope) := by
  induction levels generalizing scope with
  | zero => exact fun _ => rfl
  | succ levels induction =>
      rw [nodesWithin, Scoped.nodesWithin]
      split
      · exact fun _ => rfl
      · have looped : (loop (nodeTurn dialect (outside.within scope).inLoop
            fun part => nodesWithin dialect outside levels (part :: scope)) []).Keeps _ :=
          nodeLoop_keeps dialect _ (fun part => induction (part :: scope)) []
        simpa only [List.nil_append, bind_pure] using looped

theorem document_keeps (dialect : Dialect) :
    (document dialect).Keeps (Scoped.document dialect) := by
  intro cursor
  refine (nodesWithin_keeps dialect .zero _ _ cursor).bind fun body later _ => ?_
  exact ((scan_keeps _).returns cursor later).bind fun _ _ _ => pure_returns ..

end Templating.Attempt

import Templating.Proofs.AttemptedBody
import Templating.Proofs.WordAsName

/-! # Constructs with an open body

A construct that has come to one of its bodies waits, behind it, for a tag with one of a few words.
Behind such a tag it comes to a further body or to its end. With what has been read of the construct
before the body, that is all there is to it: the rules for constructs do no more and no less. -/

namespace Templating

variable {room : Room}

/-- The words with which a tag behind a body goes on with the construct around it. -/
def Part.awaited : Part → List String
  | .template => []
  | .branch => ["else", "endif"]
  | .loopBody => ["else", "endfor"]
  | .alternative => ["endfor"]
  | .arm => ["when", "else"]
  | .block => ["endblock"]
  | .macroBody => ["endmacro"]

/-- The statements that hold bodies. -/
def Keyword.constructs : List Keyword :=
  [.conditional, .loop, .choice, .block, .macroDef]

theorem Part.isName_of_awaited (part : Part) :
    ∀ word ∈ part.awaited, Text.isName word.toList = true := by
  cases part <;> decide

namespace Scoped

open Grammar (Advancing Certain Quiet edge endTag expect failAt keyword nameToken optional tag tagRest
  missingEndTag bind_of_matched bind_of_noMatch bind_of_failed orElse_of_matched orElse_of_noMatch)
open Attempt (ArmState BranchState furtherArms furtherBranches)

/-- What stands in the opening tag of a loop, behind its word. -/
structure LoopHeading where
  right : Option Trim
  pattern : Pattern
  iterable : Expr
  guard : Option Expr

/-- A construct one of whose bodies is open, with what has been read of it before that body. -/
inductive Pending where
  | branch (before : List Branch) (found : OpenedTag) (right : Option Trim)
      (condition : Option Condition)
  | loopBody (heading : LoopHeading)
  | alternative (heading : LoopHeading) (nodes : List Node) (middle : Edges)
  | arm (outer : Option Trim) (subject : Expr) (before : ArmState) (found : OpenedTag)
      (right : Option Trim) (pattern : Option Pattern)
  | block (right : Option Trim) (name : String)
  | macroBody (right : Option Trim) (name : String) (parameters : List String)

namespace Pending

/-- What the open body is. -/
def part : Pending → Part
  | branch .. => .branch
  | loopBody _ => .loopBody
  | alternative .. => .alternative
  | arm .. => .arm
  | block .. => .block
  | macroBody .. => .macroBody

end Pending

/-! ## From one body to the next -/

section

variable (dialect : Dialect) (opened : OpenedTag)

/-- The branches of a conditional with the one whose body has been read. -/
def branches (before : List Branch) (found : OpenedTag) (right : Option Trim)
    (condition : Option Condition) (nodes : List Node) : List Branch :=
  before ++ [⟨found.offset, ⟨found.trim, right⟩, condition, nodes⟩]

/-- The arms of a choice with the one whose body has been read. -/
def arms (before : ArmState) (found : OpenedTag) (right : Option Trim) (nodes : List Node) :
    (pattern : Option Pattern) → ArmState
  | some pattern => ⟨before.arms ++ [⟨found.offset, ⟨found.trim, right⟩, pattern, nodes⟩],
      before.otherwise⟩
  | none => ⟨before.arms, some ⟨found.offset, ⟨found.trim, right⟩, .name found.offset "_", nodes⟩⟩

def LoopHeading.node (heading : LoopHeading) (nodes : List Node) (middle : Edges)
    (alternative : List Node) (closing : Edges) : Node :=
  .loop opened.offset ⟨opened.trim, heading.right⟩ heading.pattern heading.iterable heading.guard nodes
    middle alternative closing

/-- The tag of a further branch, behind its word. -/
def branchHeading [Room] (before : List Branch) (found : OpenedTag) : Grammar Pending :=
  (do
    let _ ← keyword "if"
    let condition ← Grammar.condition
    let right ← tagRest dialect
    return .branch before found right (some condition)) <|>
  (do
    let right ← tagRest dialect
    return .branch before found right none)

/-- The tag of an arm, behind its word. -/
def armHeading [Room] (outer : Option Trim) (subject : Expr) (before : ArmState) (found : OpenedTag) :
    Grammar Pending :=
  if found.word = "when" then do
    let pattern ← expect Grammar.pattern (.missingPattern .arm)
    let right ← tagRest dialect
    return .arm outer subject before found right (some pattern)
  else if before.otherwise.isSome then failAt .secondElse found.offset
  else do
    let right ← tagRest dialect
    return .arm outer subject before found right none

/-- The end of a conditional. -/
def closeConditional (branches : List Branch) : Grammar Node := do
  let closingLeft ← endTag dialect "if" "endif" opened.offset
  return .conditional opened.offset branches ⟨closingLeft, ← edge⟩

/-- The end of a choice, which needs an arm with a pattern. -/
def closeChoice (outer : Option Trim) (subject : Expr) (state : ArmState) : Grammar Node := do
  Parser.requireArm state.arms
  let closingLeft ← endTag dialect "match" "endmatch" opened.offset
  return .choice opened.offset ⟨opened.trim, outer⟩ subject
    (state.arms ++ state.otherwise.toList) ⟨closingLeft, ← edge⟩

/-- A construct behind its word, up to its first body. -/
def opening [Room] : Keyword → Grammar Pending
  | .conditional => do
      let condition ← Grammar.condition
      let right ← tagRest dialect
      return .branch [] opened right (some condition)
  | .loop => do
      let pattern ← expect Grammar.pattern (.missingPattern .loopVariable)
      let _ ← expect (keyword "in") (.missingWord "in")
      let iterable ← expect Grammar.expression (.missingExpr .iterable)
      let guard ← optional guard
      let right ← tagRest dialect
      return .loopBody ⟨right, pattern, iterable, guard⟩
  | .choice => do
      let subject ← expect Grammar.expression (.missingExpr .subject)
      let right ← tagRest dialect
      Grammar.skipComments dialect
      let found ← expect (tag dialect ["when", "else"]) .noArm
      armHeading dialect right subject ⟨[], none⟩ found
  | .block => do
      let name ← expect nameToken (.missingName .block)
      let right ← tagRest dialect
      return .block right name
  | .macroDef => do
      Grammar.spaces
      let nameOffset ← Grammar.here
      let name ← expect nameToken (.missingName .macroDef)
      Parser.checkMacroName name nameOffset
      let parameters ← optional Grammar.parameters
      let right ← tagRest dialect
      return .macroBody right name (parameters.getD [])
  | _ => Grammar.noMatch

namespace Pending

/-- Behind the body and the word of a tag that was waited for: up to a further body, or up to the end
of the construct. -/
def goOn [Room] (nodes : List Node) (found : OpenedTag) : Pending → Grammar (Pending ⊕ Node)
  | branch before opening right condition =>
      if found.word = "endif" then do
        return .inr (.conditional opened.offset (branches before opening right condition nodes)
          ⟨found.trim, ← edge⟩)
      else if condition.isSome then do
        return .inl (← branchHeading dialect (branches before opening right condition nodes) found)
      else failAt .elseNotLast found.offset
  | loopBody heading =>
      if found.word = "endfor" then do
        return .inr (heading.node opened nodes ⟨found.trim, none⟩ [] ⟨none, ← edge⟩)
      else do
        return .inl (.alternative heading nodes ⟨found.trim, ← tagRest dialect⟩)
  | alternative heading body middle => do
      return .inr (heading.node opened body middle nodes ⟨found.trim, ← edge⟩)
  | arm outer subject before opening right pattern => do
      return .inl (← armHeading dialect outer subject (arms before opening right nodes pattern) found)
  | block right name => do
      let _ ← optional nameToken
      return .inr (.block opened.offset ⟨opened.trim, right⟩ name nodes ⟨found.trim, ← edge⟩)
  | macroBody right name parameters => do
      let _ ← optional nameToken
      return .inr (.macroDef opened.offset name ⟨opened.trim, right⟩ parameters nodes
        ⟨found.trim, ← edge⟩)

/-- Behind the body, if no tag stands there that was waited for. -/
def unmet (nodes : List Node) : Pending → Grammar Node
  | branch .. => missingEndTag dialect "if" "endif" opened.offset
  | loopBody _ | alternative .. => missingEndTag dialect "for" "endfor" opened.offset
  | arm outer subject before opening right pattern =>
      closeChoice dialect opened outer subject (arms before opening right nodes pattern)
  | block .. => missingEndTag dialect "block" "endblock" opened.offset
  | macroBody .. => missingEndTag dialect "macro" "endmacro" opened.offset

variable (bodies : Part → Grammar (List Node))

/-- All that the rule for the construct does behind the body. -/
def behind [Room] (nodes : List Node) : Pending → Grammar Node
  | branch before opening right condition => do
      let branches ← furtherBranches dialect (bodies .branch)
        ⟨branches before opening right condition nodes, condition.isSome⟩
      closeConditional dialect opened branches
  | loopBody heading => do
      let rest ← loopRest dialect opened (bodies .alternative)
      return heading.node opened nodes rest.1 rest.2.1 rest.2.2
  | alternative heading body middle => do
      let closingLeft ← endTag dialect "for" "endfor" opened.offset
      return heading.node opened body middle nodes ⟨closingLeft, ← edge⟩
  | arm outer subject before opening right pattern => do
      let state ← furtherArms dialect (bodies .arm) (arms before opening right nodes pattern)
      closeChoice dialect opened outer subject state
  | block right name => do
      let closingLeft ← endTag dialect "block" "endblock" opened.offset
      let _ ← optional nameToken
      return .block opened.offset ⟨opened.trim, right⟩ name nodes ⟨closingLeft, ← edge⟩
  | macroBody right name parameters => do
      let closingLeft ← endTag dialect "macro" "endmacro" opened.offset
      let _ ← optional nameToken
      return .macroDef opened.offset name ⟨opened.trim, right⟩ parameters nodes
        ⟨closingLeft, ← edge⟩

/-- The open body, and all that stands behind it. -/
def rest [Room] (pending : Pending) : Grammar Node := do
  pending.behind dialect opened bodies (← bodies pending.part)

/-- The construct from a further body on, or nothing more where it has come to its end. -/
def resume [Room] : Pending ⊕ Node → Grammar Node
  | .inl pending => pending.rest dialect opened bodies
  | .inr node => pure node

end Pending

end

/-! ## What the rules for constructs do -/

section

variable {dialect : Dialect} {opened found : OpenedTag} {keyword : Keyword} {inLoop : Bool}
  {bodies : Part → Grammar (List Node)} [∀ part, Advancing (bodies part)]
  [∀ part, Certain (bodies part)] {pending : Pending} {nodes : List Node} {cursor later place : Cursor}

/-! ### Tags between bodies -/

/-- Where none of several words is found, each of them is not. -/
theorem tag_singleton_eq_noMatch {words : List String} {word : String}
    (areNames : ∀ word ∈ words, Text.isName word.toList = true) (member : word ∈ words)
    (missed : tag dialect words cursor = .noMatch) : tag dialect [word] cursor = .noMatch := by
  refine (Grammar.tag_eq_noMatch (List.forall_mem_singleton.mpr (areNames word member))).mpr ?_
  intro opened later named among
  refine (Grammar.tag_eq_noMatch areNames).mp missed opened later named ?_
  rw [List.mem_singleton.mp among]
  exact member

theorem endTag_of_tag {opener closer : String} {start : Nat}
    (tagged : tag dialect [closer] cursor = .matched found later) :
    endTag dialect opener closer start cursor = .matched found.trim later :=
  orElse_of_matched (bind_of_matched tagged)

/-- Rules that come to the same go on alike. -/
theorem bind_of_eq {α β : Type} {rule rule' : Grammar α} {next : α → Grammar β} {cursor' : Cursor}
    (same : rule cursor = rule' cursor') : (rule >>= next) cursor = (rule' >>= next) cursor' := by
  rw [Grammar.bind_apply, Grammar.bind_apply, same]

/-- Nothing is read behind an end tag that is missing. -/
theorem missingEndTag_bind {α β : Type} {opener closer : String} {start : Nat} {next : α → Grammar β} :
    (missingEndTag dialect opener closer start >>= next) cursor =
      missingEndTag dialect opener closer start cursor := by
  rw [Grammar.bind_apply, missingEndTag, missingEndTag]
  by_cases atEnd : cursor.atEnd = true
  · simp only [if_pos atEnd]
    rfl
  · obtain ⟨told, named⟩ : ∃ told, Grammar.found dialect cursor = .matched told cursor := by
      unfold Grammar.found
      split <;> exact ⟨_, rfl⟩
    simp only [if_neg atEnd, bind_of_matched named]
    rfl

theorem endTag_bind_of_noTag {α : Type} {opener closer : String} {start : Nat}
    {next : Option Trim → Grammar α} (missed : tag dialect [closer] cursor = .noMatch) :
    (endTag dialect opener closer start >>= next) cursor =
      missingEndTag dialect opener closer start cursor :=
  (bind_of_eq (orElse_of_noMatch (bind_of_noMatch missed))).trans missingEndTag_bind

theorem furtherBranches_of_tag {before : List Branch}
    (tagged : tag dialect ["else"] cursor = .matched found later) :
    (furtherBranches dialect (bodies .branch) ⟨before, true⟩ >>= closeConditional dialect opened)
        cursor =
      (branchHeading dialect before found >>= fun pending => pending.rest dialect opened bodies)
        later := by
  rcases Quiet.cases (Grammar.keyword "if") later with plain | ⟨word, last, conditioned⟩
  · have heading : branchHeading dialect before found later = _ :=
      orElse_of_noMatch (bind_of_noMatch plain)
    rw [bind_of_eq (Attempt.furtherBranches_of_else rfl tagged plain), bind_of_eq heading]
    simp only [bind_assoc, pure_bind]
    rfl
  · have heading : branchHeading dialect before found later = _ :=
      Grammar.orElse_of_committed conditioned
    rw [bind_of_eq (Attempt.furtherBranches_of_if rfl tagged conditioned), bind_of_eq heading]
    simp only [bind_assoc, pure_bind]
    rfl

theorem furtherArms_of_tag {outer : Option Trim} {subject : Expr} {before : ArmState}
    (tagged : tag dialect ["when", "else"] cursor = .matched found later) :
    (furtherArms dialect (bodies .arm) before >>= closeChoice dialect opened outer subject) cursor =
      (armHeading dialect outer subject before found >>= fun pending =>
        pending.rest dialect opened bodies) later := by
  rcases Attempt.tag_pair_cases dialect "when" "else" (by decide) (by decide) (by decide) cursor with
    ⟨missed, _⟩ | ⟨found', later', tagged', which⟩
  · cases missed.symm.trans tagged
  cases tagged'.symm.trans tagged
  rcases which with ⟨isWhen, first, _⟩ | ⟨isElse, noWhen, second⟩
  · rw [bind_of_eq (Attempt.furtherArms_of_when first), armHeading, if_pos isWhen]
    simp only [bind_assoc, pure_bind]
    rfl
  · rw [armHeading, if_neg (by rw [isElse]; decide)]
    cases taken : before.otherwise with
    | none =>
        rw [bind_of_eq (Attempt.furtherArms_of_else noWhen second taken)]
        simp only [Option.isSome_none, Bool.false_eq_true, if_false, bind_assoc, pure_bind]
        rfl
    | some otherwise =>
        rw [bind_of_failed (Attempt.furtherArms_of_second noWhen second taken)]
        rfl

/-- A choice that has no arm comes to its first one or ends the parse. -/
theorem choice_eq_opening : choice dialect (bodies .arm) opened =
    (opening dialect opened .choice >>= fun pending => pending.rest dialect opened bodies) := by
  rw [Attempt.choice_eq_furtherArms, opening]
  simp only [bind_assoc]
  refine bind_congr fun subject => bind_congr fun right => bind_congr fun _ => funext fun cursor => ?_
  rcases Quiet.cases (tag dialect ["when", "else"]) cursor with missed | ⟨found, later, tagged⟩
  · have none : furtherArms dialect (bodies .arm) ⟨[], .none⟩ cursor = .matched ⟨[], .none⟩ cursor :=
      Attempt.furtherArms_of_noTag
        (tag_singleton_eq_noMatch Part.arm.isName_of_awaited List.mem_cons_self missed)
        (tag_singleton_eq_noMatch Part.arm.isName_of_awaited
          (List.mem_cons_of_mem _ List.mem_cons_self) missed)
    have noArm : expect (tag dialect ["when", "else"]) .noArm cursor = Grammar.fail .noArm cursor :=
      orElse_of_noMatch missed
    exact (bind_of_matched none).trans (bind_of_eq noArm).symm
  · rw [bind_of_matched (Grammar.expect_eq_matched.mpr tagged)]
    exact furtherArms_of_tag tagged

/-- A construct comes to its first body and goes on with that, or fails before. -/
theorem statementRest_eq_opening (construct : keyword ∈ Keyword.constructs) :
    statementRest dialect opened inLoop bodies keyword =
      (opening dialect opened keyword >>= fun pending => pending.rest dialect opened bodies) := by
  simp only [Keyword.constructs, List.mem_cons, List.not_mem_nil, or_false] at construct
  rcases construct with rfl | rfl | rfl | rfl | rfl
  case inr.inr.inl => exact choice_eq_opening
  all_goals
    simp only [statementRest, conditional, loop, block, macroDef, opening, Pending.rest, Pending.part,
      Pending.behind, branches, closeConditional, LoopHeading.node, furtherBranches, Option.isSome_some,
      if_pos, bind_assoc, pure_bind, List.nil_append, List.singleton_append]

theorem statementRest_of_opening
    (begun : opening dialect opened keyword cursor = .matched pending place) :
    statementRest dialect opened inLoop bodies keyword cursor =
      pending.rest dialect opened bodies place := by
  cases keyword with
  | conditional | loop | choice | block | macroDef =>
      exact (congrFun (statementRest_eq_opening (by decide)) cursor).trans (bind_of_matched begun)
  | _ => cases begun

section

variable {before : List Branch} {opening : OpenedTag} {right : Option Trim}
  {condition : Option Condition} {heading : LoopHeading}

theorem Pending.behind_branch_of_tag
    (tagged : tag dialect ["else", "endif"] cursor = .matched found later) :
    (Pending.branch before opening right condition).behind dialect opened bodies nodes cursor =
      ((Pending.branch before opening right condition).goOn dialect opened nodes found >>=
        resume dialect opened bodies) later := by
  -- The rules try the words one after the other, so the two words are told apart first.
  rcases Attempt.tag_pair_cases dialect "else" "endif" (by decide) (by decide) (by decide) cursor
    with ⟨missed, _⟩ | ⟨found', later', tagged', ⟨isElse, first, _⟩ | ⟨isEnd, noElse, second⟩⟩
  · cases missed.symm.trans tagged
  · cases tagged'.symm.trans tagged
    rw [behind, goOn, if_neg (by rw [isElse]; decide)]
    cases condition with
    | some condition =>
        simp only [Option.isSome_some, if_true, bind_assoc, pure_bind]
        exact furtherBranches_of_tag first
    | none => exact bind_of_failed (Attempt.furtherBranches_of_closed rfl first)
  · cases tagged'.symm.trans tagged
    rw [behind, bind_of_matched (Attempt.furtherBranches_of_noTag noElse), closeConditional,
      bind_of_matched (endTag_of_tag second), goOn, if_pos isEnd]
    simp only [bind_assoc, pure_bind]
    rfl

omit [∀ part, Advancing (bodies part)] in
theorem Pending.behind_loopBody_of_tag
    (tagged : tag dialect ["else", "endfor"] cursor = .matched found later) :
    (Pending.loopBody heading).behind dialect opened bodies nodes cursor =
      ((Pending.loopBody heading).goOn dialect opened nodes found >>=
        resume dialect opened bodies) later := by
  rcases Attempt.tag_pair_cases dialect "else" "endfor" (by decide) (by decide) (by decide) cursor
    with ⟨missed, _⟩ | ⟨found', later', tagged', ⟨isElse, first, noEnd⟩ | ⟨isEnd, noElse, second⟩⟩
  · cases missed.symm.trans tagged
  · cases tagged'.symm.trans tagged
    have begun : loopRest dialect opened (bodies .alternative) cursor = _ :=
      (orElse_of_noMatch (bind_of_noMatch noEnd)).trans (Grammar.orElse_of_committed first)
    rw [behind, bind_of_eq begun, goOn, if_neg (by rw [isElse]; decide)]
    simp only [bind_assoc, pure_bind]
    rfl
  · cases tagged'.symm.trans tagged
    have ended : loopRest dialect opened (bodies .alternative) cursor = _ :=
      Grammar.orElse_of_committed second
    rw [behind, bind_of_eq ended, goOn, if_pos isEnd]
    simp only [bind_assoc, pure_bind]
    rfl

end

/-- Behind a body a construct goes on with a tag that it waits for. -/
theorem Pending.behind_of_tag (tagged : tag dialect pending.part.awaited cursor = .matched found later) :
    pending.behind dialect opened bodies nodes cursor =
      (pending.goOn dialect opened nodes found >>= resume dialect opened bodies) later := by
  cases pending with
  | branch => exact behind_branch_of_tag tagged
  | loopBody => exact behind_loopBody_of_tag tagged
  | alternative heading body middle =>
      rw [behind, bind_of_matched (endTag_of_tag tagged), goOn]
      simp only [bind_assoc, pure_bind]
      rfl
  | arm outer subject before opening right pattern =>
      rw [behind, furtherArms_of_tag tagged, goOn]
      simp only [bind_assoc, pure_bind]
      rfl
  | block right name =>
      rw [behind, bind_of_matched (endTag_of_tag tagged), goOn]
      simp only [bind_assoc, pure_bind]
      rfl
  | macroBody right name parameters =>
      rw [behind, bind_of_matched (endTag_of_tag tagged), goOn]
      simp only [bind_assoc, pure_bind]
      rfl

omit [∀ part, Certain (bodies part)] in
/-- Without one it comes to what is unmet. -/
theorem Pending.behind_of_noTag (missed : tag dialect pending.part.awaited cursor = .noMatch) :
    pending.behind dialect opened bodies nodes cursor = pending.unmet dialect opened nodes cursor := by
  have none {word : String} (member : word ∈ pending.part.awaited) :
      tag dialect [word] cursor = .noMatch :=
    tag_singleton_eq_noMatch pending.part.isName_of_awaited member missed
  cases pending with
  | branch before opening right condition =>
      rw [behind, bind_of_matched (Attempt.furtherBranches_of_noTag (none List.mem_cons_self))]
      exact endTag_bind_of_noTag (none (List.mem_cons_of_mem _ List.mem_cons_self))
  | loopBody heading =>
      have noEnd : tag dialect ["endfor"] cursor = .noMatch :=
        none (List.mem_cons_of_mem _ List.mem_cons_self)
      have noElse : tag dialect ["else"] cursor = .noMatch := none List.mem_cons_self
      have missing : loopRest dialect opened (bodies .alternative) cursor =
          missingEndTag dialect "for" "endfor" opened.offset cursor :=
        (orElse_of_noMatch (bind_of_noMatch noEnd)).trans (orElse_of_noMatch (bind_of_noMatch noElse))
      exact (bind_of_eq missing).trans missingEndTag_bind
  | alternative heading body middle => exact endTag_bind_of_noTag missed
  | arm outer subject before opening right pattern =>
      exact bind_of_matched (Attempt.furtherArms_of_noTag (none List.mem_cons_self)
        (none (List.mem_cons_of_mem _ List.mem_cons_self)))
  | block right name => exact endTag_bind_of_noTag missed
  | macroBody right name parameters => exact endTag_bind_of_noTag missed

end

end Scoped

end Templating

import Templating.Proofs.Scope

/-! # What becomes of the counters

Every rule leaves the counters as it found them, whether it matches, does not match or ends the
parse. What they are in between is told by rules with an alarm, which ends the parse as soon as the
counters have come to values that are not admitted. -/

namespace Templating

variable {room : Room}

/-- No counter is negative, and one body more is open than the limit admits at most. -/
structure Counters.Bounded (limit : Nat) (counters : Counters) : Prop where
  loopDepth_nonneg : 0 ≤ counters.loopDepth
  depth_nonneg : 0 ≤ counters.depth
  depth_le : counters.depth ≤ limit + 1

namespace Parser

/-! ## Alarms -/

section

variable {α : Type} (admitted : Counters → Bool) (alarm : Failure)

/-- The rule, and the alarm where it begins or ends with counters that are not admitted. -/
def watched (rule : Parser α) : Parser α := fun counters cursor =>
  if admitted counters then
    let (outcome, after) := rule counters cursor
    if admitted after then (outcome, after) else (.failed alarm, after)
  else (.failed alarm, counters)

theorem watched_apply (rule : Parser α) [Restoring rule] (counters : Counters) (cursor : Cursor) :
    watched admitted alarm rule counters cursor =
      if admitted counters then rule counters cursor else (.failed alarm, counters) := by
  unfold watched
  rw [apply_eq_under rule counters cursor]
  dsimp only
  split <;> rfl

instance (rule : Parser α) [Restoring rule] : Restoring (watched admitted alarm rule) :=
  ⟨fun counters cursor => by
    rw [watched_apply]
    split
    · exact Restoring.restores counters cursor
    · rfl⟩

theorem under_watched {admitted : Counters → Bool} {counters : Counters} (rule : Parser α)
    [Restoring rule] (admits : admitted counters = true) :
    (watched admitted alarm rule).under counters = rule.under counters := by
  funext cursor
  show (watched admitted alarm rule counters cursor).1 = _
  rw [watched_apply, if_pos admits]
  rfl

end

instance (dialect : Dialect) : Restoring (checkDepth dialect) := by
  unfold checkDepth
  infer_instance

section

variable (dialect : Dialect) (admitted : Counters → Bool) (alarm : Failure)

/-- A body, where the alarm is set for everything that changes the counters: for the body as one of
the parts of a construct, for what is inside it, and for each of its nodes. -/
def watchedNodes [Room] : (levels : Nat) → Parser (List Node)
  | 0 => watched admitted alarm (ofGrammar (Grammar.fail (.nestingLimit dialect.maxDepth)))
  | levels + 1 => watched admitted alarm (inBody (watched admitted alarm (do
      checkDepth dialect
      many (watched admitted alarm (node dialect (watchedNodes levels))))))

/-- A whole source with the alarm. -/
def watchedDocument [Room] : Parser (List Node) := do
  let body ← watchedNodes dialect admitted alarm (dialect.maxDepth + 1)
  Grammar.endOfSource dialect
  return body

instance (levels : Nat) : Restoring (watchedNodes dialect admitted alarm levels) := by
  induction levels with
  | zero => exact inferInstanceAs (Restoring (watched admitted alarm (ofGrammar _)))
  | succ levels induction =>
      exact inferInstanceAs (Restoring (watched admitted alarm (inBody (watched admitted alarm
        (checkDepth dialect >>= fun _ =>
          many (watched admitted alarm (node dialect (watchedNodes dialect admitted alarm levels))))))))

end

/-- During the parse of a source the counters come to these values: whatever the alarm is that is
set for them, the parse ends with it. -/
def Meets [Room] (dialect : Dialect) (source : Source) (counters : Counters) : Prop :=
  ∀ alarm, (watchedDocument dialect (fun values => values != counters) alarm .zero
    (.start source.chars)).1 = .failed alarm

/-! ## Bounds -/

section

variable {dialect : Dialect} {admitted : Counters → Bool} (alarm : Failure)

/-- Where a body is opened, the body around it is none too many. So no alarm is raised that is set
for values out of bounds only. -/
theorem under_watchedNodes
    (admits : ∀ counters : Counters, counters.Bounded dialect.maxDepth → admitted counters = true)
    (levels : Nat) {counters : Counters} (bounded : counters.Bounded dialect.maxDepth)
    (enough : counters.depth ≤ dialect.maxDepth) :
    (watchedNodes dialect admitted alarm levels).under counters =
      (nodesWithin dialect levels).under counters := by
  induction levels generalizing counters with
  | zero => exact under_watched alarm _ (admits counters bounded)
  | succ levels induction =>
      have inside : counters.enterBody.Bounded dialect.maxDepth :=
        ⟨bounded.loopDepth_nonneg, Int.add_nonneg bounded.depth_nonneg Int.one_nonneg,
          Int.add_le_add_right enough 1⟩
      rw [watchedNodes, nodesWithin, under_watched alarm _ (admits counters bounded), under_inBody,
        under_inBody, under_watched alarm _ (admits _ inside), under_bind, under_bind]
      funext cursor
      rw [Grammar.bind_apply, Grammar.bind_apply]
      have checked : (checkDepth dialect).under counters.enterBody cursor =
          if counters.enterBody.tooDeep dialect.maxDepth then
            .failed (.malformed (.nestingLimit dialect.maxDepth) cursor.skipSpaces.offset)
          else .matched () cursor := by
        unfold under
        rw [checkDepth_apply]
        split <;> rfl
      rw [checked]
      cases deep : counters.enterBody.tooDeep dialect.maxDepth with
      | true => rfl
      | false =>
          have enough' : counters.enterBody.depth ≤ dialect.maxDepth :=
            Int.not_lt.mp (of_decide_eq_false deep)
          have bodies (part : Part) :
              (watchedNodes dialect admitted alarm levels).under
                  (counters.enterBody.atPart part) =
                (nodesWithin dialect levels).under (counters.enterBody.atPart part) := by
            cases part
            case loopBody =>
                exact induction ⟨Int.add_nonneg inside.loopDepth_nonneg Int.one_nonneg,
                  inside.depth_nonneg, inside.depth_le⟩ enough'
            all_goals exact induction inside enough'
          simp only [under_many, under_watched alarm _ (admits _ inside), under_node, bodies]

theorem watchedDocument_eq
    (admits : ∀ counters : Counters, counters.Bounded dialect.maxDepth → admitted counters = true)
    (cursor : Cursor) :
    watchedDocument dialect admitted alarm .zero cursor = document dialect .zero cursor := by
  have bounded : Counters.zero.Bounded dialect.maxDepth :=
    ⟨Int.le_refl 0, Int.le_refl 0, Int.add_nonneg (Int.natCast_nonneg _) Int.one_nonneg⟩
  have same : (watchedNodes dialect admitted alarm (dialect.maxDepth + 1)).under .zero =
      (nodesWithin dialect (dialect.maxDepth + 1)).under .zero :=
    under_watchedNodes alarm admits _ bounded (Int.natCast_nonneg _)
  rw [watchedDocument, document, nodes, bind_apply, bind_apply,
    apply_eq_under (watchedNodes dialect admitted alarm (dialect.maxDepth + 1)),
    apply_eq_under (nodesWithin dialect (dialect.maxDepth + 1)), congrFun same cursor]

end

/-- What the parse of a source meets is within bounds. -/
theorem Meets.bounded {dialect : Dialect} {source : Source} {counters : Counters}
    (meets : Meets dialect source counters) : counters.Bounded dialect.maxDepth := by
  apply Classical.byContradiction
  intro outside
  have admits (values : Counters) (bounded : values.Bounded dialect.maxDepth) :
      (values != counters) = true := by
    rw [bne_iff_ne]
    rintro rfl
    exact outside bounded
  -- The parse itself would end with every alarm.
  have ended (alarm : Failure) :
      (document dialect .zero (.start source.chars)).1 = .failed alarm := by
    rw [← watchedDocument_eq alarm admits]
    exact meets alarm
  have same := (ended (.tooDeep 0)).symm.trans (ended (.malformed .unexpectedInput 0))
  cases same

/-! ## All rules -/

/-- Whatever the counters are where a rule is tried, they are the same behind it, whatever has become
of it. -/
structure KeepsCounters [Room] (dialect : Dialect) : Prop where
  grammar {α : Type} (rule : Grammar α) : Restoring (ofGrammar rule)
  nodes (levels : Nat) : Restoring (nodesWithin dialect levels)
  node (levels : Nat) : Restoring (node dialect (nodesWithin dialect levels))
  statement (levels : Nat) : Restoring (statement dialect (nodesWithin dialect levels))
  statementRest (levels : Nat) (opened : OpenedTag) (keyword : Keyword) :
    Restoring (statementRest dialect (nodesWithin dialect levels) opened keyword)
  elseIfBranch (levels : Nat) : Restoring (elseIfBranch dialect (nodesWithin dialect levels))
  elseBranch (levels : Nat) : Restoring (elseBranch dialect (nodesWithin dialect levels))
  loopRest (levels : Nat) (opened : OpenedTag) :
    Restoring (loopRest dialect (nodesWithin dialect levels) opened)
  whenArm (levels : Nat) : Restoring (whenArm dialect (nodesWithin dialect levels))
  elseArm (levels : Nat) : Restoring (elseArm dialect (nodesWithin dialect levels))
  document : Restoring (document dialect)

/-- Every rule leaves the counters as it found them on every way out of it. So they are zero behind a
parse, and while it goes on they stay within their bounds. -/
theorem counters_kept_and_bounded (dialect : Dialect) :
    KeepsCounters dialect ∧ ∀ source : Source,
      (document dialect .zero (.start source.chars)).2 = .zero ∧
        ∀ counters, Meets dialect source counters →
          0 ≤ counters.loopDepth ∧ 0 ≤ counters.depth ∧ counters.depth ≤ dialect.maxDepth + 1 := by
  have kept : KeepsCounters dialect :=
    { grammar := fun _ => inferInstance
      nodes := fun _ => inferInstance
      node := fun _ => inferInstance
      statement := fun _ => inferInstance
      statementRest := fun _ _ _ => inferInstance
      elseIfBranch := fun _ => inferInstance
      elseBranch := fun _ => inferInstance
      loopRest := fun _ _ => inferInstance
      whenArm := fun _ => inferInstance
      elseArm := fun _ => inferInstance
      document := by
        unfold Parser.document Parser.nodes
        infer_instance }
  refine ⟨kept, fun source => ⟨kept.document.restores _ _, fun counters meets => ?_⟩⟩
  have bounded := meets.bounded
  exact ⟨bounded.loopDepth_nonneg, bounded.depth_nonneg, bounded.depth_le⟩

/-- A body that is one too many is counted before it ends the parse, and not behind it. -/
theorem counters_kept_and_bounded_too_deep :
    let _ : Room := ⟨20⟩
    ∃ (dialect : Dialect) (source : Source), dialect.maxDepth = 1 ∧ Meets dialect source ⟨1, 2⟩ ∧
      (2 : Int) ≤ dialect.maxDepth + 1 ∧ document dialect .zero (.start source.chars) =
        (.failed (.malformed (.nestingLimit 1) 16), .zero) := by
  intro room
  have meets : Meets { Dialect.standard with maxDepth := 1, maxDepth_pos := Nat.one_pos }
      ⟨"\x7b% for x in y %\x7d\x7b% endfor %\x7d", none, none⟩ ⟨1, 2⟩ := fun _ => rfl
  rcases (counters_kept_and_bounded _).2 _ with ⟨kept, bounded⟩
  exact ⟨_, _, rfl, meets, (bounded _ meets).2.2, Prod.ext rfl kept⟩

end Parser

end Templating

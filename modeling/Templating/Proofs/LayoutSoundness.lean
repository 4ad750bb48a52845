import Templating.Proofs.Layout

/-! # What has been read is laid out

Every rule for a body yields nodes that are laid out between the places where it began and where it
ended. The parts of a construct are put together from its end: what stands behind a body is laid
out as a list of sections, and each rule for a branch or an arm puts one more in front. -/

namespace Templating.Scoped

variable {room : Room}

open Grammar

variable {α : Type} {dialect : Dialect} {opened : OpenedTag} {keyword : Keyword} {node : Node}
  {nodes : List Node} {bodies : List (List Node)} {origin cursor middle later : Cursor}

/-- The rule yields bodies that are laid out where it reads them. -/
def Lays [Room] (dialect : Dialect) (body : Grammar (List Node)) : Prop :=
  ∀ ⦃cursor nodes later⦄, body cursor = .matched nodes later → Laid dialect (.body nodes) cursor later

/-- The rule reads a tag and a body, and what follows a body may follow that one. -/
def LaysSection [Room] (dialect : Dialect) (nodes : α → List Node) (rule : Grammar α) : Prop :=
  ∀ ⦃cursor value middle⦄, rule cursor = .matched value middle →
    ∀ ⦃bodies later⦄, Laid dialect (.sections bodies) middle later →
      Laid dialect (.sections (nodes value :: bodies)) cursor later

section

variable {nodes : α → List Node} {rule : Grammar α} (lays : LaysSection dialect nodes rule)

include lays

theorem LaysSection.many {values : List α} (matched : many rule cursor = .matched values middle)
    (rest : Laid dialect (.sections bodies) middle later) :
    Laid dialect (.sections (values.map nodes ++ bodies)) cursor later := by
  have repeated := repeated_of_many matched
  clear matched
  induction repeated with
  | nil => exact rest
  | cons first _ induction => exact lays first (induction rest)

theorem LaysSection.optional {value : Option α}
    (matched : Grammar.optional rule cursor = .matched value middle)
    (rest : Laid dialect (.sections bodies) middle later) :
    Laid dialect (.sections (value.toList.map nodes ++ bodies)) cursor later := by
  rcases optional_eq_matched.mp matched with ⟨value, rfl, read⟩ | ⟨rfl, rfl, _⟩
  · exact lays read rest
  · exact rest

end

/-! ## Tags -/

theorem tagRest_eq_matched {right : Option Trim} :
    tagRest dialect cursor = .matched right later ↔
      ∃ middle, edge cursor = .matched right middle ∧ tagEnd dialect middle = .matched () later := by
  simp only [tagRest, bind_eq_matched, pure_eq_matched]
  constructor
  · intro matched
    rcases matched with ⟨_, middle, marked, _, _, ended, rfl, rfl⟩
    exact ⟨middle, marked, ended⟩
  · intro matched
    rcases matched with ⟨middle, marked, ended⟩
    exact ⟨right, middle, marked, (), later, ended, rfl, rfl⟩

/-- The tag that ends a statement with bodies. Its last characters are read by the rule for
statements. -/
theorem laid_closing {opener closer : String} {start : Nat} {trim right : Option Trim}
    {first second third : Cursor}
    (closed : endTag dialect opener closer start cursor = .matched trim first)
    (continues : Continues closer first second) (marked : edge second = .matched right third)
    (ended : tagEnd dialect third = .matched () later) :
    Laid dialect (.sections []) cursor later := by
  rcases (endTag_eq_matched dialect).mp closed with ⟨_, begun, _⟩
  exact .closing (.intro begun continues (tagRest_eq_matched.mpr ⟨third, marked, ended⟩))

/-! ## Branches and arms -/

section

variable {body alternative : Grammar (List Node)} (lays : Lays dialect body)

include lays

theorem elseIfBranch_laid : LaysSection dialect Branch.body (elseIfBranch dialect body) := by
  intro cursor branch middle matched bodies later rest
  simp only [elseIfBranch, bind_eq_matched, pure_eq_matched] at matched
  rcases matched with ⟨_, _, begun, _, _, word, condition, _, condition_read, _, _, tag_ended,
    nodes, _, inside, rfl, rfl⟩
  exact .further (.intro begun (.condition word condition_read) tag_ended) (lays inside) rest

theorem elseBranch_laid : LaysSection dialect Branch.body (elseBranch dialect body) := by
  intro cursor branch middle matched bodies later rest
  simp only [elseBranch, bind_eq_matched, pure_eq_matched] at matched
  rcases matched with ⟨_, _, begun, _, _, tag_ended, nodes, _, inside, rfl, rfl⟩
  exact .further (.intro begun (.plain _ (by decide)) tag_ended) (lays inside) rest

theorem whenArm_laid : LaysSection dialect Arm.body (whenArm dialect body) := by
  intro cursor arm middle matched bodies later rest
  simp only [whenArm, bind_eq_matched, expect_eq_matched, pure_eq_matched] at matched
  rcases matched with ⟨_, _, begun, pattern, _, pattern_read, _, _, tag_ended, nodes, _, inside,
    rfl, rfl⟩
  exact .further (.intro begun (.pattern pattern_read) tag_ended) (lays inside) rest

theorem elseArm_laid : LaysSection dialect Arm.body (elseArm dialect body) := by
  intro cursor arm middle matched bodies later rest
  simp only [elseArm, bind_eq_matched, pure_eq_matched] at matched
  rcases matched with ⟨_, _, begun, _, _, tag_ended, nodes, _, inside, rfl, rfl⟩
  exact .further (.intro begun (.plain _ (by decide)) tag_ended) (lays inside) rest

theorem laterArms_laid {otherwise : Option Arm} {arms : List Arm}
    (matched : laterArms dialect body otherwise cursor = .matched arms middle)
    (rest : Laid dialect (.sections bodies) middle later) :
    Laid dialect (.sections (arms.map Arm.body ++ bodies)) cursor later := by
  cases otherwise with
  | none =>
      rcases pure_eq_matched.mp matched with ⟨rfl, rfl⟩
      exact rest
  | some arm => exact (whenArm_laid lays).many matched rest

/-! ## Constructs -/

theorem conditional_laid
    (begun : Parser.statementStart dialect origin = .matched (opened, .conditional) cursor)
    (matched : conditional dialect body opened cursor = .matched node middle)
    (ended : tagEnd dialect middle = .matched () later) :
    node.offset = opened.offset ∧ Laid dialect (.node node) origin later := by
  simp only [conditional, bind_eq_matched, pure_eq_matched, Parser.rejectElse_eq_matched] at matched
  rcases matched with ⟨condition, _, condition_read, right, _, tag_ended, first, _, first_read,
    others, _, others_read, last, _, last_read, _, _, ⟨_, rfl⟩, _, _, closed, _, _, marked, rfl, rfl⟩
  have closing := laid_closing closed (.plain _ (by decide)) marked ended
  have rest := (elseIfBranch_laid lays).many others_read
    ((elseBranch_laid lays).optional last_read closing)
  rw [List.append_nil, ← List.map_append] at rest
  exact ⟨rfl, .construct (.conditional _ _ _) (.intro begun (.conditional condition_read) tag_ended)
    (lays first_read) rest⟩

theorem loop_laid (lays' : Lays dialect alternative)
    (begun : Parser.statementStart dialect origin = .matched (opened, .loop) cursor)
    (matched : loop dialect body opened alternative cursor = .matched node middle)
    (ended : tagEnd dialect middle = .matched () later) :
    node.offset = opened.offset ∧ Laid dialect (.node node) origin later := by
  simp only [loop, bind_eq_matched, pure_eq_matched, expect_eq_matched] at matched
  rcases matched with ⟨pattern, _, pattern_read, _, _, word, iterable, _, iterable_read, _, _,
    guard_read, right, _, tag_ended, nodes, _, inside, rest, _, rest_read, rfl, rfl⟩
  have opening := Opening.intro begun (.loop pattern_read word iterable_read guard_read) tag_ended
  simp only [loopRest, orElse_eq_matched, bind_eq_matched, pure_eq_matched,
    missingEndTag_ne_matched, and_false, or_false] at rest_read
  rcases rest_read with ⟨_, _, closed, _, _, marked, rfl, rfl⟩ | ⟨_, _, _, begun', _, _, tag_ended',
    nodes', _, inside', _, _, closed, _, _, marked, rfl, rfl⟩
  · have rest := tagRest_eq_matched.mpr ⟨_, marked, ended⟩
    exact ⟨rfl, .construct (.loop _ _ _ _ _ _ _ _) opening (lays inside)
      (.closing (.intro closed (.plain _ (by decide)) rest))⟩
  · have closing := laid_closing closed (.plain _ (by decide)) marked ended
    exact ⟨rfl, .construct (.loopElse _ _ _ _ _ _ _ _ _) opening (lays inside)
      (.further (.intro begun' (.plain _ (by decide)) tag_ended') (lays' inside') closing)⟩

theorem choice_laid
    (begun : Parser.statementStart dialect origin = .matched (opened, .choice) cursor)
    (matched : choice dialect body opened cursor = .matched node middle)
    (ended : tagEnd dialect middle = .matched () later) :
    node.offset = opened.offset ∧ Laid dialect (.node node) origin later := by
  simp only [choice, bind_eq_matched, pure_eq_matched, expect_eq_matched,
    Parser.rejectElse_eq_matched, Parser.requireArm_eq_matched] at matched
  rcases matched with ⟨subject, _, subject_read, right, _, tag_ended, _, _, skipped, before, _,
    before_read, otherwise, _, otherwise_read, after, _, after_read, _, _, ⟨_, rfl⟩, _, _, ⟨_, rfl⟩,
    _, _, closed, _, _, marked, rfl, rfl⟩
  have closing := laid_closing closed (.plain _ (by decide)) marked ended
  have rest := (whenArm_laid lays).many before_read
    ((elseArm_laid lays).optional otherwise_read (laterArms_laid lays after_read closing))
  rw [List.append_nil, ← List.append_assoc, ← List.map_append, ← List.map_append] at rest
  exact ⟨rfl, .choice (.intro begun (.choice subject_read) tag_ended) skipped rest⟩

theorem block_laid
    (begun : Parser.statementStart dialect origin = .matched (opened, .block) cursor)
    (matched : block dialect body opened cursor = .matched node middle)
    (ended : tagEnd dialect middle = .matched () later) :
    node.offset = opened.offset ∧ Laid dialect (.node node) origin later := by
  simp only [block, bind_eq_matched, pure_eq_matched, expect_eq_matched] at matched
  rcases matched with ⟨name, _, named, right, _, tag_ended, nodes, _, inside, _, _, closed, _, _,
    named', _, _, marked, rfl, rfl⟩
  exact ⟨rfl, .construct (.block _ _ _ _ _) (.intro begun (.block named) tag_ended) (lays inside)
    (laid_closing closed (.name (by decide) named') marked ended)⟩

theorem macroDef_laid
    (begun : Parser.statementStart dialect origin = .matched (opened, .macroDef) cursor)
    (matched : macroDef dialect body opened cursor = .matched node middle)
    (ended : tagEnd dialect middle = .matched () later) :
    node.offset = opened.offset ∧ Laid dialect (.node node) origin later := by
  simp only [macroDef, bind_eq_matched, pure_eq_matched, expect_eq_matched, here_eq_matched,
    Parser.checkMacroName_eq_matched] at matched
  rcases matched with ⟨_, _, blanks, _, _, ⟨rfl, rfl⟩, name, _, named, _, _, ⟨_, rfl⟩, parameters, _,
    listed, right, _, tag_ended, nodes, _, inside, _, _, closed, _, _, named', _, _, marked, rfl, rfl⟩
  exact ⟨rfl, .construct (.macroDef _ _ _ _ _ _) (.intro begun (.macroDef blanks named listed)
    tag_ended) (lays inside) (laid_closing closed (.name (by decide) named') marked ended)⟩

end

/-! ## Statements and bodies -/

section

variable {inLoop : Bool} {bodies : Part → Grammar (List Node)}

/-- A statement without bodies begins where its tag does. -/
theorem statementRest_offset (single : keyword.opensBody = false)
    (matched : statementRest dialect opened inLoop bodies keyword cursor = .matched node later) :
    node.offset = opened.offset := by
  cases keyword with
  | conditional | loop | choice | block | macroDef => cases single
  | call => exact (Parser.plain_of_macroCall matched).1
  | letBinding | setBinding => exact (Parser.plain_of_assignment matched).1
  | extendTemplate => exact (Parser.plain_of_extension matched).1
  | includeTemplate => exact (Parser.plain_of_inclusion matched).1
  | importMacros => exact (Parser.plain_of_importation matched).1
  | raw => exact (Parser.plain_of_raw matched).1
  | breakLoop | continueLoop =>
      simp only [statementRest, loopControl] at matched
      split at matched
      case isTrue =>
          simp only [bind_eq_matched, pure_eq_matched] at matched
          rcases matched with ⟨_, _, _, rfl, _⟩
          rfl
      case isFalse => cases matched

variable (lays : ∀ part, Lays dialect (bodies part))

include lays

theorem statement_laid
    (matched : statement dialect inLoop bodies cursor = .matched node later) :
    node.offset = cursor.offset ∧ Laid dialect (.node node) cursor later := by
  simp only [statement, bind_eq_matched, pure_eq_matched] at matched
  rcases matched with ⟨⟨opened, keyword⟩, _, begun, _, _, read, _, _, ended, rfl, rfl⟩
  have begins := Parser.statementStart_offset begun
  rw [← begins]
  cases single : keyword.opensBody with
  | false => exact ⟨statementRest_offset single read, .leaf (.statement begun single read ended)⟩
  | true =>
      cases keyword with
      | conditional => exact conditional_laid (lays .branch) begun read ended
      | loop => exact loop_laid (lays .loopBody) (lays .alternative) begun read ended
      | choice => exact choice_laid (lays .arm) begun read ended
      | block => exact block_laid (lays .block) begun read ended
      | macroDef => exact macroDef_laid (lays .macroBody) begun read ended
      | _ => cases single

theorem node_laid (matched : Scoped.node dialect inLoop bodies cursor = .matched node later) :
    node.offset = cursor.offset ∧ Laid dialect (.node node) cursor later := by
  simp only [Scoped.node, orElse_eq_matched] at matched
  rcases matched with read | ⟨_, read | ⟨_, read | ⟨_, read⟩⟩⟩
  · exact ⟨(Parser.plain_of_text read).1, .text read⟩
  · exact ⟨(Parser.plain_of_comment read).1, .leaf (.comment read)⟩
  · exact ⟨(Parser.plain_of_output read).1, .leaf (.output read)⟩
  · exact statement_laid lays read

end

/-- Every body is laid out where it has been read, by induction on the levels of bodies inside
it. -/
theorem nodesWithin_laid (dialect : Dialect) (outside : Counters) (levels : Nat)
    (scope : List Part) : Lays dialect (nodesWithin dialect outside levels scope) := by
  induction levels generalizing scope with
  | zero => exact nofun
  | succ levels induction =>
      intro cursor nodes later matched
      rw [nodesWithin] at matched
      split at matched
      case isTrue => cases matched
      case isFalse =>
          have repeated := repeated_of_many matched
          clear matched
          induction repeated with
          | nil => exact .nil _
          | cons first _ others =>
              rcases node_laid (fun part => induction (part :: scope)) first with ⟨begins, laid⟩
              exact .cons begins laid others

end Templating.Scoped

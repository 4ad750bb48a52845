import Templating.Proofs.ConditionGrammar
import Templating.Proofs.PatternGrammar
import Templating.Proofs.TagForm

/-! # Sections of constructs

The branches of a conditional and the arms of a choice are sections of the source, one behind the
other, each with a tag and a body of its own. A tag inside a body belongs to the construct that the
body holds: the body goes on behind that construct, and only the tag where it ends begins the next
section. -/

namespace Templating

variable {room : Room}

open Text Grammar

variable {α : Type} {dialect : Dialect} {cursor middle later : Cursor} {left right : Option Trim}
  {opened : OpenedTag} {word : String} {heading : (text rest : List Char) → Prop}
  {body : Grammar (List Node)} {nodes : List Node} {text named rest : List Char}

/-- What the rule yields stands where it has been read. -/
def Grammar.Finds (rule : Grammar α) (stands : α → Cursor → Cursor → Prop) : Prop :=
  ∀ ⦃cursor value later⦄, rule cursor = .matched value later → stands value cursor later

/-! ## What stands one behind the other -/

/-- Each value stands where the one before it ends. -/
inductive Consecutive (stands : α → Cursor → Cursor → Prop) : List α → Cursor → Cursor → Prop
  | nil (cursor : Cursor) : Consecutive stands [] cursor cursor
  | cons {value : α} {values : List α} {cursor middle later : Cursor} :
      stands value cursor middle → Consecutive stands values middle later →
      Consecutive stands (value :: values) cursor later

namespace Consecutive

variable {stands : α → Cursor → Cursor → Prop} {rule : Grammar α} {values : List α}

theorem of_many (finds : Finds rule stands) (matched : many rule cursor = .matched values later) :
    Consecutive stands values cursor later := by
  have repeated := repeated_of_many matched
  clear matched
  induction repeated with
  | nil => exact .nil _
  | cons first _ induction => exact .cons (finds first) induction

theorem of_optional {found : Option α} (finds : Finds rule stands)
    (matched : optional rule cursor = .matched found later) :
    Consecutive stands found.toList cursor later := by
  rcases optional_eq_matched.mp matched with ⟨_, rfl, read⟩ | ⟨rfl, rfl, _⟩
  · exact .cons (finds read) (.nil _)
  · exact .nil _

theorem exists_of_mem (consecutive : Consecutive stands values cursor later) {value : α}
    (member : value ∈ values) : ∃ begun ended, stands value begun ended := by
  induction consecutive with
  | nil => cases member
  | cons first _ induction =>
      rcases List.mem_cons.mp member with rfl | member
      · exact ⟨_, _, first⟩
      · exact induction member

/-- What the values begin at increases from one to the next. -/
theorem ordered {offset : α → Nat}
    (begins : ∀ ⦃value cursor later⦄, stands value cursor later →
      offset value = cursor.offset ∧ cursor.offset < later.offset)
    (consecutive : Consecutive stands values cursor later) :
    cursor.offset ≤ later.offset ∧
      (∀ value ∈ values, cursor.offset ≤ offset value ∧ offset value < later.offset) ∧
      values.Pairwise (offset · < offset ·) := by
  induction consecutive with
  | nil => exact ⟨Nat.le_refl _, List.forall_mem_nil _, .nil⟩
  | cons first _ induction =>
      rcases begins first with ⟨same, further⟩
      rcases induction with ⟨order, bounds, pairwise⟩
      refine ⟨by omega, ?_, .cons (fun value member => ?_) pairwise⟩
      · rintro value member
        rcases List.mem_cons.mp member with rfl | member
        · omega
        · have := bounds value member
          omega
      · have := bounds value member
        omega

end Consecutive

/-! ## Sections -/

/-- The rule for bodies has read these nodes between the two cursors. -/
def BodyBetween [Room] (dialect : Dialect) (nodes : List Node) (cursor later : Cursor) : Prop :=
  ∃ levels counters, (Parser.nodesWithin dialect levels counters cursor).1 = .matched nodes later

/-- A tag with this word and these markers begins at the offset, and a body goes on from its end. The
heading is what stands between the word and the end of the tag. -/
structure SectionBetween [Room] (dialect : Dialect) (word : String)
    (heading : (text rest : List Char) → Prop) (offset : Nat) (edges : Edges) (nodes : List Node)
    (cursor later : Cursor) : Prop where
  begins : offset = cursor.offset
  written : ∃ named last begun, TagOpensAt dialect edges.left word cursor.rest named ∧
    heading named last ∧ TagEndsAt dialect edges.right last begun.rest ∧ cursor.Passes begun ∧
      BodyBetween dialect nodes begun later

theorem bodyBetween_of_scoped {outside : Counters} {levels : Nat} {part : Part} {scope : List Part}
    (matched : Scoped.nodesWithin dialect outside levels (part :: scope) cursor =
      .matched nodes later) : BodyBetween dialect nodes cursor later := by
  rw [← Parser.under_nodesWithin] at matched
  exact ⟨_, _, matched⟩

theorem BodyBetween.reaches (between : BodyBetween dialect nodes cursor later) :
    cursor.Reaches later := by
  rcases between with ⟨levels, counters, matched⟩
  rw [← Parser.under, Parser.under_nodesWithin_template] at matched
  exact Advancing.reaches matched

namespace SectionBetween

variable {offset : Nat} {edges : Edges}

theorem spans (between : SectionBetween dialect word heading offset edges nodes cursor later) :
    offset = cursor.offset ∧ cursor.offset < later.offset := by
  rcases between with ⟨begins, _, _, _, _, _, _, passes, inside⟩
  exact ⟨begins, (passes.trans_reaches inside.reaches).offset_lt⟩

theorem headed (between : SectionBetween dialect word heading offset edges nodes cursor later) :
    ∃ named last, heading named last := by
  rcases between.written with ⟨named, last, _, _, headed, _⟩
  exact ⟨named, last, headed⟩

end SectionBetween

theorem sectionBetween_of_tagRest {first begun : Cursor} (reads : Finds body (BodyBetween dialect))
    (opens : TagOpensAt dialect left word cursor.rest named) (passes : cursor.Passes first)
    (reaches : first.Reaches middle) (headed : heading named middle.rest)
    (ended : tagRest dialect middle = .matched right begun)
    (inside : body begun = .matched nodes later) :
    SectionBetween dialect word heading cursor.offset ⟨left, right⟩ nodes cursor later where
  begins := rfl
  written := ⟨named, middle.rest, begun, opens, headed, tagRest_yields ended,
    passes.trans_reaches (reaches.trans (Advancing.reaches ended)), reads inside⟩

/-- A section whose tag begins inside a construct. -/
theorem sectionBetween_of_tag {first begun : Cursor} (reads : Finds body (BodyBetween dialect))
    (matched : tag dialect [word] cursor = .matched opened first) (reaches : first.Reaches middle)
    (headed : ∀ named, Gap named first.rest → heading named middle.rest)
    (ended : tagRest dialect middle = .matched right begun)
    (inside : body begun = .matched nodes later) :
    SectionBetween dialect word heading opened.offset ⟨opened.trim, right⟩ nodes cursor later := by
  rcases tag_yields matched with ⟨same, among, named, opens, gap, _⟩
  rw [List.mem_singleton.mp among] at opens
  rw [same]
  exact sectionBetween_of_tagRest reads opens (Consuming.passes matched) reaches (headed named gap)
    ended inside

/-- The tag that closes a construct, up to the end of the statement. -/
theorem tagAt_of_endTag {opener closer : String} {start : Nat} {first second third : Cursor}
    {found : Unit} (closed : endTag dialect opener closer start cursor = .matched left first)
    (marked : edge first = .matched right second)
    (ended : tagEnd dialect second = .matched found third) :
    TagAt dialect closer ⟨left, right⟩ cursor.rest third.rest := by
  rcases (endTag_eq_matched dialect).mp closed with ⟨opened, begun, rfl⟩
  rcases tag_yields begun with ⟨_, among, named, opens, gap, _⟩
  rw [List.mem_singleton.mp among] at opens
  refine ⟨named, first.rest, opens, gap, ?_⟩
  rw [TagEndsAt, ← (exact_eq_matched.mp (expect_eq_matched.mp ended)).1]
  exact (edge_eq_matched.mp marked).1

/-! ## Conditions -/

theorem Pattern.Padded.after {pattern : Pattern} (padded : pattern.Padded text rest)
    (gap : Gap named text) : pattern.Padded named rest := by
  rcases padded with ⟨start, last, before, spelled, behind⟩
  exact ⟨start, last, gap.trans before, spelled, behind⟩

theorem Expr.Padded.after {expression : Expr} (padded : expression.Padded text rest)
    (gap : Gap named text) : expression.Padded named rest := by
  rcases padded with ⟨start, last, before, spelled, behind⟩
  exact ⟨start, last, gap.trans before, spelled, behind⟩

/-- The pattern stands between the word of a binding and an equals sign. -/
def Pattern.BoundAt [Room] (pattern : Pattern) (text rest : List Char) : Prop :=
  ∃ word start behind sign, word ∈ ["let", "set"] ∧ Gap text start ∧ WordAt word start behind ∧
    pattern.Padded behind sign ∧ SymbolAt "=" sign rest

namespace Condition

/-- The condition stands between blanks: an expression, behind a pattern if it binds one. -/
def Padded [Room] (condition : Condition) (text rest : List Char) : Prop :=
  match condition.pattern with
  | none => condition.expression.Padded text rest
  | some pattern => ∃ value, pattern.BoundAt text value ∧ condition.expression.Padded value rest

theorem Padded.after {condition : Condition} (padded : condition.Padded text rest)
    (gap : Gap named text) : condition.Padded named rest := by
  rcases condition with ⟨offset, _ | pattern, expression⟩
  · exact Expr.Padded.after padded gap
  · rcases padded with ⟨value, ⟨word, start, behind, sign, among, before, bound⟩, padded⟩
    exact ⟨value, ⟨word, start, behind, sign, among, gap.trans before, bound⟩, padded⟩

end Condition

theorem binding_yields {pattern : Pattern} (matched : binding cursor = .matched pattern later) :
    ∃ value, pattern.BoundAt cursor.rest value ∧ Gap value later.rest := by
  simp only [binding, bindingWord, bound, bind_eq_matched, pure_eq_matched] at matched
  rcases matched with ⟨found, first, word, _, second, read, _, _, sign, rfl, rfl⟩
  rcases token_yields sign with ⟨value, equals, behind, _⟩
  have padded := (pattern_sound read).1
  rcases orElse_eq_matched.mp word with word | ⟨_, word⟩
  all_goals
    rcases keyword_yields word with ⟨rfl, start, bound, before, written, gap, _⟩
    exact ⟨value, ⟨_, start, bound, second.rest, by decide, before, written, padded.after gap, equals⟩,
      behind⟩

theorem condition_yields {condition : Condition}
    (matched : Grammar.condition cursor = .matched condition later) :
    condition.Padded cursor.rest later.rest := by
  simp only [condition_eq, bind_eq_matched, pure_eq_matched, expect_eq_matched, here_eq_matched]
    at matched
  rcases matched with ⟨_, _, ⟨rfl, rfl⟩, _, first, bound, expression, _, read, rfl, rfl⟩
  have padded := (expressionWithin_sound bracketLimit read).1
  rcases optional_eq_matched.mp bound with ⟨_, rfl, binds⟩ | ⟨rfl, rfl, _⟩
  · rcases binding_yields binds with ⟨value, bound, gap⟩
    exact ⟨value, bound, padded.after gap⟩
  · exact padded

/-! ## Conditionals -/

namespace Branch

/-- The condition of the branch stands between blanks. -/
def Tests [Room] (branch : Branch) (text rest : List Char) : Prop :=
  ∃ condition, branch.condition = some condition ∧ condition.Padded text rest

/-- The branch begins with the tag of its conditional. -/
def FirstBetween [Room] (dialect : Dialect) (branch : Branch) (cursor later : Cursor) : Prop :=
  SectionBetween dialect "if" branch.Tests branch.offset branch.edges branch.body cursor later

/-- The branch begins with a tag that tests a condition of its own. -/
def ElseIfBetween [Room] (dialect : Dialect) (branch : Branch) (cursor later : Cursor) : Prop :=
  SectionBetween dialect "else"
    (fun text rest => ∃ start tested, Gap text start ∧ WordAt "if" start tested ∧
      branch.Tests tested rest) branch.offset branch.edges branch.body cursor later

def ElseBetween [Room] (dialect : Dialect) (branch : Branch) (cursor later : Cursor) : Prop :=
  branch.condition = none ∧
    SectionBetween dialect "else" Gap branch.offset branch.edges branch.body cursor later

end Branch

/-- A conditional stands at the cursor: its branches, one behind the other, and its closing tag. -/
def ConditionalAt [Room] (dialect : Dialect) (branches : List Branch) (closing : Edges) (cursor : Cursor) :
    Prop :=
  ∃ first others last second third fourth rest, branches = first :: others ++ Option.toList last ∧
    first.FirstBetween dialect cursor second ∧
    Consecutive (Branch.ElseIfBetween dialect) others second third ∧
    Consecutive (Branch.ElseBetween dialect) last.toList third fourth ∧
    TagAt dialect "endif" closing fourth.rest rest

theorem Branch.Tests.isSome {branch : Branch} (tests : branch.Tests text rest) :
    branch.condition.isSome = true := by
  rcases tests with ⟨condition, same, _⟩
  rw [same]
  rfl

namespace ConditionalAt

variable {branches : List Branch} {closing : Edges}

theorem first_tests (stands : ConditionalAt dialect branches closing cursor) :
    ∃ first others, branches = first :: others ∧ first.condition.isSome = true := by
  rcases stands with ⟨first, others, last, _, _, _, _, shape, tests, _⟩
  rcases tests.headed with ⟨_, _, tests⟩
  exact ⟨first, others ++ last.toList, shape, tests.isSome⟩

/-- Only the last branch may have no condition. -/
theorem others_test (stands : ConditionalAt dialect branches closing cursor) :
    ∀ branch ∈ branches.dropLast, branch.condition.isSome = true := by
  rcases stands with ⟨first, others, last, _, _, _, _, rfl, tests, further, _⟩
  have tested : ∀ branch ∈ first :: others, branch.condition.isSome = true := by
    intro branch among
    rcases List.mem_cons.mp among with rfl | among
    · rcases tests.headed with ⟨_, _, tests⟩
      exact tests.isSome
    · rcases further.exists_of_mem among with ⟨_, _, between⟩
      rcases between.headed with ⟨_, _, _, _, _, _, tests⟩
      exact tests.isSome
  intro branch among
  cases last with
  | none =>
      rw [Option.toList_none, List.append_nil] at among
      exact tested branch (List.dropLast_subset _ among)
  | some last =>
      rw [Option.toList_some, List.dropLast_concat] at among
      exact tested branch among

end ConditionalAt

/-! ## Choices -/

namespace Arm

def WhenBetween [Room] (dialect : Dialect) (arm : Arm) (cursor later : Cursor) : Prop :=
  SectionBetween dialect "when" arm.pattern.Padded arm.offset arm.edges arm.body cursor later

def ElseBetween [Room] (dialect : Dialect) (arm : Arm) (cursor later : Cursor) : Prop :=
  arm.pattern = .name arm.offset "_" ∧
    SectionBetween dialect "else" Gap arm.offset arm.edges arm.body cursor later

end Arm

/-- The arms stand one behind the other, and the one that is taken when no other is stands anywhere
among them. -/
def ArmsBetween [Room] (dialect : Dialect) (whens : List Arm) (otherwise : Option Arm)
    (cursor later : Cursor) : Prop :=
  ∃ before after first second, whens = before ++ after ∧
    Consecutive (Arm.WhenBetween dialect) before cursor first ∧
    Consecutive (Arm.ElseBetween dialect) otherwise.toList first second ∧
    Consecutive (Arm.WhenBetween dialect) after second later

/-- A choice stands at the cursor: its first tag, blanks and comments, its arms, and its closing
tag. -/
structure ChoiceAt [Room] (dialect : Dialect) (opening : Edges) (subject : Expr) (whens : List Arm)
    (otherwise : Option Arm) (closing : Edges) (cursor : Cursor) : Prop where
  nonempty : whens ≠ []
  written : ∃ named last begun first second rest,
    TagOpensAt dialect opening.left "match" cursor.rest named ∧
    subject.Padded named last ∧ TagEndsAt dialect opening.right last begun.rest ∧
    cursor.Passes begun ∧ skipComments dialect begun = .matched () first ∧
    ArmsBetween dialect whens otherwise first second ∧
    TagAt dialect "endmatch" closing second.rest rest

namespace ArmsBetween

variable {whens : List Arm} {otherwise : Option Arm}

/-- The arms that are taken for a pattern come in the order in which they are written. -/
theorem ordered (between : ArmsBetween dialect whens otherwise cursor later) :
    whens.Pairwise fun arm next => arm.offset < next.offset := by
  rcases between with ⟨before, after, first, second, rfl, front, other, back⟩
  rcases front.ordered fun _ _ _ between => between.spans with ⟨_, bounds, ascending⟩
  rcases other.ordered fun _ _ _ between => between.2.spans with ⟨order, _, _⟩
  rcases back.ordered fun _ _ _ between => between.spans with ⟨_, bounds', ascending'⟩
  refine List.pairwise_append.mpr ⟨ascending, ascending', ?_⟩
  intro arm member next member'
  have := bounds arm member
  have := bounds' next member'
  omega

theorem catches (between : ArmsBetween dialect whens otherwise cursor later) :
    ∀ arm ∈ otherwise, arm.pattern = .name arm.offset "_" := by
  rcases between with ⟨_, _, _, _, _, _, other, _⟩
  intro arm member
  rcases other.exists_of_mem (Option.mem_toList.mpr member) with ⟨_, _, same, _⟩
  exact same

end ArmsBetween

/-! ## What the rules for constructs read -/

namespace Scoped

variable {node : Node} {origin : Cursor} {found : Unit}

variable (reads : Finds body (BodyBetween dialect))

include reads

theorem elseIfBranch_stands :
    Finds (elseIfBranch dialect body) (Branch.ElseIfBetween dialect) := by
  intro cursor branch later matched
  simp only [elseIfBranch, bind_eq_matched, pure_eq_matched] at matched
  rcases matched with ⟨_, _, begun, _, _, word, _, _, condition, _, _, ended, _, _, inside, rfl, rfl⟩
  refine sectionBetween_of_tag reads begun
    ((Advancing.reaches word).trans (Advancing.reaches condition)) ?_ ended inside
  intro named gap
  rcases keyword_yields word with ⟨_, start, tested, before, written, gap', _⟩
  exact ⟨start, tested, gap.trans before, written, _, rfl, (condition_yields condition).after gap'⟩

theorem elseBranch_stands : Finds (elseBranch dialect body) (Branch.ElseBetween dialect) := by
  intro cursor branch later matched
  simp only [elseBranch, bind_eq_matched, pure_eq_matched] at matched
  rcases matched with ⟨_, _, begun, _, _, ended, _, _, inside, rfl, rfl⟩
  exact ⟨rfl, sectionBetween_of_tag reads begun (.refl _) (fun _ gap => gap) ended inside⟩

theorem whenArm_stands : Finds (whenArm dialect body) (Arm.WhenBetween dialect) := by
  intro cursor arm later matched
  simp only [whenArm, bind_eq_matched, pure_eq_matched, expect_eq_matched] at matched
  rcases matched with ⟨_, _, begun, _, _, pattern, _, _, ended, _, _, inside, rfl, rfl⟩
  exact sectionBetween_of_tag reads begun (Advancing.reaches pattern)
    (fun _ gap => (pattern_sound pattern).1.after gap) ended inside

theorem elseArm_stands : Finds (elseArm dialect body) (Arm.ElseBetween dialect) := by
  intro cursor arm later matched
  simp only [elseArm, bind_eq_matched, pure_eq_matched] at matched
  rcases matched with ⟨_, _, begun, _, _, ended, _, _, inside, rfl, rfl⟩
  exact ⟨rfl, sectionBetween_of_tag reads begun (.refl _) (fun _ gap => gap) ended inside⟩

theorem laterArms_stand {otherwise : Option Arm} {arms : List Arm}
    (matched : laterArms dialect body otherwise cursor = .matched arms later) :
    Consecutive (Arm.WhenBetween dialect) arms cursor later := by
  cases otherwise with
  | none =>
      rcases pure_eq_matched.mp matched with ⟨rfl, rfl⟩
      exact .nil _
  | some _ => exact .of_many (whenArm_stands reads) matched

theorem conditional_stands
    (begun : Parser.statementStart dialect origin = .matched (opened, .conditional) cursor)
    (matched : conditional dialect body opened cursor = .matched node middle)
    (ended : tagEnd dialect middle = .matched found later) :
    ∃ branches closing, node = .conditional origin.offset branches closing ∧
      ConditionalAt dialect branches closing origin := by
  have begins := Parser.statementStart_offset begun
  rcases statementStart_yields begun with ⟨named, opens, gap, _⟩
  simp only [conditional, bind_eq_matched, pure_eq_matched, Parser.rejectElse_eq_matched] at matched
  rcases matched with ⟨condition, _, condition_read, right, _, tag_ended, nodes, _, inside, others, _,
    others_read, last, _, last_read, _, _, ⟨_, rfl⟩, _, _, closed, _, _, marked, rfl, rfl⟩
  rw [begins]
  refine ⟨_, _, rfl, ?_⟩
  have tests : Branch.Tests ⟨origin.offset, ⟨opened.trim, right⟩, some condition, nodes⟩ named _ :=
    ⟨condition, rfl, (condition_yields condition_read).after gap⟩
  have first : Branch.FirstBetween dialect
      ⟨origin.offset, ⟨opened.trim, right⟩, some condition, nodes⟩ origin _ :=
    sectionBetween_of_tagRest reads opens (Consuming.passes begun) (Advancing.reaches condition_read)
      tests tag_ended inside
  have further : Consecutive (Branch.ElseIfBetween dialect) others _ _ :=
    .of_many (elseIfBranch_stands reads) others_read
  have alternative : Consecutive (Branch.ElseBetween dialect) last.toList _ _ :=
    .of_optional (elseBranch_stands reads) last_read
  exact ⟨_, others, last, _, _, _, _, rfl, first, further, alternative,
    tagAt_of_endTag closed marked ended⟩

theorem choice_stands
    (begun : Parser.statementStart dialect origin = .matched (opened, .choice) cursor)
    (matched : choice dialect body opened cursor = .matched node middle)
    (ended : tagEnd dialect middle = .matched found later) :
    ∃ opening subject whens otherwise closing,
      node = .choice origin.offset opening subject (whens ++ Option.toList otherwise) closing ∧
        ChoiceAt dialect opening subject whens otherwise closing origin := by
  have begins := Parser.statementStart_offset begun
  rcases statementStart_yields begun with ⟨named, opens, gap, _⟩
  simp only [choice, bind_eq_matched, pure_eq_matched, expect_eq_matched,
    Parser.rejectElse_eq_matched, Parser.requireArm_eq_matched] at matched
  rcases matched with ⟨subject, _, subject_read, _, _, tag_ended, _, _, skipped, before, _,
    before_read, otherwise, _, otherwise_read, after, _, after_read, _, _, ⟨_, rfl⟩, _, _,
    ⟨nonempty, rfl⟩, _, _, closed, _, _, marked, rfl, rfl⟩
  rw [begins]
  refine ⟨_, subject, before ++ after, otherwise, _, rfl, nonempty, ?_⟩
  have front : Consecutive (Arm.WhenBetween dialect) before _ _ :=
    .of_many (whenArm_stands reads) before_read
  have other : Consecutive (Arm.ElseBetween dialect) otherwise.toList _ _ :=
    .of_optional (elseArm_stands reads) otherwise_read
  have arms : ArmsBetween dialect (before ++ after) otherwise _ _ :=
    ⟨before, after, _, _, rfl, front, other, laterArms_stand reads after_read⟩
  have padded := (expressionWithin_sound bracketLimit subject_read).1
  exact ⟨named, _, _, _, _, _, opens, padded.after gap, tagRest_yields tag_ended,
    (Consuming.passes begun).trans_reaches
      ((Advancing.reaches subject_read).trans (Advancing.reaches tag_ended)), skipped, arms,
    tagAt_of_endTag closed marked ended⟩

end Scoped

end Templating

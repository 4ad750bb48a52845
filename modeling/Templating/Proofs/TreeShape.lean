import Templating.Proofs.NodesRead
import Templating.Proofs.Sections

/-! # The shape of trees

What every node of a template is made of, whatever the source. What the rule for nodes yields has
this shape, and every node of a template has been read by that rule. -/

namespace Templating

variable {room : Room}

open Text Grammar

variable {dialect : Dialect} {cursor middle later : Cursor} {opened : OpenedTag}
  {body : Grammar (List Node)}

/-! ## Nodes -/

/-- The tag that names a parent, without markers. -/
def ExtensionAt (dialect : Dialect) (template : String) (text : List Char) : Prop :=
  ∃ named quoted last rest, TagOpensAt dialect none "extends" text named ∧ Gap named quoted ∧
    LiteralKind.string.LiteralAt template quoted last ∧ Gap last (dialect.blockEnd.chars ++ rest)

/-- What the node is made of, in a source in which it has been read. -/
def Node.WellShaped [Room] (dialect : Dialect) (source : List Char) : Node → Prop
  | .text _ passage => passage.text ≠ ""
  | .conditional offset branches closing =>
      (∃ first others, branches = first :: others ∧ first.condition.isSome = true) ∧
        (∀ branch ∈ branches.dropLast, branch.condition.isSome = true) ∧
        ConditionalAt dialect branches closing (.after source offset)
  | .choice offset opening subject arms closing =>
      ∃ whens otherwise, arms = whens ++ Option.toList otherwise ∧ whens ≠ [] ∧
        (whens.Pairwise fun arm next => arm.offset < next.offset) ∧
        (∀ arm ∈ otherwise, arm.pattern = .name arm.offset "_") ∧
        ChoiceAt dialect opening subject whens otherwise closing (.after source offset)
  | .macroDef _ name _ _ _ _ => name ≠ "super"
  | .extendTemplate offset template => ExtensionAt dialect template (source.drop offset)
  | .comment .. | .output .. | .raw .. | .loop .. | .breakLoop .. | .continueLoop ..
  | .macroCall .. | .assign .. | .declare .. | .block .. | .includeTemplate ..
  | .importMacros .. => True

namespace Scoped

variable {source : List Char} {node : Node} {origin : Cursor} {found : Unit} {inLoop : Bool}
  {bodies : Part → Grammar (List Node)}

theorem conditional_wellShaped (reads : Finds body (BodyBetween dialect))
    (located : origin = .after source origin.offset)
    (begun : Parser.statementStart dialect origin = .matched (opened, .conditional) cursor)
    (matched : conditional dialect body opened cursor = .matched node middle)
    (ended : tagEnd dialect middle = .matched found later) : node.WellShaped dialect source := by
  rcases conditional_stands reads begun matched ended with ⟨branches, closing, rfl, stands⟩
  refine ⟨stands.first_tests, stands.others_test, ?_⟩
  rw [← located]
  exact stands

theorem choice_wellShaped (reads : Finds body (BodyBetween dialect))
    (located : origin = .after source origin.offset)
    (begun : Parser.statementStart dialect origin = .matched (opened, .choice) cursor)
    (matched : choice dialect body opened cursor = .matched node middle)
    (ended : tagEnd dialect middle = .matched found later) : node.WellShaped dialect source := by
  rcases choice_stands reads begun matched ended with
    ⟨opening, subject, whens, otherwise, closing, rfl, stands⟩
  rcases stands.written with ⟨_, _, _, _, _, _, _, _, _, _, _, arms, _⟩
  refine ⟨whens, otherwise, rfl, stands.nonempty, arms.ordered, arms.catches, ?_⟩
  rw [← located]
  exact stands

theorem macroDef_wellShaped (matched : macroDef dialect body opened cursor = .matched node later) :
    node.WellShaped dialect source := by
  simp only [macroDef, bind_eq_matched, pure_eq_matched, Parser.checkMacroName_eq_matched] at matched
  rcases matched with ⟨_, _, _, _, _, _, name, _, _, _, _, ⟨free, rfl⟩, _, _, _, _, _, _, _, _, _, _, _,
    _, _, _, _, _, _, _, rfl, rfl⟩
  rintro rfl
  cases free

theorem extension_wellShaped (located : origin = .after source origin.offset)
    (begun : Parser.statementStart dialect origin = .matched (opened, .extendTemplate) cursor)
    (matched : extension opened cursor = .matched node middle)
    (ended : tagEnd dialect middle = .matched found later) : node.WellShaped dialect source := by
  have begins := Parser.statementStart_offset begun
  rcases statementStart_yields begun with ⟨named, opens, gap, _⟩
  unfold extension at matched
  split at matched
  case isTrue => cases matched
  case isFalse untrimmed =>
      simp only [bind_eq_matched, pure_eq_matched, expect_eq_matched] at matched
      rcases matched with ⟨template, _, read, rfl, rfl⟩
      rcases spaced_yields read with ⟨start, stop, before, _, quoted, behind, _⟩
      have quoted : literal .string start = .matched template stop := quoted
      rw [begins]
      show ExtensionAt dialect template (Cursor.after source origin.offset).rest
      rw [← located]
      rw [Option.not_isSome_iff_eq_none.mp untrimmed] at opens
      refine ⟨named, start.rest, stop.rest, later.rest, opens, gap.trans before,
        (literal_yields quoted).2, ?_⟩
      rw [← (exact_eq_matched.mp (expect_eq_matched.mp ended)).1]
      exact behind

/-- Of the nodes of other statements nothing is required. -/
theorem statementRest_wellShaped {keyword : Keyword}
    (other : keyword ∉ [.conditional, .choice, .macroDef, .extendTemplate]) :
    Always (Node.WellShaped dialect source) (statementRest dialect opened inLoop bodies keyword) := by
  have control (keyword : Keyword) (node : Nat → Edges → Node)
      (wellShaped : ∀ offset edges, (node offset edges).WellShaped dialect source) :
      Always (Node.WellShaped dialect source) (loopControl opened inLoop keyword node) := by
    unfold loopControl
    split
    · exact .bind fun _ => .pure (wellShaped _ _)
    · exact nofun
  cases keyword with
  | conditional | choice | macroDef | extendTemplate => exact absurd (by decide) other
  | call =>
      refine .bind fun first => .bind fun second => .bind fun arguments => .bind fun right => ?_
      cases second <;> exact .pure trivial
  | letBinding | setBinding =>
      exact .bind fun _ => .orElse (.bind fun _ => .bind fun _ => .bind fun _ => .pure trivial)
        (.bind fun _ => .pure trivial)
  | includeTemplate => exact .bind fun _ => .bind fun _ => .pure trivial
  | importMacros => exact .bind fun _ => .bind fun _ => .bind fun _ => .bind fun _ => .pure trivial
  | raw => exact .bind fun _ => .bind fun _ => .bind fun _ => .bind fun _ => .pure trivial
  | loop =>
      exact .bind fun _ => .bind fun _ => .bind fun _ => .bind fun _ => .bind fun _ => .bind fun _ =>
        .bind fun _ => .pure trivial
  | block =>
      exact .bind fun _ => .bind fun _ => .bind fun _ => .bind fun _ => .bind fun _ => .bind fun _ =>
        .pure trivial
  | breakLoop | continueLoop => exact control _ _ fun _ _ => trivial

section

variable (reads : ∀ part, Finds (bodies part) (BodyBetween dialect))

include reads

theorem statement_wellShaped (located : cursor = .after source cursor.offset)
    (matched : statement dialect inLoop bodies cursor = .matched node later) :
    node.WellShaped dialect source := by
  simp only [statement, bind_eq_matched, pure_eq_matched] at matched
  rcases matched with ⟨⟨opened, keyword⟩, _, begun, _, _, read, _, _, ended, rfl, rfl⟩
  by_cases shaped : keyword ∈ [.conditional, .choice, .macroDef, .extendTemplate]
  · cases keyword with
    | conditional => exact conditional_wellShaped (reads .branch) located begun read ended
    | choice => exact choice_wellShaped (reads .arm) located begun read ended
    | macroDef => exact macroDef_wellShaped read
    | extendTemplate => exact extension_wellShaped located begun read ended
    | _ => exact absurd shaped (by decide)
  · exact statementRest_wellShaped shaped _ _ _ read

theorem node_wellShaped (located : cursor = .after source cursor.offset)
    (matched : Scoped.node dialect inLoop bodies cursor = .matched node later) :
    node.WellShaped dialect source := by
  simp only [Scoped.node, orElse_eq_matched] at matched
  rcases matched with read | ⟨_, read | ⟨_, read | ⟨_, read⟩⟩⟩
  · rcases text_eq_matched.mp read with ⟨run, nonempty, rfl, _⟩
    show (Passage.ofChars run).text ≠ ""
    rw [Passage.text_ofChars]
    simpa using nonempty
  · have other : Always (Node.WellShaped dialect source) (comment dialect) :=
      .bind fun _ => .bind fun _ => .bind fun _ => .bind fun _ => .bind fun _ => .pure trivial
    exact other _ _ _ read
  · have other : Always (Node.WellShaped dialect source) (output dialect) :=
      .bind fun _ => .bind fun _ => .bind fun _ => .bind fun _ => .bind fun _ => .bind fun _ =>
        .pure trivial
    exact other _ _ _ read
  · exact statement_wellShaped reads located read

end

end Scoped

/-! ## Templates -/

namespace Template

variable {source : Source} {template : Template}

theorem wellShaped_of_mem_nodes (parsed : parse dialect source = .ok template) :
    ∀ node ∈ template.nodes, node.WellShaped dialect source.chars := by
  intro node member
  rw [Template.nodes_eq] at member
  rcases (Parser.parse_eq_ok dialect).mp parsed with ⟨later, counters, read, _⟩
  rw [Parser.nodes_eq_scoped] at read
  have read : Scoped.nodesWithin dialect .zero (dialect.maxDepth + 1) [.template]
      (.start source.chars) = .matched template.body later := congrArg Prod.fst read
  rcases Scoped.mem_within_read read member with ⟨levels, scope, begun, _, reaches, matched⟩
  have located : begun = .after source.chars begun.offset := by
    have reaches : (Cursor.after source.chars 0).Reaches begun := reaches
    rcases eq_after_of_reaches reaches with ⟨_, _, rfl⟩
    rfl
  exact Scoped.node_wellShaped (fun _ _ _ _ => bodyBetween_of_scoped) located matched

/-- The parent of a template is told by its first extension, and only by one that lies in no other
node. -/
theorem extension?_eq_some_iff {parent : Node} : template.extension? = some parent ↔
    parent.isExtension = true ∧ ∃ before after, template.body = before ++ parent :: after ∧
      ∀ other ∈ before, other.isExtension = false := by
  simp only [extension?, List.find?_eq_some_iff_append, Bool.not_eq_true']

theorem extension?_eq_none_iff :
    template.extension? = none ↔ ∀ node ∈ template.body, node.isExtension = false := by
  simp only [extension?, List.find?_eq_none, Bool.not_eq_true]

/-- The branches of every conditional and the arms of every choice in a template are those that its
own tags begin. The first branch has a condition, as has every other but the last. A choice has an
arm with a pattern; such arms come in the order of the source, and at most one arm that matches
everything comes behind them, wherever its tag stands. No macro has a reserved name and no text is
empty. The parent of the template is the first one that its body names, in a tag without markers. -/
theorem parsed_tree_is_well_shaped (parsed : parse dialect source = .ok template) :
    (∀ node ∈ template.nodes, node.WellShaped dialect source.chars) ∧
    (∀ parent, template.extension? = some parent ↔
      ∃ before after offset name, template.body = before ++ parent :: after ∧
        (∀ other ∈ before, other.isExtension = false) ∧ parent = .extendTemplate offset name ∧
          ExtensionAt dialect name (source.chars.drop offset)) ∧
    (template.extension? = none ↔ ∀ node ∈ template.body, node.isExtension = false) := by
  have shaped := wellShaped_of_mem_nodes parsed
  refine ⟨shaped, fun parent => ?_, extension?_eq_none_iff⟩
  rw [extension?_eq_some_iff]
  constructor
  · rintro ⟨named, before, after, split, first⟩
    have member : parent ∈ template.nodes := by
      rw [nodes_eq, split, Node.within_append, Node.within_cons]
      simp
    have shaped := shaped parent member
    cases parent with
    | extendTemplate offset name => exact ⟨before, after, offset, name, split, first, rfl, shaped⟩
    | _ => cases named
  · rintro ⟨before, after, offset, name, split, first, rfl, _⟩
    exact ⟨rfl, before, after, split, first⟩

/-- The arm that matches everything is written first and holds a conditional with a branch of the
same word; the parent is named last. -/
theorem parsed_tree_is_well_shaped_choice :
    let _ : Room := ⟨20⟩
    let source : Source := ⟨"\x7b% match x %\x7d\x7b% else -%\x7d\x7b% if a %\x7d\x7b% else %\x7db" ++
      "\x7b% endif %\x7d\x7b% when 1 %\x7d\x7b% endmatch %\x7d\x7b% extends \"p\" %\x7d", none, none⟩
    let written : List Node := [
      .choice 0 {} (.var 9 "x") [
        ⟨56, {}, .literal 64 .number "1", []⟩,
        ⟨13, ⟨none, some .suppress⟩, .name 13 "_", [
          .conditional 24 [⟨24, {}, some ⟨30, none, .var 30 "a"⟩, []⟩,
            ⟨34, {}, none, [.text 44 ⟨"", "b", ""⟩]⟩] {}]⟩] {},
      .extendTemplate 82 "p"]
    ∃ template, parse .standard source = .ok template ∧ Node.sameAll template.body written = true ∧
      (∀ node ∈ template.nodes, node.WellShaped .standard source.chars) ∧
      ∃ offset name, template.extension? = some (.extendTemplate offset name) ∧
        ExtensionAt .standard name (source.chars.drop offset) := by
  intro room source written
  have read : (parse .standard source).toOption.any (fun template =>
      Node.sameAll template.body written && template.extension?.isSome) = true := by
    unfold source written
    decide +kernel
  cases parsed : parse .standard source with
  | error failure =>
      rw [parsed] at read
      cases read
  | ok template =>
      rw [parsed] at read
      rcases Bool.and_eq_true_iff.mp read with ⟨same, named⟩
      rcases parsed_tree_is_well_shaped parsed with ⟨shaped, parent, _⟩
      rcases Option.isSome_iff_exists.mp named with ⟨first, found⟩
      rcases (parent first).mp found with ⟨_, _, offset, name, _, _, rfl, tag⟩
      exact ⟨template, rfl, same, shaped, offset, name, found, tag⟩

end Template

end Templating

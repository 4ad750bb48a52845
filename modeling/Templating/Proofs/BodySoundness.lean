import Templating.Proofs.TagSoundness

/-! # What bodies are read as

Every body of a template that has been read is regular. What a body holds is told from the tag
behind it: each construct goes on with a tag behind its bodies, and a text ends in front of one. -/

namespace Templating.Scoped

variable {room : Room}

open Grammar

variable {α : Type} {cursor middle later : Cursor} {opened : OpenedTag}

/-! ## In front of tags -/

/-- A tag, a comment or an output begins here. -/
def AtTag (cursor : Cursor) : Prop :=
  opensTag .standard cursor.rest = true

/-- What the rule yields in front of a tag. -/
def Yields (rule : Grammar α) (wanted : α → Prop) : Prop :=
  ∀ ⦃cursor value later⦄, rule cursor = .matched value later → AtTag later → wanted value

/-- What the rule yields in front of a tag, where a tag stands before it as well. -/
def Between (rule : Grammar α) (wanted : α → Prop) : Prop :=
  ∀ ⦃cursor value later⦄, rule cursor = .matched value later → AtTag later →
    AtTag cursor ∧ wanted value

theorem atTag_of_tag {words : List String}
    (matched : tag .standard words cursor = .matched opened later) : AtTag cursor := by
  rcases bind_eq_matched.mp matched with ⟨_, _, begun, read⟩
  rcases here_eq_matched.mp begun with ⟨_, rfl⟩
  rcases bind_eq_matched.mp read with ⟨_, behind, opening, _⟩
  exact opensTag_of_start List.mem_cons_self ⟨behind.rest, (exact_eq_matched.mp opening).1.symm⟩

theorem atTag_of_endTag {opener closer : String} {start : Nat} {trim : Option Trim}
    (matched : endTag .standard opener closer start cursor = .matched trim later) :
    AtTag cursor := by
  rcases (endTag_eq_matched _).mp matched with ⟨_, read, _⟩
  exact atTag_of_tag read

section

variable {rule : Grammar α} {wanted : α → Prop} (between : Between rule wanted)

include between

theorem Between.optional : Between (Grammar.optional rule) (∀ value ∈ ·, wanted value) := by
  intro cursor found later matched ended
  rcases optional_eq_matched.mp matched with ⟨value, rfl, read⟩ | ⟨rfl, rfl, _⟩
  · rcases between read ended with ⟨begun, holds⟩
    refine ⟨begun, ?_⟩
    rintro _ ⟨⟩
    exact holds
  · exact ⟨ended, nofun⟩

theorem Between.many : Between (Grammar.many rule) (∀ value ∈ ·, wanted value) := by
  intro cursor values later matched ended
  have repeated := repeated_of_many matched
  clear matched
  induction repeated with
  | nil => exact ⟨ended, List.forall_mem_nil _⟩
  | cons first _ induction =>
      rcases induction ended with ⟨begun, others⟩
      rcases between first begun with ⟨begun, holds⟩
      exact ⟨begun, List.forall_mem_cons.mpr ⟨holds, others⟩⟩

end

/-! ## Constructs -/

variable {inLoop : Bool} {bodies : Part → Grammar (List Node)} {regular : Part → List Node → Prop}
  {value : Node}

/-- A regular node that is no text. -/
def Delimited [Room] (inLoop : Bool) (regular : Part → List Node → Prop) (node : Node) : Prop :=
  node.isText = false ∧ node.Regular .standard inLoop regular

theorem elseIfBranch_between (yields : Yields (bodies .branch) (regular .branch)) :
    Between (elseIfBranch .standard (bodies .branch)) fun branch => branch.condition.isSome = true ∧
      (∀ condition ∈ branch.condition, condition.Regular) ∧ regular .branch branch.body := by
  intro cursor branch later matched ended
  simp only [elseIfBranch, bind_eq_matched, pure_eq_matched] at matched
  rcases matched with ⟨_, _, begun, _, _, _, condition, _, condition_read, right, _, tag_ended,
    nodes, _, inside, rfl, rfl⟩
  refine ⟨atTag_of_tag begun, rfl, ?_, yields inside ended⟩
  rintro _ ⟨⟩
  exact condition_regular condition_read tag_ended

theorem elseBranch_between (yields : Yields (bodies .branch) (regular .branch)) :
    Between (elseBranch .standard (bodies .branch)) fun branch =>
      branch.condition = none ∧ regular .branch branch.body := by
  intro cursor branch later matched ended
  simp only [elseBranch, bind_eq_matched, pure_eq_matched] at matched
  rcases matched with ⟨_, _, begun, _, _, _, nodes, _, inside, rfl, rfl⟩
  exact ⟨atTag_of_tag begun, rfl, yields inside ended⟩

theorem conditional_delimited (yields : Yields (bodies .branch) (regular .branch))
    (matched : conditional .standard (bodies .branch) opened cursor = .matched value later) :
    Delimited inLoop regular value := by
  simp only [conditional, bind_eq_matched, pure_eq_matched, Parser.rejectElse_eq_matched] at matched
  rcases matched with ⟨condition, _, condition_read, right, _, tag_ended, first, _, first_read,
    others, _, others_read, last, _, last_read, _, _, ⟨_, rfl⟩, _, _, closing, _, _, _, rfl, rfl⟩
  rcases (elseBranch_between yields).optional last_read (atTag_of_endTag closing) with
    ⟨begun, final⟩
  rcases (elseIfBranch_between yields).many others_read begun with ⟨begun, conditioned⟩
  have begins : ∀ condition' ∈ some condition, condition'.Regular := by
    rintro _ ⟨⟩
    exact condition_regular condition_read tag_ended
  refine ⟨rfl, List.cons_ne_nil _ _, ?_, ?_, ?_⟩
  · rintro _ ⟨⟩
    rfl
  · intro branch among
    have among :
        branch ∈ ⟨opened.offset, ⟨opened.trim, right⟩, some condition, first⟩ :: others := by
      cases last with
      | none =>
          rw [Option.toList_none, List.append_nil] at among
          exact List.dropLast_subset _ among
      | some last => rwa [Option.toList_some, List.dropLast_concat] at among
    rcases List.mem_cons.mp among with rfl | among
    · rfl
    · exact (conditioned branch among).1
  · intro branch among
    rcases List.mem_append.mp among with among | among
    · rcases List.mem_cons.mp among with rfl | among
      · exact ⟨begins, yields first_read begun⟩
      · exact (conditioned branch among).2
    · rcases final branch (Option.mem_toList.mp among) with ⟨unconditioned, holds⟩
      refine ⟨?_, holds⟩
      rw [unconditioned]
      rintro _ ⟨⟩

/-- Behind the body of a loop a tag stands. An alternative has been read in front of another one. -/
theorem loopRest_atTag {alternative : Grammar (List Node)} {rest : Edges × List Node × Edges}
    (matched : loopRest .standard opened alternative cursor = .matched rest later) :
    AtTag cursor ∧ (rest.2.1 = [] ∨ ∃ middle later',
      alternative middle = .matched rest.2.1 later' ∧ AtTag later') := by
  simp only [loopRest, orElse_eq_matched, bind_eq_matched, pure_eq_matched,
    missingEndTag_ne_matched, and_false, or_false] at matched
  rcases matched with ⟨_, _, begun, _, _, _, rfl, rfl⟩ | ⟨_, _, _, begun, _, _, _, nodes, _, inside,
    _, _, closing, _, _, _, rfl, rfl⟩
  · exact ⟨atTag_of_tag begun, .inl rfl⟩
  · exact ⟨atTag_of_tag begun, .inr ⟨_, _, inside, atTag_of_endTag closing⟩⟩

theorem whenArm_between (yields : Yields (bodies .arm) (regular .arm)) :
    Between (whenArm .standard (bodies .arm)) fun arm =>
      arm.pattern.Regular ∧ regular .arm arm.body := by
  intro cursor arm later matched ended
  simp only [whenArm, bind_eq_matched, expect_eq_matched, pure_eq_matched] at matched
  rcases matched with ⟨_, _, begun, pattern, _, pattern_read, _, _, _, nodes, _, inside, rfl, rfl⟩
  exact ⟨atTag_of_tag begun, pattern_regular pattern_read, yields inside ended⟩

theorem elseArm_between (yields : Yields (bodies .arm) (regular .arm)) :
    Between (elseArm .standard (bodies .arm)) fun arm =>
      arm.pattern.Regular ∧ regular .arm arm.body := by
  intro cursor arm later matched ended
  simp only [elseArm, bind_eq_matched, pure_eq_matched] at matched
  rcases matched with ⟨_, _, begun, _, _, _, nodes, _, inside, rfl, rfl⟩
  have ends : Text.EndsName [] := by rintro _ ⟨⟩
  exact ⟨atTag_of_tag begun, ⟨['_'], [], .inl ⟨by decide, rfl, rfl, ends⟩⟩, yields inside ended⟩

theorem choice_delimited (yields : Yields (bodies .arm) (regular .arm))
    (matched : choice .standard (bodies .arm) opened cursor = .matched value later) :
    Delimited inLoop regular value := by
  simp only [choice, bind_eq_matched, pure_eq_matched, expect_eq_matched,
    Parser.rejectElse_eq_matched, Parser.requireArm_eq_matched] at matched
  rcases matched with ⟨subject, _, subject_read, right, _, _, _, _, _, before, _, before_read,
    otherwise, _, otherwise_read, after, _, after_read, _, _, ⟨_, rfl⟩, _, _, ⟨nonempty, rfl⟩, _, _,
    closing, _, _, _, rfl, rfl⟩
  have ended := atTag_of_endTag closing
  have later_arms : Between (laterArms .standard (bodies .arm) otherwise)
      (∀ arm ∈ ·, arm.pattern.Regular ∧ regular .arm arm.body) := by
    cases otherwise with
    | none =>
        intro cursor arms later matched ended
        rcases pure_eq_matched.mp matched with ⟨rfl, rfl⟩
        exact ⟨ended, List.forall_mem_nil _⟩
    | some arm => exact (whenArm_between yields).many
  rcases later_arms after_read ended with ⟨begun, after_arms⟩
  rcases (elseArm_between yields).optional otherwise_read begun with ⟨begun, other_arm⟩
  rcases (whenArm_between yields).many before_read begun with ⟨_, before_arms⟩
  refine ⟨rfl, expression_regular subject_read, List.append_ne_nil_of_left_ne_nil nonempty _, ?_⟩
  intro arm among
  rcases List.mem_append.mp among with among | among
  · rcases List.mem_append.mp among with among | among
    · exact before_arms arm among
    · exact after_arms arm among
  · exact other_arm arm (Option.mem_toList.mp among)

theorem loop_delimited (yields : Yields (bodies .loopBody) (regular .loopBody))
    (yields' : Yields (bodies .alternative) (regular .alternative))
    (plain : ∀ nodes, regular .loopBody nodes → regular .alternative [])
    (matched : loop .standard (bodies .loopBody) opened (bodies .alternative) cursor =
      .matched value later) : Delimited inLoop regular value := by
  simp only [loop, bind_eq_matched, pure_eq_matched, expect_eq_matched] at matched
  rcases matched with ⟨pattern, _, pattern_read, _, _, _, iterable, _, iterable_read, condition, _,
    guard_read, right, _, _, nodes, _, inside, rest, _, rest_read, rfl, rfl⟩
  rcases loopRest_atTag rest_read with ⟨begun, other⟩
  have holds := yields inside begun
  refine ⟨rfl, pattern_regular pattern_read, expression_regular iterable_read, ?_, holds, ?_⟩
  · rcases optional_eq_matched.mp guard_read with ⟨condition, rfl, read⟩ | ⟨rfl, _, _⟩
    · simp only [guard, bind_eq_matched, expect_eq_matched] at read
      rcases read with ⟨_, _, word, condition_read⟩
      rintro _ ⟨⟩
      exact ⟨expression_regular condition_read, rank_pos_of_keyword iterable_read word (by decide)⟩
    · nofun
  · rcases other with empty | ⟨middle, later, inside', ended⟩
    · rw [empty]
      exact plain nodes holds
    · exact yields' inside' ended

theorem block_delimited (yields : Yields (bodies .block) (regular .block))
    (matched : block .standard (bodies .block) opened cursor = .matched value later) :
    Delimited inLoop regular value := by
  simp only [block, bind_eq_matched, pure_eq_matched, expect_eq_matched] at matched
  rcases matched with ⟨name, _, named, right, _, _, nodes, _, inside, _, _, closing, _, _, _, _, _, _,
    rfl, rfl⟩
  exact ⟨rfl, nameToken_isName named, yields inside (atTag_of_endTag closing)⟩

theorem macroDef_delimited (yields : Yields (bodies .macroBody) (regular .macroBody))
    (matched : macroDef .standard (bodies .macroBody) opened cursor = .matched value later) :
    Delimited inLoop regular value := by
  simp only [macroDef, bind_eq_matched, pure_eq_matched, expect_eq_matched, here_eq_matched,
    Parser.checkMacroName_eq_matched] at matched
  rcases matched with ⟨_, _, _, _, _, ⟨rfl, rfl⟩, name, _, named, _, _, ⟨free, rfl⟩, parameters, _,
    listed, right, _, _, nodes, _, inside, _, _, closing, _, _, _, _, _, _, rfl, rfl⟩
  refine ⟨rfl, nameToken_isName named, free, ?_, yields inside (atTag_of_endTag closing)⟩
  rcases optional_eq_matched.mp listed with ⟨_, rfl, read⟩ | ⟨rfl, _, _⟩
  · exact parameters_areNames read
  · exact List.forall_mem_nil _

/-! ## Statements of a single tag -/

theorem raw_delimited (matched : raw .standard opened cursor = .matched value later) :
    Delimited inLoop regular value := by
  rw [raw_eq] at matched
  simp only [bind_eq_matched, pure_eq_matched] at matched
  rcases matched with ⟨_, _, _, _, _, _, rest, _, read, rfl, rfl⟩
  rcases rawRest_eq_matched.mp read with ⟨middle, run_read, closing⟩
  refine ⟨rfl, runsTo_of_raw run_read ?_⟩
  rw [matchesAt_rawEnd, closing]

theorem assignment_delimited (matched : assignment opened cursor = .matched value later) :
    Delimited inLoop regular value := by
  simp only [assignment, bind_eq_matched, orElse_eq_matched, pure_eq_matched,
    expect_eq_matched] at matched
  rcases matched with ⟨pattern, _, read, ⟨_, _, _, value, _, value_read, _, _, _, rfl, rfl⟩ |
    ⟨_, _, _, _, rfl, rfl⟩⟩
  · exact ⟨rfl, pattern_regular read, expression_regular value_read⟩
  · exact ⟨rfl, pattern_regular read⟩

theorem macroCall_delimited (matched : macroCall opened cursor = .matched value later) :
    Delimited inLoop regular value := by
  simp only [macroCall, bind_eq_matched, orElse_eq_matched, expect_eq_matched, pure_eq_matched]
    at matched
  rcases matched with ⟨first, _, named, second, _, qualified, values, _, listed, _, _, _, matched⟩
  have regular_values : ∀ argument ∈ values, argument.Regular := by
    rcases listed with ⟨_, _, _, read⟩ | ⟨_, rfl, _⟩
    · exact arguments_regular read
    · exact List.forall_mem_nil _
  rcases optional_eq_matched.mp qualified with ⟨name, rfl, read⟩ | ⟨rfl, _, _⟩
  · cases matched
    simp only [bind_eq_matched, expect_eq_matched] at read
    rcases read with ⟨_, _, _, named'⟩
    refine ⟨rfl, ?_, nameToken_isName named', regular_values⟩
    rintro _ ⟨⟩
    exact nameToken_isName named
  · cases matched
    refine ⟨rfl, ?_, nameToken_isName named, regular_values⟩
    rintro _ ⟨⟩

theorem extension_delimited (matched : extension opened cursor = .matched value later) :
    Delimited inLoop regular value := by
  unfold extension at matched
  split at matched
  · cases matched
  · simp only [bind_eq_matched, expect_eq_matched, pure_eq_matched] at matched
    rcases matched with ⟨_, _, read, rfl, _⟩
    exact ⟨rfl, stringToken_isBody read⟩

theorem inclusion_delimited (matched : inclusion opened cursor = .matched value later) :
    Delimited inLoop regular value := by
  simp only [inclusion, bind_eq_matched, pure_eq_matched, expect_eq_matched] at matched
  rcases matched with ⟨template, _, read, _, _, _, rfl, rfl⟩
  exact ⟨rfl, stringToken_isBody read⟩

theorem importation_delimited (matched : importation opened cursor = .matched value later) :
    Delimited inLoop regular value := by
  simp only [importation, bind_eq_matched, pure_eq_matched, expect_eq_matched] at matched
  rcases matched with ⟨template, _, read, _, _, _, scope, _, named, _, _, _, rfl, rfl⟩
  exact ⟨rfl, stringToken_isBody read, nameToken_isName named⟩

theorem loopControl_delimited {keyword : Keyword} {node : Nat → Edges → Node}
    (delimited : ∀ offset edges, Delimited true regular (node offset edges))
    (matched : loopControl opened inLoop keyword node cursor = .matched value later) :
    Delimited inLoop regular value := by
  unfold loopControl at matched
  split at matched
  case isTrue inside =>
      simp only [bind_eq_matched, pure_eq_matched] at matched
      rcases matched with ⟨_, _, _, rfl, _⟩
      rw [inside]
      exact delimited _ _
  case isFalse => cases matched

theorem output_delimited (matched : output .standard cursor = .matched value later) :
    Delimited inLoop regular value := by
  simp only [output, bind_eq_matched, pure_eq_matched, expect_eq_matched] at matched
  rcases matched with ⟨_, _, _, _, _, _, _, _, _, expression, _, read, _, _, _, _, _, _, rfl, _⟩
  exact ⟨rfl, expression_regular read⟩

theorem comment_delimited (matched : comment .standard cursor = .matched value later) :
    Delimited inLoop regular value := by
  simp only [comment, bind_eq_matched, pure_eq_matched] at matched
  rcases matched with ⟨_, _, _, _, _, _, _, _, _, _, _, _, _, _, _, rfl, _⟩
  exact ⟨rfl, trivial⟩

/-! ## Nodes and bodies -/

section

variable (yields : ∀ part, Yields (bodies part) (regular part))
  (plain : ∀ nodes, regular .loopBody nodes → regular .alternative [])

include yields plain

theorem statementRest_delimited (keyword : Keyword)
    (matched : statementRest .standard opened inLoop bodies keyword cursor = .matched value later) :
    Delimited inLoop regular value := by
  cases keyword with
  | call => exact macroCall_delimited matched
  | letBinding | setBinding => exact assignment_delimited matched
  | conditional => exact conditional_delimited (yields .branch) matched
  | loop => exact loop_delimited (yields .loopBody) (yields .alternative) plain matched
  | choice => exact choice_delimited (yields .arm) matched
  | extendTemplate => exact extension_delimited matched
  | includeTemplate => exact inclusion_delimited matched
  | importMacros => exact importation_delimited matched
  | block => exact block_delimited (yields .block) matched
  | macroDef => exact macroDef_delimited (yields .macroBody) matched
  | raw => exact raw_delimited matched
  | breakLoop | continueLoop =>
      refine loopControl_delimited ?_ matched
      exact fun _ _ => ⟨rfl, rfl⟩

/-- A node is text, which ends in front of a tag or with the source, or regular and no text. -/
theorem node_sound (matched : node .standard inLoop bodies cursor = .matched value later) :
    text .standard cursor = .matched value later ∨
      text .standard cursor = .noMatch ∧ Delimited inLoop regular value := by
  refine (orElse_eq_matched.mp matched).imp id (And.imp_right fun matched => ?_)
  rcases orElse_eq_matched.mp matched with matched | ⟨_, matched⟩
  · exact comment_delimited matched
  rcases orElse_eq_matched.mp matched with matched | ⟨_, matched⟩
  · exact output_delimited matched
  simp only [statement, bind_eq_matched, pure_eq_matched] at matched
  rcases matched with ⟨_, _, _, _, _, read, _, _, _, rfl, _⟩
  exact statementRest_delimited yields plain _ read

/-- Nodes that have been read one behind the other are those of a regular body. -/
theorem repeated_sound [∀ part, Advancing (bodies part)] {last : Bool} {nodes : List Node}
    (repeated : Repeated (node .standard inLoop bodies) cursor nodes later)
    (ends : EndsText .standard last later.rest) :
    Node.TextsEnd .standard last nodes ∧ ∀ node ∈ nodes, node.Regular .standard inLoop regular := by
  induction repeated with
  | nil => exact ⟨trivial, List.forall_mem_nil _⟩
  | @cons value nodes cursor middle later first others induction =>
      rcases induction ends with ⟨texts, each⟩
      rcases node_sound yields plain first with read | ⟨_, noText, holds⟩
      · rcases text_eq_matched.mp read with ⟨run, nonempty, rfl, run_read⟩
        rcases upTo_eq_matched.mp run_read with ⟨_, _, ended, _⟩
        have ended : EndsText .standard (last && nodes.isEmpty) middle.rest ∧
            ∀ next ∈ nodes.head?, next.isText = false := by
          cases others with
          | nil =>
              rw [List.isEmpty_nil, Bool.and_true]
              exact ⟨ends, nofun⟩
          | cons second _ =>
              have opens : opensTag .standard middle.rest = true := by
                refine ended.resolve_left fun empty => ?_
                have shorter := (Consuming.passes second).2
                rw [empty] at shorter
                cases shorter
              rw [List.isEmpty_cons, Bool.and_false]
              refine ⟨opens, ?_⟩
              rintro _ ⟨⟩
              rcases node_sound yields plain second with read' | ⟨_, noText, _⟩
              · rw [text_eq_noMatch.mpr (.inr opens)] at read'
                cases read'
              · exact noText
        refine ⟨⟨?_, runsTo_of_text run_read ended.1, ended.2, texts⟩,
          List.forall_mem_cons.mpr ⟨trivial, each⟩⟩
        rw [Passage.text_ofChars]
        simpa using nonempty
      · have texts : Node.TextsEnd .standard last (value :: nodes) := by
          cases value <;> first | exact texts | cases noText
        exact ⟨texts, List.forall_mem_cons.mpr ⟨holds, each⟩⟩

end

/-- The empty body is regular wherever another body is at the same depth. -/
theorem regularBody_nil {dialect : Dialect} {outside : Counters} {levels : Nat} {scope : List Part}
    {part part' : Part} {last : Bool} {nodes : List Node}
    (regular : RegularBody dialect outside levels (part :: scope) last nodes) :
    RegularBody dialect outside levels (part' :: scope) last [] := by
  cases levels with
  | zero => exact regular
  | succ levels => exact ⟨regular.1, trivial, List.forall_mem_nil _⟩

/-- A body that has been read is regular, whether a tag stands behind it or it ends with the
source. -/
theorem nodesWithin_sound {outside : Counters} {levels : Nat} {scope : List Part} {last : Bool}
    {nodes : List Node}
    (matched : nodesWithin .standard outside levels scope cursor = .matched nodes later)
    (ends : EndsText .standard last later.rest) :
    RegularBody .standard outside levels scope last nodes := by
  -- Each body inside has one level fewer, and a tag ends it wherever the outer one ends.
  induction levels generalizing scope last nodes cursor later with
  | zero => cases matched
  | succ levels induction =>
      rw [nodesWithin] at matched
      split at matched
      case isTrue => cases matched
      case isFalse shallow =>
          have yields (part : Part) : Yields (nodesWithin .standard outside levels (part :: scope))
              (RegularBody .standard outside levels (part :: scope) false) :=
            fun _ _ later matched ended =>
              induction matched (show EndsText .standard false later.rest from ended)
          have plain (nodes : List Node)
              (regular : RegularBody .standard outside levels (.loopBody :: scope) false nodes) :
              RegularBody .standard outside levels (.alternative :: scope) false [] :=
            regularBody_nil regular
          exact ⟨Bool.eq_false_iff.mpr shallow,
            repeated_sound yields plain (repeated_of_many matched) ends⟩

end Templating.Scoped

namespace Templating.Template

variable {room : Room}

/-- Every template that has been read is regular. -/
theorem regular_of_parse {source : Source} {template : Template}
    (parsed : parse .standard source = .ok template) :
    RegularBody .standard .zero (Dialect.standard.maxDepth + 1) [.template] true template.body := by
  rcases (Parser.parse_eq_ok .standard).mp parsed with ⟨later, counters, read, ended, _⟩
  rw [Parser.nodes_eq_scoped] at read
  exact Scoped.nodesWithin_sound (congrArg Prod.fst read) (List.isEmpty_iff.mp ended)

end Templating.Template

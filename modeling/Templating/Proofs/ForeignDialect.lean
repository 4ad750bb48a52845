import Templating.Proofs.ForeignDelimiters

/-! # Dialects with foreign delimiters

A template of the standard dialect means the same in every dialect whose delimiters are foreign to
tags and to the text of the template: it is printed there and read back. Regular bodies are carried
over, for what stands in a tag does not depend on the dialect, and a text that has no character of
a delimiter goes on up to the next tag in any of them. -/

namespace Templating

variable {room : Room}

open Text Grammar

variable {dialect : Dialect}

/-! ## Texts -/

/-- No character of a delimiter occurs in the passage. -/
def Passage.ClearOf (dialect : Dialect) (passage : Passage) : Prop :=
  ∀ role, ∀ character ∈ (dialect.delimiter role).chars, character ∉ passage.text.toList

/-- One of the delimiters stands at the beginning of a text. -/
def Dialect.Opens (dialect : Dialect) (text : List Char) : Prop :=
  ∃ role, (dialect.delimiter role).chars <+: text

theorem Dialect.opens_of_opensTag {text : List Char} (opens : opensTag dialect text = true) :
    dialect.Opens text := by
  rcases List.any_eq_true.mp opens with ⟨delimiter, isStart, starts⟩
  have starts := List.isPrefixOf_iff_prefix.mp starts
  simp only [Dialect.starts, List.mem_cons, List.not_mem_nil, or_false] at isStart
  rcases isStart with rfl | rfl | rfl
  · exact ⟨.blockStart, starts⟩
  · exact ⟨.commentStart, starts⟩
  · exact ⟨.exprStart, starts⟩

theorem Dialect.opens_of_rawEnd {text : List Char}
    (closes : matchesAt (rawEnd dialect) text = true) : dialect.Opens text := by
  simp only [matchesAt] at closes
  split at closes
  case h_1 edges later matched =>
      rcases bind_eq_matched.mp matched with ⟨⟨⟩, middle, stands, _⟩
      exact ⟨.blockStart, _, (exact_eq_matched.mp stands).1.symm⟩
  case h_2 => cases closes

/-- What asks for a delimiter is not met inside a passage that is clear of them. -/
theorem Passage.ClearOf.runsTo {passage : Passage} (clear : passage.ClearOf dialect)
    {test test' : List Char → Bool} {ends ends' : List Char → Prop}
    (runs : passage.RunsTo test' ends') (opens : ∀ text, test text = true → dialect.Opens text)
    (ended : ∀ rest, ends rest → rest = [] ∨ test rest = true) : passage.RunsTo test ends := by
  rcases runs with ⟨run, rfl, _⟩
  refine ⟨run, rfl, fun rest behind => untilText_append (ended rest behind) ?_⟩
  intro first others suffix
  apply Bool.eq_false_iff.mpr
  intro met
  rcases opens _ met with ⟨role, starts⟩
  rcases (dialect.delimiter role).exists_cons with ⟨first', others', shape⟩
  rw [shape] at starts
  cases (List.cons_prefix_cons.mp starts).1
  apply clear role first (shape ▸ List.mem_cons_self)
  rw [Passage.chars_ofChars]
  exact suffix.mem List.mem_cons_self

theorem EndsText.ended {last : Bool} {rest : List Char} (ends : EndsText dialect last rest) :
    rest = [] ∨ opensTag dialect rest = true := by
  cases last with
  | true => exact .inl ends
  | false => exact .inr ends

/-! ## Nodes and bodies -/

namespace Node

variable {last : Bool} {nodes : List Node} {node : Node} {dialect' : Dialect}

theorem TextsEnd.carried (ends : TextsEnd dialect' last nodes)
    (clear : ∀ node ∈ nodes, ∀ passage ∈ (Element.node node).passage?, passage.ClearOf dialect) :
    TextsEnd dialect last nodes := by
  induction nodes with
  | nil => trivial
  | cons node nodes induction =>
      rw [List.forall_mem_cons] at clear
      cases node with
      | text offset passage =>
          rcases ends with ⟨nonempty, runs, apart, ends⟩
          refine ⟨nonempty, (clear.1 passage rfl).runsTo runs ?_ ?_, apart, induction ends clear.2⟩
          · exact fun _ => Dialect.opens_of_opensTag
          · exact fun _ => EndsText.ended
      | _ => exact induction ends clear.2

/-- Only raw text and the bodies of a node depend on the dialect. -/
theorem Regular.carried {inLoop : Bool} {bodies bodies' : Part → List Node → Prop}
    (regular : node.Regular dialect' inLoop bodies')
    (inside : ∀ part, ∀ nodes ∈ node.bodies, bodies' part nodes → bodies part nodes)
    (clear : ∀ passage ∈ (Element.node node).passage?, passage.ClearOf dialect) :
    node.Regular dialect inLoop bodies := by
  cases node with
  | raw offset opening passage closing =>
      exact (clear passage rfl).runsTo regular (fun _ => Dialect.opens_of_rawEnd) fun _ => .inr
  | conditional offset branches closing =>
      rcases regular with ⟨nonempty, begun, ordered, each⟩
      exact ⟨nonempty, begun, ordered, fun branch among =>
        (each branch among).imp id (inside _ _ (List.mem_map_of_mem among))⟩
  | loop =>
      rcases regular with ⟨pattern, iterable, guarded, body, alternative⟩
      exact ⟨pattern, iterable, guarded, inside _ _ List.mem_cons_self body,
        inside _ _ (List.mem_cons_of_mem _ List.mem_cons_self) alternative⟩
  | choice offset opening subject arms closing =>
      rcases regular with ⟨subject, nonempty, each⟩
      exact ⟨subject, nonempty, fun arm among =>
        (each arm among).imp id (inside _ _ (List.mem_map_of_mem among))⟩
  | macroDef =>
      rcases regular with ⟨isName, free, parameters, body⟩
      exact ⟨isName, free, parameters, inside _ _ List.mem_cons_self body⟩
  | block => exact regular.imp id (inside _ _ List.mem_cons_self)
  | _ => exact regular

end Node

namespace Branch

theorem levelsAll_body_lt {branch : Branch} {branches : List Branch} (among : branch ∈ branches) :
    Node.levelsAll branch.body < Branch.levels branches := by
  induction branches with
  | nil => cases among
  | cons first others induction =>
      rcases first with ⟨_, _, _, body⟩
      rw [Branch.levels]
      rcases List.mem_cons.mp among with rfl | among
      · simp only
        omega
      · have := induction among
        omega

end Branch

namespace Arm

theorem levelsAll_body_lt {arm : Arm} {arms : List Arm} (among : arm ∈ arms) :
    Node.levelsAll arm.body < Arm.levels arms := by
  induction arms with
  | nil => cases among
  | cons first others induction =>
      rcases first with ⟨_, _, _, body⟩
      rw [Arm.levels]
      rcases List.mem_cons.mp among with rfl | among
      · simp only
        omega
      · have := induction among
        omega

end Arm

namespace Node

/-- A body adds a level to those that are nested in it. -/
theorem levelsAll_lt_of_mem_bodies {node : Node} {nodes : List Node} (body : nodes ∈ node.bodies) :
    levelsAll nodes < node.levels := by
  cases node with
  | conditional offset branches closing =>
      rcases List.mem_map.mp body with ⟨branch, among, rfl⟩
      exact Branch.levelsAll_body_lt among
  | choice offset opening subject arms closing =>
      rcases List.mem_map.mp body with ⟨arm, among, rfl⟩
      exact Arm.levelsAll_body_lt among
  | loop =>
      simp only [bodies, List.mem_cons, List.not_mem_nil, or_false] at body
      rw [levels]
      rcases body with rfl | rfl <;> omega
  | macroDef | block =>
      rw [List.mem_singleton.mp body, levels]
      omega
  | _ => cases body

theorem levels_le_levelsAll {node : Node} {nodes : List Node} (among : node ∈ nodes) :
    node.levels ≤ levelsAll nodes := by
  induction nodes with
  | nil => cases among
  | cons first others induction =>
      rw [levelsAll]
      rcases List.mem_cons.mp among with rfl | among
      · exact Nat.le_max_left _ _
      · exact Nat.le_trans (induction among) (Nat.le_max_right _ _)

end Node

/-- A regular body is regular in another dialect that admits its nesting, with delimiters that its
texts are clear of. -/
theorem RegularBody.carried {dialect' : Dialect} {levels levels' : Nat} {scope : List Part}
    {last : Bool} {nodes : List Node}
    (regular : RegularBody dialect' .zero levels' scope last nodes)
    (nested : scope.length + Node.levelsAll nodes ≤ dialect.maxDepth)
    (enough : dialect.maxDepth < levels + scope.length)
    (clear : ∀ node ∈ nodes, ∀ element ∈ (Element.node node).walk, ∀ passage ∈ element.passage?,
      passage.ClearOf dialect) :
    RegularBody dialect .zero levels scope last nodes := by
  -- On the levels that were enough for reading it: a body inside nests less deeply by one, and it
  -- is one deeper, so that `nested` is kept.
  induction levels' generalizing levels scope last nodes with
  | zero => cases regular
  | succ levels' induction =>
      rcases regular with ⟨_, texts, each⟩
      obtain ⟨levels, rfl⟩ : ∃ fewer, levels = fewer + 1 :=
        Nat.exists_eq_succ_of_ne_zero (by omega)
      have shallow : (Counters.zero.within scope).tooDeep dialect.maxDepth = false := by
        rw [Scoped.tooDeep_zero_within]
        exact decide_eq_false (by omega)
      refine ⟨shallow, texts.carried fun node among => clear node among _ (Element.mem_walk_self _),
        fun node among => (each node among).carried ?_ (clear node among _ (Element.mem_walk_self _))⟩
      intro part body isBody regular
      have deeper := Node.levelsAll_lt_of_mem_bodies isBody
      have within := Node.levels_le_levelsAll among
      refine induction regular ?_ ?_ fun inner isInner element met =>
        clear node among element ?_
      · rw [List.length_cons]
        omega
      · rw [List.length_cons]
        omega
      · exact Element.walk_subset_walk (Element.mem_walk_of_mem_body isBody isInner) met

namespace Template

/-- Delimiters do not matter: a template of the standard dialect is read back from how it is printed
in any dialect that admits its nesting, if the delimiters of that dialect are foreign to tags and to
the texts of the template. -/
theorem parse_print_foreign {source : Source} {template : Template}
    (parsed : parse .standard source = .ok template) (foreign : dialect.Foreign)
    (nested : template.depth ≤ dialect.maxDepth)
    (clear : ∀ passage ∈ template.passages, passage.ClearOf dialect) (filename : Option String) :
    ∃ reparsed, parse dialect ⟨template.print dialect, template.name, filename⟩ = .ok reparsed ∧
      template.same reparsed = true := by
  have regular : RegularBody dialect .zero (dialect.maxDepth + 1) [.template] true template.body := by
    refine (regular_of_parse parsed).carried nested (by rw [List.length_singleton]; omega) ?_
    intro node among element met passage holds
    have met := Element.walk_subset_walk (Element.mem_walk_template among) met
    exact clear passage (List.mem_filterMap.mpr ⟨element, met, holds⟩)
  exact parse_print foreign.legible regular filename

/-- Both delimiters of a block may be the same, and one delimiter may begin with what another one
ends with. The texts may have delimiters of the standard dialect in them. -/
theorem parse_print_foreign_conditional :
    let _ : Room := ⟨20⟩
    let dialect : Dialect :=
      { blockStart := ⟨"@@".toList, by decide, by decide⟩
        blockEnd := ⟨"@@".toList, by decide, by decide⟩
        exprStart := ⟨"$@@$".toList, by decide, by decide⟩
        exprEnd := ⟨"@$$".toList, by decide, by decide⟩
        commentStart := ⟨"$$;".toList, by decide, by decide⟩
        commentEnd := ⟨";$".toList, by decide, by decide⟩
        maxDepth := 2
        block_apart_expr := by decide
        block_apart_comment := by decide
        expr_apart_comment := by decide
        maxDepth_pos := by decide }
    let template : Template :=
      { body := [
          .conditional 0 [⟨0, {}, some ⟨6, none, .var 6 "x"⟩, [
            .text 10 ⟨"", "\x7d\x7d", " "⟩,
            .output 13 ⟨none, some .suppress⟩ (.var 16 "y")]⟩] {},
          .comment 32 {},
          .raw 37 {} ⟨"", "\x7b\x7b", ""⟩ {}]
        name := none }
    parse .standard ⟨"\x7b% if x %\x7d\x7d\x7d \x7b\x7b y -\x7d\x7d\x7b% endif %\x7d\x7b#.#\x7d" ++
        "\x7b% raw %\x7d\x7b\x7b\x7b% endraw %\x7d", none, none⟩ = .ok template ∧
      dialect.Foreign ∧ template.depth ≤ dialect.maxDepth ∧
      (∀ passage ∈ template.passages, passage.ClearOf dialect) ∧
      template.print dialect = "@@ if x @@\x7d\x7d $@@$ y -@$$@@ endif @@$$; ;$" ++
        "@@ raw @@\x7b\x7b@@ endraw @@" ∧
      ∃ reparsed, parse dialect ⟨template.print dialect, none, none⟩ = .ok reparsed ∧
        template.same reparsed = true := by
  intro room dialect template
  have parsed : parse .standard
      ⟨"\x7b% if x %\x7d\x7d\x7d \x7b\x7b y -\x7d\x7d\x7b% endif %\x7d\x7b#.#\x7d" ++
        "\x7b% raw %\x7d\x7b\x7b\x7b% endraw %\x7d", none, none⟩ = .ok template := by
    rw [parse_eq_scoped]
    rfl
  have foreign : dialect.Foreign := by
    intro role
    cases role <;> decide
  have passages : template.passages = [⟨"", "\x7d\x7d", " "⟩, ⟨"", "\x7b\x7b", ""⟩] := by
    simp [template, Template.passages, Element.walk, Element.walkAll, Element.children, Node.children,
      Expr.children]
    rfl
  have clear : ∀ passage ∈ template.passages, passage.ClearOf dialect := by
    rw [passages]
    simp only [List.forall_mem_cons, List.not_mem_nil, false_implies, implies_true, and_true]
    constructor <;> (intro role; cases role <;> exact @of_decide_eq_true _ (List.decidableBAll _ _) rfl)
  exact ⟨parsed, foreign, by decide, clear, by decide,
    parse_print_foreign parsed foreign (by decide) clear none⟩

end Template

end Templating

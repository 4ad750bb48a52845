import Mathlib.Data.List.Forall2
import Templating.Proofs.Walking
import Templating.Tree.Visitor

/-! # Traversals that agree

A walk meets the records of a tree in preorder, each place of the tree once. A visitor meets those that
it has methods for in the same order, but for what is below a record whose method stops it, and what is
told of a tree by its walk is what a visitor collects. -/

namespace Templating

namespace Record

/-! ## The preorder -/

/-- The records of a tree, each before its children and these in order. -/
def preorder (record : Record) : List Record :=
  record :: record.children.attach.flatMap fun child =>
    have := sizeOf_lt_of_mem_children child.property
    preorder child.val
termination_by record

theorem preorder_eq (record : Record) :
    record.preorder = record :: record.children.flatMap preorder := by
  rw [preorder]
  simp only [List.flatMap_subtype, List.unattach_attach]

/-- What is true of a record if it is true of its children is true of all records. -/
theorem induct {motive : Record → Prop}
    (step : ∀ record : Record, (∀ child ∈ record.children, motive child) → motive record)
    (record : Record) : motive record :=
  step record fun child member =>
    have := sizeOf_lt_of_mem_children member
    induct step child
termination_by record

/-- What is on a stack is met from its end on. -/
theorem walkFrom_eq (stack : List Record) : walkFrom stack = stack.reverse.flatMap preorder := by
  fun_induction walkFrom stack with
  | case1 stack empty =>
      rw [List.getLast?_eq_none_iff.mp empty]
      rfl
  | case2 stack current top induction =>
      rcases List.getLast?_eq_some_iff.mp top with ⟨others, rfl⟩
      rw [induction]
      simp [preorder_eq current]

theorem walk_eq_preorder (record : Record) : record.walk = record.preorder := by
  simp [walk, walkFrom_eq]

theorem walk_eq (record : Record) : record.walk = record :: record.children.flatMap walk := by
  have same : walk = preorder := funext walk_eq_preorder
  rw [same, preorder_eq]

/-! ## Places -/

/-- The record at a place, which is told by the numbers of the children on the way to it. -/
def at? : Record → (path : List Nat) → Option Record
  | record, [] => some record
  | record, index :: path => record.children[index]?.bind fun child => child.at? path

/-- The records of a tree with their places. -/
def occurrences (record : Record) : List (List Nat × Record) :=
  ([], record) :: record.children.attach.zipIdx.flatMap fun child =>
    have := sizeOf_lt_of_mem_children child.1.property
    (occurrences child.1.val).map fun occurrence => (child.2 :: occurrence.1, occurrence.2)
termination_by record

/-- What is below a child with its places below the parent. -/
def occurrencesBelow (child : Record × Nat) : List (List Nat × Record) :=
  child.1.occurrences.map fun occurrence => (child.2 :: occurrence.1, occurrence.2)

theorem occurrences_eq (record : Record) :
    record.occurrences = ([], record) :: record.children.zipIdx.flatMap occurrencesBelow := by
  rw [occurrences]
  have below : record.children.zipIdx =
      record.children.attach.zipIdx.map fun child => (child.1.val, child.2) := by
    conv => lhs; rw [← List.attach_map_subtype_val record.children, List.zipIdx_map]
    rfl
  rw [below, List.flatMap_map]
  rfl

theorem flatMap_zipIdx_fst {α β : Type} (values : List α) (next : α → List β) :
    (values.zipIdx.flatMap fun value => next value.1) = values.flatMap next := by
  conv => rhs; rw [← List.zipIdx_map_fst 0 values, List.flatMap_map]

theorem mem_of_mem_zipIdx {child : Record × Nat} {records : List Record}
    (member : child ∈ records.zipIdx) : child.1 ∈ records :=
  List.mem_of_getElem? (List.mem_zipIdx_iff_getElem?.mp member)

theorem map_snd_occurrences (record : Record) : record.occurrences.map Prod.snd = record.walk := by
  induction record using induct with
  | step record induction =>
      rw [occurrences_eq, walk_eq, List.map_cons, List.map_flatMap, ← flatMap_zipIdx_fst record.children]
      have below (child : Record × Nat) (member : child ∈ record.children.zipIdx) :
          (occurrencesBelow child).map Prod.snd = child.1.walk := by
        rw [← induction child.1 (mem_of_mem_zipIdx member), occurrencesBelow, List.map_map]
        rfl
      rw [List.flatMap_def, List.flatMap_def, List.map_congr_left below]

theorem mem_occurrences_iff {record inner : Record} {path : List Nat} :
    (path, inner) ∈ record.occurrences ↔ record.at? path = some inner := by
  induction path generalizing record with
  | nil =>
      have notBelow : ([], inner) ∉ record.children.zipIdx.flatMap occurrencesBelow := by
        simp [occurrencesBelow]
      rw [occurrences_eq, List.mem_cons, or_iff_left notBelow, at?, Prod.mk.injEq, Option.some.injEq]
      exact ⟨fun same => same.2.symm, fun same => ⟨rfl, same.symm⟩⟩
  | cons index path induction =>
      rw [occurrences_eq, at?, Option.bind_eq_some_iff]
      constructor
      · intro member
        rcases List.mem_cons.mp member with same | member
        · cases same
        · rcases List.mem_flatMap.mp member with ⟨child, isChild, below⟩
          rcases List.mem_map.mp below with ⟨⟨path', inner'⟩, within, same⟩
          cases same
          exact ⟨child.1, List.mem_zipIdx_iff_getElem?.mp isChild, induction.mp within⟩
      · rintro ⟨child, isChild, below⟩
        exact List.mem_cons_of_mem _ (List.mem_flatMap.mpr ⟨(child, index),
          List.mem_zipIdx_iff_getElem?.mpr isChild, List.mem_map.mpr ⟨_, induction.mpr below, rfl⟩⟩)

theorem pairwise_zipIdx {α : Type} (values : List α) (start : Nat) :
    (values.zipIdx start).Pairwise fun former later => former.2 < later.2 := by
  induction values generalizing start with
  | nil => exact .nil
  | cons head tail induction =>
      rw [List.zipIdx_cons, List.pairwise_cons]
      exact ⟨fun later member => List.le_snd_of_mem_zipIdx member, induction (start + 1)⟩

/-- Every place comes before the places below it and behind it. -/
theorem pairwise_occurrences (record : Record) :
    record.occurrences.Pairwise fun former later => former.1 < later.1 := by
  induction record using induct with
  | step record induction =>
      rw [occurrences_eq, List.pairwise_cons, List.pairwise_flatMap]
      refine ⟨fun later member => ?_, fun child member => ?_, ?_⟩
      · rcases List.mem_flatMap.mp member with ⟨child, _, below⟩
        rcases List.mem_map.mp below with ⟨_, _, rfl⟩
        exact List.nil_lt_cons _ _
      · rw [occurrencesBelow, List.pairwise_map]
        exact (induction child.1 (mem_of_mem_zipIdx member)).imp List.cons_lt_cons_self.mpr
      · refine (pairwise_zipIdx record.children 0).imp fun before former member later member' => ?_
        rcases List.mem_map.mp member with ⟨_, _, rfl⟩
        rcases List.mem_map.mp member' with ⟨_, _, rfl⟩
        exact List.Lex.rel before

/-! ## Traces -/

section

variable (handlers : String → Option Element.VisitStep)

/-- A visit does not go on below the record. -/
def stops (record : Record) : Bool :=
  handlers record.kind.name == some .stop

/-- A visit comes to the place: it is not stopped on the way. -/
def reaches : Record → (path : List Nat) → Bool
  | _, [] => true
  | record, index :: path =>
      !record.stops handlers && record.children[index]?.all fun child => child.reaches path

/-- The records of a tree that a visit hands to a handler, with their places. -/
def traced (record : Record) : List (List Nat × Record) :=
  record.occurrences.filter fun occurrence =>
    (handlers occurrence.2.kind.name).isSome && record.reaches handlers occurrence.1

/-- A visit comes to a place unless a record above it stops it. -/
theorem reaches_iff {record inner : Record} {path : List Nat} (stands : record.at? path = some inner) :
    record.reaches handlers path = true ↔ ∀ above index below, path = above ++ index :: below →
      ∀ ancestor, record.at? above = some ancestor → handlers ancestor.kind.name ≠ some .stop := by
  induction path generalizing record with
  | nil =>
      refine iff_of_true rfl fun above index below split => ?_
      simp at split
  | cons index path induction =>
      rcases Option.bind_eq_some_iff.mp stands with ⟨child, isChild, below⟩
      rw [reaches, isChild, Option.all_some, Bool.and_eq_true, induction below]
      constructor
      · rintro ⟨goesOn, further⟩ above index' below' split ancestor atAbove
        cases above with
        | nil =>
            cases atAbove
            simpa [stops] using goesOn
        | cons first above =>
            cases split
            rw [at?, isChild] at atAbove
            exact further above index' below' rfl ancestor atAbove
      · intro none
        refine ⟨?_, fun above index' below' split ancestor atAbove => ?_⟩
        · simpa [stops] using none [] index path rfl record rfl
        · refine none (index :: above) index' below' (congrArg (index :: ·) split) ancestor ?_
          rw [at?, isChild]
          exact atAbove

theorem map_snd_traced (record : Record) : (record.traced handlers).map Prod.snd =
    (if (handlers record.kind.name).isSome then [record] else []) ++
      if record.stops handlers then []
      else record.children.flatMap fun child => (child.traced handlers).map Prod.snd := by
  have below (child : Record × Nat) (member : child ∈ record.children.zipIdx) :
      ((occurrencesBelow child).filter fun occurrence =>
          (handlers occurrence.2.kind.name).isSome && record.reaches handlers occurrence.1).map
        Prod.snd =
      if record.stops handlers then [] else (child.1.traced handlers).map Prod.snd := by
    rw [occurrencesBelow, List.filter_map, List.map_map]
    have isChild := List.mem_zipIdx_iff_getElem?.mp member
    cases stopped : record.stops handlers with
    | true => simp [reaches, stopped, Function.comp_def]
    | false => simp [reaches, stopped, isChild, traced, Function.comp_def]
  rw [traced, occurrences_eq, List.filter_cons, List.filter_flatMap]
  have parts : (record.children.zipIdx.flatMap fun child =>
      (occurrencesBelow child).filter fun occurrence =>
        (handlers occurrence.2.kind.name).isSome && record.reaches handlers occurrence.1).map
      Prod.snd = if record.stops handlers then []
        else record.children.flatMap fun child => (child.traced handlers).map Prod.snd := by
    rw [List.map_flatMap, List.flatMap_def, List.map_congr_left below, ← List.flatMap_def]
    cases record.stops handlers with
    | true => simp
    | false =>
        exact flatMap_zipIdx_fst record.children fun child => (child.traced handlers).map Prod.snd
  rw [← parts]
  cases handlers record.kind.name <;> simp [reaches]

/-- A visitor that writes a trace meets what it has handlers for in preorder, except below what stops
it. -/
theorem visit_tracing {Result : Type} (result : Record → Result) (record : Record)
    (trace : List Record) :
    (Visitor.tracing handlers result).visit record trace =
      ((handlers record.kind.name).map fun _ => result record,
        trace ++ (record.traced handlers).map Prod.snd) := by
  induction record using induct generalizing trace with
  | step record induction =>
      have below (trace : List Record) :
          (Visitor.tracing handlers result).genericVisit record trace = trace ++
            record.children.flatMap fun child => (child.traced handlers).map Prod.snd := by
        rw [Visitor.genericVisit]
        generalize record.children = children at induction
        induction children generalizing trace with
        | nil => simp
        | cons child children others =>
            rw [List.forall_mem_cons] at induction
            rw [List.foldl_cons, induction.1, others _ induction.2, List.flatMap_cons,
              List.append_assoc]
      rw [Visitor.visit_eq, map_snd_traced, stops, Visitor.method_tracing]
      cases handlers record.kind.name with
      | none => simp [below]
      | some step => cases step <;> simp [below]

end

end Record

/-! ## Trees that are built as their classes declare -/

/-- The content is of use for an attribute of the kind. -/
def Content.Fits : AttributeKind → Content → Prop
  | .text, content => ∃ text, content = .text text
  | .data, content => content.records = []
  | .elements, _ => True

/-- The attributes are those of the class, and each has a content that fits. -/
def Record.IsDeclared (record : Record) : Prop :=
  List.Forall₂ (fun declared held => held.name = declared.1 ∧ held.content.Fits declared.2)
    record.kind.attributes record.attributes

/-- Every record of the tree is as its class declares. -/
def Record.IsBuilt (record : Record) : Prop :=
  ∀ inner ∈ record.walk, inner.IsDeclared

namespace Record

theorem mem_walk_of_mem_children {child record inner : Record} (isChild : child ∈ record.children)
    (member : inner ∈ child.walk) : inner ∈ record.walk := by
  rw [walk_eq record]
  exact List.mem_cons_of_mem _ (List.mem_flatMap.mpr ⟨child, isChild, member⟩)

theorem isBuilt_iff {record : Record} :
    record.IsBuilt ↔ record.IsDeclared ∧ ∀ child ∈ record.children, child.IsBuilt := by
  constructor
  · intro built
    refine ⟨built record ?_, fun child isChild inner member =>
      built inner (mem_walk_of_mem_children isChild member)⟩
    rw [walk_eq]
    exact List.mem_cons_self
  · rintro ⟨declared, below⟩ inner member
    rw [walk_eq, List.mem_cons, List.mem_flatMap] at member
    rcases member with rfl | ⟨child, isChild, member⟩
    · exact declared
    · exact below child isChild inner member

/-! ## References -/

theorem records_of_fits {kind : AttributeKind} {content : Content} (fits : content.Fits kind)
    (plain : kind ≠ .elements) : content.records = [] := by
  cases kind with
  | text =>
      rcases fits with ⟨text, rfl⟩
      rfl
  | data => exact fits
  | elements => exact absurd rfl plain

/-- A record has nothing below it if no attribute of its class is for elements. -/
theorem children_of_isDeclared {record : Record} (declared : record.IsDeclared)
    (plain : ∀ declared ∈ record.kind.attributes, declared.2 ≠ .elements) :
    record.children = [] := by
  rw [children, List.flatMap_eq_nil_iff]
  intro held member
  rcases List.mem_iff_getElem.mp member with ⟨index, inside, rfl⟩
  have inside' : index < record.kind.attributes.length := declared.length_eq ▸ inside
  have fits := (List.forall₂_iff_get.mp declared).2 index inside' inside
  split
  · rfl
  · exact records_of_fits fits.2 (plain _ (List.getElem_mem inside'))

/-- The classes of the records that name another template. -/
theorem namesTemplate_iff {kind : NodeClass} : kind.name ∈ ["Extends", "Include", "Import"] ↔
    kind = .extendTemplate ∨ kind = .includeTemplate ∨ kind = .importMacros := by
  cases kind with
  | literalPattern kind => cases kind <;> decide
  | _ => decide

theorem template?_eq_none {record : Record}
    (plain : record.kind.name ∉ ["Extends", "Include", "Import"]) : record.template? = none := by
  rw [namesTemplate_iff] at plain
  rw [template?]
  split <;> simp_all

/-- A record that names another template has nothing below it. -/
theorem children_of_namesTemplate {record : Record} (declared : record.IsDeclared)
    (names : record.kind.name ∈ ["Extends", "Include", "Import"]) : record.children = [] := by
  refine children_of_isDeclared declared ?_
  rcases namesTemplate_iff.mp names with kind | kind | kind <;> rw [kind] <;> decide

end Record

namespace DependencyWalker

open Record

theorem add_eraseDups (seen : List String) (name : Option String) :
    add seen.eraseDups name = (seen ++ name.toList).eraseDups := by
  cases name with
  | none => simp [add]
  | some name =>
      by_cases known : name ∈ seen <;>
        simp [add, List.eraseDups_append, List.removeAll, known, List.eraseDups_cons]

/-- What is collected are the names in the order of a walk, each where it stands first. -/
theorem visit_collects {record : Record} (built : record.IsBuilt) (seen : List String) :
    (visitor.visit record seen.eraseDups).2 =
      (seen ++ record.walk.filterMap template?).eraseDups := by
  induction record using Record.induct generalizing seen with
  | step record induction =>
      rcases isBuilt_iff.mp built with ⟨declared, below⟩
      have generic : visitor.genericVisit record seen.eraseDups =
          (seen ++ record.children.flatMap fun child => child.walk.filterMap template?).eraseDups := by
        rw [Visitor.genericVisit]
        generalize record.children = children at induction below
        clear built declared
        induction children generalizing seen with
        | nil => simp
        | cons child children others =>
            rw [List.forall_mem_cons] at induction below
            rw [List.foldl_cons, induction.1 below.1, others _ induction.2 below.2,
              List.flatMap_cons, List.append_assoc]
      rw [Visitor.visit_eq, walk_eq, List.filterMap_cons, List.filterMap_flatMap]
      by_cases names : record.kind.name ∈ ["Extends", "Include", "Import"]
      · simp only [visitor, names, if_true, children_of_namesTemplate declared names]
        rw [add_eraseDups]
        cases record.template? <;> rfl
      · rw [template?_eq_none names, ← generic]
        simp only [visitor, names, if_false]

/-- What a walker has seen before makes no difference. -/
theorem analyze_eq (walker : DependencyWalker) {record : Record} (built : record.IsBuilt) :
    (walker.analyze record).1 = (record.walk.filterMap template?).eraseDups :=
  visit_collects built []

end DependencyWalker

/-! ## Agreement -/

namespace Record

theorem mem_traced_iff (handlers : String → Option Element.VisitStep) {record inner : Record}
    {path : List Nat} (stands : record.at? path = some inner) :
    (path, inner) ∈ record.traced handlers ↔
      (handlers inner.kind.name).isSome ∧ ∀ above index below, path = above ++ index :: below →
        ∀ ancestor, record.at? above = some ancestor → handlers ancestor.kind.name ≠ some .stop := by
  rw [traced, List.mem_filter, and_iff_right (mem_occurrences_iff.mpr stands), Bool.and_eq_true,
    reaches_iff handlers stands]

/-- What a walk, visits and a collection of names make of a tree. -/
structure TraversalsAgree (record : Record) : Prop where
  walk_preorder : record.walk = record.preorder
  /-- The walk meets what stands at the places of the tree, ... -/
  walk_places : record.walk = record.occurrences.map Prod.snd
  mem_places : ∀ path inner, (path, inner) ∈ record.occurrences ↔ record.at? path = some inner
  /-- ... each place once, and after all those above it. -/
  places_in_order : record.occurrences.Pairwise fun former later => former.1 < later.1
  /-- A visit has the result of the handler of the root, if there is one, and a trace ... -/
  visit_traced : ∀ {Result : Type} (handlers : String → Option Element.VisitStep)
    (result : Record → Result),
    (Visitor.tracing handlers result).visit record [] =
      ((handlers record.kind.name).map fun _ => result record,
        (record.traced handlers).map Prod.snd)
  /-- ... that leaves out those places that have no handler or are below one that stops. -/
  traced_sublist : ∀ handlers, (record.traced handlers).Sublist record.occurrences
  mem_traced : ∀ handlers path inner, record.at? path = some inner →
    ((path, inner) ∈ record.traced handlers ↔
      (handlers inner.kind.name).isSome ∧ ∀ above index below, path = above ++ index :: below →
        ∀ ancestor, record.at? above = some ancestor → handlers ancestor.kind.name ≠ some .stop)
  collected : ∀ walker : DependencyWalker,
    (walker.analyze record).1 = (record.walk.filterMap template?).eraseDups
  blocks : record.blockNames = record.walk.filterMap block?

theorem IsBuilt.traversalsAgree {record : Record} (built : record.IsBuilt) :
    record.TraversalsAgree where
  walk_preorder := walk_eq_preorder record
  walk_places := (map_snd_occurrences record).symm
  mem_places _ _ := mem_occurrences_iff
  places_in_order := pairwise_occurrences record
  visit_traced handlers result := visit_tracing handlers result record []
  traced_sublist _ := List.filter_sublist
  mem_traced handlers _ _ stands := mem_traced_iff handlers stands
  collected walker := DependencyWalker.analyze_eq walker built
  blocks := rfl

end Record

end Templating

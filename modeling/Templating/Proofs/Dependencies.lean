import Templating.Proofs.SourceOrder

/-! # Dependencies in source order

The dependencies of a template are the names of the templates that its tags name, each once. They
stand in the order in which the source names them first, unless the arm of a choice that is
moved behind the others keeps one of them from doing so. -/

namespace Templating

variable {room : Room}

/-! ## Lists without repetition -/

section

variable {α : Type} [BEq α] [LawfulBEq α] {values : List α} {first second : α}

theorem nodup_eraseDups (values : List α) : values.eraseDups.Nodup := by
  induction length : values.length using Nat.strongRecOn generalizing values with
  | ind _ induction =>
      cases values with
      | nil => exact .nil
      | cons head tail =>
          rw [List.eraseDups_cons]
          apply List.nodup_cons.mpr
          constructor
          · simp
          · have shorter := List.length_filter_le (fun other => !other == head) tail
            rw [List.length_cons] at length
            exact induction _ (by omega) _ rfl

/-- A list has the first value, and the second one not before it. -/
def Precedes (first second : α) (values : List α) : Prop :=
  ∃ before after, values = before ++ first :: after ∧ second ∉ before

omit [BEq α] [LawfulBEq α] in
theorem Precedes.mem (precedes : Precedes first second values) : first ∈ values := by
  rcases precedes with ⟨_, _, rfl, _⟩
  simp

omit [BEq α] [LawfulBEq α] in
theorem precedes_cons {head : α} {tail : List α} :
    Precedes first second (head :: tail) ↔
      head = first ∨ head ≠ second ∧ Precedes first second tail := by
  constructor
  · rintro ⟨before, after, split, missing⟩
    cases before with
    | nil => exact .inl (List.cons.inj split).1
    | cons head' before =>
        rw [List.mem_cons, not_or] at missing
        cases split
        exact .inr ⟨Ne.symm missing.1, before, after, rfl, missing.2⟩
  · rintro (rfl | ⟨apart, before, after, rfl, missing⟩)
    · exact ⟨[], tail, rfl, List.not_mem_nil⟩
    · refine ⟨head :: before, after, rfl, ?_⟩
      rw [List.mem_cons, not_or]
      exact ⟨apart.symm, missing⟩

omit [BEq α] [LawfulBEq α] in
/-- Other values make no difference. -/
theorem precedes_filter {keep : α → Bool} (kept : keep first = true) (kept' : keep second = true) :
    Precedes first second (values.filter keep) ↔ Precedes first second values := by
  induction values with
  | nil => exact .rfl
  | cons head tail induction =>
      cases keeps : keep head with
      | true => rw [List.filter_cons_of_pos keeps, precedes_cons, precedes_cons, induction]
      | false =>
          have apart {other : α} (kept : keep other = true) : head ≠ other := by
            rintro rfl
            rw [keeps] at kept
            cases kept
          rw [List.filter_cons_of_neg (by rw [keeps]; decide), precedes_cons, induction]
          simp [apart kept, apart kept']

/-- Of two values, the one that a list repeats first is the one that it has first. -/
theorem pair_sublist_eraseDups_iff :
    [first, second].Sublist values.eraseDups ↔
      first ≠ second ∧ second ∈ values ∧ Precedes first second values := by
  induction length : values.length using Nat.strongRecOn generalizing values with
  | ind _ induction =>
      cases values with
      | nil => simp
      | cons head tail =>
          have shorter := List.length_filter_le (fun other => !other == head) tail
          rw [List.length_cons] at length
          have others := @induction _ (by omega) (tail.filter fun other => !other == head) rfl
          have passes {other : α} : (!other == head) = true ↔ other ≠ head := by simp
          have member : second ∈ tail.filter (fun other => !other == head) ↔
              second ∈ tail ∧ second ≠ head := by rw [List.mem_filter, passes]
          have fromHead : (∃ rest, [first, second] = head :: rest ∧
              rest.Sublist (tail.filter fun other => !other == head).eraseDups) ↔
                first = head ∧ second ∈ tail ∧ second ≠ head := by
            simp [and_assoc]
          rw [List.eraseDups_cons, List.sublist_cons_iff, others, member, fromHead, List.mem_cons,
            precedes_cons]
          by_cases atHead : first = head
          case pos =>
              have gone : ¬ Precedes first second (tail.filter fun other => !other == head) :=
                fun precedes => passes.mp (List.mem_filter.mp precedes.mem).2 atHead
              grind
          case neg =>
              by_cases hidden : second = head
              case pos => grind
              case neg =>
                  have same : Precedes first second (tail.filter fun other => !other == head) ↔
                      Precedes first second tail :=
                    precedes_filter (passes.mpr atHead) (passes.mpr hidden)
                  grind

end

namespace Element

variable {root moved passed : Element}

/-- Some tag that names the first template is written before every tag that names the second. -/
def NamedBefore (root : Element) (first second : String) : Prop :=
  ∃ element ∈ root.walk, element.template? = some first ∧
    ∀ other ∈ root.walk, other.template? = some second → element.offset < other.offset

/-- Although `moved` is written before every tag that names the template of `passed`, a walk meets
`passed` before any tag that names the template of `moved`, since it meets an arm that is moved
behind the others after them. -/
structure Overtaken (root moved passed : Element) : Prop where
  displaced : Displaced [root] moved passed
  writtenFirst : ∃ name, passed.template? = some name ∧
    ∀ other ∈ root.walk, other.template? = some name → moved.offset < other.offset
  walkedFirst : ∃ name before after, moved.template? = some name ∧
    root.walk = before ++ passed :: after ∧ ∀ other ∈ before, other.template? ≠ some name

theorem dependencies_eq_walk (root : Element) :
    root.dependencies = (root.walk.filterMap template?).eraseDups := by
  rw [dependencies_eq, references, List.filterMap_filter]
  congr 2
  funext element
  cases element.template? <;> rfl

theorem mem_dependencies_iff {name : String} :
    name ∈ root.dependencies ↔ ∃ element ∈ root.walk, element.template? = some name := by
  rw [dependencies_eq_walk, List.mem_eraseDups, List.mem_filterMap]

/-- One template comes before another among the dependencies if a walk meets a tag that names it
before any that names the other. -/
theorem pair_sublist_dependencies_iff {first second : String} :
    [first, second].Sublist root.dependencies ↔
      first ≠ second ∧ second ∈ root.dependencies ∧
        ∃ before element after, root.walk = before ++ element :: after ∧
          element.template? = some first ∧ ∀ other ∈ before, other.template? ≠ some second := by
  rw [dependencies_eq_walk, pair_sublist_eraseDups_iff, List.mem_eraseDups]
  apply and_congr_right
  intro apart
  apply and_congr_right
  intro _
  constructor
  · intro holds
    rcases holds with ⟨before, after, split, missing⟩
    rcases List.filterMap_eq_append_iff.mp split with ⟨left, right, same, rfl, rest⟩
    rcases List.filterMap_eq_cons_iff.mp rest with ⟨skipped, element, after, rfl, none, names, _⟩
    refine ⟨left ++ skipped, element, after, by simp [same], names, ?_⟩
    intro other member names
    rcases List.mem_append.mp member with member | member
    · exact missing (List.mem_filterMap.mpr ⟨other, member, names⟩)
    · rw [none other member] at names
      cases names
  · intro holds
    rcases holds with ⟨before, element, after, split, names, missing⟩
    refine ⟨before.filterMap template?, after.filterMap template?, by simp [split, names], ?_⟩
    intro member
    rcases List.mem_filterMap.mp member with ⟨other, member, names⟩
    exact missing other member names

/-! ## The order of the dependencies -/

theorem Displaced.moved_mem {elements : List Element}
    (displaced : Displaced elements moved passed) : moved ∈ walkAll elements := by
  rcases displaced with ⟨offset, opening, subject, arms, closing, _, otherwise, member, sublist, _,
    within, _⟩
  have arm : Element.arm otherwise ∈
      (Element.node (.choice offset opening subject arms closing)).children :=
    List.mem_cons_of_mem _ (List.mem_map_of_mem (sublist.subset (by simp)))
  apply walk_subset_walkAll member
  apply walkAll_children_subset
  exact mem_walkAll_iff.mpr ⟨_, arm, within⟩

/-- Among the tags that name a template there is one that is written first. -/
theorem exists_earliest {name : String} (named : name ∈ root.dependencies) :
    ∃ element ∈ root.walk, element.template? = some name ∧
      ∀ other ∈ root.walk, other.template? = some name → element.offset ≤ other.offset := by
  rcases mem_dependencies_iff.mp named with ⟨element, member, names⟩
  induction offset : element.offset using Nat.strongRecOn generalizing element with
  | ind _ induction =>
      by_cases earlier : ∃ other ∈ root.walk, other.template? = some name ∧
          other.offset < element.offset
      · rcases earlier with ⟨other, member', names', earlier⟩
        exact induction other.offset (offset ▸ earlier) other member' names' rfl
      · refine ⟨element, member, names, ?_⟩
        intro other member' names'
        apply Nat.le_of_not_lt
        intro before
        exact earlier ⟨other, member', names', before⟩

section

variable {start stop : Nat} (settled : Settled start [root] stop)

include settled

theorem Settled.walk_ordered : root.walk.Pairwise fun first second =>
    first.template?.isSome = true → second.template?.isSome = true →
      InOrder [root] first second :=
  List.pairwise_filter.mp settled.ordered

theorem Settled.offset_ne {element other : Element} (member : element ∈ root.walk)
    (member' : other ∈ root.walk) {name name' : String} (names : element.template? = some name)
    (names' : other.template? = some name') (apart : name ≠ name') :
    element.offset ≠ other.offset := by
  have distinct : root.walk.Pairwise fun first second => first.template?.isSome = true →
      second.template?.isSome = true → first.offset ≠ second.offset := by
    apply settled.walk_ordered.imp
    intro first second inOrder some some'
    rcases inOrder some some' with before | behind
    · omega
    · have := behind.1
      omega
  have either : ∀ first ∈ root.walk, ∀ second ∈ root.walk, first.template?.isSome = true →
      second.template?.isSome = true → first.template? ≠ second.template? →
        first.offset ≠ second.offset := by
    apply List.Pairwise.forall_of_forall_of_flip
    · intro _ _ _ _ apart
      exact absurd rfl apart
    · exact distinct.imp fun distinct some some' _ => distinct some some'
    · exact distinct.imp fun distinct some some' _ => (distinct some' some).symm
  exact either element member other member' (by simp [names]) (by simp [names'])
    (by simp [names, names', apart])

/-- A tag that a walk meets before the first one that names the second template is in order with
each of those. -/
theorem Settled.inOrder_of_split {first second : String} {before after : List Element}
    (split : root.walk = before ++ passed :: after) (apart : first ≠ second)
    (names : passed.template? = some first)
    (walked : ∀ other ∈ before, other.template? ≠ some second)
    (member : moved ∈ root.walk) (names' : moved.template? = some second) :
    InOrder [root] passed moved := by
  have behind : moved ∈ after := by
    rw [split] at member
    rcases List.mem_append.mp member with member | member
    · exact absurd names' (walked moved member)
    · rcases List.mem_cons.mp member with rfl | member
      · rw [names] at names'
        exact absurd (Option.some.inj names') apart
      · exact member
  have pairs := settled.walk_ordered
  rw [split] at pairs
  have pairs := (List.pairwise_cons.mp (List.pairwise_append.mp pairs).2.1).1 moved behind
  exact pairs (by simp [names]) (by simp [names'])

/-- In a tree that is settled the dependencies are in source order unless a tag is overtaken. -/
theorem Settled.pairwise_dependencies_iff :
    root.dependencies.Pairwise (NamedBefore root) ↔
      ¬ ∃ moved passed, Overtaken root moved passed := by
  rw [List.pairwise_iff_forall_sublist]
  constructor
  · intro inOrder overtaken
    rcases overtaken with ⟨moved, passed, displaced, ⟨first, names, written⟩,
      second, before, after, names', split, walked⟩
    have member : moved ∈ root.walk := displaced.moved_mem
    have apart : first ≠ second := by
      intro same
      have := written moved member (same ▸ names')
      omega
    have named := inOrder (pair_sublist_dependencies_iff.mpr ⟨apart,
      mem_dependencies_iff.mpr ⟨moved, member, names'⟩, before, passed, after, split, names,
        walked⟩)
    rcases named with ⟨element, member', names, earlier⟩
    have := earlier moved member names'
    have := written element member' names
    omega
  · intro orderly first second sublist
    rcases pair_sublist_dependencies_iff.mp sublist with ⟨apart, dependency, before, passed, after,
      split, names, walked⟩
    -- If the second template were named first, that tag would be the one that is moved.
    rcases exists_earliest dependency with ⟨moved, member, names', earliest⟩
    have inOrder := settled.inOrder_of_split split apart names walked member names'
    by_cases writtenFirst : ∀ other ∈ root.walk, other.template? = some first →
        moved.offset < other.offset
    · rcases inOrder with earlier | ⟨_, displaced⟩
      · have := writtenFirst passed (by simp [split]) names
        omega
      · exact absurd ⟨moved, passed, displaced, ⟨first, names, writtenFirst⟩, second, before,
          after, names', split, walked⟩ orderly
    · simp only [Classical.not_forall, Nat.not_lt] at writtenFirst
      rcases writtenFirst with ⟨element, member', names, earlier⟩
      refine ⟨element, member', names, ?_⟩
      intro other written names'
      have := earliest other written names'
      have := settled.offset_ne member' written names names' apart
      omega

end

end Element

namespace Template

variable {dialect : Dialect} {source : Source} {template : Template}

theorem settled_of_parsed (parsed : parse dialect source = .ok template) :
    ∃ stop, Element.Settled 0 [.template template] stop := by
  rcases (Parser.parse_eq_ok dialect).mp parsed with ⟨later, _, read, _⟩
  exact ⟨later.offset, .of_children ((Parser.settles_nodesWithin dialect _).settled read) rfl⟩

/-- The dependencies of a template that has been parsed are the names of the templates that its
tags name anywhere, each once. They are in the order in which the source names them first just if
no tag is overtaken on account of an arm that is moved behind the others. -/
theorem dependencies_in_source_order_iff (parsed : parse dialect source = .ok template) :
    (Element.template template).dependencies.Nodup ∧
      (∀ name, name ∈ (Element.template template).dependencies ↔
        ∃ element ∈ (Element.template template).walk, element.template? = some name) ∧
      ((Element.template template).dependencies.Pairwise
          (Element.NamedBefore (.template template)) ↔
        ¬ ∃ moved passed, Element.Overtaken (.template template) moved passed) := by
  rcases settled_of_parsed parsed with ⟨_, settled⟩
  refine ⟨?_, fun name => Element.mem_dependencies_iff, settled.pairwise_dependencies_iff⟩
  rw [Element.dependencies_eq_walk]
  exact nodup_eraseDups _

/-- The arm for everything else is written first and comes last, and so does what it includes. -/
theorem dependencies_out_of_source_order :
    let _ : Room := ⟨20⟩
    ∃ template, parse .standard ⟨"\x7b% match x %\x7d\x7b% else %\x7d\x7b% include \"a\" %\x7d" ++
        "\x7b% when 1 %\x7d\x7b% include \"b\" %\x7d\x7b% endmatch %\x7d", none, none⟩ =
          .ok template ∧
      (Element.template template).dependencies = ["b", "a"] ∧
      ∃ moved passed, Element.Overtaken (.template template) moved passed := by
  intro room
  have facts : (parse .standard ⟨"\x7b% match x %\x7d\x7b% else %\x7d\x7b% include \"a\" %\x7d" ++
      "\x7b% when 1 %\x7d\x7b% include \"b\" %\x7d\x7b% endmatch %\x7d", none, none⟩).toOption.map
        (fun template => ((Element.template template).dependencies,
          (Element.template template).walk.filterMap fun element =>
            element.template?.map (·, element.offset))) =
      some (["b", "a"], [("b", 52), ("a", 23)]) := by
    decide +kernel
  generalize parsed : parse .standard _ = outcome at facts
  cases outcome with
  | error failure => cases facts
  | ok template =>
      have dependencies : (Element.template template).dependencies = ["b", "a"] :=
        congrArg Prod.fst (Option.some.inj facts)
      have places : (Element.template template).walk.filterMap (fun element =>
          element.template?.map (·, element.offset)) = [("b", 52), ("a", 23)] :=
        congrArg Prod.snd (Option.some.inj facts)
      refine ⟨template, rfl, dependencies, ?_⟩
      apply Classical.byContradiction
      intro orderly
      have inOrder := (dependencies_in_source_order_iff parsed).2.2.mpr orderly
      rw [dependencies] at inOrder
      have named := (List.pairwise_cons.mp inOrder).1 "a" List.mem_cons_self
      rcases named with ⟨element, member, names, earlier⟩
      have written : ("b", element.offset) ∈ [("b", 52), ("a", 23)] :=
        places ▸ List.mem_filterMap.mpr ⟨element, member, by rw [names]; rfl⟩
      have written' : ("a", 23) ∈ [("b", 52), ("a", 23)] := by simp
      rw [← places] at written'
      rcases List.mem_filterMap.mp written' with ⟨other, member', names'⟩
      rcases Option.map_eq_some_iff.mp names' with ⟨name, names', same⟩
      rcases Prod.mk.inj same with ⟨rfl, offset⟩
      have := earlier other member' names'
      simp at written
      omega

end Template

end Templating

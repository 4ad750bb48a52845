import Templating.Tree.Record
import Templating.Tree.Walk

/-! # Traversals of records

The children of a record are found in its attributes, whatever its class is. A walk meets every record
of a tree. A visitor has a method for some classes and passes through the records of all others; what
a method does with what is below its record is its own affair. -/

namespace Templating

/-! ## Children -/

mutual

/-- The records in a content, in sequences inside it too. -/
def Content.records : Content → List Record
  | .record inner => [inner]
  | .sequence items => Content.recordsAll items
  | .text _ | .data => []
termination_by structural content => content

def Content.recordsAll : List Content → List Record
  | [] => []
  | head :: tail => head.records ++ Content.recordsAll tail
termination_by structural contents => contents

end

/-- The sizes of several records together. -/
noncomputable def Record.totalSize : List Record → Nat
  | [] => 0
  | head :: tail => sizeOf head + totalSize tail

theorem Record.totalSize_append (left right : List Record) :
    totalSize (left ++ right) = totalSize left + totalSize right := by
  induction left with
  | nil => simp only [List.nil_append, totalSize, Nat.zero_add]
  | cons head tail induction => simp only [List.cons_append, totalSize, induction, Nat.add_assoc]

theorem Record.totalSize_reverse (records : List Record) :
    totalSize records.reverse = totalSize records := by
  induction records with
  | nil => rfl
  | cons head tail induction =>
      simp only [List.reverse_cons, totalSize_append, totalSize, induction]
      omega

mutual

theorem Content.totalSize_records (content : Content) :
    Record.totalSize content.records < sizeOf content := by
  cases content with
  | record inner =>
      simp only [Content.records, Record.totalSize, Content.record.sizeOf_spec]
      omega
  | sequence items =>
      have := Content.totalSize_recordsAll items
      simp only [Content.records, Content.sequence.sizeOf_spec]
      omega
  | text text =>
      simp only [Content.records, Record.totalSize, Content.text.sizeOf_spec]
      omega
  | data =>
      simp only [Content.records, Record.totalSize, Content.data.sizeOf_spec]
      omega

theorem Content.totalSize_recordsAll (contents : List Content) :
    Record.totalSize (Content.recordsAll contents) < sizeOf contents := by
  cases contents with
  | nil =>
      simp only [Content.recordsAll, Record.totalSize, List.nil.sizeOf_spec]
      omega
  | cons head tail =>
      have := Content.totalSize_records head
      have := Content.totalSize_recordsAll tail
      simp only [Content.recordsAll, Record.totalSize_append, List.cons.sizeOf_spec]
      omega

end

namespace Record

/-- Attributes that repeat what another attribute holds. -/
def derivedAttributes : List String := ["extends"]

/-- The records directly inside a record, in the order of its attributes. -/
def children (record : Record) : List Record :=
  record.attributes.flatMap fun held =>
    if derivedAttributes.contains held.name then [] else held.content.records

theorem totalSize_children (record : Record) : totalSize record.children < sizeOf record := by
  obtain ⟨kind, offset, attributes⟩ := record
  have below (attributes : List Attribute) :
      totalSize (attributes.flatMap fun held =>
        if derivedAttributes.contains held.name then [] else held.content.records) <
          sizeOf attributes := by
    induction attributes with
    | nil =>
        simp only [List.flatMap_nil, totalSize, List.nil.sizeOf_spec]
        omega
    | cons head tail induction =>
        obtain ⟨name, content⟩ := head
        have := content.totalSize_records
        simp only [List.flatMap_cons, totalSize_append, List.cons.sizeOf_spec,
          Attribute.mk.sizeOf_spec]
        split
        · simp only [totalSize]
          omega
        · omega
  have := below attributes
  simp only [children, mk.sizeOf_spec]
  omega

theorem sizeOf_lt_of_mem_children {child record : Record} (member : child ∈ record.children) :
    sizeOf child < sizeOf record := by
  have := record.totalSize_children
  rcases List.append_of_mem member with ⟨before, after, shape⟩
  rw [shape, totalSize_append, totalSize] at this
  omega

/-! ## Walks -/

/-- The records that are met from a stack on, whose top is at its end. The children of a record that
is met are put on the stack in reverse, so that the first of them is on top. -/
def walkFrom (stack : List Record) : List Record :=
  match _top : stack.getLast? with
  | none => []
  | some current => current :: walkFrom (stack.dropLast ++ current.children.reverse)
termination_by totalSize stack
decreasing_by
  rcases List.getLast?_eq_some_iff.mp _top with ⟨others, rfl⟩
  have := current.totalSize_children
  simp only [List.dropLast_concat, totalSize_append, totalSize_reverse, totalSize]
  omega

/-- Every record of a tree. -/
def walk (record : Record) : List Record :=
  walkFrom [record]

end Record

/-! ## Visitors -/

/-- A visitor with a state. A method may change the state and yields a result; it is handed a visit of
all that is directly below its record. -/
structure Visitor (State Result : Type) where
  method : (className : String) →
    Option (Record → (below : State → State) → State → Result × State)

namespace Visitor

variable {State Result : Type} (visitor : Visitor State Result)

/-- Visits a record with the method for its class, which decides on the result. Without a method what
is below the record is visited, and there is no result. -/
def visit (record : Record) (state : State) : Option Result × State :=
  let below := fun state => record.children.attach.foldl
    (fun state child =>
      have := Record.sizeOf_lt_of_mem_children child.property
      (visit child.val state).2) state
  match visitor.method record.kind.name with
  | none => (none, below state)
  | some method =>
      let (result, state) := method record below state
      (some result, state)
termination_by record

/-- Visits what is directly below a record. -/
def genericVisit (record : Record) (state : State) : State :=
  record.children.foldl (fun state child => (visitor.visit child state).2) state

theorem visit_eq (record : Record) (state : State) :
    visitor.visit record state =
      match visitor.method record.kind.name with
      | none => (none, visitor.genericVisit record state)
      | some method =>
          ((some (method record (visitor.genericVisit record) state).1),
            (method record (visitor.genericVisit record) state).2) := by
  have below (state : State) : record.children.attach.foldl
      (fun state child => (visitor.visit child.val state).2) state =
        visitor.genericVisit record state :=
    List.foldl_attach (f := fun state child => (visitor.visit child state).2)
  rw [visit]
  simp only [below]

/-- The visitor that writes down which records it has methods for, and what each of them has it do. -/
def tracing (handlers : String → Option Element.VisitStep) (result : Record → Result) :
    Visitor (List Record) Result where
  method className := (handlers className).map fun step record below trace =>
    (result record, match step with
      | .stop => trace ++ [record]
      | .descend => below (trace ++ [record]))

theorem method_tracing (handlers : String → Option Element.VisitStep) (result : Record → Result)
    (className : String) : (tracing handlers result).method className =
      (handlers className).map fun step record below trace =>
        (result record, match step with
          | .stop => trace ++ [record]
          | .descend => below (trace ++ [record])) := rfl

end Visitor

/-! ## References -/

namespace Record

/-- The text of an attribute. -/
def text? (record : Record) (name : String) : Option String :=
  match record.attributes.find? fun held => held.name == name with
  | some ⟨_, .text text⟩ => some text
  | _ => none

/-- The other template that a record names, if its class is one that names one. -/
def template? (record : Record) : Option String :=
  match record.kind with
  | .extendTemplate | .includeTemplate | .importMacros => record.text? "template"
  | _ => none

def block? (record : Record) : Option String :=
  match record.kind with
  | .block => record.text? "name"
  | _ => none

/-- The names of the blocks of a tree, in the order of a walk. -/
def blockNames (record : Record) : List String :=
  record.walk.filterMap block?

end Record

/-- A visitor that collects the names of other templates, each where it is met first. -/
structure DependencyWalker where
  seen : List String := []

namespace DependencyWalker

/-- The names with one more behind them, unless it is among them. -/
def add (seen : List String) (name : Option String) : List String :=
  match name with
  | none => seen
  | some name => if seen.contains name then seen else seen ++ [name]

def visitor : Visitor (List String) Unit where
  method className :=
    if className ∈ ["Extends", "Include", "Import"] then
      some fun record _ seen => ((), add seen record.template?)
    else none

/-- The names in a tree, and the walker that has seen them. What it has seen before is forgotten. -/
def analyze (_walker : DependencyWalker) (record : Record) : List String × DependencyWalker :=
  let seen := (visitor.visit record []).2
  (seen, { seen })

end DependencyWalker

/-- The names of the templates that a tree refers to. -/
def Record.dependencies (record : Record) : List String :=
  (DependencyWalker.analyze {} record).1

end Templating

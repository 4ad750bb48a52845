import Mathlib.Data.List.Nodup
import Templating.Proofs.DialectRules
import Templating.Proofs.SessionHistory

/-! # The rules for configuration documents

A document describes an environment if it keeps a list of rules: the names of its sections and of
its general options are known, each of its dialects has a name of its own and keeps the rules for
dialects, and the default is the standard dialect or one of them. The first rule that is broken
decides what is reported. -/

namespace Templating.Environment

/-! ## What documents give -/

def generalOf (document : List Setting) : List Setting :=
  ((Setting.find? document "general").map tableOf).getD []

/-- The settings of each dialect. -/
def entriesOf (document : List Setting) : List (List Setting) :=
  (((Setting.find? document "syntax").map itemsOf).getD []).map tableOf

/-- The name of a dialect. A dialect without a name counts as if it were empty. -/
def nameOf (entry : List Setting) : String :=
  match Setting.find? entry "name" with
  | some (.text name) => name
  | _ => ""

/-- The name of the default, which is the standard dialect where none is given. -/
def defaultOf (document : List Setting) : String :=
  match Setting.find? (generalOf document) "default_syntax" with
  | some (.text name) => name
  | _ => standardName

/-- The sections are a table and a list of tables. Names are texts where they are given. -/
structure WellTyped (document : List Setting) : Prop where
  general {value : Value} : Setting.find? document "general" = some value →
    ∃ settings, value = .table settings
  entries {value : Value} : Setting.find? document "syntax" = some value →
    ∃ items, value = .list items ∧ ∀ item ∈ items, ∃ settings, item = .table settings
  name {entry : List Setting} {value : Value} : entry ∈ entriesOf document →
    Setting.find? entry "name" = some value → ∃ name, value = .text name
  default {value : Value} : Setting.find? (generalOf document) "default_syntax" = some value →
    ∃ name, value = .text name

/-! ## Rules -/

/-- A dialect has a name that is not that of the standard dialect and not taken. -/
def nameRules (taken : List String) (entry : List Setting) : List (Rule ConfigProblem) :=
  [⟨nameOf entry != "", .unnamedDialect⟩, ⟨nameOf entry != standardName, .reservedName⟩,
    ⟨!taken.contains (nameOf entry), .duplicateName (nameOf entry)⟩]

/-- The dialects keep the rules one after the other. A name is taken for those that come later. -/
def entriesRules : (entries : List (List Setting)) → (taken : List String) →
    List (Rule ConfigProblem)
  | [], _ => []
  | entry :: entries, taken =>
      nameRules taken entry ++ ((Dialect.rules entry).map (.within .dialect) ++
        entriesRules entries (taken ++ [nameOf entry]))

/-- All rules for a document, in their order. -/
def documentRules (document : List Setting) : List (Rule ConfigProblem) :=
  let sections := Setting.unknownNames ["general", "syntax"] document
  let options := Setting.unknownNames ["default_syntax"] (generalOf document)
  let names := (entriesOf document).map nameOf
  [⟨sections.isEmpty, .unknownSections sections⟩,
    ⟨options.isEmpty, .unknownGeneralOptions options⟩] ++
    entriesRules (entriesOf document) [] ++
    [⟨(standardName :: names).contains (defaultOf document),
      .undefinedDefault (defaultOf document)⟩]

/-- The document describes an environment. -/
structure ValidDocument (document : List Setting) : Prop where
  sections : ∀ name ∈ Setting.names document, name = "general" ∨ name = "syntax"
  options : ∀ name ∈ Setting.names (generalOf document), name = "default_syntax"
  named : ∀ entry ∈ entriesOf document, nameOf entry ≠ "" ∧ nameOf entry ≠ standardName
  distinct : ((entriesOf document).map nameOf).Nodup
  dialects : ∀ entry ∈ entriesOf document, Dialect.ValidSettings entry
  default : defaultOf document = standardName ∨
    ∃ entry ∈ entriesOf document, nameOf entry = defaultOf document

theorem nameRules_kept {taken : List String} {entry : List Setting} :
    (∀ rule ∈ nameRules taken entry, rule.kept = true) ↔
      nameOf entry ≠ "" ∧ nameOf entry ≠ standardName ∧ nameOf entry ∉ taken := by
  simp [nameRules]

theorem entriesRules_kept {entries : List (List Setting)} {taken : List String} :
    (∀ rule ∈ entriesRules entries taken, rule.kept = true) ↔
      (∀ entry ∈ entries, nameOf entry ≠ "" ∧ nameOf entry ≠ standardName) ∧
        (∀ entry ∈ entries, nameOf entry ∉ taken) ∧ (entries.map nameOf).Nodup ∧
        ∀ entry ∈ entries, Dialect.ValidSettings entry := by
  induction entries generalizing taken with
  | nil => simp [entriesRules]
  | cons entry entries induction =>
      rw [entriesRules, List.forall_mem_append, List.forall_mem_append, nameRules_kept,
        Rule.kept_within, Dialect.rules_kept, induction]
      simp only [List.forall_mem_cons, List.map_cons, List.nodup_cons, List.mem_append,
        List.mem_singleton, List.mem_map]
      grind

theorem documentRules_kept {document : List Setting} :
    (∀ rule ∈ documentRules document, rule.kept = true) ↔ ValidDocument document := by
  simp only [documentRules, List.forall_mem_append, List.forall_mem_cons, entriesRules_kept,
    Setting.unknownNames_isEmpty]
  constructor
  · rintro ⟨⟨⟨sections, options, _⟩, named, _, distinct, dialects⟩, default, _⟩
    exact ⟨by simpa using sections, by simpa using options, named, distinct, dialects,
      by simpa using default⟩
  · intro valid
    refine ⟨⟨⟨by simpa using valid.sections, by simpa using valid.options, nofun⟩, valid.named,
      nofun, valid.distinct, valid.dialects⟩, by simpa using valid.default, nofun⟩

/-! ## Checks -/

theorem decides_name {entry : List Setting} {taken : List String}
    (typed : ∀ value, Setting.find? entry "name" = some value → ∃ name, value = .text name) :
    Decides (nameRules taken entry) (· = nameOf entry) (nameOfEntry entry taken) := by
  unfold nameOfEntry nameRules
  cases found : Setting.find? entry "name" with
  | none =>
      have unnamed : nameOf entry = "" := by rw [nameOf, found]
      rw [unnamed]
      exact .refused rfl
  | some value =>
      obtain ⟨name, rfl⟩ := typed value found
      have named : nameOf entry = name := by rw [nameOf, found]
      rw [named]
      refine .check Iff.rfl fun _ => ?_
      refine .checkNot (by simp [Value.plain]) fun _ => ?_
      exact .checkNot (by simp [Value.plain]) fun _ => .ok rfl

/-- The entries of a document are read as the rules decide. Each gives the dialect that it describes
under its name. -/
theorem decides_entries {entries : List Value}
    (typed : ∀ entry ∈ entries.map tableOf, ∀ value, Setting.find? entry "name" = some value →
      ∃ name, value = .text name) (read : List (String × Dialect)) :
    Decides (entriesRules (entries.map tableOf) (read.map (·.1)))
      (fun others => others.map (·.1) = read.map (·.1) ++ (entries.map tableOf).map nameOf ∧
        ∀ name dialect, (name, dialect) ∈ others ↔ (name, dialect) ∈ read ∨
          ∃ entry ∈ entries.map tableOf, nameOf entry = name ∧ dialect.DescribedBy entry)
      (dialectsOfEntries entries read) := by
  induction entries generalizing read with
  | nil => exact .ok (by simp)
  | cons entry entries induction =>
      rw [List.map_cons, List.forall_mem_cons] at typed
      refine (decides_name typed.1).bind fun name _ named => ?_
      subst named
      refine (Dialect.decides_ofSettings (tableOf entry)).bindWithin ?_ ?_
      · intro problem failed
        rw [failed]
        rfl
      intro dialect succeeded described
      rw [succeeded]
      have taken : read.map (·.1) ++ [nameOf (tableOf entry)] =
          (read ++ [(nameOf (tableOf entry), dialect)]).map (·.1) := by simp
      rw [taken]
      refine (induction typed.2 _).mono fun others ⟨names, members⟩ => ⟨?_, fun name found => ?_⟩
      · rw [names, ← taken, List.append_assoc]
        rfl
      · have here : nameOf (tableOf entry) = name ∧ found.DescribedBy (tableOf entry) ↔
            (name, found) = (nameOf (tableOf entry), dialect) := by
          constructor
          · rintro ⟨rfl, described'⟩
            rw [described.unique described']
          · rintro ⟨⟩
            exact ⟨rfl, described⟩
        rw [members, List.mem_append, List.mem_singleton, ← here, or_assoc]
        simp only [List.map_cons, List.mem_cons, exists_eq_or_imp]

/-- The default is the standard dialect or one of the others. -/
theorem decides_create (others : List (String × Dialect)) (name : String)
    (loader : Option Loader) :
    Decides [⟨(standardName :: others.map (·.1)).contains name, .undefinedDefault name⟩]
      (fun _ => True) (create others (.text name) loader) := by
  refine .check ?_ fun _ => .ok trivial
  rw [Construction.lookup_insertAll others fun _ => rfl, List.lookup_isSome_iff]
  simp [or_comm]

/-- A document is read as the rules decide. -/
theorem decides_document {document : List Setting} (typed : WellTyped document)
    (loader : Option Loader) :
    Decides (documentRules document)
      (fun made => ∃ others, others.map (·.1) = (entriesOf document).map nameOf ∧
        (∀ name dialect, (name, dialect) ∈ others ↔
          ∃ entry ∈ entriesOf document, nameOf entry = name ∧ dialect.DescribedBy entry) ∧
        create others (.text (defaultOf document)) loader = .ok made)
      (ofDocument document loader) := by
  unfold ofDocument
  have default : (Setting.find? (generalOf document) "default_syntax").getD (.text standardName) =
      .text (defaultOf document) := by
    rw [defaultOf]
    cases found : Setting.find? (generalOf document) "default_syntax" with
    | none => rfl
    | some value =>
        obtain ⟨name, rfl⟩ := typed.default found
        rfl
  refine .check Iff.rfl fun _ => .check Iff.rfl fun _ => ?_
  have entries := decides_entries (fun entry member value => typed.name member) []
  refine entries.bind fun others _ ⟨names, members⟩ => ?_
  rw [List.map_nil, List.nil_append] at names
  have created := (decides_create others (defaultOf document) loader).itself
  rw [names, ← default] at created
  refine created.mono fun made succeeded => ⟨others, names, fun name dialect => ?_, ?_⟩
  · rw [members]
    exact or_iff_right List.not_mem_nil
  · rwa [← default]

/-! ## Environments -/

/-- An environment has the standard dialect and those that the document describes, each under its
name, and no others. -/
structure BuiltFrom (environment : Environment) (document : List Setting)
    (loader : Option Loader) : Prop where
  standard : environment.dialects.lookup standardName = some .standard
  entry : ∀ entry ∈ entriesOf document, ∃ dialect : Dialect, dialect.DescribedBy entry ∧
    environment.dialects.lookup (nameOf entry) = some dialect
  others {name : String} : (environment.dialects.lookup name).isSome = true →
    name = standardName ∨ ∃ entry ∈ entriesOf document, nameOf entry = name
  defaultName : environment.defaultName = defaultOf document
  loader : environment.loader = loader

/-- Where every name occurs once, what is found under a name is what is there. -/
theorem lookup_of_mem {entries : List (String × Dialect)} (distinct : (entries.map (·.1)).Nodup)
    {name : String} {dialect : Dialect} (member : (name, dialect) ∈ entries) :
    entries.lookup name = some dialect := by
  induction entries with
  | nil => cases member
  | cons entry entries induction =>
      rw [List.map_cons, List.nodup_cons] at distinct
      rw [List.lookup_cons]
      rcases List.mem_cons.mp member with rfl | member
      · simp
      · have other : (name == entry.1) = false := by
          rw [beq_eq_false_iff_ne]
          rintro rfl
          exact distinct.1 (List.mem_map.mpr ⟨_, member, rfl⟩)
        rw [other]
        exact induction distinct.2 member

theorem defaultName_of_create {others : List (String × Dialect)} {name : String}
    {loader : Option Loader} {environment : Environment} {events : List LogEvent}
    (created : create others (.text name) loader = .ok (environment, events)) :
    environment.defaultName = name := by
  unfold create at created
  dsimp only at created
  split at created
  case isTrue =>
      cases created
      rfl
  case isFalse => cases created

theorem builtFrom_of_create {document : List Setting} {loader : Option Loader}
    {others : List (String × Dialect)} {environment : Environment} {events : List LogEvent}
    (valid : ValidDocument document)
    (names : others.map (·.1) = (entriesOf document).map nameOf)
    (members : ∀ name dialect, (name, dialect) ∈ others ↔
      ∃ entry ∈ entriesOf document, nameOf entry = name ∧ dialect.DescribedBy entry)
    (created : create others (.text (defaultOf document)) loader = .ok (environment, events)) :
    environment.BuiltFrom document loader := by
  have recalls := (Construction.recalls_of_create created).1
  have registered : ∀ name, environment.dialects.lookup name =
      (others.reverse ++ [(standardName, Dialect.standard)]).lookup name := recalls.lookup
  have distinct : ((others.reverse ++ [(standardName, Dialect.standard)]).map (·.1)).Nodup := by
    rw [List.map_append, List.map_reverse, names, List.nodup_append]
    refine ⟨List.nodup_reverse.mpr valid.distinct, List.nodup_singleton _, ?_⟩
    rintro name member _ reserved rfl
    cases List.mem_singleton.mp reserved
    rcases List.mem_map.mp (List.mem_reverse.mp member) with ⟨entry, member, named⟩
    exact (valid.named entry member).2 named
  refine ⟨?_, fun entry member => ?_, fun {name} found => ?_, defaultName_of_create created,
    recalls.loader⟩
  · rw [registered]
    exact lookup_of_mem distinct (List.mem_append_right _ (List.mem_singleton_self _))
  · have decides := Dialect.decides_ofSettings entry
    obtain ⟨dialect, read⟩ := decides.ok_iff.mpr (Dialect.rules_kept.mpr (valid.dialects entry member))
    have described := (decides.kept read).2
    refine ⟨dialect, described, ?_⟩
    rw [registered]
    apply lookup_of_mem distinct
    simpa using .inl ((members _ _).mpr ⟨entry, member, rfl, described⟩)
  · rw [registered, List.lookup_isSome_iff] at found
    obtain ⟨⟨other, dialect⟩, member, same⟩ := found
    obtain rfl := beq_iff_eq.mp same
    rcases List.mem_append.mp member with member | member
    · obtain ⟨entry, member, named, _⟩ := (members _ _).mp (List.mem_reverse.mp member)
      exact .inr ⟨entry, member, named⟩
    · cases List.mem_singleton.mp member
      exact .inl rfl

/-- A well-typed document is accepted if and only if it is valid. If it is, the environment is the
one that it describes, and otherwise the first rule that it breaks is reported. -/
theorem documents_accepted_iff_valid {document : List Setting} (typed : WellTyped document)
    (loader : Option Loader) :
    ((∃ environment events, ofDocument document loader = .ok (environment, events)) ↔
      ValidDocument document) ∧
    (∀ environment events, ofDocument document loader = .ok (environment, events) →
      environment.BuiltFrom document loader) ∧
    ∀ problem, ofDocument document loader = .error problem ↔
      Rule.firstBroken? (documentRules document) = some problem := by
  have decides := decides_document typed loader
  refine ⟨?_, fun environment events succeeded => ?_, fun problem => decides.error_iff⟩
  · rw [← documentRules_kept, ← decides.ok_iff, Prod.exists]
  · obtain ⟨kept, others, names, members, created⟩ := decides.kept succeeded
    have valid := documentRules_kept.mp (Rule.firstBroken?_eq_none.mp kept)
    exact builtFrom_of_create valid names members created

/-- A document with dialects that differ in their names only. -/
def documentOf (names : List String) (default : String) : List Setting :=
  [⟨"syntax", .list (names.map fun name =>
      .table [⟨"name", .text name⟩, ⟨"block_start", .text "<%"⟩])⟩,
    ⟨"general", .table [⟨"default_syntax", .text default⟩]⟩]

theorem wellTyped_documentOf (names : List String) (default : String) :
    WellTyped (documentOf names default) where
  general := by
    rintro _ ⟨⟩
    exact ⟨_, rfl⟩
  entries := by
    rintro _ ⟨⟩
    refine ⟨_, rfl, fun item member => ?_⟩
    rcases List.mem_map.mp member with ⟨name, _, rfl⟩
    exact ⟨_, rfl⟩
  name := by
    intro entry value member found
    rcases List.mem_map.mp member with ⟨item, listed, rfl⟩
    rcases List.mem_map.mp listed with ⟨name, _, rfl⟩
    cases found
    exact ⟨name, rfl⟩
  default := by
    rintro _ ⟨⟩
    exact ⟨default, rfl⟩

/-- A name that occurs again is reported before an undefined default. -/
theorem documents_accepted_iff_valid_duplicate :
    ofDocument (documentOf ["erb", "erb"] "asp") none = .error (.duplicateName "erb") ∧
      ∃ environment events,
        ofDocument (documentOf ["erb", "asp"] "asp") none = .ok (environment, events) ∧
        environment.BuiltFrom (documentOf ["erb", "asp"] "asp") none := by
  constructor
  · exact ((documents_accepted_iff_valid (wellTyped_documentOf _ _) none).2.2 _).mpr (by with_unfolding_all rfl)
  · obtain ⟨accepted, built, _⟩ :=
      documents_accepted_iff_valid (wellTyped_documentOf ["erb", "asp"] "asp") none
    have valid : ValidDocument (documentOf ["erb", "asp"] "asp") :=
      documentRules_kept.mp (by decide +kernel)
    obtain ⟨environment, events, succeeded⟩ := accepted.mpr valid
    exact ⟨environment, events, succeeded, built _ _ succeeded⟩

end Templating.Environment

import Templating.Dialect.Settings
import Templating.Proofs.Rules

/-! # The rules for settings of a dialect

Settings describe a dialect if they keep a list of rules: every name is that of an option, each
delimiter is long enough and has no blank in it, no opening delimiter is the beginning of another,
and the limit is a positive number. What is not given counts as it is in the standard dialect. -/

namespace Templating

/-- The characters of a text. What is no text has none. -/
def Value.chars : Value → List Char
  | .text given => given.toList
  | _ => []

/-- A whole number. -/
def Value.integer? : Value → Option Int
  | .integer given => some given
  | _ => none

theorem Value.integer?_eq_some {value : Value} {number : Int} :
    value.integer? = some number ↔ value = .integer number := by
  cases value <;> simp [integer?]

theorem Setting.unknownNames_isEmpty {known : List String} {settings : List Setting} :
    (unknownNames known settings).isEmpty = true ↔ ∀ name ∈ names settings, name ∈ known := by
  rw [List.isEmpty_iff, ← List.length_eq_zero_iff, unknownNames, sortNames, List.length_mergeSort,
    List.length_eq_zero_iff, List.filter_eq_nil_iff]
  simp

theorem Delimiter.text_toList (delimiter : Delimiter) : delimiter.text.toList = delimiter.chars :=
  String.toList_ofList

theorem Delimiter.eq_of_text_eq {first second : Delimiter} (same : first.text = second.text) :
    first = second := by
  have chars : first.chars = second.chars := by rw [← text_toList, same, text_toList]
  cases first
  cases second
  cases chars
  rfl

namespace Dialect

variable {settings : List Setting} {role : DelimiterRole} {dialect : Dialect}

/-! ## What settings give -/

/-- The value that stands for a delimiter. -/
def givenDelimiter (settings : List Setting) (role : DelimiterRole) : Value :=
  (Setting.find? settings role.name).getD (.text (standard.delimiter role).text)

/-- The value that stands for the nesting limit. -/
def givenDepth (settings : List Setting) : Value :=
  (Setting.find? settings depthName).getD (.integer standard.maxDepth)

/-- The dialect is what the settings say, and standard in everything else. -/
structure DescribedBy (settings : List Setting) (dialect : Dialect) : Prop where
  delimiter (role : DelimiterRole) :
    givenDelimiter settings role = .text (dialect.delimiter role).text
  maxDepth : givenDepth settings = .integer dialect.maxDepth

theorem DescribedBy.unique {other : Dialect} (described : DescribedBy settings dialect)
    (described' : DescribedBy settings other) : dialect = other := by
  have delimiters (role : DelimiterRole) : dialect.delimiter role = other.delimiter role := by
    apply Delimiter.eq_of_text_eq
    simpa using (described.delimiter role).symm.trans (described'.delimiter role)
  have depths : dialect.maxDepth = other.maxDepth := by
    have same := described.maxDepth.symm.trans described'.maxDepth
    simpa only [Value.integer.injEq, Int.natCast_inj] using same
  have blockStart := delimiters .blockStart
  have blockEnd := delimiters .blockEnd
  have exprStart := delimiters .exprStart
  have exprEnd := delimiters .exprEnd
  have commentStart := delimiters .commentStart
  have commentEnd := delimiters .commentEnd
  cases dialect
  cases other
  cases blockStart
  cases blockEnd
  cases exprStart
  cases exprEnd
  cases commentStart
  cases commentEnd
  cases depths
  rfl

/-! ## Rules -/

/-- A delimiter has at least two characters, none of them blank. -/
def delimiterRules (settings : List Setting) (role : DelimiterRole) : List (Rule DialectProblem) :=
  let given := givenDelimiter settings role
  [⟨2 ≤ given.chars.length, .shortDelimiter role given⟩,
    ⟨!given.chars.any Text.isBlank, .blankInDelimiter role (String.ofList given.chars)⟩]

/-- Neither of two opening delimiters is the beginning of the other. -/
def apartRule (settings : List Setting) (first second : DelimiterRole) : Rule DialectProblem :=
  let left := (givenDelimiter settings first).chars
  let right := (givenDelimiter settings second).chars
  ⟨!left.isPrefixOf right && !right.isPrefixOf left,
    .ambiguous first (String.ofList left) second (String.ofList right)⟩

/-- The nesting limit is a positive number. -/
def depthRules (settings : List Setting) : List (Rule DialectProblem) :=
  let given := givenDepth settings
  [⟨given.integer?.isSome, .depthNotInteger given⟩,
    ⟨0 < given.integer?.getD 0, .depthNotPositive (given.integer?.getD 0)⟩]

/-- All rules for settings of a dialect, in their order. -/
def rules (settings : List Setting) : List (Rule DialectProblem) :=
  let unknown := Setting.unknownNames optionNames settings
  [⟨unknown.isEmpty, .unknownOptions unknown⟩] ++
    [.blockStart, .blockEnd, .exprStart, .exprEnd, .commentStart, .commentEnd].flatMap
      (delimiterRules settings) ++
    [apartRule settings .blockStart .exprStart, apartRule settings .blockStart .commentStart,
      apartRule settings .exprStart .commentStart] ++
    depthRules settings

/-- The settings are those of a dialect. -/
structure ValidSettings (settings : List Setting) : Prop where
  known : ∀ name ∈ Setting.names settings, name ∈ optionNames
  long (role : DelimiterRole) : 2 ≤ (givenDelimiter settings role).chars.length
  solid (role : DelimiterRole) :
    ∀ character ∈ (givenDelimiter settings role).chars, Text.isBlank character = false
  apart : [DelimiterRole.blockStart, .exprStart, .commentStart].Pairwise fun first second =>
    ¬ (givenDelimiter settings first).chars <+: (givenDelimiter settings second).chars ∧
      ¬ (givenDelimiter settings second).chars <+: (givenDelimiter settings first).chars
  depth : ∃ depth, givenDepth settings = .integer depth ∧ 0 < depth

theorem delimiterRules_kept :
    (∀ rule ∈ delimiterRules settings role, rule.kept = true) ↔
      2 ≤ (givenDelimiter settings role).chars.length ∧
        ∀ character ∈ (givenDelimiter settings role).chars, Text.isBlank character = false := by
  simp [delimiterRules]

theorem apartRule_kept {first second : DelimiterRole} :
    (apartRule settings first second).kept = true ↔
      ¬ (givenDelimiter settings first).chars <+: (givenDelimiter settings second).chars ∧
        ¬ (givenDelimiter settings second).chars <+: (givenDelimiter settings first).chars := by
  simp [apartRule, ← List.isPrefixOf_iff_prefix]

theorem depthRules_kept :
    (∀ rule ∈ depthRules settings, rule.kept = true) ↔
      ∃ depth, givenDepth settings = .integer depth ∧ 0 < depth := by
  simp only [← Value.integer?_eq_some]
  cases given : (givenDepth settings).integer? <;> simp [depthRules, given]

theorem rules_kept :
    (∀ rule ∈ rules settings, rule.kept = true) ↔ ValidSettings settings := by
  simp only [rules, List.forall_mem_append, List.forall_mem_cons, List.mem_flatMap,
    List.not_mem_nil, Setting.unknownNames_isEmpty, apartRule_kept, depthRules_kept]
  constructor
  · rintro ⟨⟨⟨⟨known, _⟩, delimiters⟩, blockExpr, blockComment, exprComment, _⟩, depth⟩
    have kept (role : DelimiterRole) : ∀ rule ∈ delimiterRules settings role, rule.kept = true :=
      fun rule member => delimiters rule ⟨role, by cases role <;> decide, member⟩
    exact ⟨known, fun role => (delimiterRules_kept.mp (kept role)).1,
      fun role => (delimiterRules_kept.mp (kept role)).2, by simp [*], depth⟩
  · intro valid
    have apart := valid.apart
    simp at apart
    refine ⟨⟨⟨⟨valid.known, nofun⟩, ?_⟩, ?_⟩, valid.depth⟩
    · rintro rule ⟨role, _, member⟩
      exact delimiterRules_kept.mpr ⟨valid.long role, valid.solid role⟩ rule member
    · simp [apart]

/-! ## Checks -/

theorem decides_ofValue {given : Value} (stands : givenDelimiter settings role = given) :
    Decides (delimiterRules settings role) (fun delimiter => given = .text delimiter.text)
      (Delimiter.ofValue role given) := by
  rw [delimiterRules, stands]
  cases given with
  | text given =>
      simp only [Value.chars, String.ofList_toList]
      refine Decides.checkWith decide_eq_true_iff fun long => ?_
      refine Decides.checkWith (iff_of_eq (Bool.not_eq_true' _)) fun solid => .ok ?_
      rw [Delimiter.text, String.ofList_toList]
  | _ => exact Decides.refused rfl

theorem ofValue_text (delimiter : Delimiter) :
    Delimiter.ofValue role (.text delimiter.text) = .ok delimiter := by
  simp [Delimiter.ofValue, Delimiter.text_toList, delimiter.long, delimiter.solid]

theorem decides_delimiter (settings : List Setting) (role : DelimiterRole) :
    Decides (delimiterRules settings role)
      (fun delimiter => givenDelimiter settings role = .text delimiter.text)
      (Delimiter.ofSettings settings role) := by
  have same : Delimiter.ofSettings settings role =
      Delimiter.ofValue role (givenDelimiter settings role) := by
    rw [Delimiter.ofSettings, givenDelimiter]
    cases Setting.find? settings role.name with
    | none => exact (ofValue_text _).symm
    | some given => rfl
  rw [same]
  exact decides_ofValue rfl

theorem decides_apart {first second : DelimiterRole} {left right : Delimiter}
    (given : givenDelimiter settings first = .text left.text)
    (given' : givenDelimiter settings second = .text right.text) :
    Decides [apartRule settings first second] (fun _ => True)
      (checkApart first second left right) := by
  have keeps : (apartRule settings first second).kept = true ↔ left.Apart right := by
    rw [apartRule_kept, given, given']
    simp only [Value.chars, Delimiter.text_toList]
    rfl
  have problem : (apartRule settings first second).problem =
      .ambiguous first left.text second right.text := by
    rw [apartRule, given, given']
    simp only [Value.chars, String.ofList_toList]
  rw [checkApart, ← problem]
  exact Decides.checkWith keeps fun _ => .ok trivial

theorem decides_depth (settings : List Setting) :
    Decides (depthRules settings) (fun depth => givenDepth settings = .integer depth.val)
      (depthOfSettings settings) := by
  have same : depthOfSettings settings = depthOfValue (givenDepth settings) := by
    rw [depthOfSettings, givenDepth]
    cases Setting.find? settings depthName <;> rfl
  rw [same, depthRules]
  cases givenDepth settings with
  | integer given =>
      refine .passed rfl (.checkWith decide_eq_true_iff fun positive => .ok ?_)
      exact congrArg Value.integer (Int.toNat_of_nonneg (Int.le_of_lt positive)).symm
  | _ => exact Decides.refused rfl

/-- Settings are read as the rules decide. -/
theorem decides_ofSettings (settings : List Setting) :
    Decides (rules settings) (DescribedBy settings) (ofSettings settings) := by
  simp only [rules, List.flatMap_cons, List.flatMap_nil, List.append_assoc, List.append_nil,
    List.cons_append, List.nil_append]
  refine Decides.check Iff.rfl fun known => ?_
  refine (decides_delimiter settings .blockStart).bind fun blockStart _ blockStartGiven => ?_
  refine (decides_delimiter settings .blockEnd).bind fun blockEnd _ blockEndGiven => ?_
  refine (decides_delimiter settings .exprStart).bind fun exprStart _ exprStartGiven => ?_
  refine (decides_delimiter settings .exprEnd).bind fun exprEnd _ exprEndGiven => ?_
  refine (decides_delimiter settings .commentStart).bind fun commentStart _ commentStartGiven => ?_
  refine (decides_delimiter settings .commentEnd).bind fun commentEnd _ commentEndGiven => ?_
  refine (decides_apart blockStartGiven exprStartGiven).bind fun blockExpr _ _ => ?_
  refine (decides_apart blockStartGiven commentStartGiven).bind fun blockComment _ _ => ?_
  refine (decides_apart exprStartGiven commentStartGiven).bind fun exprComment _ _ => ?_
  refine (decides_depth settings).bind fun depth _ depthGiven => .ok ⟨fun role => ?_, depthGiven⟩
  cases role <;> assumption

end Dialect

end Templating

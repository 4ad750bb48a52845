import Templating.Proofs.SessionHistory

/-! # Which dialect a name means

An environment is given the name of a dialect in three ways: when it is asked for the dialect, for
the template that a source is, and for a template that its loader finds. All of them go by one
rule. A name means the dialect that has been registered last under exactly this name, and where
there is none, it is refused. An absent name means the default of the environment. So does the empty
name, and therefore a dialect that is registered under the empty name is never found by it. -/

namespace Templating

variable {room : Room}

/-- The source of a template that has been asked for by name. -/
def LoadedSource.named (loaded : LoadedSource) (name : String) : Source :=
  { text := loaded.text, name := some name, filename := loaded.filename }

namespace Environment

/-- What is given for the name of a dialect selects this dialect. -/
structure Selects [Room] (environment : Environment) (given : Option String) (dialect : Dialect) :
    Prop where
  answered : environment.dialect given = .ok dialect
  parse (source : Source) :
    (environment.parse source given).1 = (Template.parse dialect source).mapError (.parse source)
  template {name : String} {loaded : LoadedSource} (found : environment.load name = .ok loaded) :
    (environment.template name given).1 =
      (Template.parse dialect (loaded.named name)).mapError (.parse (loaded.named name))

/-- What is given for the name of a dialect is refused, and nothing is parsed. -/
structure Refuses [Room] (environment : Environment) (given : Option String) (problem : ConfigProblem) :
    Prop where
  answered : environment.dialect given = .error problem
  parse (source : Source) : environment.parse source given = (.error (.config problem), [])
  template {name : String} {loaded : LoadedSource} (found : environment.load name = .ok loaded) :
    environment.template name given = (.error (.config problem), [])

variable {environment : Environment} {history : History} {given : Option String}
  {dialect : Dialect} {problem : ConfigProblem}

theorem template_of_loaded {name : String} {loaded : LoadedSource}
    (found : environment.load name = .ok loaded) :
    environment.template name given = environment.parse (loaded.named name) given := by
  rw [template, found]
  rfl

/-- Sources are parsed in the dialect that is answered where one is asked for. -/
theorem selects_iff : environment.Selects given dialect ↔ environment.dialect given = .ok dialect := by
  constructor
  · exact Selects.answered
  · intro answered
    have parsed (source : Source) : (environment.parse source given).1 =
        (Template.parse dialect source).mapError (.parse source) := by
      rw [parse, answered]
      dsimp only
      cases Template.parse dialect source <;> rfl
    refine ⟨answered, parsed, fun found => ?_⟩
    rw [template_of_loaded found, parsed]

theorem refuses_iff :
    environment.Refuses given problem ↔ environment.dialect given = .error problem := by
  constructor
  · exact Refuses.answered
  · intro answered
    have parsed (source : Source) :
        environment.parse source given = (.error (.config problem), []) := by
      rw [parse, answered]
    refine ⟨answered, parsed, fun found => ?_⟩
    rw [template_of_loaded found, parsed]

theorem Recalls.selects_iff (recalls : environment.Recalls history) :
    environment.Selects given dialect ↔ history.latest? (history.resolve given) = some dialect := by
  rw [Environment.selects_iff]
  constructor
  · intro answered
    cases found : history.latest? (history.resolve given) with
    | none => cases answered.symm.trans (recalls.dialect_of_none found)
    | some other =>
        cases answered.symm.trans (recalls.dialect_of_some found)
        rfl
  · exact recalls.dialect_of_some

theorem Recalls.refuses_iff (recalls : environment.Recalls history) :
    environment.Refuses given problem ↔
      history.latest? (history.resolve given) = none ∧
        problem = .undefinedDialect (history.resolve given) := by
  rw [Environment.refuses_iff]
  constructor
  · intro answered
    cases found : history.latest? (history.resolve given) with
    | none =>
        cases answered.symm.trans (recalls.dialect_of_none found)
        exact ⟨rfl, rfl⟩
    | some other => cases answered.symm.trans (recalls.dialect_of_some found)
  · rintro ⟨missing, rfl⟩
    exact recalls.dialect_of_none missing

/-- A name that is not empty stands for itself. -/
theorem resolve_of_nonempty (history : History) {name : String} (nonempty : name ≠ "") :
    history.resolve (some name) = name := by
  rw [resolve_eq]
  exact if_neg (by simpa using nonempty)

/-- Names are looked up as the history tells. One that is not empty selects what has been registered
under it, and is unknown if there is nothing. The default, which is always there, is what an absent
name selects, and the empty one. -/
structure LooksUp [Room] (environment : Environment) (history : History) : Prop where
  selects_iff {name : String} (nonempty : name ≠ "") (dialect : Dialect) :
    environment.Selects (some name) dialect ↔ history.latest? name = some dialect
  refuses_iff {name : String} (nonempty : name ≠ "") :
    (∃ problem, environment.Refuses (some name) problem ∧ problem.code = .unknownSyntax) ↔
      history.latest? name = none
  unnamed : ∃ dialect, history.latest? history.defaultName = some dialect ∧
    environment.Selects none dialect ∧ environment.Selects (some "") dialect

theorem Recalls.looksUp (recalls : environment.Recalls history)
    (default : (history.latest? history.defaultName).isSome = true) :
    environment.LooksUp history where
  selects_iff nonempty dialect := by rw [recalls.selects_iff, resolve_of_nonempty history nonempty]
  refuses_iff nonempty := by
    simp only [recalls.refuses_iff, resolve_of_nonempty history nonempty]
    constructor
    · rintro ⟨problem, ⟨missing, _⟩, _⟩
      exact missing
    · exact fun missing => ⟨_, ⟨missing, rfl⟩, rfl⟩
  unnamed := by
    rcases Option.isSome_iff_exists.mp default with ⟨dialect, found⟩
    exact ⟨dialect, found, recalls.selects_iff.mpr found, recalls.selects_iff.mpr found⟩

end Environment

/-- Whatever an environment is constructed from and however often it has been asked and given more,
every name but the empty one means exactly what has been registered under it. An empty name is taken
for an absent one, also where a dialect is registered under it. -/
theorem nonempty_names_mean_their_dialects {construction : Construction} {loader : Option Loader}
    {environment : Environment} {events : List LogEvent}
    (built : construction.build loader = .ok (environment, events)) :
    ∃ entries : List (String × Dialect),
      construction.given = entries.map (fun entry => (entry.1, .ok entry.2)) ∧
      ∀ requests : List Request, (environment.performAll requests).1.LooksUp
        ((Construction.history entries environment loader).afterAll requests) := by
  rcases Construction.recalls_of_build built with ⟨entries, given, recalls, defined⟩
  refine ⟨entries, given, fun requests => (recalls.performAll requests).looksUp ?_⟩
  rw [History.defaultName_afterAll]
  apply History.isSome_latest?_afterAll
  rwa [← recalls.lookup, ← recalls.defaultName]

/-- The standard dialect with another delimiter in front of tags. -/
def Dialect.angled : Dialect :=
  { Dialect.standard with
    blockStart := ⟨"<%".toList, by decide, by decide⟩
    block_apart_expr := by decide
    block_apart_comment := by decide }

/-- The dialect that is registered under the empty name is not the one that the name selects. Under
another name it would be, and a name that is not registered is unknown. -/
theorem nonempty_names_mean_their_dialects_empty :
    let _ : Room := ⟨20⟩
    ∃ environment events,
      (Construction.dialects [("", .angled), ("erb", .angled)] (.text "default")).build none =
          .ok (environment, events) ∧
        environment.dialects.lookup "" = some .angled ∧
        environment.Selects (some "") .standard ∧ Dialect.standard ≠ .angled ∧
        environment.Selects (some "erb") .angled ∧
        ∃ problem, environment.Refuses (some "asp") problem ∧ problem.code = .unknownSyntax := by
  intro room
  have built : (Construction.dialects [("", .angled), ("erb", .angled)]
      (.text "default")).build none = .ok (_, _) := rfl
  rcases nonempty_names_mean_their_dialects built with ⟨entries, given, follows⟩
  have apart (entry other : String × Dialect)
      (same : (entry.1, (.ok entry.2 : Except DialectProblem Dialect)) = (other.1, .ok other.2)) :
      entry = other := by
    cases entry
    cases same
    rfl
  obtain rfl : [("", Dialect.angled), ("erb", .angled)] = entries :=
    (List.map_inj_right apart).mp given
  have looksUp := follows []
  rcases looksUp.unnamed with ⟨dialect, _, _, selected⟩
  have standard : dialect = .standard := by
    cases selected.answered
    rfl
  exact ⟨_, _, rfl, rfl, standard ▸ selected, by decide,
    (looksUp.selects_iff (by decide) _).mpr rfl, (looksUp.refuses_iff (by decide)).mpr rfl⟩

end Templating

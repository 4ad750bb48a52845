import Templating.Environment.Session

/-! # What a session goes back to

An environment does what its history says: which dialects it has been given, under which names and
in which order, and which loader. What it answers is told here from that history and from the rule
for whole sources, without the environment. -/

namespace Templating

variable {room : Room}

/-! ## Histories -/

/-- What an environment has been given so far: dialects under their names, the latest first, the
name of its default, and a loader, if it has one. -/
structure History where
  registered : List (String × Dialect)
  defaultName : String
  loader : Option Loader

namespace History

/-- The dialect that was registered last under a name. -/
def latest? (history : History) (name : String) : Option Dialect :=
  history.registered.lookup name

/-- The name of the dialect that is meant where this one is asked for. -/
def resolve (history : History) : Option String → String
  | none | some "" => history.defaultName
  | some name => name

/-- The history behind a request. -/
def after (history : History) : Request → History
  | .register name settings =>
      match Dialect.ofSettings settings with
      | .ok dialect => { history with registered := (name, dialect) :: history.registered }
      | .error _ => history
  | .setLoader loader => { history with loader }
  | _ => history

def afterAll (history : History) (requests : List Request) : History :=
  requests.foldl after history

/-! ## Answers -/

/-- What becomes of a source that is to be parsed, and what is logged: nothing unless there is a
dialect of the name, then that the parse begins, and that it has ended only if there is a
template. -/
inductive Parsed [Room] (history : History) (source : Source) (dialectName : Option String) :
    Answer → List LogEvent → Prop
  | undefined : history.latest? (history.resolve dialectName) = none →
      Parsed history source dialectName
        (.error (.config (.undefinedDialect (history.resolve dialectName)))) []
  | malformed {dialect : Dialect} {failure : Failure} :
      history.latest? (history.resolve dialectName) = some dialect →
      Template.parse dialect source = .error failure →
      Parsed history source dialectName (.error (.parse source failure))
        [.parsing source.name source.chars.length]
  | template {dialect : Dialect} {template : Template} :
      history.latest? (history.resolve dialectName) = some dialect →
      Template.parse dialect source = .ok template →
      Parsed history source dialectName (.template template)
        [.parsing source.name source.chars.length, .parsed source.name template.body.length]

/-- What the loader finds. -/
inductive Loaded (history : History) (name : String) : Except LoadProblem LoadedSource → Prop
  | noLoader : history.loader = none → Loaded history name (.error (.noLoader name))
  | loader {loader : Loader} : history.loader = some loader → Loaded history name (loader.load name)

/-- What a request is answered, and what is logged. -/
inductive Answered [Room] (history : History) : Request → Answer → List LogEvent → Prop
  | parse {source : Source} {dialectName : Option String} {answer : Answer}
      {events : List LogEvent} :
      history.Parsed source dialectName answer events →
      Answered history (.parse source dialectName) answer events
  | template {name : String} {dialectName : Option String} {loaded : LoadedSource}
      {answer : Answer} {events : List LogEvent} :
      history.Loaded name (.ok loaded) →
      history.Parsed { text := loaded.text, name := some name, filename := loaded.filename }
        dialectName answer events →
      Answered history (.template name dialectName) answer events
  | noTemplate {name : String} {dialectName : Option String} {problem : LoadProblem} :
      history.Loaded name (.error problem) →
      Answered history (.template name dialectName) (.error (.load problem)) []
  | source {name : String} {loaded : LoadedSource} :
      history.Loaded name (.ok loaded) → Answered history (.source name) (.source loaded) []
  | noSource {name : String} {problem : LoadProblem} :
      history.Loaded name (.error problem) →
      Answered history (.source name) (.error (.load problem)) []
  | dialect {name : Option String} {dialect : Dialect} :
      history.latest? (history.resolve name) = some dialect →
      Answered history (.dialect name) (.dialect dialect) []
  | noDialect {name : Option String} :
      history.latest? (history.resolve name) = none →
      Answered history (.dialect name)
        (.error (.config (.undefinedDialect (history.resolve name)))) []
  | names : Answered history .names (.names (history.loader.bind Loader.names?)) []
  | registered {name : String} {settings : List Setting} {dialect : Dialect}
      {names : List String} :
      Dialect.ofSettings settings = .ok dialect →
      Answered history (.register name settings) (.registered names) []
  | notRegistered {name : String} {settings : List Setting} {problem : DialectProblem} :
      Dialect.ofSettings settings = .error problem →
      Answered history (.register name settings) (.error (.config (.dialect problem))) []
  | loaderSet {loader : Option Loader} : Answered history (.setLoader loader) (.loader loader) []

end History

/-- An answer that only tells what is wrong. -/
def Answer.isError : Answer → Bool
  | error _ => true
  | _ => false

/-! ## Environments and their histories -/

namespace Environment

/-- The environment has what it was given, and nothing else. -/
structure Recalls (environment : Environment) (history : History) : Prop where
  lookup (name : String) : environment.dialects.lookup name = history.latest? name
  defaultName : environment.defaultName = history.defaultName
  loader : environment.loader = history.loader

variable {environment : Environment} {history : History}

/-- An absent name and an empty one mean the default. -/
theorem resolve_eq (history : History) (name : Option String) :
    history.resolve name =
      if name.getD "" == "" then history.defaultName else name.getD "" := by
  rcases name with _ | name
  · rfl
  · by_cases empty : name = ""
    · subst empty
      rfl
    · rw [if_neg (by simpa using empty), History.resolve]
      · rfl
      · exact fun same => empty same

theorem Recalls.dialect_of_some (recalls : environment.Recalls history) {name : Option String}
    {dialect : Dialect} (found : history.latest? (history.resolve name) = some dialect) :
    environment.dialect name = .ok dialect := by
  rw [resolve_eq, ← recalls.defaultName, ← recalls.lookup] at found
  rw [Environment.dialect, found]

theorem Recalls.dialect_of_none (recalls : environment.Recalls history) {name : Option String}
    (missing : history.latest? (history.resolve name) = none) :
    environment.dialect name = .error (.undefinedDialect (history.resolve name)) := by
  have resolved := resolve_eq history name
  rw [← recalls.defaultName] at resolved
  rw [resolved, ← recalls.lookup] at missing
  rw [Environment.dialect, missing, resolved]

theorem Recalls.loaded (recalls : environment.Recalls history) (name : String) :
    history.Loaded name (environment.load name) := by
  unfold load
  cases found : environment.loader with
  | none => exact .noLoader (recalls.loader.symm.trans found)
  | some loader => exact .loader (recalls.loader.symm.trans found)

/-- Requests that are for a template are answered with it or with what is wrong. -/
theorem Recalls.parsed [Room] (recalls : environment.Recalls history) (source : Source)
    (dialectName : Option String) :
    match environment.parse source dialectName with
    | (.ok template, events) => history.Parsed source dialectName (.template template) events
    | (.error error, events) => history.Parsed source dialectName (.error error) events := by
  unfold Environment.parse
  cases found : history.latest? (history.resolve dialectName) with
  | none =>
      rw [recalls.dialect_of_none found]
      exact .undefined found
  | some dialect =>
      rw [recalls.dialect_of_some found]
      dsimp only
      cases run : Template.parse dialect source with
      | error failure => exact .malformed found run
      | ok template => exact .template found run

theorem Recalls.templated (recalls : environment.Recalls history) (name : String)
    (dialectName : Option String) :
    history.Answered (.template name dialectName)
      (environment.perform (.template name dialectName)).2.1
      (environment.perform (.template name dialectName)).2.2 := by
  have loaded := recalls.loaded name
  rw [perform, Environment.template]
  cases found : environment.load name with
  | error problem =>
      rw [found] at loaded
      exact .noTemplate loaded
  | ok source =>
      rw [found] at loaded
      have parsed := recalls.parsed
        { text := source.text, name := some name, filename := source.filename } dialectName
      dsimp only
      rcases run : environment.parse _ dialectName with ⟨_ | _, events⟩
      all_goals
        rw [run] at parsed
        exact .template loaded parsed

theorem Recalls.answered (recalls : environment.Recalls history) (request : Request) :
    history.Answered request (environment.perform request).2.1 (environment.perform request).2.2 := by
  cases request with
  | parse source dialectName =>
      have parsed := recalls.parsed source dialectName
      rw [perform]
      rcases run : environment.parse source dialectName with ⟨_ | _, events⟩
      all_goals
        rw [run] at parsed
        exact .parse parsed
  | dialect name =>
      rw [perform]
      cases found : history.latest? (history.resolve name) with
      | none =>
          rw [recalls.dialect_of_none found]
          exact .noDialect found
      | some dialect =>
          rw [recalls.dialect_of_some found]
          exact .dialect found
  | template name dialectName => exact recalls.templated name dialectName
  | source name =>
      have loaded := recalls.loaded name
      rw [perform]
      cases found : environment.load name with
      | error problem => exact .noSource (found ▸ loaded)
      | ok source => exact .source (found ▸ loaded)
  | names =>
      rw [perform]
      rw [recalls.loader]
      exact .names
  | register name settings =>
      rw [perform, registerSettings]
      cases described : Dialect.ofSettings settings with
      | error problem => exact .notRegistered described
      | ok dialect => exact .registered described
  | setLoader loader => exact .loaderSet

/-- A request changes the environment as it changes the history. -/
theorem Recalls.perform (recalls : environment.Recalls history) (request : Request) :
    (environment.perform request).1.Recalls (history.after request) := by
  cases request with
  | register name settings =>
      rw [Environment.perform, registerSettings, History.after]
      cases Dialect.ofSettings settings with
      | error problem => exact recalls
      | ok dialect =>
          refine ⟨fun other => ?_, recalls.defaultName, recalls.loader⟩
          show (environment.dialects.insert name dialect).lookup other = _
          rw [Registry.lookup_insert, recalls.lookup, History.latest?, History.latest?,
            List.lookup_cons]
          cases other == name <;> rfl
  | setLoader loader => exact ⟨recalls.lookup, recalls.defaultName, rfl⟩
  | parse source dialectName =>
      rw [Environment.perform]
      rcases environment.parse source dialectName with ⟨_, _⟩
      exact recalls
  | template name dialectName =>
      rw [Environment.perform]
      rcases environment.template name dialectName with ⟨_, _⟩
      exact recalls
  | dialect name =>
      rw [Environment.perform]
      cases environment.dialect name <;> exact recalls
  | source name =>
      rw [Environment.perform]
      cases environment.load name <;> exact recalls
  | names => exact recalls

theorem Recalls.performAll (recalls : environment.Recalls history) (requests : List Request) :
    (environment.performAll requests).1.Recalls (history.afterAll requests) := by
  induction requests generalizing environment history with
  | nil => exact recalls
  | cons request requests induction => exact induction (recalls.perform request)

/-- A request that fails leaves the environment as it is. -/
theorem perform_of_isError (environment : Environment) {request : Request}
    (failed : (environment.perform request).2.1.isError = true) :
    (environment.perform request).1 = environment := by
  cases request with
  | register name settings =>
      rw [perform, registerSettings] at *
      cases described : Dialect.ofSettings settings with
      | error problem => rfl
      | ok dialect =>
          rw [described] at failed
          cases failed
  | setLoader loader => cases failed
  | dialect name =>
      rw [perform]
      cases environment.dialect name <;> rfl
  | source name =>
      rw [perform]
      cases environment.load name <;> rfl
  | parse | template | names => rfl

/-- A session goes on where its beginning has come to. -/
theorem performAll_append (environment : Environment) (requests others : List Request) :
    environment.performAll (requests ++ others) =
      (((environment.performAll requests).1.performAll others).1,
        (environment.performAll requests).2 ++
          ((environment.performAll requests).1.performAll others).2) := by
  induction requests generalizing environment with
  | nil => rfl
  | cons request requests induction =>
      rw [List.cons_append, performAll]
      dsimp only
      rw [induction]
      rfl

end Environment

/-! ## What holds at any time -/

/-- No delimiter is shorter than two characters or has a blank in it, no opening delimiter is the
beginning of another, and the limit admits the top level. -/
structure Dialect.Valid (dialect : Dialect) : Prop where
  long (role : DelimiterRole) : 2 ≤ (dialect.delimiter role).chars.length
  solid (role : DelimiterRole) :
    ∀ character ∈ (dialect.delimiter role).chars, Text.isBlank character = false
  apart : dialect.starts.Pairwise Delimiter.Apart
  maxDepth_pos : 0 < dialect.maxDepth

theorem Dialect.valid (dialect : Dialect) : dialect.Valid where
  long role := (dialect.delimiter role).long
  solid role := by simpa using (dialect.delimiter role).solid
  apart := by
    simp only [Dialect.starts, List.pairwise_cons, List.mem_cons, List.not_mem_nil, or_false,
      forall_eq_or_imp, forall_eq, false_imp_iff, implies_true, List.Pairwise.nil, and_true]
    exact ⟨⟨dialect.block_apart_comment, dialect.block_apart_expr⟩,
      dialect.expr_apart_comment.symm⟩
  maxDepth_pos := dialect.maxDepth_pos

namespace History

variable {history : History}

theorem defaultName_afterAll (requests : List Request) :
    (history.afterAll requests).defaultName = history.defaultName := by
  induction requests generalizing history with
  | nil => rfl
  | cons request requests induction =>
      have kept : (history.after request).defaultName = history.defaultName := by
        cases request
        case register name settings =>
            rw [after]
            cases Dialect.ofSettings settings <;> rfl
        all_goals rfl
      exact induction.trans kept

/-- A name that a dialect has been registered under remains in use. -/
theorem isSome_latest?_afterAll {name : String} (known : (history.latest? name).isSome = true)
    (requests : List Request) : ((history.afterAll requests).latest? name).isSome = true := by
  induction requests generalizing history with
  | nil => exact known
  | cons request requests induction =>
      have kept : ((history.after request).latest? name).isSome = true := by
        cases request
        case register other settings =>
            rw [after]
            cases Dialect.ofSettings settings with
            | error problem => exact known
            | ok dialect =>
                dsimp only [latest?]
                rw [List.lookup_cons]
                cases name == other with
                | true => rfl
                | false => exact known
        all_goals exact known
      exact induction kept

end History

/-- The standard name and that of the default are in use, every dialect is valid, and without a name
there is one. -/
structure Environment.Sound [Room] (environment : Environment) : Prop where
  standard : (environment.dialects.lookup standardName).isSome = true
  default : (environment.dialects.lookup environment.defaultName).isSome = true
  valid : ∀ entry ∈ environment.dialects, entry.2.Valid
  unnamed : ∃ dialect, environment.perform (.dialect none) = (environment, .dialect dialect, [])

theorem Environment.Recalls.sound {environment : Environment} {history : History}
    (recalls : environment.Recalls history)
    (standard : (history.latest? standardName).isSome = true)
    (default : (history.latest? history.defaultName).isSome = true) : environment.Sound where
  standard := recalls.lookup _ ▸ standard
  default := by rwa [recalls.lookup, recalls.defaultName]
  valid entry _ := entry.2.valid
  unnamed := by
    rcases Option.isSome_iff_exists.mp default with ⟨dialect, found⟩
    have told : environment.dialect none = .ok dialect := recalls.dialect_of_some found
    exact ⟨dialect, by rw [Environment.perform, told]⟩

/-! ## Constructions -/

/-- What an environment is constructed from: dialects, or settings of dialects, under their names
and with a default, or a configuration document. -/
inductive Construction where
  | dialects (others : List (String × Dialect)) (defaultName : Value)
  | settings (described : List (String × List Setting)) (defaultName : Value)
  | document (sections : List Setting)

namespace Construction

open Environment (create itemsOf tableOf nameOfEntry dialectsOfEntries)

def build (loader : Option Loader) :
    Construction → Except ConfigProblem (Environment × List LogEvent)
  | dialects others defaultName => create others defaultName loader
  | settings described defaultName => Environment.ofSettings described defaultName loader
  | document sections => Environment.ofDocument sections loader

/-- The name of an entry of a configuration document, and the dialect that the entry describes. -/
def described (entry : Value) : String × Except DialectProblem Dialect :=
  (((Setting.find? (tableOf entry) "name").getD .null).plain, Dialect.ofSettings (tableOf entry))

/-- The dialects that the environment is to have beside the standard one, each under its name, in
their order. -/
def given : Construction → List (String × Except DialectProblem Dialect)
  | dialects others _ => others.map fun entry => (entry.1, .ok entry.2)
  | settings described _ => described.map fun entry => (entry.1, Dialect.ofSettings entry.2)
  | document sections => (((Setting.find? sections "syntax").map itemsOf).getD []).map described

theorem lookup_insertAll (entries : List (String × Dialect)) {registry : Registry}
    {earlier : List (String × Dialect)}
    (same : ∀ name, registry.lookup name = earlier.lookup name) (name : String) :
    (registry.insertAll entries).lookup name = (entries.reverse ++ earlier).lookup name := by
  induction entries generalizing registry earlier with
  | nil => exact same name
  | cons entry entries induction =>
      have inserted (name : String) : (registry.insert entry.1 entry.2).lookup name =
          (entry :: earlier).lookup name := by
        rw [Registry.lookup_insert, List.lookup_cons, same]
        cases name == entry.1 <;> rfl
      rw [List.reverse_cons, List.append_assoc]
      exact induction inserted

variable {loader : Option Loader} {environment : Environment} {events : List LogEvent}

/-- The history of an environment that has just been constructed. -/
def history (entries : List (String × Dialect)) (environment : Environment)
    (loader : Option Loader) : History :=
  ⟨entries.reverse ++ [(standardName, .standard)], environment.defaultName, loader⟩

/-- The standard dialect is there from the beginning, unless another has taken its name. -/
theorem standard_registered (entries : List (String × Dialect)) :
    ((history entries environment loader).latest? standardName).isSome = true := by
  show ((entries.reverse ++ [(standardName, Dialect.standard)]).lookup standardName).isSome = true
  induction entries.reverse with
  | nil => rfl
  | cons entry rest induction =>
      rw [List.cons_append, List.lookup_cons]
      cases standardName == entry.1 with
      | true => rfl
      | false => exact induction

theorem recalls_of_create {others : List (String × Dialect)} {defaultName : Value}
    (created : create others defaultName loader = .ok (environment, events)) :
    environment.Recalls (history others environment loader) ∧
      (environment.dialects.lookup environment.defaultName).isSome = true := by
  unfold create at created
  cases defaultName
  case text name =>
      dsimp only at created
      split at created
      case isTrue defined =>
          cases created
          exact ⟨⟨lookup_insertAll others fun _ => rfl, rfl, rfl⟩, defined⟩
      case isFalse => cases created
  all_goals cases created

private theorem bind_eq_ok {ε α β : Type} {first : Except ε α} {next : α → Except ε β} {value : β} :
    (first >>= next) = .ok value ↔ ∃ middle, first = .ok middle ∧ next middle = .ok value := by
  cases first <;> simp [bind, Except.bind]

theorem given_of_mapM {described : List (String × List Setting)} {others : List (String × Dialect)}
    (read : (described.mapM fun (name, table) =>
      match Dialect.ofSettings table with
      | .error problem => throw (.dialect problem)
      | .ok dialect => return (name, dialect) : Except ConfigProblem _) = .ok others) :
    described.map (fun entry => (entry.1, Dialect.ofSettings entry.2)) =
      others.map fun entry => (entry.1, .ok entry.2) := by
  induction described generalizing others with
  | nil =>
      cases read
      rfl
  | cons entry described induction =>
      rw [List.mapM_cons, bind_eq_ok] at read
      rcases read with ⟨first, found, read⟩
      rcases bind_eq_ok.mp read with ⟨rest, others, done⟩
      cases done
      rw [List.map_cons, List.map_cons, induction others]
      cases ofSettings : Dialect.ofSettings entry.2 with
      | error problem =>
          simp only [ofSettings] at found
          cases found
      | ok dialect =>
          simp only [ofSettings] at found
          cases found
          rfl

theorem nameOfEntry_eq {entry : List Setting} {taken : List String} {name : String}
    (found : nameOfEntry entry taken = .ok name) :
    name = ((Setting.find? entry "name").getD .null).plain := by
  unfold nameOfEntry at found
  dsimp only at found
  repeat' split at found
  all_goals cases found
  rfl

theorem given_of_dialectsOfEntries {entries : List Value} {read others : List (String × Dialect)}
    (described : dialectsOfEntries entries read = .ok others) :
    ∃ further, others = read ++ further ∧
      entries.map Construction.described = further.map fun entry => (entry.1, .ok entry.2) := by
  induction entries generalizing read with
  | nil =>
      cases described
      exact ⟨[], (List.append_nil _).symm, rfl⟩
  | cons entry entries induction =>
      rw [dialectsOfEntries, bind_eq_ok] at described
      rcases described with ⟨name, named, described⟩
      cases ofSettings : Dialect.ofSettings (tableOf entry) with
      | error problem =>
          rw [ofSettings] at described
          cases described
      | ok dialect =>
          rw [ofSettings] at described
          rcases induction described with ⟨further, rfl, same⟩
          refine ⟨(name, dialect) :: further, List.append_assoc _ _ _, ?_⟩
          rw [List.map_cons, List.map_cons, same, Construction.described, ofSettings,
            nameOfEntry_eq named]

/-- A construction that succeeds has used what it was given, in that order. -/
theorem recalls_of_build {construction : Construction}
    (built : construction.build loader = .ok (environment, events)) :
    ∃ entries : List (String × Dialect),
      construction.given = entries.map (fun entry => (entry.1, .ok entry.2)) ∧
        environment.Recalls (history entries environment loader) ∧
        (environment.dialects.lookup environment.defaultName).isSome = true := by
  cases construction with
  | dialects others defaultName => exact ⟨others, rfl, recalls_of_create built⟩
  | settings described defaultName =>
      rcases bind_eq_ok.mp built with ⟨others, read, created⟩
      exact ⟨others, given_of_mapM read, recalls_of_create created⟩
  | document sections =>
      rw [build, Environment.ofDocument] at built
      dsimp only at built
      split at built
      case isFalse => cases built
      split at built
      case isFalse => cases built
      rcases bind_eq_ok.mp built with ⟨others, read, created⟩
      rcases given_of_dialectsOfEntries read with ⟨further, appended, same⟩
      cases appended.trans (List.nil_append further)
      exact ⟨others, same, recalls_of_create created⟩

end Construction

/-! ## Sessions -/

/-- Whatever an environment is constructed from and however often it has been asked, the names that
it relies on are in use and its dialects are valid. What it answers next, and what is logged of that,
is told by its history; and where it only tells what is wrong, it stays as it is. -/
theorem session_answers_from_history {construction : Construction} {loader : Option Loader}
    {environment : Environment} {events : List LogEvent}
    (built : construction.build loader = .ok (environment, events)) :
    ∃ entries : List (String × Dialect),
      construction.given = entries.map (fun entry => (entry.1, .ok entry.2)) ∧
      ∀ requests : List Request, ∃ (now : Environment) (answers : List (Answer × List LogEvent)),
        environment.performAll requests = (now, answers) ∧ now.Sound ∧
        now.Recalls ((Construction.history entries environment loader).afterAll requests) ∧
        ∀ request : Request, ∃ (next : Environment) (answer : Answer) (logged : List LogEvent),
          environment.performAll (requests ++ [request]) = (next, answers ++ [(answer, logged)]) ∧
          ((Construction.history entries environment loader).afterAll requests).Answered request
            answer logged ∧
          (answer.isError = true → next = now) := by
  rcases Construction.recalls_of_build built with ⟨entries, given, recalls, defined⟩
  refine ⟨entries, given, fun requests => ⟨_, _, rfl, ?_, recalls.performAll requests,
    fun request => ⟨_, _, _, Environment.performAll_append environment requests [request],
      (recalls.performAll requests).answered request,
      (environment.performAll requests).1.perform_of_isError⟩⟩⟩
  apply (recalls.performAll requests).sound
  · apply History.isSome_latest?_afterAll
    exact Construction.standard_registered entries
  · rw [History.defaultName_afterAll]
    apply History.isSome_latest?_afterAll
    rw [← recalls.lookup, ← recalls.defaultName]
    exact defined

/-- A template is asked for where the default of the environment is not the standard name, and the
loader has been set after the construction. -/
theorem session_answers_from_history_template :
    let _ : Room := ⟨20⟩
    ∃ environment events,
      (Construction.dialects [("braces", .standard)] (.text "braces")).build none =
          .ok (environment, events) ∧
        ∃ now answers,
          environment.performAll [.setLoader (some (.table [("a", "\x7b\x7b x \x7d\x7d")])),
            .template "a" none, .template "b" none] = (now, answers) ∧
          now.Sound ∧
          answers.map Prod.snd = [[], [.parsing (some "a") 7, .parsed (some "a") 1], []] := by
  intro room
  have built : (Construction.dialects [("braces", .standard)] (.text "braces")).build none =
      .ok (_, _) := rfl
  rcases session_answers_from_history built with ⟨entries, given, follows⟩
  rcases follows [.setLoader (some (.table [("a", "\x7b\x7b x \x7d\x7d")])), .template "a" none,
    .template "b" none] with ⟨now, answers, run, sound, _⟩
  refine ⟨_, _, rfl, now, answers, run, sound, ?_⟩
  cases run
  rfl

end Templating

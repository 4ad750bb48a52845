import Templating.Proofs.Reading
import Templating.Proofs.Running
import Templating.Statement.Document

/-! # Constructs step by step

Some rules of constructs decide between rules on the way. Here each of them is written as one
rule behind the other, each with a name. -/

namespace Templating.Parser

variable {room : Room}

variable (dialect : Dialect) (body : Parser (List Node)) (opened : OpenedTag)

/-- The arms behind the one that is taken when no other is. -/
def laterArms [Room] : (otherwise : Option Arm) → Parser (List Arm)
  | none => pure []
  | some _ => many (whenArm dialect body)

/-- Ends the parse if a choice has no arm but the one that is taken when no other is. -/
def requireArm (arms : List Arm) : Grammar Unit :=
  if arms.isEmpty then Grammar.fail .noArm else pure ()

theorem choice_eq : choice dialect body opened = (do
    let subject ← Grammar.expect Grammar.expression (.missingExpr .subject)
    let right ← Grammar.tagRest dialect
    Grammar.skipComments dialect
    let before ← many (whenArm dialect body)
    let otherwise ← optional (elseArm dialect body)
    let after ← laterArms dialect body otherwise
    rejectElse dialect .secondElse
    requireArm (before ++ after)
    let closingLeft ← Grammar.endTag dialect "match" "endmatch" opened.offset
    let closingRight ← Grammar.edge
    return .choice opened.offset ⟨opened.trim, right⟩ subject
      (before ++ after ++ otherwise.toList) ⟨closingLeft, closingRight⟩) := by
  have required (arms : List Arm) (next : Parser Node) :
      (if arms.isEmpty then liftM (Grammar.fail .noArm : Grammar Unit) >>= fun _ => next else next) =
        (liftM (requireArm arms) >>= fun _ => next) := by
    unfold requireArm
    split <;> rfl
  unfold choice
  apply bind_congr
  intro subject
  apply bind_congr
  intro right
  apply bind_congr
  intro _
  apply bind_congr
  intro before
  apply bind_congr
  intro otherwise
  dsimp only
  simp only [required]
  cases otherwise with
  | none => rfl
  | some otherwise => rfl

/-- Ends the parse if a macro may not have this name. -/
def checkMacroName (name : String) (offset : Nat) : Grammar Unit :=
  if reservedMacroNames.contains name then Grammar.failAt (.reservedMacroName name) offset
  else pure ()

theorem macroDef_eq : macroDef dialect body opened = (do
    Grammar.spaces
    let nameOffset ← Grammar.here
    let name ← Grammar.expect Grammar.nameToken (.missingName .macroDef)
    checkMacroName name nameOffset
    let parameters ← Grammar.optional Grammar.parameters
    let right ← Grammar.tagRest dialect
    let nodes ← body
    let closingLeft ← Grammar.endTag dialect "macro" "endmacro" opened.offset
    let _ ← Grammar.optional Grammar.nameToken
    let closingRight ← Grammar.edge
    return .macroDef opened.offset name ⟨opened.trim, right⟩ (parameters.getD []) nodes
      ⟨closingLeft, closingRight⟩) := by
  unfold macroDef
  apply bind_congr
  intro _
  apply bind_congr
  intro nameOffset
  apply bind_congr
  intro name
  unfold checkMacroName
  dsimp only
  split <;> rfl

theorem checkMacroName_eq_matched {name : String} {offset : Nat} {found : Unit}
    {cursor later : Cursor} :
    checkMacroName name offset cursor = .matched found later ↔
      reservedMacroNames.contains name = false ∧ cursor = later := by
  unfold checkMacroName
  split
  case isTrue reserved =>
      rw [reserved]
      exact iff_of_false nofun nofun
  case isFalse free =>
      have free := Bool.eq_false_iff.mpr free
      simp only [Grammar.pure_eq_matched, free, true_and]

theorem requireArm_eq_matched {arms : List Arm} {found : Unit} {cursor later : Cursor} :
    requireArm arms cursor = .matched found later ↔ arms ≠ [] ∧ cursor = later := by
  unfold requireArm
  cases arms with
  | nil => exact iff_of_false nofun nofun
  | cons arm arms => simp

theorem rejectElse_eq_matched {problem : Problem} {found : Unit} {cursor later : Cursor} :
    rejectElse dialect problem cursor = .matched found later ↔
      Grammar.tag dialect ["else"] cursor = .noMatch ∧ cursor = later := by
  rw [rejectElse, Grammar.orElse_apply, Grammar.bind_apply]
  cases Grammar.tag dialect ["else"] cursor with
  | matched opened middle => exact iff_of_false nofun nofun
  | noMatch => simp
  | failed failure => exact iff_of_false nofun nofun

/-- A statement that leaves a loop or goes on with it stands in the body of one. -/
theorem loopControl_eq_matched {keyword : Keyword} {node : Nat → Edges → Node} {value : Node}
    {counters counters' : Counters} {cursor later : Cursor} :
    loopControl opened keyword node counters cursor = (.matched value later, counters') ↔
      counters.inLoop = true ∧ counters = counters' ∧ ∃ right,
        Grammar.edge cursor = .matched right later ∧
          node opened.offset ⟨opened.trim, right⟩ = value := by
  unfold loopControl
  simp only [bind_eq_matched, getCounters_eq_matched]
  constructor
  · intro matched
    rcases matched with ⟨_, _, _, ⟨rfl, rfl, rfl⟩, matched⟩
    split at matched
    case isTrue inside =>
        simp only [bind_eq_matched, pure_eq_matched, liftM_eq_matched] at matched
        rcases matched with ⟨right, _, _, ⟨edge, rfl⟩, rfl, rfl, rfl⟩
        exact ⟨inside, rfl, right, edge, rfl⟩
    case isFalse => cases matched
  · intro matched
    rcases matched with ⟨inside, rfl, right, edge, rfl⟩
    refine ⟨counters, cursor, counters, ⟨rfl, rfl, rfl⟩, ?_⟩
    rw [if_pos inside]
    simp only [bind_eq_matched, pure_eq_matched, liftM_eq_matched]
    exact ⟨right, later, counters, ⟨edge, rfl⟩, rfl, rfl, rfl⟩

theorem statementStart_eq_matched {keyword : Keyword} {cursor later : Cursor} :
    statementStart dialect cursor = .matched (opened, keyword) later ↔
      opened.offset = cursor.offset ∧ Keyword.ofWord? opened.word = some keyword ∧
        ∃ first second third fourth,
          Grammar.exact dialect.blockStart.chars cursor = .matched () first ∧
            Grammar.edge first = .matched opened.trim second ∧
              Grammar.spaces second = .matched () third ∧
                Grammar.name third = .matched opened.word fourth ∧
                  Grammar.spaces fourth = .matched () later := by
  unfold statementStart
  simp only [Grammar.bind_eq_matched, Grammar.here_eq_matched]
  constructor
  · intro matched
    rcases matched with ⟨_, _, ⟨rfl, rfl⟩, _, first, starts, trim, second, edge, _, third, blanks,
      word, fourth, name, matched⟩
    cases known : Keyword.ofWord? word with
    | none =>
        simp only [known] at matched
        cases matched
    | some keyword' =>
        simp only [known, Grammar.bind_eq_matched, Grammar.pure_eq_matched] at matched
        rcases matched with ⟨_, _, blanks', same, rfl⟩
        cases same
        exact ⟨rfl, known, first, second, third, fourth, starts, edge, blanks, name, blanks'⟩
  · intro matched
    rcases opened with ⟨offset, trim, word⟩
    rcases matched with ⟨rfl, known, first, second, third, fourth, starts, edge, blanks, name,
      blanks'⟩
    refine ⟨_, cursor, ⟨rfl, rfl⟩, (), first, starts, trim, second, edge, (), third, blanks, word,
      fourth, name, ?_⟩
    dsimp only at known
    simp only [known, Grammar.bind_eq_matched, Grammar.pure_eq_matched]
    exact ⟨(), later, blanks', trivial, rfl⟩

/-! ## Whole sources -/

theorem endOfSource_eq_matched {found : Unit} {cursor later : Cursor} :
    Grammar.endOfSource dialect cursor = .matched found later ↔
      cursor.atEnd = true ∧ cursor = later := by
  unfold Grammar.endOfSource
  split
  case isTrue ended => simp [ended]
  case isFalse further =>
      have unexpected : Grammar.unexpected dialect cursor ≠ .matched found later := by
        unfold Grammar.unexpected
        split
        · split <;> nofun
        · nofun
        · nofun
      exact iff_of_false unexpected fun ended => further ended.1

theorem document_eq_matched {body : List Node} {counters counters' : Counters}
    {cursor later : Cursor} :
    document dialect counters cursor = (.matched body later, counters') ↔
      nodes dialect counters cursor = (.matched body later, counters') ∧ later.atEnd = true := by
  simp only [document, bind_eq_matched, pure_eq_matched, liftM_eq_matched, endOfSource_eq_matched]
  constructor
  · intro matched
    rcases matched with ⟨_, _, _, read, _, _, _, ⟨⟨ended, rfl⟩, rfl⟩, rfl, rfl, rfl⟩
    exact ⟨read, ended⟩
  · intro matched
    rcases matched with ⟨read, ended⟩
    exact ⟨body, later, counters', read, (), later, counters', ⟨⟨ended, rfl⟩, rfl⟩, rfl, rfl, rfl⟩

/-- A source is a template if a body goes on to its end. -/
theorem parse_eq_ok {source : Source} {template : Template} :
    Template.parse dialect source = .ok template ↔
      ∃ later counters,
        nodes dialect .zero (.start source.chars) = (.matched template.body later, counters) ∧
          later.atEnd = true ∧ template.name = source.name := by
  have document : ∀ later counters,
      nodes dialect .zero (.start source.chars) = (.matched template.body later, counters) ∧
          later.atEnd = true ↔
        document dialect .zero (.start source.chars) = (.matched template.body later, counters) :=
    fun _ _ => (document_eq_matched dialect).symm
  simp only [← and_assoc, document]
  unfold Template.parse
  rcases template with ⟨body, name⟩
  rcases Parser.document dialect .zero (.start source.chars) with ⟨_ | _ | _, _⟩ <;>
    simp [eq_comm]

end Templating.Parser

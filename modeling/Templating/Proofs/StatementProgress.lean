import Templating.Proofs.Progress
import Templating.Statement.Body

/-! # Progress of statements

The rules of tags, of text and of what stands behind the word of a statement do not go back
either. Every tag, comment and output is at least as long as its opening delimiter. -/

namespace Templating.Grammar

variable {room : Room}

instance (delimiter : Delimiter) : Consuming (exact delimiter.chars) := by
  apply consuming_exact
  intro empty
  have := delimiter.long
  simp [empty] at this

instance (test : List Char → Bool) : Advancing (upTo test) :=
  ⟨fun {cursor _ _} matched => by
    cases matched
    apply cursor.reaches_advance
    induction cursor.rest with
    | nil => simp [untilText]
    | cons first rest induction =>
        unfold untilText
        split
        · simp
        · simpa using induction⟩

instance (words : List String) : Advancing (wordOf words) := by
  induction words with
  | nil => exact inferInstanceAs (Advancing noMatch)
  | cons word others induction => exact inferInstanceAs (Advancing (_ <|> wordOf others))

section

variable (dialect : Dialect)

/-! ## Tags -/

instance (words : List String) : Consuming (tag dialect words) := by
  unfold tag
  infer_instance

instance : Consuming (tagEnd dialect) := by
  unfold tagEnd
  infer_instance

instance : Consuming (tagRest dialect) := by
  unfold tagRest
  infer_instance

theorem found_eq_matched {found' : Found} {cursor later : Cursor}
    (matched : found dialect cursor = .matched found' later) : cursor = later := by
  unfold found at matched
  split at matched <;> cases matched <;> rfl

theorem missingEndTag_ne_matched {α : Type} {opener closer : String} {start : Nat} {value : α}
    {cursor later : Cursor} :
    missingEndTag dialect opener closer start cursor ≠ .matched value later := by
  intro matched
  unfold missingEndTag at matched
  split at matched
  · cases matched
  · simp only [bind_eq_matched] at matched
    rcases matched with ⟨_, _, _, failed⟩
    cases failed

theorem endTag_eq_matched {opener closer : String} {start : Nat} {trim : Option Trim}
    {cursor later : Cursor} :
    endTag dialect opener closer start cursor = .matched trim later ↔
      ∃ opened, tag dialect [closer] cursor = .matched opened later ∧ opened.trim = trim := by
  simp only [endTag, orElse_eq_matched, bind_eq_matched, pure_eq_matched,
    missingEndTag_ne_matched, and_false, or_false]
  constructor
  · intro matched
    rcases matched with ⟨opened, _, read, rfl, rfl⟩
    exact ⟨opened, read, rfl⟩
  · intro matched
    rcases matched with ⟨opened, read, rfl⟩
    exact ⟨opened, later, read, rfl, rfl⟩

instance (opener closer : String) (start : Nat) : Consuming (endTag dialect opener closer start) :=
  ⟨fun matched => by
    rcases (endTag_eq_matched dialect).mp matched with ⟨_, read, _⟩
    exact Consuming.passes read⟩

instance (problem : Problem) : Advancing (Parser.rejectElse dialect problem) := by
  unfold Parser.rejectElse
  infer_instance

/-! ## Text, comments, outputs and raw text -/

instance : Consuming (text dialect) :=
  ⟨fun {cursor _ later} matched => by
    simp only [text, bind_eq_matched, here_eq_matched] at matched
    rcases matched with ⟨_, _, ⟨_, rfl⟩, run, middle, read, matched⟩
    have reached := Advancing.reaches read
    split at matched
    · cases matched
    case isFalse notEmpty =>
        cases matched
        cases read
        refine ⟨reached, ?_⟩
        have := reached.length_le
        simp only [Cursor.advance, List.length_drop, List.isEmpty_iff,
          ← List.length_eq_zero_iff] at notEmpty this ⊢
        have : (untilText (opensTag dialect) cursor.rest).length ≤ cursor.rest.length := by
          rcases reached with ⟨text, shape, moved⟩
          have := congrArg List.length shape
          simp only [Cursor.advance, List.length_append, List.length_drop] at this moved
          omega
        omega⟩

/-- The closing delimiter of an inner comment. -/
def closingStep (state : CommentState) : Grammar CommentState :=
  match state.level with
  | 0 => noMatch
  | level + 1 => do
      exact dialect.commentEnd.chars
      return ⟨level, none⟩

/-- The opening delimiter of an inner comment. -/
def openingStep (state : CommentState) : Grammar CommentState := do
  ahead fun rest => !startsWithin dialect.commentEnd.chars dialect.commentStart.chars.length rest
  exact dialect.commentStart.chars
  return ⟨state.level + 1, none⟩

/-- A character between the delimiters. -/
def characterStep (state : CommentState) : Grammar CommentState := do
  ahead fun rest => !dialect.commentEnd.chars.isPrefixOf rest
  return ⟨state.level, ← character fun _ => true⟩

theorem commentStep_eq_orElse (state : CommentState) : commentStep dialect state =
    (closingStep dialect state <|> openingStep dialect state <|> characterStep dialect state) :=
  rfl

instance (state : CommentState) : Consuming (closingStep dialect state) := by
  unfold closingStep
  cases state.level <;> infer_instance

instance (state : CommentState) : Consuming (commentStep dialect state) := by
  rw [commentStep_eq_orElse]
  unfold openingStep characterStep
  infer_instance

instance : Consuming (comment dialect) := by
  unfold comment
  infer_instance

instance : Consuming (output dialect) := by
  unfold output
  infer_instance

instance : Consuming (rawEnd dialect) := by
  have (left : Option Trim) : Advancing (do
      let right ← edge
      ahead fun rest => dialect.blockEnd.chars.isPrefixOf rest
      pure ⟨left, right⟩ : Grammar Edges) := inferInstance
  unfold rawEnd
  infer_instance

instance (opened : OpenedTag) : Consuming (raw dialect opened) := by
  unfold raw
  infer_instance

/-- What every tag begins with: where it begins, and its left marker. -/
def tagStart : Grammar (Nat × Option Trim) := do
  let offset ← here
  exact dialect.blockStart.chars
  let trim ← edge
  spaces
  return (offset, trim)

/-- A tag that has begun begins a statement if its word is that of one. -/
def statementOf (start : Nat × Option Trim) (word : String) : Grammar (OpenedTag × Keyword) :=
  match Keyword.ofWord? word with
  | none => noMatch
  | some keyword => do
      spaces
      return (⟨start.1, start.2, word⟩, keyword)

theorem statementStart_eq : Parser.statementStart dialect = (do
    let start ← tagStart dialect
    let word ← name
    statementOf start word) := by
  simp only [tagStart, bind_assoc, pure_bind]
  rfl

instance : Consuming (tagStart dialect) := by
  unfold tagStart
  infer_instance

instance (start : Nat × Option Trim) (word : String) : Advancing (statementOf start word) := by
  unfold statementOf
  split <;> infer_instance

instance : Consuming (Parser.statementStart dialect) := by
  rw [statementStart_eq]
  infer_instance

end

/-! ## Behind the word of a statement -/

instance (opened : OpenedTag) : Consuming (assignment opened) := by
  have : Consuming (token "=") := consuming_token rfl
  unfold assignment
  infer_instance

/-- The scope and the name of a called macro. A second name makes the first one the scope. -/
def calledPath (first : String) : Option String → Option String × String
  | none => (none, first)
  | some second => (some first, second)

/-- The arguments of a call in a tag. -/
def callArguments [Room] : Grammar (List Expr) :=
  (do
    ahead fun rest => rest.head? == some '('
    expect arguments .callArguments) <|> pure []

/-- What stands behind the scope and the name of a called macro. -/
def calledWith [Room] (opened : OpenedTag) (path : Option String × String) : Grammar Node := do
  let arguments ← callArguments
  let right ← edge
  return .macroCall opened.offset ⟨opened.trim, right⟩ path.1 path.2 arguments

theorem macroCall_eq (opened : OpenedTag) : macroCall opened = (do
    let first ← expect nameToken (.missingName .calledMacro)
    let second ← optional do
      token "::"
      expect nameToken (.missingName .scopedMacro)
    calledWith opened (calledPath first second)) := by
  have same (first : String) (second : Option String) :
      (callArguments >>= fun arguments => edge >>= fun right =>
        match second with
        | none => pure (Node.macroCall opened.offset ⟨opened.trim, right⟩ none first arguments)
        | some second =>
            pure (.macroCall opened.offset ⟨opened.trim, right⟩ (some first) second arguments)) =
      calledWith opened (calledPath first second) := by
    cases second <;> rfl
  simp only [← same]
  rfl

instance (opened : OpenedTag) (path : Option String × String) :
    Advancing (calledWith opened path) := by
  unfold calledWith callArguments
  infer_instance

instance (opened : OpenedTag) : Consuming (macroCall opened) := by
  rw [macroCall_eq]
  infer_instance

instance (opened : OpenedTag) : Advancing (extension opened) := by
  unfold extension
  infer_instance

instance (opened : OpenedTag) : Consuming (inclusion opened) := by
  unfold inclusion
  infer_instance

instance (opened : OpenedTag) : Consuming (importation opened) := by
  unfold importation
  infer_instance

instance : Consuming condition := by
  unfold condition
  infer_instance

instance : Consuming parameters := by
  have : Consuming (token "(") := consuming_token rfl
  unfold parameters
  infer_instance

instance (dialect : Dialect) : Advancing (skipComments dialect) := by
  unfold skipComments
  infer_instance

end Templating.Grammar

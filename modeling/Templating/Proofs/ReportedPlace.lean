import Templating.Proofs.Lines
import Templating.Proofs.Place
import Templating.Proofs.PrintedStatement
import Templating.Proofs.ScopeProgress
import Templating.Report.Failure

/-! # The place that is reported

Every failure of a parse names a place of the source, which its report gives as a line and a
column of the source. The rules that name a place found earlier are those of comments, of raw text
and of constructs, which name where they begin, and the one for the name of a macro. -/

namespace Templating

variable {room : Room}

open Text

variable {origin : Cursor}

namespace Grammar

variable (dialect : Dialect)

/-! ## Tags -/

/-- No blank stands where a delimiter does. -/
theorem solid_of_exact {delimiter : Delimiter} {cursor later : Cursor}
    (matched : exact delimiter.chars cursor = .matched () later) : Solid cursor.rest := by
  rw [(exact_eq_matched.mp matched).1]
  exact solid_delimiter delimiter later.rest

instance (words : List String) : Placing origin (tag dialect words) := by
  unfold tag
  infer_instance

theorem place_of_tag {words : List String} {opened : OpenedTag} {cursor later : Cursor}
    (reached : origin.Reaches cursor) (matched : tag dialect words cursor = .matched opened later) :
    Place origin opened.offset := by
  simp only [tag, bind_eq_matched, here_eq_matched, pure_eq_matched] at matched
  rcases matched with ⟨_, _, ⟨rfl, rfl⟩, _, _, stands, _, _, _, _, _, _, _, _, _, _, _, _, rfl, rfl⟩
  exact reached.place (solid_of_exact stands)

instance : Placing origin (tagEnd dialect) := by
  unfold tagEnd
  infer_instance

instance : Placing origin (tagRest dialect) := by
  unfold tagRest
  infer_instance

instance : Placing origin (found dialect) :=
  ⟨fun _ failed => by
    unfold found at failed
    split at failed <;> cases failed⟩

instance : Advancing (found dialect) :=
  ⟨fun matched => by
    cases found_eq_matched dialect matched
    exact .refl _⟩

instance {α : Type} (opener closer : String) (start : Nat) [Place origin start] :
    Placing origin (missingEndTag dialect opener closer start : Grammar α) :=
  ⟨fun reached failed => by
    unfold missingEndTag at failed
    split at failed
    · exact Placing.placed reached failed
    · have placing : Placing origin (found dialect >>= fun found =>
          (fail (.wrongEndTag opener closer found) : Grammar α)) := inferInstance
      exact placing.placed reached failed⟩

instance (opener closer : String) (start : Nat) [Place origin start] :
    Placing origin (endTag dialect opener closer start) := by
  unfold endTag
  infer_instance

instance (problem : Problem) : Placing origin (Parser.rejectElse dialect problem) := by
  have rejected : Placing origin (tag dialect ["else"] >>= fun second =>
      (failAt problem second.offset : Grammar Unit)) :=
    .bind fun reached matched =>
      have := place_of_tag dialect reached matched
      ⟨reached.trans (Advancing.reaches matched), inferInstance⟩
  exact inferInstanceAs (Placing origin ((tag dialect ["else"] >>= fun second =>
    failAt problem second.offset) <|> pure ()))

instance (arms : List Arm) : Placing origin (Parser.requireArm arms) := by
  unfold Parser.requireArm
  infer_instance

instance (name : String) (offset : Nat) [Place origin offset] :
    Placing origin (Parser.checkMacroName name offset) := by
  unfold Parser.checkMacroName
  infer_instance

/-- What stands behind the outermost body is told by a tag that begins there or by its word. -/
instance {α : Type} : Placing origin (unexpected dialect : Grammar α) :=
  ⟨fun {cursor _} reached failed => by
    have opening {offset : Nat} {word : Option String} {later : Cursor}
        (matched : tagHead dialect cursor = .matched (offset, word) later) :
        Place origin cursor.offset ∧ Place origin offset := by
      simp only [tagHead, bind_eq_matched, here_eq_matched, pure_eq_matched] at matched
      rcases matched with ⟨_, _, stands, _, between, read, _, _, skipped, _, _, ⟨rfl, rfl⟩, _, _, _,
        same, _⟩
      cases same
      cases skipped
      have reached' := (reached.trans (Advancing.reaches stands)).trans (Advancing.reaches read)
      exact ⟨reached.place (solid_of_exact stands), reached'.place_skipSpaces⟩
    unfold unexpected at failed
    split at failed
    case h_1 offset word later matched =>
        rcases opening matched with ⟨atTag, atWord⟩
        split at failed <;> cases failed <;> assumption
    case h_2 offset later matched =>
        cases failed
        exact (opening matched).2
    case h_3 => exact Placing.placed reached failed⟩

instance : Placing origin (endOfSource dialect) :=
  ⟨fun reached failed => by
    unfold endOfSource at failed
    split at failed
    · cases failed
    · exact Placing.placed reached failed⟩

/-! ## Text, comments, outputs and raw text -/

instance : Placing origin (text dialect) := by
  unfold text
  infer_instance

instance (state : CommentState) : Placing origin (closingStep dialect state) := by
  unfold closingStep
  cases state.level <;> infer_instance

instance (state : CommentState) : Placing origin (commentStep dialect state) := by
  rw [commentStep_eq_orElse]
  unfold openingStep characterStep
  infer_instance

/-- What stands behind the opening delimiter of a comment that begins at `start`. -/
def commentRest (dialect : Dialect) (start : Nat) : Grammar Node := do
  let left ← edge
  let state ← chain (commentStep dialect) ⟨0, none⟩
  exact dialect.commentEnd.chars <|>
    failAt (.openComment dialect.commentEnd.text) start
  return .comment start ⟨left, state.last.bind Trim.ofMark?⟩

instance (start : Nat) [Place origin start] : Placing origin (commentRest dialect start) := by
  unfold commentRest
  infer_instance

instance : Placing origin (comment dialect) :=
  ⟨fun {cursor failure} reached failed => by
    have begun : (exact dialect.commentStart.chars >>= fun _ =>
        commentRest dialect cursor.offset) cursor = .failed failure := failed
    rcases bind_eq_failed.mp begun with failed | ⟨_, middle, stands, failed⟩
    · exact Placing.placed reached failed
    · have := reached.place (solid_of_exact stands)
      exact Placing.placed (reached.trans (Advancing.reaches stands)) failed⟩

instance : Placing origin (output dialect) := by
  unfold output
  infer_instance

set_option synthInstance.maxSize 256 in
instance : Placing origin (rawEnd dialect) := by
  unfold rawEnd
  infer_instance

instance (opened : OpenedTag) [Place origin opened.offset] : Placing origin (raw dialect opened) := by
  unfold raw
  infer_instance

/-! ## Behind the word of a statement -/

section

variable (opened : OpenedTag)

instance : Placing origin (assignment opened) := by
  unfold assignment
  infer_instance

instance : Placing origin (macroCall opened) := by
  rw [macroCall_eq]
  unfold calledWith callArguments
  infer_instance

instance [Place origin opened.offset] : Placing origin (extension opened) := by
  unfold extension
  infer_instance

instance : Placing origin (inclusion opened) := by
  unfold inclusion
  infer_instance

instance : Placing origin (importation opened) := by
  unfold importation
  infer_instance

end

set_option synthInstance.maxSize 256 in
instance : Placing origin condition := by
  unfold condition
  infer_instance

instance : Placing origin parameters := by
  unfold parameters
  infer_instance

instance : Placing origin (skipComments dialect) := by
  unfold skipComments
  infer_instance

instance : Placing origin (tagStart dialect) := by
  unfold tagStart
  infer_instance

instance (start : Nat × Option Trim) (word : String) : Placing origin (statementOf start word) := by
  unfold statementOf
  split <;> infer_instance

instance : Placing origin (Parser.statementStart dialect) := by
  rw [statementStart_eq]
  infer_instance

end Grammar

namespace Scoped

open Grammar (Advancing Placing)

/-! ## Constructs -/

section

variable (dialect : Dialect) (opened : OpenedTag) [Place origin opened.offset]
  (body alternative : Grammar (List Node)) [Placing origin body] [Placing origin alternative]
  [Advancing body] [Advancing alternative]

instance : Placing origin (elseIfBranch dialect body) := by
  unfold elseIfBranch
  infer_instance

instance : Placing origin (elseBranch dialect body) := by
  unfold elseBranch
  infer_instance

instance : Placing origin (conditional dialect body opened) := by
  unfold conditional
  infer_instance

instance : Placing origin (loopRest dialect opened alternative) := by
  unfold loopRest
  infer_instance

instance : Placing origin guard := by
  unfold guard
  infer_instance

instance : Placing origin (loop dialect body opened alternative) := by
  unfold loop
  infer_instance

instance (inLoop : Bool) (keyword : Keyword) (node : Nat → Edges → Node) :
    Placing origin (loopControl opened inLoop keyword node) := by
  unfold loopControl
  infer_instance

instance : Placing origin (whenArm dialect body) := by
  unfold whenArm
  infer_instance

instance : Placing origin (elseArm dialect body) := by
  unfold elseArm
  infer_instance

instance (otherwise : Option Arm) : Placing origin (laterArms dialect body otherwise) := by
  cases otherwise with
  | none => exact inferInstanceAs (Placing origin (pure []))
  | some _ => exact inferInstanceAs (Placing origin (Grammar.many (whenArm dialect body)))

set_option synthInstance.maxSize 512 in
instance : Placing origin (choice dialect body opened) := by
  unfold choice
  infer_instance

instance : Placing origin (block dialect body opened) := by
  unfold block
  infer_instance

set_option synthInstance.maxSize 256 in
instance (nameOffset : Nat) [Place origin nameOffset] :
    Placing origin (macroRest dialect opened body nameOffset) := by
  unfold macroRest
  infer_instance

instance : Placing origin (macroDef dialect body opened) :=
  ⟨fun {cursor failure} reached failed => by
    have begun : macroRest dialect opened body cursor.skipSpaces.offset cursor.skipSpaces =
        .failed failure := failed
    have := reached.place_skipSpaces
    exact Placing.placed (reached.trans cursor.reaches_skipSpaces) begun⟩

end

/-! ## Bodies -/

section

variable (dialect : Dialect) (inLoop : Bool) (bodies : Part → Grammar (List Node))
  [∀ part, Placing origin (bodies part)] [∀ part, Advancing (bodies part)]

instance (opened : OpenedTag) [Place origin opened.offset] (keyword : Keyword) :
    Placing origin (statementRest dialect opened inLoop bodies keyword) := by
  cases keyword <;> unfold statementRest <;> infer_instance

instance : Placing origin (statement dialect inLoop bodies) :=
  .bind fun {cursor start middle} reached matched => by
    rcases start with ⟨opened, keyword⟩
    rcases (Parser.statementStart_eq_matched dialect opened).mp matched with
      ⟨same, _, _, _, _, _, stands, _⟩
    have : Place origin opened.offset := same ▸ reached.place (Grammar.solid_of_exact stands)
    exact ⟨reached.trans (Advancing.reaches matched), inferInstance⟩

instance : Placing origin (node dialect inLoop bodies) := by
  unfold node
  infer_instance

end

instance (dialect : Dialect) (outside : Counters) (levels : Nat) (scope : List Part) :
    Placing origin (nodesWithin dialect outside levels scope) := by
  induction levels generalizing scope with
  | zero => exact inferInstanceAs (Placing origin (Grammar.fail _))
  | succ levels induction =>
      unfold nodesWithin
      infer_instance

instance (dialect : Dialect) : Placing origin (document dialect) := by
  unfold document nodes
  infer_instance

end Scoped

/-! ## Reports -/

namespace Template

theorem place_of_failed {dialect : Dialect} {source : Source} {failure : Failure}
    (failed : parse dialect source = .error failure) :
    Place (.start source.chars) failure.offset := by
  rw [parse_eq_scoped] at failed
  cases run : Scoped.document dialect (.start source.chars) with
  | matched body later => simp [run] at failed
  | noMatch => exact absurd run (Grammar.Certain.ne_noMatch _)
  | failed failure' =>
      simp only [run, Except.error.injEq] at failed
      exact failed ▸ Grammar.Placing.placed (.refl _) run

theorem place_in_text {text : List Char} {offset : Nat} (place : Place (.start text) offset) :
    offset ≤ text.length ∧ ∀ character ∈ text[offset]?, isSpace character = false := by
  rcases place.stands with ⟨later, ⟨before, shape, moved⟩, rfl, solid⟩
  have shape : text = before ++ later.rest := shape
  have moved : later.offset = before.length := moved.trans (Nat.zero_add _)
  rw [shape, moved, List.length_append]
  refine ⟨Nat.le_add_right _ _, fun character stands => solid character ?_⟩
  rwa [List.getElem?_append_right (Nat.le_refl _), Nat.sub_self, ← List.head?_eq_getElem?] at stands

/-- Every failure of a parse is reported at a place of the source: at the end of it or at a character
that is not blank, with the line and the column of that place. Where the room for brackets has run
out, it is reported that they are nested too deeply. -/
theorem failure_is_reported_at_place {dialect : Dialect} {source : Source} {failure : Failure}
    (failed : parse dialect source = .error failure) :
    failure.offset ≤ source.chars.length ∧
      (∀ character ∈ source.chars[failure.offset]?, isSpace character = false) ∧
      ∃ (position : Position) (line : List Char),
        position.Locates source.chars failure.offset line ∧
          failure.report source = .parse failure.code failure.offset
            { message := failure.message
              line := some position.line
              column := some position.column
              source := some source.text
              name := source.name
              filename := source.filename }
            failure.suggestion ∧
          ((∃ offset, failure = .tooDeep offset) →
            (failure.report source).code = some .nestingTooDeep) := by
  rcases place_in_text (place_of_failed failed) with ⟨within, solid⟩
  rcases exists_locates within with ⟨line, locates⟩
  refine ⟨within, solid, _, line, locates, rfl, ?_⟩
  rintro ⟨offset, rfl⟩
  rfl

/-- The name of a macro is missing on the second line. -/
theorem failure_is_reported_at_place_macro :
    let _ : Room := ⟨20⟩
    let source : Source := ⟨"a\n \x7b% macro\t%\x7d\n", none, none⟩
    parse .standard source = .error (.malformed (.missingName .macroDef) 12) ∧
      ∃ (position : Position) (line : List Char), position.Locates source.chars 12 line ∧
        Failure.report source (.malformed (.missingName .macroDef) 12) =
          .parse .unexpectedInput 12
            { message := "Expected macro name"
              line := some position.line
              column := some position.column
              source := some source.text }
            none := by
  intro room
  have failed : parse .standard ⟨"a\n \x7b% macro\t%\x7d\n", none, none⟩ =
      .error (.malformed (.missingName .macroDef) 12) := by
    rw [parse_eq_scoped]
    rfl
  rcases failure_is_reported_at_place failed with ⟨_, _, position, line, located, reported, _⟩
  exact ⟨failed, position, line, located, reported⟩

end Template

end Templating

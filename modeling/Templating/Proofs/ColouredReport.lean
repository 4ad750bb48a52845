import Templating.Proofs.CaretPlace

/-! # Reports in colour

A coloured report is written between control sequences. None of them can run together with the text
around it, whatever that is: a sequence that the report writes is complete, and one that a text
begins goes neither over the end of a line nor into another sequence. Main statement: without its
control sequences a report is the same in colour and without colours. -/

namespace Templating

variable {room : Room}

namespace Terminal

/-- The character that every control sequence begins with. -/
def escape : Char := '\x1b'

/-! ## Texts that no control sequence goes on with -/

/-- The text is empty or begins with a control character, and those stand in no control sequence
but at its beginning. -/
def EndsSequence (text : List Char) : Prop :=
  ∀ first ∈ text.head?, first.toNat < 0x20

def isParameter (character : Char) : Bool :=
  0x30 ≤ character.toNat && character.toNat ≤ 0x3F

def isIntermediate (character : Char) : Bool :=
  0x20 ≤ character.toNat && character.toNat ≤ 0x2F

/-- What of a bracketed sequence stands behind its parameters and intermediates. -/
def behindIntermediates (text : List Char) : List Char :=
  (text.dropWhile isParameter).dropWhile isIntermediate

theorem length_behindIntermediates (text : List Char) :
    (text.takeWhile isParameter).length +
      ((text.dropWhile isParameter).takeWhile isIntermediate).length +
        (behindIntermediates text).length = text.length := by
  have parameters := congrArg List.length (List.takeWhile_append_dropWhile (p := isParameter) (l := text))
  have intermediates := congrArg List.length
    (List.takeWhile_append_dropWhile (p := isIntermediate) (l := text.dropWhile isParameter))
  rw [List.length_append] at parameters intermediates
  unfold behindIntermediates
  omega

theorem sequenceLength_bracket (text : List Char) :
    sequenceLength (escape :: '[' :: text) =
      match behindIntermediates text with
      | final :: _ =>
          if 0x40 ≤ final.toNat && final.toNat ≤ 0x7E then
            2 + (text.takeWhile isParameter).length +
              ((text.dropWhile isParameter).takeWhile isIntermediate).length + 1
          else 0
      | [] => 0 := by
  simp only [escape, sequenceLength, Grammar.drop_length_takeWhile]
  rfl

section

variable {text rest : List Char}

theorem takeWhile_append_of_stops {accept : Char → Bool}
    (stops : ∀ first ∈ rest.head?, accept first = false) :
    (text ++ rest).takeWhile accept = text.takeWhile accept := by
  induction text with
  | nil =>
      cases rest with
      | nil => rfl
      | cons first rest => simp [stops first rfl]
  | cons first text induction =>
      rw [List.cons_append, List.takeWhile_cons, List.takeWhile_cons, induction]

theorem dropWhile_append_of_stops {accept : Char → Bool}
    (stops : ∀ first ∈ rest.head?, accept first = false) :
    (text ++ rest).dropWhile accept = text.dropWhile accept ++ rest := by
  induction text with
  | nil =>
      cases rest with
      | nil => rfl
      | cons first rest => simp [stops first rfl]
  | cons first text induction =>
      rw [List.cons_append, List.dropWhile_cons, List.dropWhile_cons, induction]
      split <;> rfl

theorem EndsSequence.not_parameter (ends : EndsSequence rest) :
    ∀ first ∈ rest.head?, isParameter first = false := by
  intro first head
  have := ends first head
  simp only [isParameter, Bool.and_eq_false_iff, decide_eq_false_iff_not]
  omega

theorem EndsSequence.not_intermediate (ends : EndsSequence rest) :
    ∀ first ∈ rest.head?, isIntermediate first = false := by
  intro first head
  have := ends first head
  simp only [isIntermediate, Bool.and_eq_false_iff, decide_eq_false_iff_not]
  omega

theorem sequenceLength_of_ne {first : Char} (apart : first ≠ escape) :
    sequenceLength (first :: rest) = 0 := by
  unfold sequenceLength
  split
  case h_1 shape =>
      cases shape
      exact absurd rfl apart
  case h_2 shape =>
      cases shape
      exact absurd rfl apart
  case h_3 => rfl

theorem sequenceLength_pair {final : Char} (apart : final ≠ '[') :
    sequenceLength (escape :: final :: rest) =
      if 0x40 ≤ final.toNat && final.toNat ≤ 0x5F then 2 else 0 := by
  unfold sequenceLength escape
  split
  case h_1 shape =>
      cases shape
      exact absurd rfl apart
  case h_2 shape =>
      cases shape
      rfl
  case h_3 missing => exact absurd rfl (missing _ _)

theorem sequenceLength_escape_of_ends (ends : EndsSequence rest) :
    sequenceLength (escape :: rest) = 0 := by
  cases rest with
  | nil => rfl
  | cons first rest =>
      have low : first.toNat < 0x20 := ends first rfl
      have apart : first ≠ '[' := by
        intro same
        subst same
        exact absurd low (by decide)
      rw [sequenceLength_pair apart, if_neg]
      simp only [Bool.and_eq_true, decide_eq_true_eq]
      omega

/-- Where no sequence goes on, the sequence at the head of a text is the same whatever follows. -/
theorem sequenceLength_append (ends : EndsSequence rest) (first : Char) (text : List Char) :
    sequenceLength (first :: text ++ rest) = sequenceLength (first :: text) := by
  by_cases begins : first = escape
  case neg => rw [List.cons_append, sequenceLength_of_ne begins, sequenceLength_of_ne begins]
  subst begins
  cases text with
  | nil => exact sequenceLength_escape_of_ends ends
  | cons second text =>
      by_cases bracket : second = '['
      case neg =>
          rw [List.cons_append, List.cons_append, sequenceLength_pair bracket,
            sequenceLength_pair bracket]
      subst bracket
      have behind : behindIntermediates (text ++ rest) = behindIntermediates text ++ rest := by
        rw [behindIntermediates, dropWhile_append_of_stops ends.not_parameter,
          dropWhile_append_of_stops ends.not_intermediate, behindIntermediates]
      rw [List.cons_append, List.cons_append, sequenceLength_bracket, sequenceLength_bracket, behind,
        takeWhile_append_of_stops ends.not_parameter, dropWhile_append_of_stops ends.not_parameter,
        takeWhile_append_of_stops ends.not_intermediate]
      cases behindIntermediates text with
      | cons final behind => rfl
      | nil =>
          cases rest with
          | nil => rfl
          | cons next rest =>
              have low : next.toNat < 0x20 := ends next rfl
              show (if _ then _ else 0) = 0
              rw [if_neg]
              simp only [Bool.and_eq_true, decide_eq_true_eq]
              omega

theorem sequenceLength_le (text : List Char) : sequenceLength text ≤ text.length := by
  cases text with
  | nil => exact Nat.zero_le _
  | cons first text =>
      by_cases begins : first = escape
      case neg =>
          rw [sequenceLength_of_ne begins]
          exact Nat.zero_le _
      subst begins
      cases text with
      | nil => exact Nat.zero_le _
      | cons second text =>
          by_cases bracket : second = '['
          case neg =>
              rw [sequenceLength_pair bracket]
              split <;> simp
          subst bracket
          have length := length_behindIntermediates text
          rw [sequenceLength_bracket, List.length_cons, List.length_cons]
          cases behind : behindIntermediates text with
          | nil => exact Nat.zero_le _
          | cons final rest =>
              rw [behind, List.length_cons] at length
              have fits : 2 + (text.takeWhile isParameter).length +
                  ((text.dropWhile isParameter).takeWhile isIntermediate).length + 1 ≤
                    text.length + 1 + 1 := by
                omega
              dsimp only
              split
              · exact fits
              · exact Nat.zero_le _

/-! ## Texts put together -/

/-- Two texts are freed of control sequences one by one where none goes on from the first to the
second. -/
theorem stripFrom_append_of_ends (ends : EndsSequence rest) {skipped : Nat}
    (within : skipped ≤ text.length) :
    stripFrom skipped (text ++ rest) = stripFrom skipped text ++ stripFrom 0 rest := by
  induction text generalizing skipped with
  | nil =>
      obtain rfl : skipped = 0 := by simpa using within
      rfl
  | cons first text induction =>
      cases skipped with
      | succ skipped => exact induction (Nat.le_of_succ_le_succ within)
      | zero =>
          have fits := sequenceLength_le (first :: text)
          have same : sequenceLength (first :: (text ++ rest)) = sequenceLength (first :: text) :=
            sequenceLength_append ends first text
          rw [List.cons_append, stripFrom, stripFrom, same]
          cases found : sequenceLength (first :: text) with
          | zero => exact congrArg (first :: ·) (induction (Nat.zero_le _))
          | succ length =>
              rw [found, List.length_cons] at fits
              exact induction (Nat.le_of_succ_le_succ fits)

/-- A text without an escape character is kept. -/
theorem stripFrom_plain_append (plain : escape ∉ text) (rest : List Char) :
    stripFrom 0 (text ++ rest) = text ++ stripFrom 0 rest := by
  induction text with
  | nil => rfl
  | cons first text induction =>
      have apart : first ≠ escape := by
        intro same
        exact plain (same ▸ List.mem_cons_self)
      rw [List.cons_append, stripFrom, sequenceLength_of_ne apart]
      exact congrArg (first :: ·) (induction fun member => plain (List.mem_cons_of_mem first member))

theorem stripFrom_of_plain (plain : escape ∉ text) : stripFrom 0 text = text := by
  have kept := stripFrom_plain_append plain []
  rwa [List.append_nil, stripFrom, List.append_nil] at kept

/-- What switches an attribute on is removed, whatever stands behind it. -/
theorem stripFrom_sequence_append (colour : Colour) (rest : List Char) :
    stripFrom 0 (colour.sequence.toList ++ rest) = stripFrom 0 rest := by
  cases colour <;> rfl

theorem stripFrom_sequences_append (colours : List Colour) (rest : List Char) :
    stripFrom 0 ((String.join (colours.map Colour.sequence)).toList ++ rest) = stripFrom 0 rest := by
  induction colours with
  | nil => rfl
  | cons colour colours induction =>
      rw [List.map_cons, String.join_cons, String.toList_append, List.append_assoc,
        stripFrom_sequence_append, induction]

theorem endsSequence_reset (rest : List Char) :
    EndsSequence (Colour.reset.sequence.toList ++ rest) := by
  rintro _ ⟨⟩
  decide

/-- A text in colour is freed of what begins in it and of its colours. -/
theorem stripFrom_paint_append {coloured : Bool} {colours : List Colour} {text : String}
    {rest : List Char}
    (apart : stripFrom 0 (text.toList ++ rest) = stripFrom 0 text.toList ++ stripFrom 0 rest) :
    stripFrom 0 ((paint coloured colours text).toList ++ rest) =
      stripFrom 0 text.toList ++ stripFrom 0 rest := by
  unfold paint
  split
  case isTrue => exact apart
  case isFalse =>
      rw [String.toList_append, String.toList_append, List.append_assoc, List.append_assoc,
        stripFrom_sequences_append,
        stripFrom_append_of_ends (endsSequence_reset rest) (Nat.zero_le _), stripFrom_sequence_append]

end

/-! ## Texts -/

theorem strip_append_of_ends (text : String) {rest : String} (ends : EndsSequence rest.toList) :
    strip (text ++ rest) = strip text ++ strip rest := by
  rw [strip, String.toList_append, stripFrom_append_of_ends ends (Nat.zero_le _), String.ofList_append]
  rfl

theorem strip_plain_append {text : String} (plain : escape ∉ text.toList) (rest : String) :
    strip (text ++ rest) = text ++ strip rest := by
  rw [strip, String.toList_append, stripFrom_plain_append plain, String.ofList_append,
    String.ofList_toList]
  rfl

theorem strip_of_plain {text : String} (plain : escape ∉ text.toList) : strip text = text := by
  rw [strip, stripFrom_of_plain plain, String.ofList_toList]

/-- No control sequence goes on from one line to the next. -/
theorem strip_lines (lines : List String) :
    strip ("\n".intercalate lines) = "\n".intercalate (lines.map strip) := by
  induction lines with
  | nil => rfl
  | cons line lines induction =>
      cases lines with
      | nil => simp
      | cons next lines =>
          have feed : EndsSequence ("\n" ++ "\n".intercalate (next :: lines)).toList := by
            rw [String.toList_append]
            rintro _ ⟨⟩
            decide
          simp only [List.map_cons] at induction ⊢
          rw [String.intercalate_cons_cons, String.intercalate_cons_cons, String.append_assoc,
            strip_append_of_ends _ feed, strip_plain_append (by decide), induction,
            String.append_assoc]

namespace Role

theorem paint_false (role : Role) (text : String) : role.paint false text = text := rfl

theorem strip_paint (role : Role) (coloured : Bool) (text : String) :
    strip (role.paint coloured text) = strip text := by
  have whole : stripFrom 0 ((role.paint coloured text).toList ++ []) =
      stripFrom 0 text.toList ++ stripFrom 0 [] :=
    stripFrom_paint_append (by simp [stripFrom])
  rw [List.append_nil, stripFrom, List.append_nil] at whole
  exact congrArg String.ofList whole

/-- What is painted keeps its own text, whatever stands behind it. -/
theorem strip_paint_append (role : Role) (coloured : Bool) {text : String}
    (plain : escape ∉ text.toList) (rest : String) :
    strip (role.paint coloured text ++ rest) = text ++ strip rest := by
  rw [strip, String.toList_append, Role.paint, stripFrom_paint_append, stripFrom_of_plain plain,
    String.ofList_append, String.ofList_toList]
  · rfl
  · rw [stripFrom_of_plain plain, stripFrom_plain_append plain]

end Role

end Terminal

/-! ## Reports -/

open Terminal

theorem ErrorCode.escape_notMem_text (code : ErrorCode) : escape ∉ (code.text ++ ":").toList := by
  cases code <;> decide +kernel

theorem escape_notMem_toString (number : Int) : escape ∉ (toString number).toList := by
  intro member
  rcases isDigit_of_mem_toString member with digit | sign
  · cases digit
  · cases sign

namespace SourceNote

theorem escape_notMem_margin (line : Int) : escape ∉ (margin line).toList := by
  rw [toList_margin, List.mem_append, not_or]
  exact ⟨fun member => absurd (List.eq_of_mem_replicate member) (by decide),
    escape_notMem_toString line⟩

theorem escape_notMem_caret (column : Int) : escape ∉ (caret column).toList := by
  rw [caret, String.toList_append, String.toList_ofList, List.mem_append, not_or]
  exact ⟨fun member => absurd (List.eq_of_mem_replicate member) (by decide), by decide⟩

/-- The lines of the compact form are the same in colour and without colours, but for what belongs
to the colours. -/
theorem map_strip_compactLines (note : SourceNote) (code : ErrorCode) :
    (note.compactLines code true).map strip = (note.compactLines code false).map strip := by
  have heading (coloured : Bool) :
      strip (Role.code.paint coloured (code.text ++ ":") ++ " " ++ note.message) =
        code.text ++ ":" ++ strip (" " ++ note.message) := by
    rw [String.append_assoc, Role.strip_paint_append _ _ code.escape_notMem_text]
  have place (coloured : Bool) : strip ("  --> " ++ Role.location.paint coloured note.location) =
      "  --> " ++ strip note.location := by
    rw [strip_plain_append (by decide), Role.strip_paint]
  have numbered (coloured : Bool) (line : Int) (text : String) :
      strip (Role.lineNumber.paint coloured (margin line) ++ " | " ++ text) =
        margin line ++ strip (" | " ++ text) := by
    rw [String.append_assoc, Role.strip_paint_append _ _ (escape_notMem_margin line)]
  have pointing (coloured : Bool) (column : Int) :
      strip (Role.decoration.paint coloured "   |" ++ " " ++ Role.caret.paint coloured (caret column)) =
        "   |" ++ (" " ++ strip (caret column)) := by
    rw [String.append_assoc, Role.strip_paint_append _ _ (by decide), strip_plain_append (by decide),
      Role.strip_paint]
  cases shown : note.sourceLine? with
  | none => simp [compactLines, shown, heading, place]
  | some found =>
      cases known : note.column <;>
        simp [compactLines, shown, known, heading, place, numbered, pointing, Role.strip_paint]

theorem strip_compact (note : SourceNote) (code : ErrorCode) :
    strip (note.compact code true) = strip (note.compact code false) := by
  rw [compact, compact, strip_lines, strip_lines, map_strip_compactLines]

end SourceNote

namespace Report

/-- A report in colour is the report without colours, but for what belongs to the colours. -/
theorem strip_compact (report : Report) :
    strip (report.compact true) = strip (report.compact false) := by
  cases report with
  | general | missingTemplate | configuration => rfl
  | source note => exact note.strip_compact .syntaxError
  | parse code offset note suggestion =>
      unfold compact
      by_cases advised : suggestion.getD "" == ""
      · simp only [if_pos advised, String.append_empty]
        exact note.strip_compact code
      · have advice (coloured : Bool) : strip (note.compact code coloured ++
            ("\n" ++ Role.hint.paint coloured "Suggestion:" ++ " " ++ suggestion.getD "")) =
              strip (note.compact code coloured) ++
                ("\n" ++ ("Suggestion:" ++ strip (" " ++ suggestion.getD ""))) := by
          have feed : EndsSequence ("\n" ++ Role.hint.paint coloured "Suggestion:" ++ " " ++
              suggestion.getD "").toList := by
            simp only [String.toList_append, List.append_assoc]
            rintro _ ⟨⟩
            decide
          rw [strip_append_of_ends _ feed, String.append_assoc, String.append_assoc,
            strip_plain_append (by decide), Role.strip_paint_append _ _ (by decide)]
        simp only [if_neg advised, advice, note.strip_compact code]

end Report

/-! ## Failures -/

/-- The texts that the report of a failure shows of the source and of what is wrong with it: the
message and the advice, what the source is known by, and the line at fault. -/
def Failure.shownTexts (source : Source) (failure : Failure) : List (List Char) :=
  failure.message.toList ::
    ((failure.suggestion.toList ++ source.name.toList ++ source.filename.toList).map String.toList ++
      ((Text.lines source.chars)[(Text.position source.chars failure.offset).line - 1]?).toList)

theorem escape_notMem_lines {lines : List String} (plain : ∀ line ∈ lines, escape ∉ line.toList) :
    escape ∉ ("\n".intercalate lines).toList := by
  induction lines with
  | nil => decide
  | cons line lines induction =>
      cases lines with
      | nil => simpa using plain line
      | cons next lines =>
          rw [String.intercalate_cons_cons, String.toList_append, String.toList_append,
            List.mem_append, List.mem_append, not_or, not_or]
          exact ⟨⟨plain line List.mem_cons_self, by decide⟩,
            induction fun line among => plain line (List.mem_cons_of_mem _ among)⟩

namespace SourceNote

variable {note : SourceNote}

theorem escape_notMem_location (filename : ∀ text ∈ note.filename, escape ∉ text.toList)
    (name : ∀ text ∈ note.name, escape ∉ text.toList) : escape ∉ note.location.toList := by
  have given {option : Option String} (plain : ∀ text ∈ option, escape ∉ text.toList) :
      escape ∉ (option.getD "").toList := by
    cases option with
    | none => decide
    | some text => exact plain text rfl
  have template : escape ∉ (if note.filename.getD "" != "" then note.filename.getD ""
      else if note.name.getD "" != "" then note.name.getD "" else "<template>").toList := by
    split
    · exact given filename
    · split
      · exact given name
      · decide
  have colon : escape ∉ ":".toList := by decide
  unfold location
  dsimp only
  split
  · exact template
  · exact template
  · split
    · simp only [String.toList_append, List.mem_append, not_or]
      exact ⟨⟨template, colon⟩, escape_notMem_toString _⟩
    · simp only [String.toList_append, List.mem_append, not_or]
      exact ⟨⟨⟨⟨template, colon⟩, escape_notMem_toString _⟩, colon⟩, escape_notMem_toString _⟩

/-- The compact form without colours has an escape character only where it shows one of the note. -/
theorem escape_notMem_compact (code : ErrorCode) (message : escape ∉ note.message.toList)
    (location : escape ∉ note.location.toList)
    (shown : ∀ found ∈ note.sourceLine?, escape ∉ found.2.toList) :
    escape ∉ (note.compact code false).toList := by
  have heading : escape ∉ (code.text ++ ":" ++ " " ++ note.message).toList := by
    rw [String.toList_append, String.toList_append, List.mem_append, List.mem_append, not_or, not_or]
    exact ⟨⟨code.escape_notMem_text, by decide⟩, message⟩
  have place : escape ∉ ("  --> " ++ note.location).toList := by
    rw [String.toList_append, List.mem_append, not_or]
    exact ⟨by decide, location⟩
  have bar : escape ∉ "   |".toList := by decide
  have pointing (column : Int) : escape ∉ ("   |" ++ " " ++ caret column).toList := by
    rw [String.toList_append, List.mem_append, not_or]
    exact ⟨by decide, escape_notMem_caret column⟩
  apply escape_notMem_lines
  simp only [compactLines, Terminal.Role.paint_false, List.forall_mem_append]
  constructor
  · exact List.forall_mem_cons.mpr ⟨heading, List.forall_mem_singleton.mpr place⟩
  · cases found : note.sourceLine? with
    | none => exact List.forall_mem_nil _
    | some numbered =>
        have line : escape ∉ (margin numbered.1 ++ " | " ++ numbered.2).toList := by
          rw [String.toList_append, String.toList_append, List.mem_append, List.mem_append, not_or,
            not_or]
          exact ⟨⟨escape_notMem_margin numbered.1, by decide⟩, shown numbered found⟩
        simp only [List.forall_mem_append]
        refine ⟨⟨List.forall_mem_cons.mpr ⟨bar, List.forall_mem_singleton.mpr line⟩, ?_⟩,
          List.forall_mem_singleton.mpr bar⟩
        cases note.column with
        | none => exact List.forall_mem_nil _
        | some column => exact List.forall_mem_singleton.mpr (pointing column)

end SourceNote

namespace Failure

variable {source : Source} {failure : Failure}

/-- The line at fault is among the texts that are shown. -/
theorem mem_shownTexts_of_sourceLine {note : SourceNote} {found : Int × String}
    (text : note.source = some source.text)
    (line : note.line = some ((Text.position source.chars failure.offset).line : Int))
    (shown : note.sourceLine? = some found) : found.2.toList ∈ failure.shownTexts source := by
  unfold SourceNote.sourceLine? at shown
  rw [text, line] at shown
  dsimp only at shown
  split at shown
  case isFalse => cases shown
  case isTrue =>
      rcases Option.map_eq_some_iff.mp shown with ⟨characters, stands, rfl⟩
      have stands : (Text.lines source.chars)[(Text.position source.chars failure.offset).line - 1]? =
          some characters := stands
      simp [shownTexts, stands]

/-- The compact form without colours shows nothing but fixed texts, numbers, and what is said to be
shown. -/
theorem escape_notMem_compact (plain : ∀ text ∈ failure.shownTexts source, escape ∉ text) :
    escape ∉ ((failure.report source).compact false).toList := by
  have message : escape ∉ failure.message.toList := plain _ List.mem_cons_self
  have suggestion : ∀ text ∈ failure.suggestion, escape ∉ text.toList := by
    intro text given
    exact plain _ (by simp [shownTexts, Option.mem_def.mp given])
  have name : ∀ text ∈ source.name, escape ∉ text.toList := by
    intro text given
    exact plain _ (by simp [shownTexts, Option.mem_def.mp given])
  have filename : ∀ text ∈ source.filename, escape ∉ text.toList := by
    intro text given
    exact plain _ (by simp [shownTexts, Option.mem_def.mp given])
  unfold report Report.compact
  dsimp only
  rw [String.toList_append, List.mem_append, not_or]
  constructor
  · exact SourceNote.escape_notMem_compact failure.code message
      (SourceNote.escape_notMem_location filename name)
      fun found shown => plain _ (mem_shownTexts_of_sourceLine rfl rfl shown)
  · cases advice : failure.suggestion with
    | none => decide
    | some text =>
        have advised := suggestion text advice
        split
        · decide
        · simp only [String.toList_append, List.mem_append, not_or]
          exact ⟨⟨⟨by decide, by decide⟩, by decide⟩, advised⟩

end Failure

namespace Template

/-- Colours add nothing to the report of a failure but colours: without its control sequences the
compact form is the same in colour and without colours, whatever stands in the source, in its names
and in the delimiters. Where none of these has an escape character that the report shows, it is the
form without colours itself. So it is for every failure of a parse, and wherever in the source the
room for brackets runs out. -/
theorem colours_add_only_colours (source : Source) (failure : Failure) :
    strip ((failure.report source).compact true) = strip ((failure.report source).compact false) ∧
      ((∀ text ∈ failure.shownTexts source, escape ∉ text) →
        strip ((failure.report source).compact true) = (failure.report source).compact false) := by
  have same := (failure.report source).strip_compact
  constructor
  · exact same
  · intro plain
    rw [same, strip_of_plain (Failure.escape_notMem_compact plain)]

/-- There is room for one bracket, and two are open. The file is known by the beginning of a control
sequence, and the line at fault begins with one and ends in another. In the second source no such
thing stands. -/
theorem colours_add_only_colours_unfinished :
    let _ : Room := ⟨1⟩
    let source : Source := ⟨"\x1b[1m \x7b\x7b ((x)) \x7d\x7d\x1b[3", none, some "a\x1b["⟩
    let failure : Failure := .tooDeep 10
    let plainSource : Source := ⟨"a\n \x7b% break %\x7d", some "page.html", none⟩
    let plainFailure : Failure := .malformed (.loopControlOutside "break") 3
    parse .standard source = .error failure ∧
      strip ((failure.report source).compact true) = strip ((failure.report source).compact false) ∧
      parse .standard plainSource = .error plainFailure ∧
      (∀ text ∈ plainFailure.shownTexts plainSource, escape ∉ text) ∧
      strip ((plainFailure.report plainSource).compact true) =
        (plainFailure.report plainSource).compact false := by
  intro room
  have failed : parse .standard ⟨"\x1b[1m \x7b\x7b ((x)) \x7d\x7d\x1b[3", none, some "a\x1b["⟩ =
      .error (.tooDeep 10) := by
    rw [parse_eq_scoped]
    rfl
  have plainFailed : parse .standard ⟨"a\n \x7b% break %\x7d", some "page.html", none⟩ =
      .error (.malformed (.loopControlOutside "break") 3) := by
    rw [parse_eq_scoped]
    rfl
  have plain : ∀ text ∈ Failure.shownTexts ⟨"a\n \x7b% break %\x7d", some "page.html", none⟩
      (.malformed (.loopControlOutside "break") 3), escape ∉ text := by
    decide +kernel
  exact ⟨failed, (colours_add_only_colours _ _).1, plainFailed, plain,
    (colours_add_only_colours _ _).2 plain⟩

end Template

end Templating

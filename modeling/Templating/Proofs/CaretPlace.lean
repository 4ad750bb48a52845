import Templating.Proofs.ReportedPlace

/-! # The place of the caret

The report of a failure shows the line of the source that the fault is on, and a caret under it. The
line stands behind a margin that grows with the number of the line, the caret behind one that does
not. Main statement: the caret is one column short of the offending character, and one more for each
digit of the line number behind the third. -/

namespace Templating

variable {room : Room}

open Text

/-! ## Lines of an output -/

/-- The line of a source that holds an offset is shown behind a margin, and the character at the
offset has this index in what is shown. Where the line ends at the offset it is the index behind the
last character. -/
structure Text.ShowsAt (source : List Char) (offset : Nat) (shown : List Char) (index : Nat) :
    Prop where
  unbroken : '\n' ∉ shown
  line : ∃ before line after margin, source = before ++ line ++ after ∧ IsLine before line after ∧
    shown = margin ++ line ∧ before.length ≤ offset ∧ offset ≤ before.length + line.length ∧
      index + before.length = margin.length + offset
  character : shown[index]? = source[offset]?.filter (· != '\n')

/-- The line has one caret, at this index. -/
structure Text.CaretAt (pointing : List Char) (index : Nat) : Prop where
  unbroken : '\n' ∉ pointing
  caret (place : Nat) : pointing[place]? = some '^' ↔ place = index

theorem showsAt_of_locates {position : Position} {source row : List Char} {offset : Nat}
    (located : position.Locates source offset row) {margin : List Char} (unbroken : '\n' ∉ margin) :
    ShowsAt source offset (margin ++ row) (margin.length + position.column) := by
  rcases located.stands with ⟨before, after, rfl, isLine, rfl⟩
  refine ⟨?_, ⟨before, row, after, margin, rfl, isLine, rfl, Nat.le_add_right _ _,
    Nat.add_le_add_left located.onLine _, by omega⟩, ?_⟩
  · rw [List.mem_append, not_or]
    exact ⟨unbroken, isLine.unbroken⟩
  · rw [List.getElem?_append_right (Nat.le_add_right _ _), Nat.add_sub_cancel_left, List.append_assoc,
      List.getElem?_append_right (Nat.le_add_right _ _), Nat.add_sub_cancel_left]
    rcases Nat.lt_or_eq_of_le located.onLine with inside | ended
    · have apart : row[position.column] ≠ '\n' := fun feed =>
        isLine.unbroken (feed ▸ List.getElem_mem inside)
      rw [List.getElem?_append_left inside, List.getElem?_eq_getElem inside, Option.filter_some,
        if_pos (by simpa using apart)]
    · -- Behind the line there is nothing or a line feed.
      rw [ended, List.getElem?_eq_none (Nat.le_refl _), List.getElem?_append_right (Nat.le_refl _),
        Nat.sub_self]
      rcases isLine.ends with rfl | ⟨later, rfl⟩ <;> rfl

/-- Where this text follows a line, the line ends. -/
def Text.EndsLine (behind : String) : Prop :=
  behind = "" ∨ ∃ later, behind = "\n" ++ later

/-! ## Margins -/

/-- A number is written with digits, behind a sign if it is negative. -/
theorem isDigit_of_mem_toString {number : Int} {character : Char}
    (member : character ∈ (toString number).toList) :
    character.isDigit = true ∨ character = '-' := by
  have digit {natural : Nat} (member : character ∈ natural.repr.toList) :
      character.isDigit = true := by
    rw [Nat.toList_repr] at member
    exact Nat.isDigit_of_mem_toDigits (by decide) (by decide) member
  cases number with
  | ofNat natural => exact .inl (digit member)
  | negSucc natural =>
      have signed : character ∈ ("-" ++ (natural + 1).repr).toList := member
      rw [String.toList_append, List.mem_append] at signed
      rcases signed with sign | member
      · exact .inr (List.mem_singleton.mp sign)
      · exact .inl (digit member)

theorem feed_notMem_toString (number : Nat) : '\n' ∉ (toString (number : Int)).toList := by
  intro member
  rcases isDigit_of_mem_toString member with digit | sign
  · cases digit
  · cases sign

namespace SourceNote

/-- The digits of a line number beyond the three that the margin has room for. -/
def surplusDigits (line : Nat) : Nat :=
  (toString (line : Int)).length - 3

theorem toList_margin (line : Int) : (margin line).toList =
    List.replicate (3 - (toString line).length) ' ' ++ (toString line).toList := by
  rw [margin, String.toList_append, String.toList_ofList]

theorem length_margin (line : Nat) : (margin line).toList.length = 3 + surplusDigits line := by
  rw [toList_margin, List.length_append, List.length_replicate, String.length_toList, surplusDigits]
  omega

theorem feed_notMem_margin (line : Nat) : '\n' ∉ (margin line).toList := by
  rw [toList_margin, List.mem_append, not_or]
  exact ⟨fun member => absurd (List.eq_of_mem_replicate member) (by decide),
    feed_notMem_toString line⟩

end SourceNote

theorem Text.CaretAt.of_front {front : List Char} (unbroken : '\n' ∉ front) (plain : '^' ∉ front) :
    CaretAt (front ++ ['^']) front.length where
  unbroken := by simp [unbroken]
  caret place := by
    rcases Nat.lt_trichotomy place front.length with before | rfl | behind
    · rw [List.getElem?_append_left before]
      constructor
      · exact fun found => absurd (List.mem_of_getElem? found) plain
      · omega
    · simp
    · rw [List.getElem?_eq_none (by simp; omega)]
      constructor
      · intro found
        cases found
      · omega

/-- The caret stands behind a bar and as many blanks as the column says. -/
theorem SourceNote.caretAt_caret (column : Nat) :
    CaretAt ("   | " ++ caret column).toList (5 + column) := by
  let front := "   | ".toList ++ List.replicate column ' '
  have shape : ("   | " ++ caret column).toList = front ++ ['^'] := by
    simp [front, caret]
  have length : front.length = 5 + column := by
    simp [front]
    omega
  rw [shape, ← length]
  exact .of_front (by simp [front, List.mem_replicate]) (by simp [front, List.mem_replicate])

/-! ## Reports -/

namespace SourceNote

/-- A line of a snippet behind its margin. -/
def shown (line : Nat) (text : List Char) : String :=
  margin line ++ " | " ++ String.ofList text

/-- The line of a snippet that holds the caret. -/
def pointing (column : Nat) : String :=
  "   | " ++ caret column

theorem showsAt_shown {position : Position} {source line : List Char} {offset : Nat}
    (located : position.Locates source offset line) :
    ShowsAt source offset (shown position.line line).toList
      (5 + position.column + 1 + surplusDigits position.line) := by
  have shape : (shown position.line line).toList = (margin position.line).toList ++ " | ".toList ++ line := by
    simp [shown]
  have unbroken : '\n' ∉ (margin position.line).toList ++ " | ".toList := by
    simp [feed_notMem_margin]
  have shows := showsAt_of_locates located unbroken
  have length : ((margin position.line).toList ++ " | ".toList).length + position.column =
      5 + position.column + 1 + surplusDigits position.line := by
    rw [List.length_append, length_margin]
    show 3 + surplusDigits position.line + 3 + position.column = _
    omega
  rw [shape, ← length]
  exact shows

variable {note : SourceNote} {position : Position} {line : List Char}

/-- What is said of a place in a source that has the line. -/
structure IsAt (note : SourceNote) (position : Position) (line : List Char) : Prop where
  line_eq : note.line = some position.line
  column_eq : note.column = some position.column
  sourceLine : note.sourceLine? = some ((position.line : Int), String.ofList line)

theorem rendered_eq (isAt : note.IsAt position line) :
    note.rendered = "Syntax Error: " ++ note.message ++ "\n  --> " ++ note.location ++ "\n   |\n" ++
      shown position.line line ++ "\n" ++ pointing position.column := by
  rw [rendered, isAt.sourceLine, isAt.column_eq]
  simp only [shown, pointing, String.append_assoc]
  rfl

theorem compact_eq (isAt : note.IsAt position line) (code : ErrorCode) :
    note.compact code false = code.text ++ ": " ++ note.message ++ "\n  --> " ++ note.location ++
      "\n   |\n" ++ shown position.line line ++ "\n" ++ pointing position.column ++ "\n   |" := by
  rw [compact, compactLines, isAt.sourceLine, isAt.column_eq, ← String.toList_inj]
  simp [shown, pointing, Terminal.Role.paint, Terminal.paint]

end SourceNote

namespace Scoped

/-- An empty source has an empty body. -/
theorem document_nil (dialect : Dialect) :
    document dialect (.start []) = .matched [] (.start []) := by
  have shallow : (Counters.zero.within [.template]).tooDeep dialect.maxDepth = false := by
    have := dialect.maxDepth_pos
    simp [Counters.within, Counters.tooDeep, Counters.zero]
    omega
  have read : nodes dialect .zero (.start []) = .matched [] (.start []) := by
    rw [nodes, nodesWithin, if_neg (by simp [shallow])]
    rfl
  rw [document, Grammar.bind_of_matched read]
  rfl

end Scoped

namespace Template

theorem text_ne_empty_of_failed {dialect : Dialect} {source : Source} {failure : Failure}
    (failed : parse dialect source = .error failure) : source.text ≠ "" := by
  intro empty
  have chars : source.chars = [] := by rw [Source.chars, empty]; rfl
  rw [parse_eq_scoped, chars, Scoped.document_nil] at failed
  cases failed

/-- The note that a report of a fault at a place of a source makes. -/
theorem isAt_of_locates {source : Source} {offset : Nat} {line : List Char} {position : Position}
    (nonempty : source.text ≠ "") (located : position.Locates source.chars offset line)
    (message : String) :
    SourceNote.IsAt
      { message, line := some position.line, column := some position.column,
        source := some source.text, name := source.name, filename := source.filename }
      position line where
  line_eq := rfl
  column_eq := rfl
  sourceLine := by
    have numbered : 0 < position.line := by
      rw [located.feeds]
      omega
    have stands : (lines source.text.toList)[position.line - 1]? = some line := located.isLine
    simp [SourceNote.sourceLine?, nonempty, numbered, stands]

/-- The caret in the report of a failure does not stand under the offending character. The report
shows the line that the failure is on, and under it a line with one caret, in its message and in its
compact form without colours alike. The caret has an index less by one than the offending character,
or than the end of the line, and less by one more for every digit of the line number behind the
third. -/
theorem caret_stands_before_the_fault {dialect : Dialect} {source : Source} {failure : Failure}
    (failed : parse dialect source = .error failure) :
    ∃ (note : SourceNote) (shown pointing advice advice' : String) (index : Nat),
      failure.report source = .parse failure.code failure.offset note failure.suggestion ∧
      (failure.report source).text =
        "Syntax Error: " ++ failure.message ++ "\n  --> " ++ note.location ++ "\n   |\n" ++ shown ++
          "\n" ++ pointing ++ advice ∧
      (failure.report source).compact false =
        failure.code.text ++ ": " ++ failure.message ++ "\n  --> " ++ note.location ++ "\n   |\n" ++
          shown ++ "\n" ++ pointing ++ "\n   |" ++ advice' ∧
      EndsLine advice ∧ EndsLine advice' ∧ CaretAt pointing.toList index ∧
      ShowsAt source.chars failure.offset shown.toList
        (index + 1 + SourceNote.surplusDigits (position source.chars failure.offset).line) := by
  rcases exists_locates (place_in_text (place_of_failed failed)).1 with ⟨line, located⟩
  have isAt := isAt_of_locates (text_ne_empty_of_failed failed) located failure.message
  refine ⟨_, _, _, _, _, _, rfl, congrArg (· ++ _) (SourceNote.rendered_eq isAt),
    congrArg (· ++ _) (SourceNote.compact_eq isAt failure.code), ?_, ?_,
    SourceNote.caretAt_caret _, SourceNote.showsAt_shown located⟩
  · split
    · exact .inl rfl
    · refine .inr ⟨"\nSuggestion: " ++ failure.suggestion.getD "", ?_⟩
      rw [← String.append_assoc]
      rfl
  · split
    · exact .inl rfl
    · exact .inr ⟨_, String.append_assoc.trans String.append_assoc⟩

/-- A loop control on the second line, two columns in. -/
theorem caret_stands_before_the_fault_break :
    let _ : Room := ⟨20⟩
    let source : Source := ⟨"a\n  \x7b% break %\x7d", some "page.html", none⟩
    let failure : Failure := .malformed (.loopControlOutside "break") 4
    parse .standard source = .error failure ∧
      ∃ (front shown pointing behind : String) (index : Nat),
        (failure.report source).text = front ++ shown ++ "\n" ++ pointing ++ behind ∧
          EndsLine behind ∧ CaretAt pointing.toList index ∧
          ShowsAt source.chars 4 shown.toList (index + 1) := by
  intro room source failure
  have failed : parse .standard ⟨"a\n  \x7b% break %\x7d", some "page.html", none⟩ =
      .error (.malformed (.loopControlOutside "break") 4) := by
    rw [parse_eq_scoped]
    rfl
  have short : SourceNote.surplusDigits (position source.chars 4).line = 0 := by decide +kernel
  rcases caret_stands_before_the_fault failed with
    ⟨note, shown, pointing, advice, _, index, _, text, _, ends, _, caret, shows⟩
  simp only [Failure.offset] at shows
  rw [short] at shows
  exact ⟨failed, _, shown, pointing, advice, index, text, ends, caret, shows⟩

end Template

end Templating

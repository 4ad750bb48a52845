import Templating.Proofs.BodyEnd
import Templating.Proofs.ScopeProgress
import Templating.Proofs.UsableDialect

/-! # The form of tags

A tag begins with its delimiter, a trim marker where one stands, blanks, and its word, and it ends
with a trim marker where one stands and the other delimiter. What the rules for tags read is written
so, and what is written so they read. -/

namespace Templating

open Text Grammar

/-- Between two cursors there are as many characters as the rest of the first has more. -/
theorem Cursor.Reaches.eq_advance {cursor later : Cursor} (reaches : cursor.Reaches later) :
    later = cursor.advance (cursor.rest.length - later.rest.length) := by
  rcases later with ⟨offset, rest⟩
  rcases reaches with ⟨consumed, read, moved⟩
  have length_eq : cursor.rest.length - rest.length = consumed.length := by
    rw [show cursor.rest = consumed ++ rest from read, List.length_append, Nat.add_sub_cancel]
  rw [length_eq, Cursor.advance, show cursor.rest = consumed ++ rest from read, List.drop_left]
  exact congrArg (Cursor.mk · rest) moved

/-- Of two places further on, the same text is left behind only at the same place. -/
theorem Cursor.Reaches.unique {cursor later last : Cursor} (reaches : cursor.Reaches later)
    (reaches' : cursor.Reaches last) (same : later.rest = last.rest) : later = last := by
  rw [reaches.eq_advance, reaches'.eq_advance, same]

namespace Grammar

/-- A trim marker stands before the rest, or none where there is none. -/
def EdgeAt (trim : Option Trim) (text rest : List Char) : Prop :=
  text = Trim.printOnto trim rest ∧ (trim = none → ∀ first ∈ rest.head?, Trim.ofMark? first = none)

section

variable (dialect : Dialect)

/-- A tag begins, up to its word. -/
def TagOpensAt (left : Option Trim) (word : String) (text rest : List Char) : Prop :=
  ∃ marked blanks start, text = dialect.blockStart.chars ++ marked ∧ EdgeAt left marked blanks ∧
    Gap blanks start ∧ WordAt word start rest

/-- A tag ends. -/
def TagEndsAt (right : Option Trim) (text rest : List Char) : Prop :=
  EdgeAt right text (dialect.blockEnd.chars ++ rest)

/-- A tag that says no more than its word. -/
def TagAt (word : String) (edges : Edges) (text rest : List Char) : Prop :=
  ∃ named last, TagOpensAt dialect edges.left word text named ∧ Gap named last ∧
    TagEndsAt dialect edges.right last rest

end

variable {dialect : Dialect} {cursor later : Cursor} {trim : Option Trim} {word : String}
  {edges : Edges} {text last rest : List Char}

/-! ## Edges -/

theorem marker_eq_matched {trim : Trim} :
    marker cursor = .matched trim later ↔
      cursor.rest = trim.mark :: cursor.rest.tail ∧ later = cursor.advance 1 := by
  unfold marker
  split
  case h_1 first rest shape =>
      rw [shape, List.tail_cons]
      split
      case h_1 found marked =>
          rw [Trim.ofMark?_eq_some_iff] at marked
          subst marked
          constructor
          · rintro ⟨⟩
            exact ⟨rfl, rfl⟩
          · rintro ⟨same, rfl⟩
            have marks : Trim.ofMark? found.mark = Trim.ofMark? trim.mark :=
              congrArg Trim.ofMark? (List.cons.inj same).1
            rw [Trim.ofMark?_mark, Trim.ofMark?_mark] at marks
            cases marks
            rfl
      case h_2 unmarked =>
          constructor
          · intro matched
            cases matched
          · rintro ⟨same, _⟩
            rw [(List.cons.inj same).1, Trim.ofMark?_mark] at unmarked
            cases unmarked
  case h_2 empty => simp [empty]

theorem edge_eq_matched : edge cursor = .matched trim later ↔
    EdgeAt trim cursor.rest later.rest ∧ later = cursor.advance trim.toList.length := by
  cases trim with
  | none =>
      rw [edge_eq_none]
      constructor
      · rintro ⟨rfl, unmarked⟩
        exact ⟨⟨rfl, fun _ => unmarked⟩, later.advance_zero.symm⟩
      · rintro ⟨⟨same, unmarked⟩, moved⟩
        have moved : later = cursor := moved.trans cursor.advance_zero
        subst moved
        exact ⟨rfl, unmarked rfl⟩
  | some trim =>
      rw [edge, optional_eq_matched]
      constructor
      · rintro (⟨_, ⟨⟩, read⟩ | ⟨⟨⟩, _⟩)
        rcases marker_eq_matched.mp read with ⟨shape, rfl⟩
        refine ⟨⟨shape.trans (by simp [Trim.printOnto, Cursor.advance]), ?_⟩, rfl⟩
        intro absent
        cases absent
      · rintro ⟨⟨shape, _⟩, rfl⟩
        refine .inl ⟨trim, rfl, marker_eq_matched.mpr ⟨?_, rfl⟩⟩
        rw [shape]
        rfl

theorem EdgeAt.reads (marked : EdgeAt trim text rest) : Reads edge text (· = trim) rest := by
  intro offset
  refine ⟨trim, offset + trim.toList.length, edge_eq_matched.mpr ⟨marked, ?_⟩, rfl⟩
  rcases marked with ⟨rfl, _⟩
  cases trim <;> rfl

/-! ## Beginnings -/

theorem tagStart_yields {start : Nat × Option Trim}
    (matched : tagStart dialect cursor = .matched start later) :
    start.1 = cursor.offset ∧ Solid later.rest ∧ ∃ marked blanks,
      cursor.rest = dialect.blockStart.chars ++ marked ∧ EdgeAt start.2 marked blanks ∧
        Gap blanks later.rest := by
  simp only [tagStart, bind_eq_matched, here_eq_matched, pure_eq_matched] at matched
  rcases matched with ⟨_, _, ⟨rfl, rfl⟩, _, first, opened, left, second, marked, _, _, blanks, rfl, rfl⟩
  have gap := spaces_yields blanks
  exact ⟨rfl, gap.2, first.rest, second.rest, (exact_eq_matched.mp opened).1,
    (edge_eq_matched.mp marked).1, gap.1⟩

theorem TagOpensAt.reads {α : Type} {next : Nat × Option Trim → Grammar α} {accept : α → Prop}
    (opens : TagOpensAt dialect trim word text rest) (isName : isName word.toList = true)
    {stop : List Char} (reads : ∀ start : Nat × Option Trim, start.2 = trim →
      ∀ behind, NameAt word behind rest → Reads (next start) behind accept stop) :
    Reads (tagStart dialect >>= next) text accept stop := by
  rcases opens with ⟨marked, blanks, start, rfl, edge, gap, written⟩
  have started : Reads (tagStart dialect) (dialect.blockStart.chars ++ marked) (·.2 = trim) start := by
    apply Reads.here.bind
    intro offset _
    apply (exact_reads _ _).bind
    intro _ _
    apply edge.reads.bind
    rintro _ rfl
    apply (spaces_reads gap (NameAt.solid ⟨isName, written⟩)).bind
    intro _ _
    exact .pure rfl
  apply started.bind
  intro found same
  exact reads found same start ⟨isName, written⟩

theorem statementStart_yields {opened : OpenedTag} {keyword : Keyword}
    (matched : Parser.statementStart dialect cursor = .matched (opened, keyword) later) :
    ∃ named, TagOpensAt dialect opened.trim keyword.word cursor.rest named ∧
      Gap named later.rest ∧ Solid later.rest := by
  rw [statementStart_eq] at matched
  rcases bind_eq_matched.mp matched with ⟨start, first, started, matched⟩
  rcases bind_eq_matched.mp matched with ⟨word, second, named, matched⟩
  rcases tagStart_yields started with ⟨_, _, marked, blanks, shape, edge, gap⟩
  unfold statementOf at matched
  cases known : Keyword.ofWord? word with
  | none =>
      rw [known] at matched
      cases matched
  | some found =>
      rw [known] at matched
      rcases bind_eq_matched.mp matched with ⟨_, third, spaced, matched⟩
      cases matched
      cases Keyword.ofWord?_eq_some_iff.mp known
      have behind := spaces_yields spaced
      exact ⟨second.rest, ⟨marked, blanks, first.rest, shape, edge, gap, (name_yields named).2⟩,
        behind.1, behind.2⟩

theorem statementStart_reads_at {keyword : Keyword}
    (opens : TagOpensAt dialect trim keyword.word text rest) :
    Reads (Parser.statementStart dialect) text
      (fun start => start.1.trim = trim ∧ start.2 = keyword) (afterBlanks rest) := by
  have isName : isName keyword.word.toList = true := by cases keyword <;> decide
  rw [statementStart_eq]
  apply opens.reads isName
  intro start trimmed behind named
  apply (name_reads named).bind
  rintro _ rfl
  simp only [statementOf, Keyword.ofWord?_word]
  apply (spaces_reads (gap_afterBlanks _) (solid_afterBlanks _)).bind
  intro _ _
  exact .pure ⟨trimmed, rfl⟩

theorem wordOf_yields {words : List String} {value : String}
    (matched : wordOf words cursor = .matched value later) :
    value ∈ words ∧ WordAt value cursor.rest later.rest := by
  induction words with
  | nil => cases matched
  | cons word words induction =>
      rcases orElse_eq_matched.mp matched with read | ⟨_, read⟩
      · rcases word_yields read with ⟨rfl, written⟩
        exact ⟨List.mem_cons_self, written⟩
      · exact ⟨List.mem_cons_of_mem _ (induction read).1, (induction read).2⟩

theorem tag_yields {words : List String} {opened : OpenedTag}
    (matched : tag dialect words cursor = .matched opened later) :
    opened.offset = cursor.offset ∧ opened.word ∈ words ∧
      ∃ named, TagOpensAt dialect opened.trim opened.word cursor.rest named ∧
        Gap named later.rest ∧ Solid later.rest := by
  simp only [tag_eq, bind_eq_matched, pure_eq_matched] at matched
  rcases matched with ⟨start, first, started, word, second, read, _, _, spaced, rfl, rfl⟩
  rcases tagStart_yields started with ⟨same, _, marked, blanks, shape, edge, gap⟩
  rcases wordOf_yields read with ⟨among, written⟩
  have behind := spaces_yields spaced
  exact ⟨same, among, second.rest, ⟨marked, blanks, first.rest, shape, edge, gap, written⟩,
    behind.1, behind.2⟩

/-! ## Ends -/

theorem tagRest_yields {right : Option Trim} (matched : tagRest dialect cursor = .matched right later) :
    TagEndsAt dialect right cursor.rest later.rest := by
  simp only [tagRest, tagEnd, bind_eq_matched, expect_eq_matched, pure_eq_matched] at matched
  rcases matched with ⟨_, middle, marked, _, _, ended, rfl, rfl⟩
  rw [TagEndsAt, ← (exact_eq_matched.mp ended).1]
  exact (edge_eq_matched.mp marked).1

theorem TagEndsAt.solid {right : Option Trim} (ends : TagEndsAt dialect right text rest) :
    Solid text := by
  rcases ends with ⟨rfl, _⟩
  cases right with
  | none => exact solid_delimiter dialect.blockEnd rest
  | some trim =>
      rintro _ ⟨⟩
      cases trim <;> decide

end Grammar

end Templating

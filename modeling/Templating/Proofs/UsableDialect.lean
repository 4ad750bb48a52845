import Templating.Proofs.Concatenation
import Templating.Proofs.Continuation
import Templating.Proofs.PrintedBody

/-! # Which dialects are usable

A dialect keeps its opening delimiters apart, and says of the closing ones only that they have no
blanks. A closing delimiter stands where an expression or a pattern has just been read, so it can
also be taken for more of that, or for a trim marker and what is left of it. Whether a name between
two delimiters is read as the name is told here by the closing one alone. -/

namespace Templating

variable {room : Room}

open Text

namespace Delimiter

theorem solid_chars (delimiter : Delimiter) : Solid delimiter.chars := by
  simpa using Grammar.solid_delimiter delimiter []

theorem chars_ne_nil (delimiter : Delimiter) : delimiter.chars ≠ [] := by
  intro empty
  have long := delimiter.long
  simp [empty] at long

theorem Apart.symm {left right : Delimiter} (apart : left.Apart right) : right.Apart left :=
  ⟨apart.2, apart.1⟩

end Delimiter

namespace Grammar

variable {value : String} {place : Nat} {later : Cursor} {behind : List Char} {offset : Nat}

/-- A name behind blanks is read up to the blank that it stands in front of. -/
theorem name_before_blank (named : isName value.toList = true) {cursor : Cursor}
    (gap : Gap cursor.rest (value.toList ++ ' ' :: behind)) (solid : Solid behind) :
    ∃ middle, name cursor.skipSpaces = .matched value middle ∧ middle.rest ≠ [] ∧
      middle.skipSpaces.rest = behind := by
  have nameAt : NameAt value (value.toList ++ ' ' :: behind) (' ' :: behind) :=
    ⟨named, rfl, endsName_cons.mpr rfl⟩
  have skipped : cursor.skipSpaces.rest = value.toList ++ ' ' :: behind := by
    rw [skipSpaces_rest]
    exact gap.afterBlanks_eq nameAt.solid
  rcases name_reads nameAt cursor.skipSpaces.offset with ⟨_, offset, read, rfl⟩
  rw [← skipped] at read
  refine ⟨⟨offset, ' ' :: behind⟩, read, List.cons_ne_nil _ _, ?_⟩
  rw [skipSpaces_rest]
  exact (gap_space behind).afterBlanks_eq solid

theorem marker_eq_noMatch {cursor : Cursor} :
    marker cursor = .noMatch ↔ ∀ first ∈ cursor.rest.head?, Trim.ofMark? first = none := by
  rcases cursor with ⟨offset, _ | ⟨first, rest⟩⟩
  · exact ⟨fun _ => nofun, fun _ => rfl⟩
  · cases found : Trim.ofMark? first <;> simp [marker, found]

theorem edge_eq_none {cursor : Cursor} :
    edge cursor = .matched none later ↔
      later = cursor ∧ ∀ first ∈ cursor.rest.head?, Trim.ofMark? first = none := by
  rw [← marker_eq_noMatch, edge, optional_eq_matched]
  simp

/-! ## Outputs -/

variable {dialect : Dialect} {cursor : Cursor}

theorem output_eq_plain {value : Expr} {start : Nat} :
    output dialect cursor = .matched (.output start ⟨none, none⟩ value) later ↔
      start = cursor.offset ∧ ∃ begun last,
        exact dialect.exprStart.chars cursor = .matched () begun ∧
          edge begun = .matched none begun ∧ expression begun = .matched value last ∧
            edge last = .matched none last ∧
              exact dialect.exprEnd.chars last = .matched () later := by
  simp only [output, bind_eq_matched, here_eq_matched, expect_eq_matched, pure_eq_matched]
  constructor
  · rintro ⟨_, _, ⟨rfl, rfl⟩, _, begun, opened, left, first, leftEdge, _, last, read, right, final,
      rightEdge, _, _, closed, same, rfl⟩
    cases same
    obtain rfl := (edge_eq_none.mp leftEdge).1
    obtain rfl := (edge_eq_none.mp rightEdge).1
    exact ⟨rfl, _, _, opened, leftEdge, read, rightEdge, closed⟩
  · rintro ⟨rfl, begun, last, opened, leftEdge, read, rightEdge, closed⟩
    exact ⟨_, _, ⟨rfl, rfl⟩, _, _, opened, _, _, leftEdge, _, _, read, _, _, rightEdge, _, _,
      closed, rfl, rfl⟩

section

variable (named : isName value.toList = true) (small : value.toList.any isUppercase = false)
  (apart : value ≠ "true" ∧ value ≠ "false")

include named small apart

/-- Between delimiters a name is read as an output if and only if the closing delimiter begins with
no trim marker and does not go on with an expression. -/
theorem output_reads_name_iff
    (shape : cursor.rest =
      dialect.exprStart.chars ++ ' ' :: (value.toList ++ ' ' :: dialect.exprEnd.chars)) :
    (∃ start place later,
        output dialect cursor = .matched (.output start ⟨none, none⟩ (.var place value)) later ∧
          later.rest = []) ↔
      dialect.exprEnd.Unmarked ∧
        ¬ GoesOn (expressionWithin Room.brackets) dialect.exprEnd.chars := by
  have moves : ∀ count, MovesExpr count (expressionWithin Room.brackets) :=
    fun _ => expressionWithin_moves _
  have solid := dialect.exprEnd.solid_chars
  have nonempty := dialect.exprEnd.chars_ne_nil
  constructor
  · rintro ⟨start, place, later, matched, ended⟩
    rcases output_eq_plain.mp matched with ⟨_, begun, last, opened, _, read, rightEdge, closed⟩
    have remains : last.rest = dialect.exprEnd.chars := by
      simpa [ended] using (exact_eq_matched.mp closed).1
    have begun_rest := List.append_cancel_left (shape.symm.trans (exact_eq_matched.mp opened).1)
    rcases name_before_blank named (begun_rest ▸ gap_space _) solid with ⟨middle, nameRead, more, _⟩
    have stops := (expressionOf_eq_name_iff moves nameRead small apart more
      (remains ▸ nonempty)).mp read
    rw [Delimiter.Unmarked, ← remains]
    exact ⟨(edge_eq_none.mp rightEdge).2, stops.2.2⟩
  · rintro ⟨unmarked, stops⟩
    let begun : Cursor := ⟨cursor.offset + dialect.exprStart.chars.length,
      ' ' :: (value.toList ++ ' ' :: dialect.exprEnd.chars)⟩
    have gap : Gap begun.rest (value.toList ++ ' ' :: dialect.exprEnd.chars) := gap_space _
    rcases name_before_blank named gap solid with ⟨middle, nameRead, more, remains⟩
    have read : expression begun = .matched (.var begun.skipSpaces.offset value) middle.skipSpaces :=
      (expressionOf_eq_name_iff moves nameRead small apart more (remains ▸ nonempty)).mpr
        ⟨rfl, rfl, remains ▸ stops⟩
    refine ⟨_, _, ⟨middle.skipSpaces.offset + dialect.exprEnd.chars.length, []⟩,
      output_eq_plain.mpr ⟨rfl, begun, _, exact_eq_matched.mpr ⟨shape, rfl⟩, rfl, read,
        edge_eq_none.mpr ⟨rfl, remains ▸ unmarked⟩, exact_eq_matched.mpr ⟨?_, rfl⟩⟩, rfl⟩
    rw [remains, List.append_nil]

/-! ## Declarations -/

omit named small apart in
theorem assignment_eq_declare {opened : OpenedTag} {pattern : Pattern} {start : Nat} :
    assignment opened cursor = .matched (.declare start ⟨none, none⟩ pattern) later ↔
      start = opened.offset ∧ opened.trim = none ∧ Grammar.pattern cursor = .matched pattern later ∧
        token "=" later = .noMatch ∧ edge later = .matched none later := by
  simp only [assignment, bind_eq_matched, expect_eq_matched, orElse_eq_matched, pure_eq_matched,
    bind_certain_eq_noMatch]
  constructor
  · rintro ⟨_, middle, read, ⟨_, _, _, _, _, _, _, _, _, same, _⟩ | ⟨noSign, right, _, edged, same,
      rfl⟩⟩
    · cases same
    · rw [Node.declare.injEq, Edges.mk.injEq] at same
      rcases same with ⟨rfl, ⟨untrimmed, rfl⟩, rfl⟩
      obtain rfl := (edge_eq_none.mp edged).1
      exact ⟨rfl, untrimmed, read, noSign, edged⟩
  · rintro ⟨rfl, untrimmed, read, noSign, edged⟩
    exact ⟨_, _, read, .inr ⟨noSign, _, _, edged, by rw [untrimmed], rfl⟩⟩

/-- Behind its word a name is read as a declaration if and only if the closing delimiter begins with
neither a trim marker nor an equals sign and does not go on with a qualified name. -/
theorem declaration_reads_name_iff {opened : OpenedTag} (untrimmed : opened.trim = none)
    (shape : cursor.rest = value.toList ++ ' ' :: dialect.blockEnd.chars) :
    (∃ start place last later,
        assignment opened cursor =
          .matched (.declare start ⟨none, none⟩ (.name place value)) last ∧
        tagEnd dialect last = .matched () later ∧ later.rest = []) ↔
      dialect.blockEnd.Unmarked ∧ '=' ∉ dialect.blockEnd.chars.head? ∧
        ¬ NamedAt "::" dialect.blockEnd.chars := by
  have solid := dialect.blockEnd.solid_chars
  have noSign {last : Cursor} (remains : last.rest = dialect.blockEnd.chars) :
      token "=" last = .noMatch ↔ '=' ∉ dialect.blockEnd.chars.head? := by
    rw [token_eq_noMatch rfl, remains]
    constructor
    · intro apart atHead
      rcases List.head?_eq_some_iff.mp atHead with ⟨rest, shape⟩
      exact apart rest (shape ▸ Gap.refl _)
    · intro refused rest spelled
      exact refused (Gap.eq_of_solid spelled solid ▸ rfl)
  have gap : Gap cursor.rest (value.toList ++ ' ' :: dialect.blockEnd.chars) := shape ▸ Gap.refl _
  rcases name_before_blank named gap solid with ⟨middle, nameRead, more, remains⟩
  have read {place : Nat} {last : Cursor} :
      Grammar.pattern cursor = .matched (.name place value) last ↔
        place = cursor.skipSpaces.offset ∧ last = middle.skipSpaces ∧
          furtherName last = .noMatch :=
    patternOf_eq_name_iff _ nameRead small apart more
  constructor
  · rintro ⟨start, place, last, later, matched, closed, ended⟩
    rcases assignment_eq_declare.mp matched with ⟨_, _, patternRead, unsigned, rightEdge⟩
    rcases read.mp patternRead with ⟨_, rfl, stopped⟩
    rw [furtherName_eq_noMatch, remains] at stopped
    have unmarked := (edge_eq_none.mp rightEdge).2
    rw [remains] at unmarked
    exact ⟨unmarked, (noSign remains).mp unsigned, stopped⟩
  · rintro ⟨unmarked, unsigned, stops⟩
    have stopped : furtherName middle.skipSpaces = .noMatch := by
      rw [furtherName_eq_noMatch, remains]
      exact stops
    have assigned := assignment_eq_declare.mpr ⟨rfl, untrimmed, read.mpr ⟨rfl, rfl, stopped⟩,
      (noSign remains).mpr unsigned, edge_eq_none.mpr ⟨rfl, remains ▸ unmarked⟩⟩
    refine ⟨_, _, _, ⟨middle.skipSpaces.offset + dialect.blockEnd.chars.length, []⟩, assigned,
      expect_of_matched (exact_eq_matched.mpr ⟨?_, rfl⟩), rfl⟩
    rw [remains, List.append_nil]

end

end Grammar

/-! ## Sources of a single node -/

namespace Scoped

open Grammar

variable {dialect : Dialect} {cursor later : Cursor} {node : Node}

theorem document_eq_many (dialect : Dialect) : document dialect = (do
    let body ← many (outermost dialect)
    endOfSource dialect
    return body) := by
  have shallow : (Counters.within .zero [.template]).tooDeep dialect.maxDepth = false := by
    have positive := dialect.maxDepth_pos
    simp [Counters.tooDeep, Counters.within, Counters.zero]
    omega
  have body : nodes dialect .zero = many (outermost dialect) := by
    rw [nodes, nodesWithin, shallow, if_neg Bool.false_ne_true]
    rfl
  rw [document, body]

/-- A source is a single node if and only if the first node of its body is that one and nothing is
left behind it. -/
theorem document_eq_single :
    document dialect cursor = .matched [node] later ↔
      outermost dialect cursor = .matched node later ∧ later.rest = [] := by
  simp only [document_eq_many, bind_eq_matched, Parser.endOfSource_eq_matched, pure_eq_matched]
  constructor
  · rintro ⟨_, middle, read, _, _, ⟨ended, rfl⟩, rfl, rfl⟩
    rcases repeated_of_many read with _ | ⟨first, _ | _⟩
    exact ⟨first, List.isEmpty_iff.mp ended⟩
  · rintro ⟨read, ended⟩
    have stopped : outermost dialect later = .noMatch := Misses.eq_noMatch (ended ▸ node_misses_nil)
    exact ⟨_, _, many_of_repeated (.cons read (.nil later)) stopped, (), _,
      ⟨List.isEmpty_iff.mpr ended, rfl⟩, rfl, rfl⟩

theorem text_misses_at_start {delimiter : Delimiter} (start : delimiter ∈ dialect.starts)
    (rest : List Char) : Misses (text dialect) (delimiter.chars ++ rest) :=
  text_misses (opensTag_of_start start (List.prefix_append _ _))

theorem outermost_eq_output {rest : List Char}
    (shape : cursor.rest = dialect.exprStart.chars ++ rest) :
    outermost dialect cursor = output dialect cursor := by
  have noText : Misses (text dialect) (dialect.exprStart.chars ++ rest) :=
    text_misses_at_start (by simp [Dialect.starts]) rest
  have noComment : Misses (comment dialect) (dialect.exprStart.chars ++ rest) :=
    comment_misses dialect.expr_apart_comment
  have noStatement : Misses (statement dialect false fun part =>
      nodesWithin dialect .zero dialect.maxDepth [part, .template])
        (dialect.exprStart.chars ++ rest) :=
    (Reads.here.bind_misses fun _ _ =>
      (exact_misses_of_apart dialect.block_apart_expr.symm rest).bind).bind
  rw [← shape] at noText noComment noStatement
  rw [outermost, node, orElse_of_noMatch noText.eq_noMatch, orElse_of_noMatch noComment.eq_noMatch,
    orElse_of_noMatch_right noStatement.eq_noMatch]

/-- What begins with the delimiter of a statement is one. -/
theorem node_eq_statement {inLoop : Bool} {bodies : Part → Grammar (List Node)} {rest : List Char}
    (shape : cursor.rest = dialect.blockStart.chars ++ rest) :
    Scoped.node dialect inLoop bodies cursor = statement dialect inLoop bodies cursor := by
  have noText : Misses (text dialect) (dialect.blockStart.chars ++ rest) :=
    text_misses_at_start (by simp [Dialect.starts]) rest
  have noComment : Misses (comment dialect) (dialect.blockStart.chars ++ rest) :=
    comment_misses dialect.block_apart_comment
  have noOutput : Misses (output dialect) (dialect.blockStart.chars ++ rest) :=
    output_misses dialect.block_apart_expr
  rw [← shape] at noText noComment noOutput
  rw [Scoped.node, orElse_of_noMatch noText.eq_noMatch, orElse_of_noMatch noComment.eq_noMatch,
    orElse_of_noMatch noOutput.eq_noMatch]

theorem outermost_eq_statement {rest : List Char}
    (shape : cursor.rest = dialect.blockStart.chars ++ rest) :
    outermost dialect cursor = statement dialect false (fun part =>
      nodesWithin dialect .zero dialect.maxDepth [part, .template]) cursor :=
  node_eq_statement shape

end Scoped

/-! ## Dialects in which names can be written -/

namespace Dialect

variable (dialect : Dialect) (name : String)

/-- The name between the delimiters of an output. -/
def nameOutput : Source :=
  { text := dialect.exprStart.text ++ " " ++ name ++ " " ++ dialect.exprEnd.text }

/-- The name behind `let`, between the delimiters of a statement. -/
def nameDeclaration : Source :=
  { text := dialect.blockStart.text ++ " let " ++ name ++ " " ++ dialect.blockEnd.text }

/-- Between the delimiters of an output the name is the whole of a template, the output of a
variable without trim markers. -/
def OutputsName [Room] : Prop :=
  ∃ template start place, Template.parse dialect (dialect.nameOutput name) = .ok template ∧
    template.body = [.output start ⟨none, none⟩ (.var place name)]

/-- Behind `let` the name is the whole of a template, the declaration of a variable without trim
markers. -/
def DeclaresName [Room] : Prop :=
  ∃ template start place, Template.parse dialect (dialect.nameDeclaration name) = .ok template ∧
    template.body = [.declare start ⟨none, none⟩ (.name place name)]

end Dialect

theorem Template.parse_eq_single {dialect : Dialect} {source : Source} {node : Node} :
    (∃ template, parse dialect source = .ok template ∧ template.body = [node]) ↔
      ∃ later, Scoped.outermost dialect (.start source.chars) = .matched node later ∧
        later.rest = [] := by
  simp only [← Scoped.document_eq_single, parse_eq_scoped]
  cases Scoped.document dialect (.start source.chars) with
  | matched body later =>
      constructor
      · rintro ⟨_, ⟨⟩, rfl⟩
        exact ⟨later, rfl⟩
      · rintro ⟨_, ⟨⟩⟩
        exact ⟨_, rfl, rfl⟩
  | noMatch => simp
  | failed failure => simp

namespace Dialect

open Grammar

/-- A dialect whose outputs end with an error mark. -/
def questioned : Dialect :=
  { standard with
    exprStart := ⟨"<?".toList, by decide, by decide⟩
    exprEnd := ⟨"?>".toList, by decide, by decide⟩
    block_apart_expr := by decide
    expr_apart_comment := by decide }

section

variable {dialect : Dialect} {name : String} (named : isName name.toList = true)
  (small : name.toList.any isUppercase = false) (apart : name ≠ "true" ∧ name ≠ "false")

include named small apart

theorem outputsName_iff :
    dialect.OutputsName name ↔
      dialect.exprEnd.Unmarked ∧
        ¬ GoesOn (expressionWithin Room.brackets) dialect.exprEnd.chars := by
  have shape : (Cursor.start (dialect.nameOutput name).chars).rest =
      dialect.exprStart.chars ++ ' ' :: (name.toList ++ ' ' :: dialect.exprEnd.chars) := by
    simp [Cursor.start, Source.chars, nameOutput, Delimiter.text]
  rw [← output_reads_name_iff named small apart shape, ← Scoped.outermost_eq_output shape]
  constructor
  · rintro ⟨template, start, place, parsed⟩
    exact ⟨start, place, Template.parse_eq_single.mp ⟨template, parsed⟩⟩
  · rintro ⟨start, place, read⟩
    rcases Template.parse_eq_single.mpr read with ⟨template, parsed⟩
    exact ⟨template, start, place, parsed⟩

theorem declaresName_iff :
    dialect.DeclaresName name ↔
      dialect.blockEnd.Unmarked ∧ '=' ∉ dialect.blockEnd.chars.head? ∧
        ¬ NamedAt "::" dialect.blockEnd.chars := by
  have shape : (Cursor.start (dialect.nameDeclaration name).chars).rest =
      tagHeadOnto dialect none "let" (' ' :: (name.toList ++ ' ' :: dialect.blockEnd.chars)) := by
    simp [Cursor.start, Source.chars, nameDeclaration, Delimiter.text, tagHeadOnto, Trim.printOnto]
  have nameAt : NameAt name (name.toList ++ ' ' :: dialect.blockEnd.chars)
      (' ' :: dialect.blockEnd.chars) :=
    ⟨named, rfl, endsName_cons.mpr rfl⟩
  have started : Reads (Parser.statementStart dialect)
      (tagHeadOnto dialect none "let" (' ' :: (name.toList ++ ' ' :: dialect.blockEnd.chars)))
      (fun start => start.1.trim = none ∧ start.2 = .letBinding) _ :=
    statementStart_reads (by decide) (endsName_cons.mpr rfl) rfl
  rw [← shape, (gap_space _).afterBlanks_eq nameAt.solid] at started
  rcases started 0 with ⟨⟨opened, _⟩, offset, begun, untrimmed, rfl⟩
  have run : Scoped.outermost dialect (.start (dialect.nameDeclaration name).chars) =
      (assignment opened >>= fun node => tagEnd dialect >>= fun _ => pure node)
        ⟨offset, name.toList ++ ' ' :: dialect.blockEnd.chars⟩ := by
    rw [Scoped.outermost_eq_statement shape]
    exact bind_of_matched begun
  have atName : (Cursor.mk offset (name.toList ++ ' ' :: dialect.blockEnd.chars)).rest =
      name.toList ++ ' ' :: dialect.blockEnd.chars := rfl
  rw [← declaration_reads_name_iff named small apart untrimmed atName]
  constructor
  · rintro ⟨template, start, place, parsed⟩
    rcases Template.parse_eq_single.mp ⟨template, parsed⟩ with ⟨later, read, ended⟩
    rw [run] at read
    rcases bind_eq_matched.mp read with ⟨_, last, assigned, behind⟩
    rcases bind_eq_matched.mp behind with ⟨_, _, closed, same⟩
    cases same
    exact ⟨start, place, last, _, assigned, closed, ended⟩
  · rintro ⟨start, place, last, later, assigned, closed, ended⟩
    have read := run.trans (bind_of_matched assigned)
    rw [bind_of_matched closed] at read
    rcases Template.parse_eq_single.mpr ⟨later, read, ended⟩ with ⟨template, parsed⟩
    exact ⟨template, start, place, parsed⟩

/-- Whether a name between delimiters is read as the name depends on the closing delimiter alone.
The one of outputs must not begin with a trim marker or go on with an expression; the one of
statements must not begin with a trim marker or an equals sign or go on with a qualified name. -/
theorem names_usable_iff :
    (dialect.OutputsName name ↔
      dialect.exprEnd.Unmarked ∧
        ¬ GoesOn (expressionWithin Room.brackets) dialect.exprEnd.chars) ∧
    (dialect.DeclaresName name ↔
      dialect.blockEnd.Unmarked ∧ '=' ∉ dialect.blockEnd.chars.head? ∧
        ¬ NamedAt "::" dialect.blockEnd.chars) :=
  ⟨outputsName_iff named small apart, declaresName_iff named small apart⟩

end

/-- Behind the name the question mark is read as an error mark, and no closing delimiter is left. -/
theorem names_usable_iff_questioned :
    let _ : Room := ⟨20⟩
    isName "a".toList = true ∧ "a".toList.any isUppercase = false ∧
      ("a" ≠ "true" ∧ "a" ≠ "false") ∧
      ¬ questioned.OutputsName "a" ∧ questioned.DeclaresName "a" := by
  intro room
  have apart : "a" ≠ "true" ∧ "a" ≠ "false" := by decide
  have usable : (questioned.OutputsName "a" ↔ _) ∧ (questioned.DeclaresName "a" ↔ _) :=
    names_usable_iff rfl (by decide) apart
  refine ⟨rfl, by decide, apart, fun outputs => ?_, usable.2.mpr ⟨?_, by decide, ?_⟩⟩
  · have mark : SymbolAt "?" questioned.exprEnd.chars ['>'] := Gap.refl _
    exact (usable.1.mp outputs).2 (.attempt mark)
  · rintro _ ⟨⟩
    rfl
  · rintro ⟨behind, _, _, _, spelled, _⟩
    cases Gap.eq_of_solid spelled questioned.blockEnd.solid_chars

/-- Not every dialect reads a name between its delimiters as the name. -/
theorem names_not_always_usable :
    let _ : Room := ⟨20⟩
    ¬ ∀ (dialect : Dialect) (name : String), isName name.toList = true →
      name.toList.any isUppercase = false → name ≠ "true" ∧ name ≠ "false" →
      dialect.OutputsName name ∧ dialect.DeclaresName name := by
  intro room usable
  rcases usable questioned "a" rfl (by decide) (by decide) with ⟨⟨_, _, _, parsed, _⟩, _⟩
  have failed : Template.parse questioned (questioned.nameOutput "a") =
      .error (.malformed (.openOutput "?>") 6) := by
    rfl
  cases parsed.symm.trans failed

end Dialect

end Templating

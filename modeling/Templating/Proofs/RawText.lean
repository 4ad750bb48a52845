import Mathlib.Data.Nat.Find
import Templating.Proofs.LiteralText
import Templating.Proofs.StatementLocality
import Templating.Proofs.TagForm

/-! # Raw text

Raw text goes on up to the first place where a whole tag stands that can close it. What looks like
such a tag and is none belongs to the text, as does everything else. -/

namespace Templating

variable {room : Room}

open Text

namespace Grammar

variable {dialect : Dialect} {cursor later : Cursor} {edges opening closing : Edges}
  {text rest behind : List Char} {place : Nat} {test : List Char → Bool}

/-! ## The tag that closes raw text -/

/-- A tag that closes raw text stands at the beginning of the text. -/
def ClosesRaw (dialect : Dialect) (text : List Char) : Prop :=
  ∃ closing rest, TagAt dialect "endraw" closing text rest

theorem rawEnd_eq : rawEnd dialect = (do
    let start ← tagStart dialect
    let _ ← word "endraw"
    spaces
    let right ← edge
    ahead fun rest => dialect.blockEnd.chars.isPrefixOf rest
    return ⟨start.2, right⟩) := by
  simp only [tagStart, bind_assoc, pure_bind]
  rfl

theorem rawEnd_reads_at (stands : TagAt dialect "endraw" closing text rest) :
    Reads (rawEnd dialect) text (· = closing) (dialect.blockEnd.chars ++ rest) := by
  rcases stands with ⟨named, last, opens, gap, ends⟩
  rw [rawEnd_eq]
  apply opens.reads (by decide)
  rintro start trimmed start' ⟨_, written⟩
  apply (word_reads written).bind
  intro _ _
  apply (spaces_reads gap ends.solid).bind
  intro _ _
  apply (EdgeAt.reads ends).bind
  rintro _ rfl
  have closed : Reads (ahead fun rest => dialect.blockEnd.chars.isPrefixOf rest)
      (dialect.blockEnd.chars ++ rest) (fun _ => True) (dialect.blockEnd.chars ++ rest) :=
    fun offset => ⟨(), offset, ahead_of_true
      (List.isPrefixOf_iff_prefix.mpr (List.prefix_append _ _)), trivial⟩
  apply closed.bind
  intro _ _
  exact .pure (by rw [trimmed])

theorem rawEnd_yields (matched : rawEnd dialect cursor = .matched edges later) :
    ∃ rest, TagAt dialect "endraw" edges cursor.rest rest ∧
      later.rest = dialect.blockEnd.chars ++ rest := by
  simp only [rawEnd_eq, bind_eq_matched, pure_eq_matched, ahead_eq_matched] at matched
  rcases matched with ⟨start, first, started, _, second, read, _, third, spaced, right, fourth, marked,
    _, _, ⟨closed, rfl⟩, rfl, rfl⟩
  rcases tagStart_yields started with ⟨_, _, marked', blanks, shape, edge, gap⟩
  rcases List.isPrefixOf_iff_prefix.mp closed with ⟨rest, ends⟩
  refine ⟨rest, ⟨second.rest, third.rest, ?_, (spaces_yields spaced).1, ?_⟩, ends.symm⟩
  · exact ⟨marked', blanks, first.rest, shape, edge, gap, (word_yields read).2⟩
  · rw [TagEndsAt, ends]
    exact (edge_eq_matched.mp marked).1

theorem matchesAt_rawEnd_iff : matchesAt (rawEnd dialect) text = true ↔ ClosesRaw dialect text := by
  constructor
  · intro matches_
    unfold matchesAt at matches_
    split at matches_
    case h_1 closing later matched =>
        rcases rawEnd_yields matched with ⟨rest, stands, _⟩
        exact ⟨closing, rest, stands⟩
    case h_2 => cases matches_
  · rintro ⟨closing, rest, stands⟩
    exact matchesAt_of_reads (rawEnd_reads_at stands)

instance : Decidable (ClosesRaw dialect text) :=
  decidable_of_iff _ matchesAt_rawEnd_iff

/-! ## The first place -/

/-- A run goes on up to the first place where the test holds, or to the end. -/
theorem upTo_of_first (stops : cursor.rest.drop place = [] ∨ test (cursor.rest.drop place) = true)
    (first : ∀ earlier < place, test (cursor.rest.drop earlier) = false)
    (within : place ≤ cursor.rest.length) :
    upTo test cursor = .matched (cursor.rest.take place) (cursor.advance place) := by
  have length_eq : (cursor.rest.take place).length = place := List.length_take_of_le within
  refine upTo_eq_matched.mpr ⟨(List.take_append_drop _ _).symm, ?_, stops, ?_⟩
  · rw [length_eq]
    rfl
  · intro character others suffix
    rw [List.suffix_iff_eq_drop, length_eq] at suffix
    have further : character :: (others ++ cursor.rest.drop place) =
        cursor.rest.drop (place - (character :: others).length) := by
      rw [← List.cons_append]
      conv => lhs; rw [suffix]
      conv => rhs; rw [← List.take_append_drop place cursor.rest]
      rw [List.drop_append_of_le_length]
      rw [length_eq]
      exact Nat.sub_le _ _
    show test (character :: (others ++ cursor.rest.drop place)) = false
    rw [further]
    apply first
    have nonempty : 0 < (character :: others).length := Nat.succ_pos _
    have := congrArg List.length suffix
    rw [List.length_drop, length_eq] at this
    omega

/-! ## Raw statements -/

section

variable {body : Parser (List Node)} {counters : Counters}

/-- What is left of a raw statement behind its first tag. -/
def rawStatementRest (dialect : Dialect) (start : Nat) (opening : Edges) : Grammar Node := do
  let rest ← rawRest dialect start
  tagEnd dialect
  return .raw start opening (Passage.ofChars rest.1) rest.2

theorem statement_of_grammar {opened : OpenedTag} {keyword : Keyword} {rule : Grammar Node}
    (started : Parser.statementStart dialect cursor = .matched (opened, keyword) later)
    (plain : Parser.statementRest dialect body opened keyword = liftM rule) :
    Parser.statement dialect body counters cursor =
      ((do
        let node ← rule
        tagEnd dialect
        return node : Grammar Node) later, counters) := by
  rw [Parser.statement, Parser.bind_apply, Parser.liftM_apply, started]
  simp only [plain, Parser.bind_apply, Parser.liftM_apply, bind_apply]
  cases rule later with
  | matched node middle =>
      dsimp only
      cases tagEnd dialect middle <;> rfl
  | noMatch => rfl
  | failed failure => rfl

theorem statement_of_raw [Room] (body : Parser (List Node)) (counters : Counters)
    (stands : TagAt dialect "raw" opening cursor.rest text) :
    ∃ begun : Cursor, begun.rest = text ∧ cursor.Reaches begun ∧
      Parser.statement dialect body counters cursor =
        (rawStatementRest dialect cursor.offset opening begun, counters) := by
  rcases stands with ⟨named, last, opens, gap, ends⟩
  have opens : TagOpensAt dialect opening.left Keyword.raw.word cursor.rest named := opens
  rcases statementStart_reads_at opens cursor.offset with
    ⟨⟨opened, keyword⟩, offset, started, trimmed, same⟩
  rw [gap.afterBlanks_eq ends.solid] at started
  have started : Parser.statementStart dialect cursor = .matched (opened, keyword) ⟨offset, last⟩ :=
    started
  dsimp only at same trimmed
  subst same
  rcases EdgeAt.reads ends offset with ⟨_, offset', marked, rfl⟩
  have closed : tagEnd dialect ⟨offset', dialect.blockEnd.chars ++ text⟩ =
      .matched () ⟨offset' + dialect.blockEnd.chars.length, text⟩ :=
    expect_of_matched (exact_eq_matched.mpr ⟨rfl, rfl⟩)
  refine ⟨⟨offset' + dialect.blockEnd.chars.length, text⟩, rfl, ?_,
    (statement_of_grammar started rfl).trans ?_⟩
  · exact ((Advancing.reaches started).trans (Advancing.reaches marked)).trans
      (Advancing.reaches closed)
  · rw [raw_eq, bind_assoc, bind_of_matched marked, bind_assoc, bind_of_matched closed,
      Parser.statementStart_offset started, trimmed]
    simp only [rawStatementRest, bind_assoc, pure_bind]

/-- Behind the first tag, the statement goes on up to the end of the first tag that can close it. -/
theorem rawStatementRest_of_first {start : Nat}
    (stands : TagAt dialect "endraw" closing (cursor.rest.drop place) behind)
    (first : ∀ earlier < place, ¬ ClosesRaw dialect (cursor.rest.drop earlier)) :
    ∃ later : Cursor, later.rest = behind ∧ cursor.Reaches later ∧
      rawStatementRest dialect start opening cursor =
        .matched (.raw start opening (Passage.ofChars (cursor.rest.take place)) closing) later := by
  have stops : matchesAt (rawEnd dialect) (cursor.rest.drop place) = true :=
    matchesAt_rawEnd_iff.mpr ⟨closing, behind, stands⟩
  have within : place ≤ cursor.rest.length := by
    by_contra beyond
    rw [List.drop_eq_nil_of_le (by omega)] at stands
    rcases stands with ⟨_, _, ⟨_, _, _, empty, _⟩, _⟩
    exact dialect.blockStart.chars_ne_nil (List.append_eq_nil_iff.mp empty.symm).1
  have run := upTo_of_first (.inr stops) (fun earlier before =>
    Bool.eq_false_iff.mpr (mt matchesAt_rawEnd_iff.mp (first earlier before))) within
  rcases rawEnd_reads_at stands (cursor.offset + place) with ⟨_, offset, ended, rfl⟩
  have read : rawRest dialect start cursor = .matched (cursor.rest.take place, _) _ :=
    rawRest_eq_matched.mpr ⟨_, run, ended⟩
  have closed : tagEnd dialect ⟨offset, dialect.blockEnd.chars ++ behind⟩ =
      .matched () ⟨offset + dialect.blockEnd.chars.length, behind⟩ :=
    expect_of_matched (exact_eq_matched.mpr ⟨rfl, rfl⟩)
  refine ⟨⟨offset + dialect.blockEnd.chars.length, behind⟩, rfl, ?_, ?_⟩
  · exact ((Advancing.reaches run).trans (Advancing.reaches ended)).trans (Advancing.reaches closed)
  · rw [rawStatementRest, bind_of_matched read, bind_of_matched closed]
    rfl

/-- Behind the first tag, the parse ends if no tag can close the statement. -/
theorem rawStatementRest_of_none {start : Nat}
    (unclosed : ∀ place, ¬ ClosesRaw dialect (cursor.rest.drop place)) :
    rawStatementRest dialect start opening cursor =
      .failed (.malformed (.openConstruct "raw" "endraw") start) := by
  have run : upTo (matchesAt (rawEnd dialect)) cursor =
      .matched (cursor.rest.take cursor.rest.length) (cursor.advance cursor.rest.length) :=
    upTo_of_first (.inl List.drop_length) (fun earlier _ =>
      Bool.eq_false_iff.mpr (mt matchesAt_rawEnd_iff.mp (unclosed earlier))) (Nat.le_refl _)
  have missed : rawEnd dialect (cursor.advance cursor.rest.length) = .noMatch := by
    rcases Quiet.cases (rawEnd dialect) (cursor.advance cursor.rest.length) with
      missed | ⟨closing, later, matched⟩
    · exact missed
    · rcases rawEnd_yields matched with ⟨rest, stands, _⟩
      exact absurd ⟨closing, rest, stands⟩ (unclosed cursor.rest.length)
  rw [rawStatementRest, rawRest, bind_assoc, bind_of_matched run, bind_apply, bind_apply,
    orElse_of_noMatch missed]
  rfl

/-- Raw text is verbatim up to the first tag that closes it. Behind a raw tag the statement yields
what stands before that tag, cut at its outer blanks, and the markers of both tags, and it ends
behind the closing one. If there is none, that the tag is not closed is reported at the beginning
of the statement; nothing else in the text is ever at fault. -/
theorem raw_ends_at_first_end_tag (stands : TagAt dialect "raw" opening cursor.rest text) :
    (∀ place closing behind, TagAt dialect "endraw" closing (text.drop place) behind →
      (∀ earlier < place, ¬ ClosesRaw dialect (text.drop earlier)) →
        ∃ passage, Parser.statement dialect body counters cursor =
            (.matched (.raw cursor.offset opening passage closing)
              (cursor.advance (cursor.rest.length - behind.length)), counters) ∧
          passage.text = String.ofList (text.take place) ∧ passage.Trimmed) ∧
    ((∀ place, ¬ ClosesRaw dialect (text.drop place)) →
      ∃ problem, Parser.statement dialect body counters cursor =
          (.failed (.malformed problem cursor.offset), counters) ∧
        problem.code = .unclosedTag) ∧
    ∀ failure, (Parser.statement dialect body counters cursor).1 = .failed failure →
      (∀ place, ¬ ClosesRaw dialect (text.drop place)) ∧
        ∃ problem, failure = .malformed problem cursor.offset ∧ problem.code = .unclosedTag := by
  rcases statement_of_raw body counters stands with ⟨begun, rfl, reaches, equation⟩
  rw [equation]
  refine ⟨?_, ?_, ?_⟩
  · intro place closing behind stands first
    rcases rawStatementRest_of_first stands first with ⟨later, rfl, reaches', matched⟩
    rw [matched, ← (reaches.trans reaches').eq_advance]
    exact ⟨_, rfl, Passage.text_ofChars _, Passage.trimmed_ofChars _⟩
  · intro unclosed
    rw [rawStatementRest_of_none unclosed]
    exact ⟨_, rfl, rfl⟩
  · intro failure failed
    by_cases closes : ∃ place, ClosesRaw dialect (begun.rest.drop place)
    · rcases Nat.find_spec closes with ⟨closing, behind, stands⟩
      rcases rawStatementRest_of_first stands fun _ before => Nat.find_min closes before with
        ⟨later, _, _, matched⟩
      rw [matched] at failed
      cases failed
    · have unclosed : ∀ place, ¬ ClosesRaw dialect (begun.rest.drop place) := not_exists.mp closes
      rw [rawStatementRest_of_none unclosed] at failed
      cases failed
      exact ⟨unclosed, _, rfl, rfl⟩

/-- What only looks like a closing tag is text. -/
theorem raw_ends_at_first_end_tag_after_others :
    let _ : Room := ⟨20⟩
    ∃ passage, Parser.statement .standard (Parser.nodes .standard) .zero
        (.start "\x7b%- raw %\x7d\x7b% endrawish %\x7d\x7b%\x7b%endraw+%\x7dx".toList) =
      (.matched (.raw 0 ⟨some .suppress, none⟩ passage ⟨none, some .preserve⟩)
        (.after "\x7b%- raw %\x7d\x7b% endrawish %\x7d\x7b%\x7b%endraw+%\x7dx".toList 38), .zero) ∧
      passage.text = "\x7b% endrawish %\x7d\x7b%" := by
  intro room
  have endsRaw : EndsName " %\x7d\x7b% endrawish %\x7d\x7b%\x7b%endraw+%\x7dx".toList := by
    rintro _ ⟨⟩
    rfl
  have endsEndraw : EndsName "+%\x7dx".toList := by
    rintro _ ⟨⟩
    rfl
  have opens : TagAt .standard "raw" ⟨some .suppress, none⟩
      (Cursor.start "\x7b%- raw %\x7d\x7b% endrawish %\x7d\x7b%\x7b%endraw+%\x7dx".toList).rest
      "\x7b% endrawish %\x7d\x7b%\x7b%endraw+%\x7dx".toList :=
    ⟨_, _, ⟨_, _, _, rfl, ⟨rfl, nofun⟩, .cons rfl (.refl _), rfl, endsRaw⟩, .cons rfl (.refl _), rfl,
      by rintro _ _ ⟨⟩; rfl⟩
  have closes : TagAt .standard "endraw" ⟨none, some .preserve⟩
      ("\x7b% endrawish %\x7d\x7b%\x7b%endraw+%\x7dx".toList.drop 17) "x".toList :=
    ⟨_, _, ⟨_, _, _, rfl, ⟨rfl, by rintro _ _ ⟨⟩; rfl⟩, .refl _, rfl, endsEndraw⟩, .refl _, rfl, nofun⟩
  have first : ∀ earlier < 17, ¬ ClosesRaw .standard
      ("\x7b% endrawish %\x7d\x7b%\x7b%endraw+%\x7dx".toList.drop earlier) := by decide +kernel
  rcases (raw_ends_at_first_end_tag opens).1 17 _ _ closes first with ⟨passage, matched, same, _⟩
  exact ⟨passage, matched, same⟩

end

end Grammar

end Templating

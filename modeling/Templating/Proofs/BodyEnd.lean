import Templating.Proofs.Alternatives
import Templating.Proofs.Blame

/-! # Where bodies end

A body ends at the end of the source or at a tag whose word begins no statement. What stands behind
a body is therefore always told by the word of a tag, and a construct that is not closed there is
reported with that word. -/

namespace Templating

variable {room : Room}

open Grammar (Blaming Certain bind_of_matched exact)
open Problem (isSpecific)

/-- A body can end at the cursor: nothing is left, or a tag stands there whose word is missing or
begins no statement. -/
def Cursor.EndsBody (dialect : Dialect) (cursor : Cursor) : Prop :=
  cursor.rest = [] ∨ ∃ offset word later,
    Grammar.tagHead dialect cursor = .matched (offset, word) later ∧
      ∀ text ∈ word, Keyword.ofWord? text = none

variable {dialect : Dialect} {cursor later : Cursor}

/-- Where a body can end, one can end behind what reads nothing or ends like a body. -/
theorem Cursor.EndsBody.behind {nothing : Prop} (ends : cursor.EndsBody dialect)
    (moved : nothing ∧ cursor = later ∨ later.EndsBody dialect) : later.EndsBody dialect := by
  rcases moved with ⟨_, rfl⟩ | ends'
  · exact ends
  · exact ends'

/-! ## The end of a body -/

theorem Grammar.exact_of_stands {text : List Char} (stands : text <+: cursor.rest) :
    exact text cursor = .matched () (cursor.advance text.length) :=
  if_pos (List.isPrefixOf_iff_prefix.mpr stands)

/-- If a tag begins no statement, the reason is its word. -/
theorem Cursor.endsBody_of_statementStart (stands : dialect.blockStart.chars <+: cursor.rest)
    (missed : Parser.statementStart dialect cursor = .noMatch) : cursor.EndsBody dialect := by
  have opening := Grammar.exact_of_stands stands
  rcases Grammar.Quiet.cases Grammar.edge _ with unmarked | ⟨trim, second, marked⟩
  · exact absurd unmarked (Certain.ne_noMatch _)
  have blanks : Grammar.spaces second = .matched () second.skipSpaces := rfl
  rw [Parser.statementStart, Grammar.here_bind, bind_of_matched opening, bind_of_matched marked,
    bind_of_matched blanks] at missed
  have head : Grammar.tagHead dialect cursor = (Grammar.optional Grammar.name >>= fun word =>
      pure (second.skipSpaces.offset, word)) second.skipSpaces := by
    rw [Grammar.tagHead, bind_of_matched opening, bind_of_matched marked, bind_of_matched blanks,
      Grammar.here_bind]
  rcases Grammar.Quiet.cases Grammar.name second.skipSpaces with noName | ⟨word, last, named⟩
  · rw [bind_of_matched (Grammar.optional_of_noMatch noName)] at head
    exact .inr ⟨_, none, _, head, fun text member => absurd member (Option.not_mem_none text)⟩
  · rw [bind_of_matched (Grammar.optional_of_matched named)] at head
    refine .inr ⟨_, some word, _, head, ?_⟩
    rintro _ ⟨⟩
    rw [bind_of_matched named] at missed
    cases known : Keyword.ofWord? word with
    | none => rfl
    | some keyword =>
        rw [known] at missed
        cases missed

namespace Scoped

section

variable {inLoop : Bool} {bodies : Part → Grammar (List Node)} [∀ part, Certain (bodies part)]

/-- Where no node stands, a body can end. -/
theorem endsBody_of_node (missed : node dialect inLoop bodies cursor = .noMatch) :
    cursor.EndsBody dialect := by
  by_cases further : cursor.rest = []
  · exact .inl further
  have begun : ∃ alternative, Alternative.Begins dialect cursor alternative :=
    Alternative.exists_begins further
  simp only [node, Grammar.orElse_eq_noMatch] at missed
  rcases missed with ⟨noText, noComment, noOutput, noStatement⟩
  rcases begun with ⟨_ | _ | _ | _, begins⟩
  case text =>
      rcases begins with ⟨_, _, matched⟩
      rw [matched] at noText
      cases noText
  case comment =>
      rw [Grammar.comment, Grammar.here_bind,
        bind_of_matched (Grammar.exact_of_stands begins)] at noComment
      exact absurd noComment (Certain.ne_noMatch _)
  case output =>
      rw [Grammar.output, Grammar.here_bind,
        bind_of_matched (Grammar.exact_of_stands begins)] at noOutput
      exact absurd noOutput (Certain.ne_noMatch _)
  case statement =>
      rcases Grammar.bind_eq_noMatch.mp noStatement with noStart | ⟨start, middle, _, noRest⟩
      · exact Cursor.endsBody_of_statementStart begins noStart
      · exact absurd noRest (Certain.ne_noMatch _)

end

/-- Wherever the rule matches up to, a body can end. -/
class Ending {α : Type} (dialect : Dialect) (rule : Grammar α) : Prop where
  endsBody {cursor later : Cursor} {value : α} :
    rule cursor = .matched value later → later.EndsBody dialect

instance (outside : Counters) (levels : Nat) (scope : List Part) :
    Ending dialect (nodesWithin dialect outside levels scope) :=
  ⟨fun {cursor later nodes} matched => by
    cases levels with
    | zero => cases matched
    | succ levels =>
        rw [nodesWithin] at matched
        split at matched
        · cases matched
        · by_cases further : later.rest = []
          · exact .inl further
          · exact endsBody_of_node (Grammar.noMatch_of_many matched further)⟩

/-! ## Constructs behind their bodies -/

section

variable {α β : Type} {rule : Grammar α} {next : α → Grammar β}

instance [∀ value, Ending dialect (next value)] : Ending dialect (rule >>= next) :=
  ⟨fun matched => by
    rcases Grammar.bind_eq_matched.mp matched with ⟨value, middle, _, matched⟩
    exact Ending.endsBody matched⟩

instance [Ending dialect rule] (function : α → β) :
    Ending dialect (rule >>= fun value => pure (function value)) :=
  ⟨fun matched => by
    rcases Grammar.bind_eq_matched.mp matched with ⟨value, middle, matched, same⟩
    cases same
    exact Ending.endsBody matched⟩

/-- If a repeated rule matches at all, a body can end behind it. -/
theorem endsBody_of_many [Ending dialect rule] {values : List α}
    (matched : Grammar.many rule cursor = .matched values later) :
    values = [] ∧ cursor = later ∨ later.EndsBody dialect := by
  have repeated := Grammar.repeated_of_many matched
  clear matched
  induction repeated with
  | nil => exact .inl ⟨rfl, rfl⟩
  | cons first _ induction =>
      rcases induction with ⟨rfl, rfl⟩ | ends
      · exact .inr (Ending.endsBody first)
      · exact .inr ends

theorem endsBody_of_optional [Ending dialect rule] {value : Option α}
    (matched : Grammar.optional rule cursor = .matched value later) :
    value = none ∧ cursor = later ∨ later.EndsBody dialect := by
  rcases Grammar.optional_eq_matched.mp matched with ⟨_, _, matched⟩ | ⟨rfl, rfl, _⟩
  · exact .inr (Ending.endsBody matched)
  · exact .inl ⟨rfl, rfl⟩

end

section

variable (body : Grammar (List Node)) [Ending dialect body]

instance : Ending dialect (elseIfBranch dialect body) := by
  unfold elseIfBranch
  infer_instance

instance : Ending dialect (elseBranch dialect body) := by
  unfold elseBranch
  infer_instance

instance : Ending dialect (whenArm dialect body) := by
  unfold whenArm
  infer_instance

instance : Ending dialect (elseArm dialect body) := by
  unfold elseArm
  infer_instance

theorem endsBody_of_laterArms {otherwise : Option Arm} {arms : List Arm}
    (matched : laterArms dialect body otherwise cursor = .matched arms later) :
    arms = [] ∧ cursor = later ∨ later.EndsBody dialect := by
  cases otherwise with
  | none =>
      cases matched
      exact .inl ⟨rfl, rfl⟩
  | some _ => exact endsBody_of_many matched

/-- A body can end behind the arms of a choice, if there are arms with a pattern. -/
theorem endsBody_of_arms {before after : List Arm} {otherwise : Option Arm}
    {first second third : Cursor}
    (beforeRead : Grammar.many (whenArm dialect body) cursor = .matched before first)
    (otherwiseRead : Grammar.optional (elseArm dialect body) first = .matched otherwise second)
    (afterRead : laterArms dialect body otherwise second = .matched after third)
    (nonempty : before ++ after ≠ []) : third.EndsBody dialect := by
  have arms : before = [] ∧ cursor = first ∨ first.EndsBody dialect := endsBody_of_many beforeRead
  rcases endsBody_of_laterArms body afterRead with ⟨rfl, rfl⟩ | ends
  · rcases arms with ⟨rfl, _⟩ | ends
    · exact absurd rfl nonempty
    · exact ends.behind (endsBody_of_optional otherwiseRead)
  · exact ends

end

end Scoped

/-! ## What is named there -/

namespace Grammar

/-- If the rule finds the source malformed where it is begun, the problem that it names is
specific. -/
structure SpecificAt {α : Type} (rule : Grammar α) (cursor : Cursor) : Prop where
  specific {problem : Problem} {offset : Nat} :
    rule cursor = .failed (.malformed problem offset) → problem.isSpecific = true

section

variable {α β : Type} {rule other : Grammar α} {next : α → Grammar β}

theorem specificAt (rule : Grammar α) [Blaming isSpecific rule] (cursor : Cursor) :
    rule.SpecificAt cursor :=
  ⟨Blaming.admitted⟩

theorem blaming_of_specificAt (specific : ∀ cursor, rule.SpecificAt cursor) :
    Blaming isSpecific rule :=
  ⟨(specific _).specific⟩

/-- What follows may make use of how the first rule has matched. -/
theorem SpecificAt.bind (first : rule.SpecificAt cursor)
    (second : ∀ value later, rule cursor = .matched value later → (next value).SpecificAt later) :
    (rule >>= next).SpecificAt cursor :=
  ⟨fun failed => by
    rcases bind_eq_failed.mp failed with failed | ⟨value, later, matched, failed⟩
    · exact first.specific failed
    · exact (second value later matched).specific failed⟩

theorem SpecificAt.after [Blaming isSpecific rule]
    (second : ∀ value later, rule cursor = .matched value later → (next value).SpecificAt later) :
    (rule >>= next).SpecificAt cursor :=
  .bind (specificAt rule cursor) second

theorem SpecificAt.orElse (first : rule.SpecificAt cursor) (second : other.SpecificAt cursor) :
    (rule <|> other).SpecificAt cursor :=
  ⟨fun failed => by
    rcases orElse_eq_failed.mp failed with failed | ⟨_, failed⟩
    · exact first.specific failed
    · exact second.specific failed⟩

end

variable (ends : cursor.EndsBody dialect)

include ends

/-- A construct that is not closed where a body has ended is reported with the end of the source or
with the tag that stands there. -/
theorem missingEndTag_specific {α : Type} (opener closer : String) (start : Nat) :
    (missingEndTag dialect opener closer start : Grammar α).SpecificAt cursor := by
  constructor
  intro problem offset failed
  unfold missingEndTag at failed
  split at failed
  case isTrue =>
      cases failed
      rfl
  case isFalse further =>
      rcases ends with nothing | ⟨_, word, _, head, _⟩
      · exact absurd (List.isEmpty_iff.mpr nothing) further
      · have told : ∃ tag, tag ≠ .text ∧ found dialect cursor = .matched tag cursor := by
          unfold found
          rw [head]
          cases word with
          | none => exact ⟨.malformedTag, nofun, rfl⟩
          | some word => exact ⟨.tag word, nofun, rfl⟩
        rcases told with ⟨tag, isTag, told⟩
        rw [bind_of_matched told] at failed
        cases failed
        exact bne_iff_ne.mpr isTag

theorem endTag_specific (opener closer : String) (start : Nat) :
    (endTag dialect opener closer start).SpecificAt cursor :=
  .orElse (specificAt _ cursor) (missingEndTag_specific ends opener closer start)

/-- What stands behind the outermost body is a tag that goes on with a construct, or whose word is
missing or not known. -/
theorem endOfSource_specific : (endOfSource dialect).SpecificAt cursor := by
  constructor
  intro problem offset failed
  unfold endOfSource at failed
  split at failed
  case isTrue => cases failed
  case isFalse further =>
      rcases ends with nothing | ⟨_, word, _, head, unknown⟩
      · exact absurd (List.isEmpty_iff.mpr nothing) further
      · unfold unexpected at failed
        rw [head] at failed
        cases word with
        | none =>
            cases failed
            rfl
        | some word =>
            dsimp only at failed
            split at failed
            · cases failed
              rfl
            · cases failed
              rw [isSpecific, unknown word rfl]
              rfl

end Grammar

namespace Scoped

open Grammar (SpecificAt specificAt endTag_specific missingEndTag_specific)

section

variable (opened : OpenedTag) (body alternative : Grammar (List Node))
  [Blaming isSpecific body] [Blaming isSpecific alternative]

instance : Blaming isSpecific (elseIfBranch dialect body) := by
  unfold elseIfBranch
  infer_instance

instance : Blaming isSpecific (elseBranch dialect body) := by
  unfold elseBranch
  infer_instance

instance : Blaming isSpecific guard := by
  unfold guard
  infer_instance

instance (inLoop : Bool) (keyword : Keyword) (node : Nat → Edges → Node) :
    Blaming isSpecific (loopControl opened inLoop keyword node) := by
  unfold loopControl
  infer_instance

instance : Blaming isSpecific (whenArm dialect body) := by
  unfold whenArm
  infer_instance

instance : Blaming isSpecific (elseArm dialect body) := by
  unfold elseArm
  infer_instance

instance (otherwise : Option Arm) : Blaming isSpecific (laterArms dialect body otherwise) := by
  cases otherwise with
  | none => exact inferInstanceAs (Blaming isSpecific (pure []))
  | some _ => exact inferInstanceAs (Blaming isSpecific (Grammar.many (whenArm dialect body)))

variable [Ending dialect body] [Ending dialect alternative]

/-- The tag that closes a construct is looked for where a body can end. -/
theorem SpecificAt.closing {α : Type} {next : Option Trim → Grammar α} {opener closer : String}
    {start : Nat} [∀ trim, Blaming isSpecific (next trim)] (ends : cursor.EndsBody dialect) :
    (Grammar.endTag dialect opener closer start >>= next).SpecificAt cursor :=
  (endTag_specific ends opener closer start).bind fun trim later _ => specificAt (next trim) later

instance : Blaming isSpecific (conditional dialect body opened) := by
  apply Grammar.blaming_of_specificAt
  intro cursor
  apply SpecificAt.after
  intro condition _ _
  apply SpecificAt.after
  intro right _ _
  apply SpecificAt.after
  intro first atFirst firstRead
  have ends : atFirst.EndsBody dialect := Ending.endsBody firstRead
  apply SpecificAt.after
  intro others atOthers othersRead
  have ends := ends.behind (endsBody_of_many othersRead)
  apply SpecificAt.after
  intro last atLast lastRead
  have ends := ends.behind (endsBody_of_optional lastRead)
  apply SpecificAt.after
  intro _ atEnd rejected
  cases ((Parser.rejectElse_eq_matched dialect).mp rejected).2
  exact SpecificAt.closing ends

theorem loopRest_specific (ends : cursor.EndsBody dialect) :
    (loopRest dialect opened alternative).SpecificAt cursor := by
  refine .orElse (specificAt _ cursor) (.orElse ?_ (missingEndTag_specific ends _ _ _))
  apply SpecificAt.after
  intro middle _ _
  apply SpecificAt.after
  intro right _ _
  apply SpecificAt.after
  intro nodes atEnd read
  exact SpecificAt.closing (Ending.endsBody read)

instance : Blaming isSpecific (loop dialect body opened alternative) := by
  apply Grammar.blaming_of_specificAt
  intro cursor
  apply SpecificAt.after
  intro pattern _ _
  apply SpecificAt.after
  intro _ _ _
  apply SpecificAt.after
  intro iterable _ _
  apply SpecificAt.after
  intro condition _ _
  apply SpecificAt.after
  intro right _ _
  apply SpecificAt.after
  intro nodes atRest read
  exact (loopRest_specific opened alternative (Ending.endsBody read)).bind fun rest later _ =>
    specificAt _ later

instance : Blaming isSpecific (choice dialect body opened) := by
  apply Grammar.blaming_of_specificAt
  intro cursor
  apply SpecificAt.after
  intro subject _ _
  apply SpecificAt.after
  intro right _ _
  apply SpecificAt.after
  intro _ atArms _
  apply SpecificAt.after
  intro before atOtherwise beforeRead
  apply SpecificAt.after
  intro otherwise atAfter otherwiseRead
  apply SpecificAt.after
  intro after atRest afterRead
  apply SpecificAt.after
  intro _ atRequired rejected
  apply SpecificAt.after
  intro _ atEnd required
  cases ((Parser.rejectElse_eq_matched dialect).mp rejected).2
  rcases Parser.requireArm_eq_matched.mp required with ⟨nonempty, rfl⟩
  exact SpecificAt.closing (endsBody_of_arms body beforeRead otherwiseRead afterRead nonempty)

instance : Blaming isSpecific (block dialect body opened) := by
  apply Grammar.blaming_of_specificAt
  intro cursor
  apply SpecificAt.after
  intro name _ _
  apply SpecificAt.after
  intro right _ _
  apply SpecificAt.after
  intro nodes atEnd read
  exact SpecificAt.closing (Ending.endsBody read)

instance : Blaming isSpecific (macroDef dialect body opened) := by
  apply Grammar.blaming_of_specificAt
  intro cursor
  apply SpecificAt.after
  intro _ _ _
  apply SpecificAt.after
  intro nameOffset _ _
  apply SpecificAt.after
  intro name _ _
  apply SpecificAt.after
  intro _ _ _
  apply SpecificAt.after
  intro parameters _ _
  apply SpecificAt.after
  intro right _ _
  apply SpecificAt.after
  intro nodes atEnd read
  exact SpecificAt.closing (Ending.endsBody read)

end

section

variable (opened : OpenedTag) (inLoop : Bool) (bodies : Part → Grammar (List Node))
  [∀ part, Blaming isSpecific (bodies part)] [∀ part, Ending dialect (bodies part)]

instance (keyword : Keyword) :
    Blaming isSpecific (statementRest dialect opened inLoop bodies keyword) := by
  cases keyword <;> unfold statementRest <;> infer_instance

instance : Blaming isSpecific (statement dialect inLoop bodies) := by
  unfold statement
  infer_instance

instance : Blaming isSpecific (node dialect inLoop bodies) := by
  unfold node
  infer_instance

end

instance (outside : Counters) (levels : Nat) (scope : List Part) :
    Blaming isSpecific (nodesWithin dialect outside levels scope) := by
  induction levels generalizing scope with
  | zero => exact inferInstanceAs (Blaming isSpecific (Grammar.fail _))
  | succ levels induction =>
      unfold nodesWithin
      infer_instance

instance : Blaming isSpecific (document dialect) := by
  apply Grammar.blaming_of_specificAt
  intro cursor
  have ending : Ending dialect (nodes dialect .zero) :=
    inferInstanceAs (Ending dialect (nodesWithin dialect .zero (dialect.maxDepth + 1) [.template]))
  have blaming : Blaming isSpecific (nodes dialect .zero) :=
    inferInstanceAs (Blaming isSpecific
      (nodesWithin dialect .zero (dialect.maxDepth + 1) [.template]))
  apply SpecificAt.after
  intro body atEnd read
  exact (Grammar.endOfSource_specific (Ending.endsBody read)).bind fun _ later _ =>
    specificAt _ later

end Scoped

/-! ## Whole sources -/

theorem Parser.endsBody_of_nodesWithin {levels : Nat} {counters counters' : Counters}
    {body : List Node}
    (matched : nodesWithin dialect levels counters cursor = (.matched body later, counters')) :
    later.EndsBody dialect :=
  Scoped.Ending.endsBody (scoped_of_nodesWithin dialect matched)

theorem Template.isSpecific_of_parse {source : Source} {problem : Problem} {offset : Nat}
    (failed : parse dialect source = .error (.malformed problem offset)) :
    problem.isSpecific = true := by
  rw [parse_eq_scoped] at failed
  cases run : Scoped.document dialect (.start source.chars) with
  | matched body later => simp [run] at failed
  | noMatch => exact absurd run (Certain.ne_noMatch _)
  | failed failure =>
      simp only [run, Except.error.injEq] at failed
      rw [failed] at run
      exact Blaming.admitted run

/-- At every place before the end of a source exactly one of four kinds of nodes can begin, and it
does not matter in which order they are tried. Every body ends at the end of the source or at a tag
whose word is missing or begins no statement, so that no parse fails for input that is merely
unexpected, for text in the place of an end tag, or for an unknown word that is the word of a
statement. -/
theorem bodies_are_unambiguous (dialect : Dialect) :
    (∀ cursor : Cursor, cursor.rest ≠ [] →
      ∃ alternative, Alternative.Begins dialect cursor alternative ∧
        ∀ other, Alternative.Begins dialect cursor other → other = alternative) ∧
    (∀ order : List Alternative, order.Perm Alternative.all →
      (∀ body, Alternative.firstOf dialect body order = Parser.node dialect body) ∧
        (∀ levels, Parser.nodesTrying dialect order levels = Parser.nodesWithin dialect levels) ∧
          Parser.documentTrying dialect order = Parser.document dialect) ∧
    (∀ (levels : Nat) (counters counters' : Counters) (cursor later : Cursor) (body : List Node),
      Parser.nodesWithin dialect levels counters cursor = (.matched body later, counters') →
        later.EndsBody dialect) ∧
    (∀ (source : Source) (problem : Problem) (offset : Nat),
      Template.parse dialect source = .error (.malformed problem offset) →
        problem ≠ .unexpectedInput ∧ (∀ opener closer, problem ≠ .wrongEndTag opener closer .text) ∧
          ∀ word, problem = .unknownWord word → Keyword.ofWord? word = none) := by
  refine ⟨fun cursor further => ?_, fun order same => ?_, fun _ _ _ _ _ _ matched => ?_,
    fun source problem offset failed => ?_⟩
  · rcases Alternative.exists_begins further with ⟨alternative, begins⟩
    exact ⟨alternative, begins, fun other begins' => Alternative.eq_of_begins begins' begins⟩
  · exact ⟨Alternative.firstOf_eq_node same, Parser.nodesTrying_eq dialect same,
      Parser.documentTrying_eq dialect same⟩
  · exact Parser.endsBody_of_nodesWithin matched
  · have specific := Template.isSpecific_of_parse failed
    refine ⟨?_, ?_, ?_⟩
    · rintro rfl
      cases specific
    · rintro opener closer rfl
      cases specific
    · rintro word rfl
      exact Option.isNone_iff_eq_none.mp specific

/-- A misspelled end tag ends the body of a conditional, and the parse with its own word. -/
theorem bodies_are_unambiguous_misspelled_end :
    let _ : Room := ⟨20⟩
    (∃ alternative, Alternative.Begins .standard (.start "\x7b% if".toList) alternative ∧
      ∀ other, Alternative.Begins .standard (.start "\x7b% if".toList) other →
        other = alternative) ∧
    Parser.documentTrying .standard [.statement, .output, .comment, .text] =
      Parser.document .standard ∧
    (∃ body later counters, Parser.nodesWithin .standard 1 .zero
        (.start "a\x7b% endfi %\x7d".toList) = (.matched body later, counters) ∧
      later.EndsBody .standard) ∧
    ∃ problem offset, Template.parse .standard ⟨"\x7b% if x %\x7da\x7b% endfi %\x7d", none, none⟩ =
        .error (.malformed problem offset) ∧
      problem = .wrongEndTag "if" "endif" (.tag "endfi") ∧
      ∀ opener closer, problem ≠ .wrongEndTag opener closer .text := by
  intro room
  rcases bodies_are_unambiguous .standard with ⟨apart, orders, ends, told⟩
  have failed : Template.parse .standard
      ⟨"\x7b% if x %\x7da\x7b% endfi %\x7d", none, none⟩ = .error (.malformed _ _) := rfl
  have matched : Parser.nodesWithin .standard 1 .zero (.start "a\x7b% endfi %\x7d".toList) =
      (.matched _ _, _) := rfl
  exact ⟨apart _ (by decide), (orders _ (by decide)).2.2,
    ⟨_, _, _, matched, ends _ _ _ _ _ _ matched⟩, ⟨_, _, failed, rfl, (told _ _ _ failed).2.1⟩⟩

end Templating

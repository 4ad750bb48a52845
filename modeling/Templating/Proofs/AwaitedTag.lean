import Templating.Proofs.NameEnd
import Templating.Proofs.OpenConstruct
import Templating.Proofs.Pending

/-! # Tags at which bodies stop

A body stops at the name of a tag that begins no statement. The construct around the body either goes
on behind that very name, or ends the parse with it: what fails inside a body that the parse comes to
is the failure of the whole, so no other construct has a say in it. -/

namespace Templating

variable {room : Room}

/-- The construct around a body, if its first body stands right behind its opening tag. -/
def Part.opener? : Part → Option Opener
  | .branch => some .conditional
  | .loopBody | .alternative => some .loop
  | .block => some .block
  | .macroBody => some .macroDef
  | .template | .arm => none

/-- The end tag that is wrong is named between quotes. -/
theorem Problem.message_wrongEndTag {opener closer word : String} :
    (wrongEndTag opener closer (.tag word)).message =
      "Expected '" ++ closer ++ "' to close '" ++ opener ++ "', found '" ++ word ++ "'" := by
  show "Expected '" ++ closer ++ "' to close '" ++ opener ++ "', found " ++ ("'" ++ word ++ "'") = _
  have quoted : "', found '" = "', found " ++ "'" := rfl
  simp only [quoted, String.append_assoc]

namespace Scoped

open Grammar (Advancing Always Certain Consuming Repeated bind_eq_matched bind_of_matched bind_of_failed
  tag tagName missingEndTag)

/-! ## Bodies that a construct comes to -/

section

variable (dialect : Dialect) (opened : OpenedTag) (bodies : Part → Grammar (List Node))
  (keyword : Keyword) (cursor : Cursor)

/-- A construct that stands behind its word at the cursor comes to a body at a place: to its first one,
or to a further one behind a tag that it waits for. -/
inductive OpensBody [Room] : Pending → (place : Cursor) → Prop
  | first {pending : Pending} {place : Cursor} :
      opening dialect opened keyword cursor = .matched pending place → OpensBody pending place
  | further {pending pending' : Pending} {nodes : List Node} {found : OpenedTag}
      {place stop later place' : Cursor} :
      OpensBody pending place → bodies pending.part place = .matched nodes stop →
      tag dialect pending.part.awaited stop = .matched found later →
      pending.goOn dialect opened nodes found later = .matched (.inl pending') place' →
      OpensBody pending' place'

end

section

variable {dialect : Dialect} {opened told : OpenedTag} {inLoop : Bool}
  {bodies : Part → Grammar (List Node)} {keyword : Keyword} {pending pending' : Pending}
  {opener : Opener} {nodes : List Node} {cursor place stop later : Cursor} {failure : Failure}

theorem opener_of_opening : Always (fun pending => pending.part.opener? = some opener)
    (opening dialect opened opener.keyword) := by
  cases opener with
  | conditional => exact .bind fun _ => .bind fun _ => .pure rfl
  | loop => exact .bind fun _ => .bind fun _ => .bind fun _ => .bind fun _ => .bind fun _ => .pure rfl
  | block => exact .bind fun _ => .bind fun _ => .pure rfl
  | macroDef =>
      exact .bind fun _ => .bind fun _ => .bind fun _ => .bind fun _ => .bind fun _ => .bind fun _ =>
        .pure rfl

theorem part_of_branchHeading {before : List Branch} :
    Always (fun pending => pending.part = .branch) (branchHeading dialect before told) :=
  .orElse (.bind fun _ => .bind fun _ => .bind fun _ => .pure rfl) (.bind fun _ => .pure rfl)

theorem part_of_armHeading {outer : Option Trim} {subject : Expr} {before : Attempt.ArmState} :
    Always (fun pending => pending.part = .arm) (armHeading dialect outer subject before told) := by
  unfold armHeading
  split
  · exact .bind fun _ => .bind fun _ => .pure rfl
  · split
    · exact nofun
    · exact .bind fun _ => .pure rfl

/-- A further body belongs to the same construct. -/
theorem Pending.opener_of_goOn
    (goesOn : pending.goOn dialect opened nodes told cursor = .matched (.inl pending') place) :
    pending'.part.opener? = pending.part.opener? := by
  cases pending with
  | branch before found right condition =>
      by_cases isEnd : told.word = "endif"
      · rw [goOn, if_pos isEnd] at goesOn
        rcases bind_eq_matched.mp goesOn with ⟨_, _, _, done⟩
        cases done
      · rw [goOn, if_neg isEnd] at goesOn
        cases condition with
        | none => cases goesOn
        | some condition =>
            rcases bind_eq_matched.mp goesOn with ⟨_, _, headed, done⟩
            cases done
            rw [part_of_branchHeading _ _ _ headed]
            rfl
  | loopBody heading =>
      by_cases isEnd : told.word = "endfor"
      · rw [goOn, if_pos isEnd] at goesOn
        rcases bind_eq_matched.mp goesOn with ⟨_, _, _, done⟩
        cases done
      · rw [goOn, if_neg isEnd] at goesOn
        rcases bind_eq_matched.mp goesOn with ⟨_, _, _, done⟩
        cases done
        rfl
  | alternative heading body middle =>
      rcases bind_eq_matched.mp goesOn with ⟨_, _, _, done⟩
      cases done
  | arm outer subject before found right pattern =>
      rcases bind_eq_matched.mp goesOn with ⟨_, _, headed, done⟩
      cases done
      rw [part_of_armHeading _ _ _ headed]
      rfl
  | block right name =>
      simp only [goOn, bind_eq_matched] at goesOn
      rcases goesOn with ⟨_, _, _, _, _, _, done⟩
      cases done
  | macroBody right name parameters =>
      simp only [goOn, bind_eq_matched] at goesOn
      rcases goesOn with ⟨_, _, _, _, _, _, done⟩
      cases done

theorem OpensBody.opener_eq
    (opens : OpensBody dialect opened bodies opener.keyword cursor pending place) :
    pending.part.opener? = some opener := by
  induction opens with
  | first begun => exact opener_of_opening _ _ _ begun
  | further _ _ _ goesOn induction => exact (Pending.opener_of_goOn goesOn).trans induction

/-- A construct that is not closed is reported with its own word and the word of its end tag. -/
theorem Pending.unmet_eq (inside : pending.part.opener? = some opener) :
    pending.unmet dialect opened nodes =
      missingEndTag dialect opener.keyword.word opener.closer opened.offset := by
  cases pending <;> cases inside <;> rfl

/-- Where a tag with a name stands, it is told that this tag is the wrong one. -/
theorem missingEndTag_of_tagName {α : Type} {opener closer : String} {start : Nat}
    (named : tagName dialect stop = .matched told later) :
    (missingEndTag dialect opener closer start : Grammar α) stop =
      .failed (.malformed (.wrongEndTag opener closer (.tag told.word)) stop.offset) := by
  rcases bind_eq_matched.mp named with ⟨_, _, begun, _⟩
  rcases Grammar.tagStart_yields begun with ⟨_, _, marked, _, shape, _⟩
  have solid : Text.Solid stop.rest := shape ▸ Grammar.solid_delimiter dialect.blockStart marked
  have further : ¬ stop.atEnd = true := by
    have long := dialect.blockStart.long
    rw [Cursor.atEnd, List.isEmpty_iff, shape, List.append_eq_nil_iff]
    rintro ⟨nothing, _⟩
    simp [nothing] at long
  rw [missingEndTag, if_neg further, bind_of_matched (Grammar.found_of_tagName named), Grammar.fail,
    Grammar.skipSpaces_of_solid solid]

variable [∀ part, Advancing (bodies part)] [∀ part, Certain (bodies part)]
  (opens : OpensBody dialect opened bodies keyword cursor pending place)

include opens

/-- What has been read up to a body does not matter behind it. -/
theorem OpensBody.statementRest_eq : statementRest dialect opened inLoop bodies keyword cursor =
    pending.rest dialect opened bodies place := by
  induction opens with
  | first begun => exact statementRest_of_opening begun
  | further _ read tagged goesOn induction =>
      rw [induction, Pending.rest, bind_of_matched read, Pending.behind_of_tag tagged,
        bind_of_matched goesOn]
      rfl

theorem OpensBody.statementRest_failed (failed : bodies pending.part place = .failed failure) :
    statementRest dialect opened inLoop bodies keyword cursor = .failed failure := by
  rw [opens.statementRest_eq, Pending.rest, bind_of_failed failed]

variable (read : bodies pending.part place = .matched nodes stop)
  (named : tagName dialect stop = .matched told later)

include read named

/-- Behind the name of a tag that it waits for, a construct goes on. -/
theorem OpensBody.goes_on (among : told.word ∈ pending.part.awaited) :
    tag dialect pending.part.awaited stop = .matched told later.skipSpaces ∧
      statementRest dialect opened inLoop bodies keyword cursor =
        (pending.goOn dialect opened nodes told >>= Pending.resume dialect opened bodies)
          later.skipSpaces := by
  have tagged : tag dialect pending.part.awaited stop = .matched told later.skipSpaces :=
    (Grammar.tag_eq_matched pending.part.isName_of_awaited).mpr ⟨among, later, named, rfl⟩
  refine ⟨tagged, ?_⟩
  rw [opens.statementRest_eq, Pending.rest, bind_of_matched read, Pending.behind_of_tag tagged]

/-- Any other name of a tag is named in what is wrong. -/
theorem OpensBody.names_tag (inside : pending.part.opener? = some opener)
    (apart : told.word ∉ pending.part.awaited) :
    statementRest dialect opened inLoop bodies keyword cursor = .failed (.malformed
      (.wrongEndTag opener.keyword.word opener.closer (.tag told.word)) stop.offset) := by
  have missed : tag dialect pending.part.awaited stop = .noMatch := by
    refine (Grammar.tag_eq_noMatch pending.part.isName_of_awaited).mpr fun other _ named' among => ?_
    cases named.symm.trans named'
    exact apart among
  rw [opens.statementRest_eq, Pending.rest, bind_of_matched read, Pending.behind_of_noTag missed,
    Pending.unmet_eq inside, missingEndTag_of_tagName named]

end

/-! ## Bodies that the parse of a source comes to -/

/-- The bodies inside a body. -/
def bodiesWithin [Room] (dialect : Dialect) (levels : Nat) (scope : List Part) (part : Part) :
    Grammar (List Node) :=
  nodesWithin dialect .zero levels (part :: scope)

/-- In a body that begins at `start` the tag of a construct opens, behind nodes that have been read. -/
structure Begins [Room] (dialect : Dialect) (levels : Nat) (scope : List Part) (start : Cursor)
    (opened : OpenedTag) (keyword : Keyword) (begun : Cursor) : Prop where
  shallow : (Counters.zero.within scope).tooDeep dialect.maxDepth = false
  reached : ∃ nodes cursor,
    Repeated (node dialect (Counters.zero.within scope).inLoop (bodiesWithin dialect levels scope)) start
      nodes cursor ∧ Parser.statementStart dialect cursor = .matched (opened, keyword) begun

/-- The parse of the source comes to a body, where these bodies are open and the first of them is the
body itself. -/
inductive BodyBegins [Room] (dialect : Dialect) (source : Source) :
    (levels : Nat) → (scope : List Part) → (start : Cursor) → Prop
  | template : BodyBegins dialect source (dialect.maxDepth + 1) [.template] (.start source.chars)
  | inside {levels : Nat} {scope : List Part} {start begun place : Cursor} {opened : OpenedTag}
      {keyword : Keyword} {pending : Pending} :
      BodyBegins dialect source (levels + 1) scope start →
      Begins dialect levels scope start opened keyword begun →
      OpensBody dialect opened (bodiesWithin dialect levels scope) keyword begun pending place →
      BodyBegins dialect source levels (pending.part :: scope) place

section

variable {dialect : Dialect} {source : Source} {levels : Nat} {scope : List Part}
  {start begun : Cursor} {opened : OpenedTag} {keyword : Keyword} {failure : Failure}

instance (levels : Nat) (scope : List Part) (part : Part) :
    Advancing (bodiesWithin dialect levels scope part) :=
  inferInstanceAs (Advancing (nodesWithin dialect .zero levels (part :: scope)))

instance (levels : Nat) (scope : List Part) (part : Part) :
    Certain (bodiesWithin dialect levels scope part) :=
  inferInstanceAs (Certain (nodesWithin dialect .zero levels (part :: scope)))

/-- A construct that fails in a body ends that body. -/
theorem Begins.nodesWithin_failed (begins : Begins dialect levels scope start opened keyword begun)
    (failed : statementRest dialect opened (Counters.zero.within scope).inLoop
      (bodiesWithin dialect levels scope) keyword begun = .failed failure) :
    nodesWithin dialect .zero (levels + 1) scope start = .failed failure := by
  rcases begins with ⟨shallow, nodes, cursor, repeated, began⟩
  rcases (Parser.statementStart_eq_matched dialect opened).mp began with ⟨_, _, _, _, _, _, opens, _⟩
  have further : cursor.rest ≠ [] := by
    have shorter := (Consuming.passes began).2
    intro nothing
    rw [nothing] at shorter
    cases shorter
  have here : node dialect (Counters.zero.within scope).inLoop (bodiesWithin dialect levels scope)
      cursor = .failed failure := by
    rw [node_eq_statement (Grammar.exact_eq_matched.mp opens).1, statement, bind_of_matched began,
      bind_of_failed failed]
  rw [nodesWithin, if_neg (by rw [shallow]; exact Bool.false_ne_true)]
  exact Grammar.many_of_repeated_failed repeated here further

/-- A body that fails ends the parse. -/
theorem BodyBegins.parse_eq_error (begins : BodyBegins dialect source levels scope start)
    (failed : nodesWithin dialect .zero levels scope start = .failed failure) :
    Template.parse dialect source = .error failure := by
  -- From the body outwards: what fails in it fails in its construct, and so in the body around that.
  induction begins with
  | template =>
      have outermost : document dialect (.start source.chars) = .failed failure := bind_of_failed failed
      rw [Template.parse_eq_scoped, outermost]
  | inside outer construct opens induction =>
      exact induction (construct.nodesWithin_failed (opens.statementRest_failed failed))

end

end Scoped

/-! ## The two readings of a word -/

/-- What holds in a dialect of the word of a tag, which is read as one of the words that are waited for
or as whatever name stands there. -/
structure WordsAgree [Room] (dialect : Dialect) : Prop where
  name {cursor later : Cursor} {value : String} : Grammar.name cursor = .matched value later →
    cursor.rest = value.toList ++ later.rest ∧ later = cursor.advance value.length
  word {word : String} (isName : Text.isName word.toList = true) {cursor later : Cursor}
      {value : String} : Grammar.word word cursor = .matched value later ↔
    Grammar.name cursor = .matched value later ∧ value = word
  unique {first second : String} (isName : Text.isName first.toList = true)
      (isName' : Text.isName second.toList = true) {cursor later later' : Cursor}
      {value value' : String} : Grammar.word first cursor = .matched value later →
    Grammar.word second cursor = .matched value' later' → first = second
  tag {words : List String} (areNames : ∀ word ∈ words, Text.isName word.toList = true)
      {cursor later : Cursor} {opened : OpenedTag} :
    Grammar.tag dialect words cursor = .matched opened later ↔ opened.word ∈ words ∧
      ∃ behind, Grammar.tagName dialect cursor = .matched opened behind ∧ later = behind.skipSpaces
  statement : Parser.statementStart dialect = (do
    let opened ← Grammar.tagName dialect
    match Keyword.ofWord? opened.word with
    | none => Grammar.noMatch
    | some keyword =>
        Grammar.spaces
        return (opened, keyword))
  /-- Wherever in the parse of a source a body of a conditional, loop, block or macro stops at a tag with
  a name. -/
  stop {source : Source} {levels : Nat} {scope : List Part} {start begun place stop behind : Cursor}
      {opened told : OpenedTag} {opener : Opener} {pending : Scoped.Pending} {nodes : List Node}
      (outer : Scoped.BodyBegins dialect source (levels + 1) scope start)
      (construct : Scoped.Begins dialect levels scope start opened opener.keyword begun)
      (opens : Scoped.OpensBody dialect opened (Scoped.bodiesWithin dialect levels scope) opener.keyword
        begun pending place)
      (read : Scoped.bodiesWithin dialect levels scope pending.part place = .matched nodes stop)
      (named : Grammar.tagName dialect stop = .matched told behind) :
    (told.word ∈ pending.part.awaited ∧
      Grammar.tag dialect pending.part.awaited stop = .matched told behind.skipSpaces ∧
        Scoped.statementRest dialect opened (Counters.zero.within scope).inLoop
            (Scoped.bodiesWithin dialect levels scope) opener.keyword begun =
          (pending.goOn dialect opened nodes told >>=
            Scoped.Pending.resume dialect opened (Scoped.bodiesWithin dialect levels scope))
              behind.skipSpaces) ∨
    (told.word ∉ pending.part.awaited ∧ ∃ problem,
      Template.parse dialect source = .error (.malformed problem stop.offset) ∧
        problem.message = "Expected '" ++ opener.closer ++ "' to close '" ++ opener.keyword.word ++
          "', found '" ++ told.word ++ "'")

/-- A word that is itself a name is the word of a tag exactly if it is the name that stands there, so at
most one word of several is, and a tag with one of several words is the one that the beginning of a
statement would be told by. So a tag with a name at which a body stops is read by the construct around
the body, or the parse ends and names it. -/
theorem words_of_tags_agree (dialect : Dialect) : WordsAgree dialect where
  name := Grammar.eq_advance_of_name
  word isName := Grammar.word_eq_matched isName
  unique isName isName' := Grammar.word_unique isName isName'
  tag areNames := Grammar.tag_eq_matched areNames
  statement := Grammar.statementStart_eq_tagName
  stop {_ _ _ _ _ _ _ _ _ told _ pending _} outer construct opens read named := by
    by_cases among : told.word ∈ pending.part.awaited
    · exact .inl ⟨among, opens.goes_on read named among⟩
    · have failed := construct.nodesWithin_failed (opens.names_tag read named opens.opener_eq among)
      exact .inr ⟨among, _, outer.parse_eq_error failed, Problem.message_wrongEndTag⟩

/-- Behind the body of a conditional the word that ends a loop is named. Where the body ends with its own
end tag that is read, since it is the name that stands there. -/
theorem words_of_tags_agree_wrong_end :
    let _ : Room := ⟨20⟩
    (∃ problem, Template.parse .standard ⟨"\x7b% if x %\x7da\x7b%- endfor %\x7d", none, none⟩ =
        .error (.malformed problem 11) ∧
      problem.message = "Expected 'endif' to close 'if', found 'endfor'") ∧
    Grammar.tag .standard ["else", "endif"] (.start "\x7b%- endif %\x7d".toList) =
      .matched ⟨0, some .suppress, "endif"⟩ (.after "\x7b%- endif %\x7d".toList 10) ∧
    Grammar.word "endif" (.start "endif2".toList) = .noMatch := by
  intro room
  have agree : WordsAgree .standard := words_of_tags_agree .standard
  have outer : Scoped.BodyBegins .standard ⟨"\x7b% if x %\x7da\x7b%- endfor %\x7d", none, none⟩
      (Dialect.standard.maxDepth + 1) [.template]
        (.start "\x7b% if x %\x7da\x7b%- endfor %\x7d".toList) :=
    .template
  have construct : Scoped.Begins .standard Dialect.standard.maxDepth [.template]
      (.start "\x7b% if x %\x7da\x7b%- endfor %\x7d".toList) ⟨0, none, "if"⟩
        Opener.conditional.keyword ⟨6, "x %\x7da\x7b%- endfor %\x7d".toList⟩ :=
    ⟨rfl, [], _, .nil _, rfl⟩
  have headed : Scoped.opening .standard ⟨0, none, "if"⟩ Opener.conditional.keyword
      ⟨6, "x %\x7da\x7b%- endfor %\x7d".toList⟩ = .matched _ _ := rfl
  have read : Scoped.bodiesWithin .standard Dialect.standard.maxDepth [.template] .branch
      ⟨10, "a\x7b%- endfor %\x7d".toList⟩ = .matched _ _ := rfl
  have named : Grammar.tagName .standard ⟨11, "\x7b%- endfor %\x7d".toList⟩ =
      .matched ⟨11, _, "endfor"⟩ _ := rfl
  refine ⟨?_, ?_, ?_⟩
  · rcases agree.stop outer construct (.first headed) read named with ⟨among, _⟩ | ⟨_, told⟩
    · exact absurd among (by decide)
    · exact told
  · exact (agree.tag (by decide)).mpr ⟨by decide, _, rfl, rfl⟩
  · rcases Grammar.Quiet.cases (Grammar.word "endif") (.start "endif2".toList) with
      missed | ⟨value, later, matched⟩
    · exact missed
    · rcases (agree.word (by decide)).mp matched with ⟨named, rfl⟩
      have whole : Grammar.name (.start "endif2".toList) = .matched "endif2" _ := rfl
      obtain ⟨other, _⟩ := Outcome.matched.inj (whole.symm.trans named)
      exact absurd other (by decide)

end Templating

import Templating.Proofs.Concatenation

/-! # Constructs that are not closed

A source that ends inside constructs is reported at the opening tag of the innermost one. What
stands before that tag is read and does not matter, nor how many constructs are open around it: a
failure inside a body is a failure of the whole. The proof goes from the innermost construct
outwards. -/

namespace Templating

variable {room : Room}

open Grammar

/-! ## Bodies inside bodies -/

namespace Scoped

variable {dialect : Dialect} {outside : Counters}

/-- A body inside others is an outermost one, where the counters tell of the others. -/
theorem nodesWithin_inside (levels : Nat) (part : Part) (scope : List Part) :
    nodesWithin dialect outside levels (part :: scope) =
      nodesWithin dialect ((outside.within scope).atPart part) levels [.template] := by
  rw [← Parser.under_nodesWithin, Parser.under_nodesWithin_template]

/-- The counters end a parse before the levels do, so that further levels change nothing. -/
theorem nodesWithin_eq_of_le {levels levels' : Nat} {scope : List Part}
    (enough : dialect.maxDepth < (outside.within scope).depth + levels) (more : levels ≤ levels') :
    nodesWithin dialect outside levels scope = nodesWithin dialect outside levels' scope := by
  -- Each body inside takes one of the levels and adds one to the depth, so `enough` is kept.
  induction levels generalizing levels' scope with
  | zero =>
      cases levels' with
      | zero => rfl
      | succ levels' =>
          have deep : (outside.within scope).tooDeep dialect.maxDepth = true := by
            rw [Counters.tooDeep, decide_eq_true_eq]
            omega
          rw [nodesWithin, nodesWithin, if_pos deep]
  | succ levels induction =>
      obtain ⟨levels', rfl⟩ := Nat.exists_eq_add_of_le' more
      have inside (part : Part) : nodesWithin dialect outside levels (part :: scope) =
          nodesWithin dialect outside (levels' + levels) (part :: scope) := by
        refine induction ?_ (Nat.le_add_left _ _)
        simp only [Counters.within, List.length_cons] at enough ⊢
        omega
      show nodesWithin dialect outside (levels + 1) scope =
        nodesWithin dialect outside (levels' + levels + 1) scope
      rw [nodesWithin, nodesWithin]
      simp only [inside]

/-- The bodies of the nodes in a body are read as the body itself is, with other counters. -/
theorem nodes_eq (nonneg : 0 ≤ outside.depth) : nodes dialect outside =
    if outside.enterBody.tooDeep dialect.maxDepth then
      fail (.nestingLimit dialect.maxDepth)
    else many (node dialect outside.enterBody.inLoop fun part =>
      nodes dialect (outside.enterBody.atPart part)) := by
  have entered : outside.within [.template] = outside.enterBody := by
    have := Counters.enterBody_atPart_within outside .template []
    rw [Counters.within_nil] at this
    exact this.symm
  have inside (part : Part) : nodesWithin dialect outside dialect.maxDepth [part, .template] =
      nodes dialect (outside.enterBody.atPart part) := by
    rw [nodes, ← entered, ← nodesWithin_inside]
    refine nodesWithin_eq_of_le ?_ (Nat.le_succ _)
    simp only [Counters.within, List.length_cons, List.length_nil]
    omega
  rw [nodes, nodesWithin, entered]
  simp only [inside]

end Scoped

/-! ## Opening tags -/

/-- The constructs whose body stands right behind their opening tag. -/
inductive Opener where
  | conditional
  | loop
  | block
  | macroDef
  deriving Repr, DecidableEq

namespace Opener

def keyword : Opener → Keyword
  | conditional => .conditional
  | loop => .loop
  | block => .block
  | macroDef => .macroDef

/-- The word of the end tag. -/
def closer : Opener → String
  | conditional => "endif"
  | loop => "endfor"
  | block => "endblock"
  | macroDef => "endmacro"

/-- What the body behind the tag is. -/
def part : Opener → Part
  | conditional => .branch
  | loop => .loopBody
  | block => .block
  | macroDef => .macroBody

/-- The counters inside the body behind the tag. -/
def enter (opener : Opener) (counters : Counters) : Counters :=
  counters.enterBody.atPart opener.part

/-- What stands behind the word of the tag, up to its right trim marker. -/
def heading [Room] : Opener → Grammar Unit
  | conditional => do
      let _ ← condition
  | loop => do
      let _ ← expect pattern (.missingPattern .loopVariable)
      let _ ← expect (Grammar.keyword "in") (.missingWord "in")
      let _ ← expect expression (.missingExpr .iterable)
      let _ ← optional Scoped.guard
  | block => do
      let _ ← expect nameToken (.missingName .block)
  | macroDef => do
      spaces
      let nameOffset ← here
      let name ← expect nameToken (.missingName .macroDef)
      Parser.checkMacroName name nameOffset
      let _ ← optional parameters

/-- What stands behind a word, if that is the word of the construct. -/
def headingBehind [Room] (opener : Opener) (keyword : Keyword) : Grammar Unit :=
  if keyword = opener.keyword then opener.heading else noMatch

/-- The opening tag of the construct, from its opening delimiter up to its closing one. -/
def openingTag [Room] (dialect : Dialect) (opener : Opener) : Grammar Unit := do
  let start ← Parser.statementStart dialect
  opener.headingBehind start.2
  let _ ← tagRest dialect

/-- What is wrong where the construct is not closed. -/
def problem (opener : Opener) : Problem :=
  .openConstruct opener.keyword.word opener.closer

theorem heading_persists (opener : Opener) : Persists Fenced Fenced opener.heading := by
  have : Local .expression (Grammar.keyword "in") := local_keyword rfl
  have : Local .expression Scoped.guard := by
    unfold Scoped.guard
    infer_instance
  have (name : String) (offset : Nat) : Local .expression (Parser.checkMacroName name offset) := by
    unfold Parser.checkMacroName
    infer_instance
  cases opener with
  | conditional => exact condition_persists.bind fun _ => .pure _
  | loop => exact (Persists.pattern (expect pattern _)).bind fun _ => .expression _
  | block => exact (Persists.expression (expect nameToken _)).bind fun _ => .pure _
  | macroDef =>
      exact (Persists.expression spaces).bind fun _ => Persists.here.bind fun _ => .expression _

/-- An opening tag is read whatever stands behind it. -/
theorem openingTag_persists (opener : Opener) {behind : List Char → Prop} :
    Persists (2 ≤ ·.length) behind (opener.openingTag .standard) := by
  have persists (keyword : Keyword) : Persists Fenced Fenced (opener.headingBehind keyword) := by
    unfold headingBehind
    split
    · exact opener.heading_persists
    · exact fun _ _ _ matched => by cases matched
  exact Scoped.statementStart_persists.bind fun start => (persists start.2).bind fun _ =>
    tagRest_persists.bind fun _ => .pure _

instance (opener : Opener) : Still opener.heading :=
  ⟨fun count => by
    cases opener with
    | conditional => exact .bind condition_moves fun _ => .pure rfl
    | loop =>
        exact .bind (.expect pattern_moves _) fun _ => .bind (.still (expect (Grammar.keyword "in") _))
          fun _ => .bind (.expect expression_moves _) fun _ =>
            .bind (.optional Scoped.guard_moves) fun _ => .pure rfl
    | block => exact .bind (.still (expect nameToken _)) fun _ => .pure rfl
    | macroDef =>
        exact .bind (.still spaces) fun _ => .bind .here fun offset =>
          .bind (.still (expect nameToken _)) fun name =>
            .bind (Scoped.checkMacroName_moves name offset) fun _ =>
              .bind (.still (optional parameters)) fun _ => .pure rfl⟩

instance (dialect : Dialect) (opener : Opener) : Still (opener.openingTag dialect) :=
  ⟨fun _ => .bind (Scoped.statementStart_moves dialect) fun _ =>
    .bind (.ite _ (.still opener.heading) .noMatch) fun _ => .bind (.still (tagRest dialect)) fun _ =>
      .pure rfl⟩

end Opener

/-! ## Constructs behind their opening tag -/

namespace Scoped

/-- The rule for a body ends the parse with the failure; or it reads all that is left, and then the
failure is the one for a body that nothing closes. -/
def LeavesOpen (body : Grammar (List Node)) (cursor : Cursor) (unclosed failure : Failure) : Prop :=
  body cursor = .failed failure ∨
    failure = unclosed ∧ ∃ nodes offset, body cursor = .matched nodes ⟨offset, []⟩

section

variable {body : Grammar (List Node)} {cursor behind : Cursor} {unclosed failure : Failure}

theorem LeavesOpen.bind {next : List Node → Grammar Node}
    (leaves : LeavesOpen body cursor unclosed failure)
    (ends : ∀ nodes offset, next nodes ⟨offset, []⟩ = .failed unclosed) :
    (body >>= next) cursor = .failed failure := by
  rcases leaves with failed | ⟨rfl, nodes, offset, read⟩
  · rw [bind_apply, failed]
  · rw [bind_of_matched read, ends]

/-- A construct whose body is not closed ends the parse: with what is wrong in the body, or at its own
opening tag if the source ends behind the body. -/
theorem statementRest_of_leavesOpen {opener : Opener} {opened : OpenedTag} {inLoop : Bool}
    {bodies : Part → Grammar (List Node)} {right : Option Trim} {middle : Cursor}
    (heading : opener.heading cursor = .matched () middle)
    (closed : tagRest .standard middle = .matched right behind)
    (leaves : LeavesOpen (bodies opener.part) behind (.malformed opener.problem opened.offset)
      failure) :
    statementRest .standard opened inLoop bodies opener.keyword cursor = .failed failure := by
  cases opener with
  | conditional =>
      rcases bind_eq_matched.mp heading with ⟨condition, _, decided, ⟨⟩⟩
      show conditional .standard _ opened cursor = _
      rw [conditional, bind_of_matched decided, bind_of_matched closed]
      exact leaves.bind fun _ _ => rfl
  | loop =>
      simp only [Opener.heading, bind_eq_matched] at heading
      rcases heading with ⟨pattern, _, bound, _, _, among, iterable, _, iterated, guard, _, guarded, ⟨⟩⟩
      show loop .standard _ opened _ cursor = _
      rw [loop, bind_of_matched bound, bind_of_matched among, bind_of_matched iterated,
        bind_of_matched guarded, bind_of_matched closed]
      exact leaves.bind fun _ _ => rfl
  | block =>
      rcases bind_eq_matched.mp heading with ⟨name, _, named, ⟨⟩⟩
      show block .standard _ opened cursor = _
      rw [block, bind_of_matched named, bind_of_matched closed]
      exact leaves.bind fun _ _ => rfl
  | macroDef =>
      simp only [Opener.heading, bind_eq_matched] at heading
      rcases heading with ⟨_, _, spaced, nameOffset, _, located, name, _, named, _, _, checked,
        parameters, _, listed, ⟨⟩⟩
      show macroDef .standard _ opened cursor = _
      rw [macroDef, bind_of_matched spaced, bind_of_matched located, bind_of_matched named,
        bind_of_matched checked, bind_of_matched listed, bind_of_matched closed]
      exact leaves.bind fun _ _ => rfl

variable {inLoop : Bool} {bodies : Part → Grammar (List Node)}

/-- The delimiter of a statement stands at the beginning of an opening tag. -/
theorem exists_of_openingTag {opener : Opener} {cursor later : Cursor}
    (complete : opener.openingTag .standard cursor = .matched () later) :
    ∃ rest, cursor.rest = '\x7b' :: '%' :: rest := by
  rcases bind_eq_matched.mp complete with ⟨⟨opened, keyword⟩, first, start, _⟩
  rcases (Parser.statementStart_eq_matched _ opened).mp start with ⟨_, _, _, _, _, _, opens, _⟩
  exact ⟨_, (exact_eq_matched.mp opens).1⟩

/-- A node that begins with an opening tag ends the parse if what stands behind the tag does not close
the construct. -/
theorem node_of_leavesOpen {opener : Opener} {tag : List Char} {origin : Nat} {more : List Char}
    (complete : opener.openingTag .standard (.start tag) = .matched () ⟨tag.length, []⟩)
    (leaves : LeavesOpen (bodies opener.part) ⟨origin + tag.length, more⟩
      (.malformed opener.problem origin) failure) :
    node .standard inLoop bodies ⟨origin, tag ++ more⟩ = .failed failure := by
  have read : opener.openingTag .standard ⟨origin, tag ++ more⟩ =
      .matched () ⟨origin + tag.length, more⟩ := by
    have persists : Persists (2 ≤ ·.length) (fun _ => True) (opener.openingTag .standard) :=
      opener.openingTag_persists
    have still : Moves origin id (opener.openingTag .standard) (opener.openingTag .standard) :=
      .still _
    exact (still ⟨0, tag ++ more⟩).trans
      (congrArg (Outcome.moved id origin) ((persists complete trivial).2 more))
  simp only [Opener.openingTag, bind_eq_matched] at read
  rcases read with ⟨⟨opened, keyword⟩, first, start, _, second, begun, right, _, closed, ⟨⟩⟩
  obtain ⟨rfl, heading⟩ : keyword = opener.keyword ∧ opener.heading first = .matched () second := by
    unfold Opener.headingBehind at begun
    split at begun
    · exact ⟨‹_›, begun⟩
    · cases begun
  obtain rfl : opened.offset = origin := Parser.statementStart_offset start
  have failed : statementRest .standard opened inLoop bodies opener.keyword first = .failed failure :=
    statementRest_of_leavesOpen heading closed leaves
  rcases exists_of_openingTag complete with ⟨rest, rfl⟩
  -- The delimiter of a statement begins neither text nor a comment nor an output.
  show statement .standard inLoop bodies _ = _
  rw [statement, bind_of_matched start, bind_apply, failed]

end

end Scoped

/-! ## Sources with open constructs -/

/-- No opening delimiter begins in the one text and ends in the other. -/
def Grammar.Seamless (front back : List Char) : Prop :=
  ∀ delimiter ∈ Dialect.standard.starts, ∀ count < delimiter.chars.length, 0 < count →
    delimiter.chars.take count <:+ front → ¬ delimiter.chars.drop count <+: back

instance (front back : List Char) : Decidable (Seamless front back) :=
  inferInstanceAs (Decidable (∀ _ ∈ _, _))

/-- A rule has matched up to a place. -/
def Outcome.EndsAt {α : Type} (later : Cursor) (outcome : Outcome α) : Prop :=
  ∃ value, outcome = .matched value later

instance {α : Type} (later : Cursor) (outcome : Outcome α) : Decidable (outcome.EndsAt later) :=
  match outcome with
  | .matched value cursor => decidable_of_iff (cursor = later) (by simp [Outcome.EndsAt])
  | .noMatch => .isFalse nofun
  | .failed _ => .isFalse nofun

/-- All of the text is a body where the counters are these. -/
def Parser.IsBody [Room] (counters : Counters) (text : List Char) : Prop :=
  (nodes .standard counters (.start text)).1.EndsAt ⟨text.length, []⟩

theorem Parser.isBody_iff {counters : Counters} {text : List Char} : IsBody counters text ↔
    ∃ body, Scoped.nodes .standard counters (.start text) = .matched body ⟨text.length, []⟩ := by
  rw [IsBody, nodes_eq_scoped]
  rfl

/-- A construct that is open: its opening tag, and the text behind it up to the opening tag of the next
open construct or to the end of the source. -/
structure Layer where
  opener : Opener
  tag : List Char
  text : List Char

namespace Layer

def chars (layer : Layer) : List Char :=
  layer.tag ++ layer.text

/-- The tag opens the construct and is complete. -/
def IsOpened [Room] (layer : Layer) : Prop :=
  (layer.opener.openingTag .standard (.start layer.tag)).EndsAt ⟨layer.tag.length, []⟩

end Layer

/-- A text and the layers behind it lack nothing but end tags: each tag opens its construct, and each
text is a body in its place, where the counters tell what is open around it. -/
def Unclosed [Room] : Counters → List Char → List Layer → Prop
  | counters, text, [] => Parser.IsBody counters text
  | counters, text, layer :: layers =>
      Parser.IsBody counters text ∧ Seamless text layer.tag ∧ layer.IsOpened ∧
        Unclosed (layer.opener.enter counters) layer.text layers

instance decidableUnclosed : (counters : Counters) → (text : List Char) → (layers : List Layer) →
    Decidable (Unclosed counters text layers)
  | _, _, [] => inferInstanceAs (Decidable (Outcome.EndsAt _ _))
  | counters, _, layer :: layers =>
      have := decidableUnclosed (layer.opener.enter counters) layer.text layers
      inferInstanceAs (Decidable (Outcome.EndsAt _ _ ∧ Seamless _ _ ∧ Outcome.EndsAt _ _ ∧ _))

theorem Grammar.Seamless.append {front back : List Char} (seamless : Seamless front back)
    (long : 2 ≤ back.length) (more : List Char) : Seamless front (back ++ more) := by
  intro delimiter member count inside further ends begins
  refine seamless delimiter member count inside further ends ?_
  refine List.prefix_of_prefix_length_le begins (List.prefix_append back more) ?_
  have short : ∀ delimiter ∈ Dialect.standard.starts, delimiter.chars.length = 2 := by
    intro delimiter member
    simp only [Dialect.starts, List.mem_cons, List.not_mem_nil, or_false] at member
    rcases member with rfl | rfl | rfl <;> rfl
  rw [List.length_drop, short delimiter member]
  omega

theorem Layer.IsOpened.begins {layer : Layer} (opened : layer.IsOpened) :
    ∃ rest, layer.tag = '\x7b' :: '%' :: rest :=
  opened.elim fun _ read => Scoped.exists_of_openingTag read

theorem Opener.enter_nonneg {counters : Counters} (opener : Opener) (nonneg : 0 ≤ counters.depth) :
    0 ≤ (opener.enter counters).depth := by
  cases opener <;> exact Int.add_nonneg nonneg Int.one_nonneg

namespace Scoped

theorem follows_of_seamless {consumed rest tag : List Char}
    (seamless : Seamless (consumed ++ rest) tag) (opens : opensTag .standard tag = true) :
    Follows tag rest := by
  refine .inr ⟨opens, fun place inside plain => Bool.eq_false_iff.mpr fun starts => ?_⟩
  rw [List.drop_append_of_le_length (Nat.le_of_lt inside)] at starts
  simp only [opensTag, List.any_eq_true, List.any_eq_false, List.isPrefixOf_iff_prefix] at starts plain
  rcases starts with ⟨delimiter, member, further, shape⟩
  rcases List.append_eq_append_iff.mp shape with ⟨others, left, _⟩ | ⟨tail, halves, begins⟩
  · exact plain delimiter member ⟨others, left.symm⟩
  · have further : 0 < tail.length := by
      refine List.length_pos_iff.mpr ?_
      rintro rfl
      exact plain delimiter member ⟨[], by rw [halves, List.append_nil, List.append_nil]⟩
    have long : 0 < (rest.drop place).length := by
      rw [List.length_drop]
      omega
    refine seamless delimiter member (rest.drop place).length ?_ long ?_ ?_
    · rw [halves, List.length_append]
      omega
    · rw [halves, List.take_left]
      exact (List.drop_suffix place rest).trans (List.suffix_append consumed rest)
    · rw [halves, List.drop_left]
      exact ⟨_, begins.symm⟩

/-- What a text is made of stands there also if an open construct stands behind it. -/
theorem repeated_of_seamless {inLoop : Bool} {bodies : Part → Grammar (List Node)}
    [∀ part, Certain (bodies part)] [∀ part, Advancing (bodies part)]
    (persists : ∀ part, PersistsBody (bodies part)) {text : List Char} {body : List Node}
    {layer : Layer} (repeated : Repeated (node .standard inLoop bodies) (.start text) body
      ⟨text.length, []⟩) (seamless : Seamless text layer.tag) (opened : layer.IsOpened)
    (more : List Char) :
    Repeated (node .standard inLoop bodies) (.start (text ++ (layer.tag ++ more))) body
      ⟨text.length, layer.tag ++ more⟩ := by
  rcases opened.begins with ⟨rest, shape⟩
  have long : 2 ≤ layer.tag.length := by
    rw [shape]
    exact Nat.le_add_left 2 _
  have opens : opensTag .standard (layer.tag ++ more) = true := by
    rw [shape]
    rfl
  refine repeated_joins inLoop persists repeated fun consumed left passage parts _ _ => ?_
  exact follows_of_seamless (parts ▸ seamless.append long more) opens

section

variable {counters : Counters} (nonneg : 0 ≤ counters.depth) {text : List Char}

include nonneg

/-- A body that is all that its text is goes on with what stands behind the text. -/
theorem repeated_of_isBody (isBody : Parser.IsBody counters text) :
    counters.enterBody.tooDeep Dialect.standard.maxDepth = false ∧ ∃ body,
      Repeated (node .standard counters.enterBody.inLoop fun part =>
        nodes .standard (counters.enterBody.atPart part)) (.start text) body ⟨text.length, []⟩ := by
  rcases Parser.isBody_iff.mp isBody with ⟨body, read⟩
  rw [nodes_eq nonneg] at read
  cases deep : counters.enterBody.tooDeep Dialect.standard.maxDepth with
  | true =>
      rw [if_pos deep] at read
      cases read
  | false =>
      rw [if_neg (by simp [deep])] at read
      exact ⟨rfl, body, repeated_of_many read⟩

/-- A body that ends with a construct which is not closed ends the parse. -/
theorem nodes_of_leavesOpen {layer : Layer} {more : List Char} {failure : Failure}
    (isBody : Parser.IsBody counters text) (seamless : Seamless text layer.tag)
    (opened : layer.IsOpened)
    (leaves : LeavesOpen (nodes .standard (layer.opener.enter counters))
      ⟨text.length + layer.tag.length, more⟩ (.malformed layer.opener.problem text.length) failure) :
    nodes .standard counters (.start (text ++ (layer.tag ++ more))) = .failed failure := by
  rcases repeated_of_isBody nonneg isBody with ⟨shallow, body, repeated⟩
  have persists (part : Part) : PersistsBody (nodes .standard (counters.enterBody.atPart part)) :=
    nodesWithin_persists _ _ _
  have certain (part : Part) : Certain (nodes .standard (counters.enterBody.atPart part)) :=
    inferInstanceAs (Certain (nodesWithin _ _ _ _))
  have goesOn := repeated_of_seamless persists repeated seamless opened more
  have nonempty : layer.tag ++ more ≠ [] := by
    rcases opened.begins with ⟨rest, shape⟩
    rw [shape]
    nofun
  rcases opened with ⟨_, complete⟩
  rw [nodes_eq nonneg, if_neg (by simp [shallow])]
  exact many_of_repeated_failed goesOn (node_of_leavesOpen complete leaves) nonempty

/-- The innermost of the constructs that are open ends the parse. -/
theorem nodes_of_unclosed {outer : List Layer} {innermost : Layer}
    (unclosed : Unclosed counters text (outer ++ [innermost])) :
    nodes .standard counters (.start (text ++ (outer ++ [innermost]).flatMap Layer.chars)) =
      .failed (.malformed innermost.opener.problem (text ++ outer.flatMap Layer.chars).length) := by
  have moves (layer : Layer) : MovesBody (text.length + layer.tag.length)
      (nodes .standard (layer.opener.enter counters)) := nodesWithin_moves _ _ _ _
  induction outer generalizing counters text with
  | nil =>
      rcases unclosed with ⟨isBody, seamless, opened, inside⟩
      rcases Parser.isBody_iff.mp inside with ⟨body, read⟩
      have behind := moves innermost (.start innermost.text)
      rw [read] at behind
      have failed : nodes .standard counters (.start (text ++ (innermost.tag ++ innermost.text))) =
          .failed (.malformed innermost.opener.problem text.length) :=
        nodes_of_leavesOpen nonneg isBody seamless opened (.inr ⟨rfl, _, _, behind⟩)
      simpa [Layer.chars] using failed
  | cons layer outer induction =>
      rcases unclosed with ⟨isBody, seamless, opened, unclosed⟩
      have failed := induction (layer.opener.enter_nonneg nonneg) unclosed
        fun _ => nodesWithin_moves _ _ _ _
      let more := layer.text ++ (outer ++ [innermost]).flatMap Layer.chars
      have behind := moves layer (.start more)
      rw [failed] at behind
      have outwards : nodes .standard counters (.start (text ++ (layer.tag ++ more))) = _ :=
        nodes_of_leavesOpen nonneg isBody seamless opened (.inl behind)
      simpa [more, Layer.chars, Failure.moved, Nat.add_assoc] using outwards

end

end Scoped

namespace Template

/-- A source that ends inside constructs is reported at the opening tag of the innermost one, with its
word and the word of its end tag: whatever the tags are in which the constructs are opened, and
whatever stands before, between and behind them as long as it is complete in its place. -/
theorem unclosed_is_reported_at_innermost {source : Source} {text : List Char} {outer : List Layer}
    {innermost : Layer} (shape : source.chars = text ++ (outer ++ [innermost]).flatMap Layer.chars)
    (unclosed : Unclosed .zero text (outer ++ [innermost])) :
    ∃ problem, parse .standard source =
        .error (.malformed problem (text ++ outer.flatMap Layer.chars).length) ∧
      problem.code = .unclosedTag ∧
      problem.message = "Unclosed '" ++ innermost.opener.keyword.word ++ "' block: expected '" ++
        innermost.opener.closer ++ "' before end of template" := by
  refine ⟨innermost.opener.problem, ?_, rfl, rfl⟩
  rw [parse_eq_scoped, shape, Scoped.document, bind_apply,
    Scoped.nodes_of_unclosed (Int.le_refl 0) unclosed]

/-- A loop with a complete conditional and a control of the loop in it, then a conditional with markers
in its tag. -/
theorem unclosed_is_reported_at_innermost_conditional :
    let _ : Room := ⟨20⟩
    let source : Source := ⟨"a\x7b% for x in xs %\x7d\x7b% if x %\x7d\x7b% break %\x7d\x7b% endif %\x7d b" ++
      "\x7b%- if let Some(y) = x -%\x7d \x7b\x7b y \x7d\x7d", none, none⟩
    let loop : Layer := ⟨.loop, "\x7b% for x in xs %\x7d".toList,
      "\x7b% if x %\x7d\x7b% break %\x7d\x7b% endif %\x7d b".toList⟩
    let conditional : Layer := ⟨.conditional, "\x7b%- if let Some(y) = x -%\x7d".toList,
      " \x7b\x7b y \x7d\x7d".toList⟩
    source.chars = "a".toList ++ ([loop] ++ [conditional]).flatMap Layer.chars ∧
      Unclosed .zero "a".toList ([loop] ++ [conditional]) ∧
      ∃ problem, parse .standard source = .error (.malformed problem 52) ∧
        problem.code = .unclosedTag ∧
        problem.message = "Unclosed 'if' block: expected 'endif' before end of template" := by
  intro room source loop conditional
  have shape : source.chars = "a".toList ++ ([loop] ++ [conditional]).flatMap Layer.chars := by
    decide +kernel
  have unclosed : Unclosed .zero "a".toList ([loop] ++ [conditional]) := by
    decide +kernel
  have place : ("a".toList ++ [loop].flatMap Layer.chars).length = 52 := by
    decide +kernel
  have reported := unclosed_is_reported_at_innermost shape unclosed
  rw [place] at reported
  exact ⟨shape, unclosed, reported⟩

end Template

end Templating

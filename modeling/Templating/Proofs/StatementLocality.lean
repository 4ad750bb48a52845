import Templating.Proofs.Extending
import Templating.Proofs.Run
import Templating.Proofs.StatementRelocation

/-! # How far statements look

No tag of the standard dialect is read differently for what stands behind its closing delimiter,
no comment and no output, and a body only for the tag at which it ends. -/

namespace Templating

variable {room : Room}

namespace Grammar

variable {α : Type} {before behind : List Char → Prop}

/-- What the closing delimiter of a tag stands in front of does not matter. -/
theorem exact_persists (expected : List Char) :
    Persists (expected <+: ·) behind (exact expected) := by
  intro cursor _ later matched _
  rcases exact_eq_matched.mp matched with ⟨shape, moved⟩
  refine ⟨⟨later.rest, shape.symm⟩, fun more => exact_eq_matched.mpr ⟨?_, moved⟩⟩
  simp [Cursor.extended, shape]

theorem delimiter_persists (delimiter : Delimiter) :
    Persists (2 ≤ ·.length) behind (exact delimiter.chars) :=
  (exact_persists delimiter.chars).mono
    (fun _ starts => Nat.le_trans delimiter.long starts.length_le) fun _ => id

/-! ## Tags -/

instance : Local .expression (exact Dialect.standard.blockStart.chars) := local_exact rfl

theorem fenced_of_blockEnd {text : List Char} (ends : Dialect.standard.blockEnd.chars <+: text) :
    Fenced text := by
  rcases ends with ⟨rest, rfl⟩
  exact ⟨⟨'\x7d', rest, rfl, .plain rfl (.refl _)⟩, closed_of_closes rfl _⟩

theorem tagEnd_persists : Persists Fenced behind (tagEnd .standard) :=
  ((exact_persists _).mono (fun _ => fenced_of_blockEnd) fun _ => id).expect

theorem tagRest_persists : Persists Fenced behind (tagRest .standard) :=
  (Persists.expression edge).bind fun _ => tagEnd_persists.bind fun _ => .pure _

theorem local_tag {words : List String}
    (isPlain : ∀ text ∈ words, text.toList.all Fence.expression.isPlain = true) :
    Local .expression (tag .standard words) := by
  have := local_wordOf isPlain
  unfold tag
  infer_instance

instance : Local .expression (tag .standard ["else"]) := local_tag (by decide)

instance : Local .expression (tag .standard ["when"]) := local_tag (by decide)

instance : Local .expression (tag .standard ["endfor"]) := local_tag (by decide)

theorem endTag_persists {opener closer : String} (start : Nat)
    (isPlain : closer.toList.all Fence.expression.isPlain = true) :
    Persists Fenced Fenced (endTag .standard opener closer start) := by
  have : Local .expression (tag .standard [closer]) := local_tag (by simpa using isPlain)
  intro cursor trim later matched left
  rcases (endTag_eq_matched _).mp matched with ⟨opened, read, rfl⟩
  rcases Persists.expression (tag .standard [closer]) read left with ⟨started, same⟩
  exact ⟨started, fun more => (endTag_eq_matched _).mpr ⟨opened, same more, rfl⟩⟩

instance (problem : Problem) : Local .expression (Parser.rejectElse .standard problem) := by
  unfold Parser.rejectElse
  infer_instance

/-! ## Statements of a single tag -/

instance : Local .expression stringToken := inferInstanceAs (Local .expression (spaced string))

theorem assignment_persists (opened : OpenedTag) : Persists Fenced Fenced (assignment opened) := by
  have : Local .expression (token "=") := local_token rfl
  exact (Persists.pattern (expect pattern _)).bind fun _ => .expression _

instance (opened : OpenedTag) : Local .expression (macroCall opened) := by
  have : Local .expression (token "::") := local_token rfl
  have : Local .expression (ahead fun rest => rest.head? == some '(') :=
    local_ahead_head fun _ _ _ => rfl
  rw [macroCall_eq]
  unfold calledWith callArguments
  infer_instance

instance (opened : OpenedTag) : Local .expression (extension opened) := by
  unfold extension
  infer_instance

instance (opened : OpenedTag) : Local .expression (inclusion opened) := by
  unfold inclusion
  infer_instance

instance (opened : OpenedTag) : Local .expression (importation opened) := by
  have : Local .expression (keyword "as") := local_keyword rfl
  unfold importation
  infer_instance

/-! ## Parts of constructs -/

theorem condition_persists : Persists Fenced Fenced condition := by
  have : Local .pattern (keyword "let") := local_keyword rfl
  have : Local .pattern (keyword "set") := local_keyword rfl
  have : Local .pattern (token "=") := local_token rfl
  exact Persists.here.bind fun _ => (Persists.pattern (optional _)).bind fun _ => .expression _

instance : Local .expression parameters := by
  unfold parameters
  infer_instance

/-! ## Text -/

theorem isPrefixOf_append_of_length {expected text : List Char} (more : List Char)
    (enough : expected.length ≤ text.length) :
    expected.isPrefixOf (text ++ more) = expected.isPrefixOf text := by
  rw [Bool.eq_iff_iff, List.isPrefixOf_iff_prefix, List.isPrefixOf_iff_prefix]
  constructor
  · intro starts
    rcases List.prefix_or_prefix_of_prefix starts (List.prefix_append text more) with
      starts | shorter
    · exact starts
    · exact (shorter.eq_of_length_le enough) ▸ List.prefix_refl _
  · exact fun starts => starts.trans (List.prefix_append text more)

theorem delimiter_refuses {delimiter : Delimiter} (short : delimiter.chars.length = 2) :
    Refuses (2 ≤ ·.length) (exact delimiter.chars) := by
  intro cursor missed enough more
  rw [exact_extended (isPrefixOf_append_of_length more (short ▸ enough)), missed]
  rfl

theorem opensTag_append {text : List Char} (more : List Char) (enough : 2 ≤ text.length) :
    opensTag .standard (text ++ more) = opensTag .standard text := by
  have same (delimiter : Delimiter) (short : delimiter.chars.length = 2) :
      delimiter.chars.isPrefixOf (text ++ more) = delimiter.chars.isPrefixOf text :=
    isPrefixOf_append_of_length more (by omega)
  simp only [opensTag, Dialect.starts, List.any_cons, List.any_nil]
  rw [same Dialect.standard.blockStart rfl, same Dialect.standard.commentStart rfl,
    same Dialect.standard.exprStart rfl]

theorem two_le_of_opensTag {text : List Char} (opens : opensTag .standard text = true) :
    2 ≤ text.length := by
  simp only [opensTag, List.any_eq_true] at opens
  rcases opens with ⟨delimiter, _, starts⟩
  exact Nat.le_trans delimiter.long (List.isPrefixOf_iff_prefix.mp starts).length_le

theorem opensTag_append_of_opens {text : List Char} (more : List Char)
    (opens : opensTag .standard text = true) : opensTag .standard (text ++ more) = true := by
  rw [opensTag_append more (two_le_of_opensTag opens), opens]

theorem text_persists : Persists (· ≠ []) (· ≠ []) (text .standard) := by
  intro cursor node later matched left
  rcases text_eq_matched.mp matched with ⟨run, nonempty, rfl, read⟩
  rcases upTo_eq_matched.mp read with ⟨shape, moved, ends, within⟩
  have opens := ends.resolve_left left
  refine ⟨by simp [shape, nonempty], fun more => text_eq_matched.mpr ⟨run, nonempty, rfl, ?_⟩⟩
  refine upTo_eq_matched.mpr ⟨by simp [Cursor.extended, shape], moved,
    .inr (opensTag_append_of_opens more opens), fun first others suffix => ?_⟩
  have enough := two_le_of_opensTag opens
  have apart := within first others suffix
  rw [← opensTag_append more (by simp; omega)] at apart
  simpa [Cursor.extended] using apart

theorem text_refuses : Refuses (· ≠ []) (text .standard) := by
  intro cursor missed started more
  have opens := (text_eq_noMatch.mp missed).resolve_left started
  exact text_eq_noMatch.mpr (.inr (opensTag_append_of_opens more opens))

/-! ## Comments -/

theorem startsWithin_append {expected : List Char} (more : List Char) {count : Nat}
    {text : List Char} (enough : expected.length + count ≤ text.length + 1) :
    startsWithin expected count (text ++ more) = startsWithin expected count text := by
  induction count generalizing text with
  | zero => rfl
  | succ count induction =>
      cases text with
      | nil =>
          obtain rfl : count = 0 := by simp at enough; omega
          simp at enough
          simp [startsWithin, enough]
      | cons first text =>
          rw [List.length_cons] at enough
          rw [startsWithin, startsWithin,
            isPrefixOf_append_of_length more (by rw [List.length_cons]; omega)]
          exact congrArg (_ || ·) (induction (by omega))

/-- A step inside a comment depends on no more than three characters. -/
theorem commentStep_extended (state : CommentState) (more : List Char) {cursor : Cursor}
    (enough : 3 ≤ cursor.rest.length) :
    commentStep .standard state (cursor.extended more) =
      (commentStep .standard state cursor).extended more := by
  have closing : Dialect.standard.commentEnd.chars.isPrefixOf (cursor.rest ++ more) =
      Dialect.standard.commentEnd.chars.isPrefixOf cursor.rest :=
    isPrefixOf_append_of_length more (Nat.le_of_succ_le enough)
  have opening : Dialect.standard.commentStart.chars.isPrefixOf (cursor.rest ++ more) =
      Dialect.standard.commentStart.chars.isPrefixOf cursor.rest :=
    isPrefixOf_append_of_length more (Nat.le_of_succ_le enough)
  have within : startsWithin Dialect.standard.commentEnd.chars
        Dialect.standard.commentStart.chars.length (cursor.rest ++ more) =
      startsWithin Dialect.standard.commentEnd.chars Dialect.standard.commentStart.chars.length
        cursor.rest :=
    startsWithin_append more (Nat.succ_le_succ enough)
  apply orElse_extended
  · cases state.level with
    | zero => rfl
    | succ level => exact bind_extended (exact_extended closing) fun _ _ _ => rfl
  · apply orElse_extended
    · refine bind_extended (ahead_extended (congrArg (!·) within)) fun _ middle matched => ?_
      rw [← (ahead_eq_matched.mp matched).2]
      exact bind_extended (exact_extended opening) fun _ _ _ => rfl
    · refine bind_extended (ahead_extended (congrArg (!·) closing)) fun _ middle matched => ?_
      rw [← (ahead_eq_matched.mp matched).2]
      refine bind_extended (character_extended ?_) fun _ _ _ => rfl
      exact List.ne_nil_of_length_pos (Nat.lt_of_lt_of_le (by decide) enough)

theorem commentStep_persists (state : CommentState) :
    Persists (2 ≤ ·.length) (2 ≤ ·.length) (commentStep .standard state) := by
  intro cursor next later matched left
  have shorter := (Consuming.passes matched).2
  refine ⟨by omega, fun more => ?_⟩
  rw [commentStep_extended state more (by omega), matched]
  rfl

/-- At a closing delimiter a comment goes on only if the delimiter closes an inner comment. -/
theorem commentStep_eq_noMatch {state : CommentState} {cursor : Cursor}
    (ends : Dialect.standard.commentEnd.chars <+: cursor.rest) :
    commentStep .standard state cursor = .noMatch ↔ state.level = 0 := by
  have starts := List.isPrefixOf_iff_prefix.mpr ends
  cases level : state.level with
  | zero =>
      have within : startsWithin Dialect.standard.commentEnd.chars
          Dialect.standard.commentStart.chars.length cursor.rest = true := by
        rw [show Dialect.standard.commentStart.chars.length = 1 + 1 from rfl, startsWithin, starts,
          Bool.true_or]
      simp [commentStep, orElse_apply, bind_apply, ahead, level, within, starts, noMatch]
  | succ inner =>
      rcases ends with ⟨rest, shape⟩
      have closing : exact Dialect.standard.commentEnd.chars cursor =
          .matched () ⟨cursor.offset + 2, rest⟩ := exact_eq_matched.mpr ⟨shape.symm, rfl⟩
      have stepped : commentStep .standard state cursor =
          .matched ⟨inner, none⟩ ⟨cursor.offset + 2, rest⟩ := by
        unfold commentStep
        rw [level]
        exact orElse_of_matched ((bind_of_matched closing).trans rfl)
      simp [stepped]

theorem commentStep_refuses (state : CommentState) :
    Refuses (Dialect.standard.commentEnd.chars <+: ·) (commentStep .standard state) := by
  intro cursor missed ends more
  have outermost := (commentStep_eq_noMatch ends).mp missed
  exact (commentStep_eq_noMatch (ends.trans (List.prefix_append _ more))).mpr outermost

theorem edge_persists (nonempty : ∀ text, behind text → text ≠ []) :
    Persists (· ≠ []) behind edge := by
  intro cursor trim later matched left
  have started : cursor.rest ≠ [] := by
    have := (Advancing.reaches matched).length_le
    have := List.length_pos_iff.mpr (nonempty _ left)
    exact List.ne_nil_of_length_pos (by omega)
  refine ⟨started, fun more => ?_⟩
  rw [edge_extended started, matched]
  rfl

theorem comment_persists : Persists (2 ≤ ·.length) behind (comment .standard) := by
  have closing (start : Nat) : Persists (Dialect.standard.commentEnd.chars <+: ·) behind
      (exact Dialect.standard.commentEnd.chars <|>
        failAt (.openComment Dialect.standard.commentEnd.text) start) := by
    intro cursor _ later matched left
    rcases orElse_eq_matched.mp matched with matched | ⟨_, matched⟩
    · rcases exact_persists _ matched left with ⟨started, same⟩
      exact ⟨started, fun more => orElse_of_matched (same more)⟩
    · cases matched
  have long {text : List Char} (ends : Dialect.standard.commentEnd.chars <+: text) :
      2 ≤ text.length := ends.length_le
  have nonempty {text : List Char} (enough : 2 ≤ text.length) : text ≠ [] :=
    List.ne_nil_of_length_pos (by omega)
  have inside := Persists.chain commentStep_persists commentStep_refuses (fun _ => long)
    (fun _ ends => nonempty (long ends))
  exact Persists.here.bind fun start => (delimiter_persists _).bind fun _ =>
    (edge_persists fun _ => nonempty).bind fun _ => (inside _).bind fun _ =>
      (closing start).bind fun _ => .pure _

theorem comment_refuses : Refuses (2 ≤ ·.length) (comment .standard) := by
  have certain (start : Nat) : Certain (do
      let left ← edge
      let state ← chain (commentStep .standard) ⟨0, none⟩
      exact Dialect.standard.commentEnd.chars <|>
        failAt (.openComment Dialect.standard.commentEnd.text) start
      return .comment start ⟨left, state.last.bind Trim.ofMark?⟩ : Grammar Node) := inferInstance
  exact .here fun _ => (delimiter_refuses rfl).andThen

theorem spaces_persists : Persists (· ≠ []) (· ≠ []) spaces := by
  intro cursor _ later matched left
  cases matched
  rw [skipSpaces_rest] at left
  have stops : ¬ (cursor.rest.takeWhile Text.isSpace).length = cursor.rest.length := by
    intro whole
    have parts : cursor.rest.takeWhile Text.isSpace ++ Text.afterBlanks cursor.rest = cursor.rest :=
      List.takeWhile_append_dropWhile
    rw [(List.takeWhile_prefix Text.isSpace).eq_of_length whole] at parts
    exact left (List.append_right_eq_self.mp parts)
  refine ⟨?_, fun more => congrArg (Outcome.matched ()) ?_⟩
  · rintro empty
    rw [empty] at left
    exact left rfl
  · unfold Cursor.skipSpaces
    rw [show (cursor.extended more).rest = cursor.rest ++ more from rfl, List.takeWhile_append,
      if_neg stops]
    exact advance_extended more (List.takeWhile_prefix _).length_le

theorem skipComments_persists : Persists (· ≠ []) Fenced (skipComments .standard) := by
  have nonempty {text : List Char} (enough : 2 ≤ text.length) : text ≠ [] :=
    List.ne_nil_of_length_pos (by omega)
  have step : Persists (· ≠ []) (· ≠ []) (comment .standard >>= fun _ => spaces) :=
    (comment_persists.mono (fun _ => nonempty) fun _ => id).bind fun _ => spaces_persists
  have refuses : Refuses Fenced (comment .standard >>= fun _ => spaces) :=
    comment_refuses.andThen.mono fun _ => Fenced.two_le
  exact spaces_persists.bind fun _ =>
    (step.many refuses (fun _ => Fenced.ne_nil) fun _ => Fenced.ne_nil).bind fun _ => .pure _

/-! ## Outputs -/

theorem output_persists : Persists (2 ≤ ·.length) behind (output .standard) := by
  have closed {text : List Char} (ends : Dialect.standard.exprEnd.chars <+: text) :
      Closed .expression text := by
    rcases ends with ⟨rest, rfl⟩
    exact closed_of_closes rfl _
  have closing (problem : Problem) : Persists (Closed .expression) behind
      (expect (exact Dialect.standard.exprEnd.chars) problem) :=
    ((exact_persists _).mono (fun _ => closed) fun _ => id).expect
  exact Persists.here.bind fun _ => (delimiter_persists _).bind fun _ => (Persists.closed edge).bind fun _ =>
    (Persists.closed (expect expression _)).bind fun _ => (Persists.closed edge).bind fun _ =>
      (closing _).bind fun _ => .pure _

theorem output_refuses : Refuses (2 ≤ ·.length) (output .standard) :=
  .here fun _ => (delimiter_refuses rfl).andThen

/-! ## Raw text -/

theorem closed_raw_of_mem {text : List Char} (member : '\x7b' ∈ text) : Closed .raw text := by
  induction text with
  | nil => cases member
  | cons first rest induction =>
      cases closes : Fence.raw.closes first with
      | true => exact closed_of_closes closes rest
      | false =>
          have further : '\x7b' ∈ rest := by
            rcases List.mem_cons.mp member with rfl | further
            · cases closes
            · exact further
          rcases induction further with ⟨_, _, closing, way⟩
          have isPlain : Fence.raw.isPlain first = true := by
            simp_all [Fence.isPlain, Fence.closes]
          exact ⟨_, _, closing, .plain isPlain way⟩

/-- The tag behind raw text, behind its opening delimiter. -/
def rawEndRest (dialect : Dialect) : Grammar Edges := do
  let left ← edge
  spaces
  let _ ← word "endraw"
  spaces
  let right ← edge
  ahead fun rest => dialect.blockEnd.chars.isPrefixOf rest
  return ⟨left, right⟩

theorem local_rawEndRest {fence : Fence} (isPlain : fence.isPlain '%' = true) :
    Local fence (rawEndRest .standard) := by
  have : Local fence (word "endraw") :=
    local_word (by cases fence <;> rfl)
  have : Local fence (ahead fun rest => Dialect.standard.blockEnd.chars.isPrefixOf rest) :=
    local_ahead_isPrefixOf (by cases fence <;> first | rfl | cases isPlain)
  have (left : Option Trim) : Local fence (do
      let right ← edge
      ahead fun rest => Dialect.standard.blockEnd.chars.isPrefixOf rest
      pure ⟨left, right⟩ : Grammar Edges) := inferInstance
  unfold rawEndRest
  infer_instance

instance : Local .expression (rawEnd .standard) := by
  have : Local .expression (rawEndRest .standard) := local_rawEndRest rfl
  exact inferInstanceAs (Local .expression
    (exact Dialect.standard.blockStart.chars >>= fun _ => rawEndRest .standard))

/-- Where a tag is still to come, what stands behind it does not make raw text end before it. -/
theorem rawEnd_extended {cursor : Cursor} {first : Char} {others rest : List Char}
    (shape : cursor.rest = first :: (others ++ rest))
    (opens : Dialect.standard.blockStart.chars <+: rest) (more : List Char) :
    rawEnd .standard (cursor.extended more) = (rawEnd .standard cursor).extended more := by
  have start : Dialect.standard.blockStart.chars = ['\x7b', '%'] := rfl
  rcases opens with ⟨further, rfl⟩
  refine bind_extended (exact_extended ?_) fun _ middle matched => ?_
  · exact isPrefixOf_append_of_length more (by simp [start, shape]; omega)
  · have : Local .raw (rawEndRest .standard) := local_rawEndRest rfl
    have left := (exact_eq_matched.mp matched).1.symm.trans shape
    have member : '\x7b' ∈ middle.rest := by
      cases others with
      | nil => simp [start] at left
      | cons second others =>
          simp only [start, List.cons_append, List.nil_append, List.cons.injEq] at left
          simp [left.2.2]
    exact apply_extended (rawEndRest .standard) more (closed_raw_of_mem member)

theorem matchesAt_rawEnd (cursor : Cursor) :
    matchesAt (rawEnd .standard) cursor.rest = match rawEnd .standard cursor with
      | .matched .. => true
      | _ => false := by
  have moved : rawEnd .standard cursor =
      (rawEnd .standard ⟨0, cursor.rest⟩).moved id cursor.offset :=
    Still.still cursor.offset ⟨0, cursor.rest⟩
  rw [moved, matchesAt]
  cases rawEnd .standard ⟨0, cursor.rest⟩ <;> rfl

theorem matchesAt_append {rule : Grammar α} {text more : List Char}
    (same : rule (Cursor.extended more ⟨0, text⟩) = (rule ⟨0, text⟩).extended more) :
    matchesAt rule (text ++ more) = matchesAt rule text := by
  unfold matchesAt
  rw [show (⟨0, text ++ more⟩ : Cursor) = Cursor.extended more ⟨0, text⟩ from rfl, same]
  cases rule ⟨0, text⟩ <;> rfl

theorem rawEnd_persists : Persists Fenced Fenced (rawEnd .standard) :=
  .expression _

/-- Raw text and the tag behind it, behind the tag that opens it. -/
def rawRest (dialect : Dialect) (start : Nat) : Grammar (List Char × Edges) := do
  let run ← upTo (matchesAt (rawEnd dialect))
  let closing ← rawEnd dialect <|> failAt (.openConstruct "raw" "endraw") start
  return (run, closing)

theorem raw_eq (dialect : Dialect) (opened : OpenedTag) : raw dialect opened = (do
    let right ← edge
    tagEnd dialect
    let rest ← rawRest dialect opened.offset
    return .raw opened.offset ⟨opened.trim, right⟩ (Passage.ofChars rest.1) rest.2) := by
  simp only [raw, rawRest, bind_assoc, pure_bind]

theorem rawRest_eq_matched {dialect : Dialect} {start : Nat} {rest : List Char × Edges}
    {cursor later : Cursor} :
    rawRest dialect start cursor = .matched rest later ↔
      ∃ middle, upTo (matchesAt (rawEnd dialect)) cursor = .matched rest.1 middle ∧
        rawEnd dialect middle = .matched rest.2 later := by
  simp only [rawRest, bind_eq_matched, orElse_eq_matched, pure_eq_matched]
  constructor
  · rintro ⟨run, middle, read, closing, _, matched | ⟨_, ⟨⟩⟩, rfl, rfl⟩
    exact ⟨middle, read, matched⟩
  · rintro ⟨middle, read, matched⟩
    exact ⟨rest.1, middle, read, rest.2, later, .inl matched, rfl, rfl⟩

theorem rawRest_persists (start : Nat) : Persists (fun _ => True) Fenced (rawRest .standard start) := by
  intro cursor rest later matched left
  rcases rawRest_eq_matched.mp matched with ⟨middle, read, closing⟩
  rcases upTo_eq_matched.mp read with ⟨shape, moved, _, within⟩
  refine ⟨trivial, fun more => ?_⟩
  have closing' := (rawEnd_persists closing left).2 more
  have ends := matchesAt_rawEnd (middle.extended more)
  rw [closing'] at ends
  refine rawRest_eq_matched.mpr ⟨middle.extended more, upTo_eq_matched.mpr ⟨?_, moved, .inr ends,
    fun first others suffix => ?_⟩, closing'⟩
  · simp [Cursor.extended, shape]
  · have opens : Dialect.standard.blockStart.chars <+: middle.rest := by
      rcases bind_eq_matched.mp closing with ⟨_, behind, opening, _⟩
      exact ⟨behind.rest, (exact_eq_matched.mp opening).1.symm⟩
    have same : rawEnd .standard (Cursor.extended more ⟨0, first :: (others ++ middle.rest)⟩) = _ :=
      rawEnd_extended rfl opens more
    rw [← within first others suffix, ← matchesAt_append same]
    simp [Cursor.extended]

theorem raw_persists (opened : OpenedTag) : Persists Fenced Fenced (raw .standard opened) := by
  rw [raw_eq]
  exact (Persists.expression edge).bind fun _ => tagEnd_persists.bind fun _ =>
    (rawRest_persists _).bind fun _ => .pure _

end Grammar

end Templating

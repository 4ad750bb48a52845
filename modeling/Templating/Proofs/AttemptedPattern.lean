import Templating.Proofs.AttemptedExpression
import Templating.Proofs.PatternItems

/-! # Patterns that are attempted

The rules of patterns as they are run with one cursor. A qualified name is read first and what may
follow it is tried from there, so that the word before a payload is given back if no payload
follows. -/

namespace Templating.Attempt

variable {room : Room}

open Grammar (Consuming Certain token keyword nameToken here spaces furtherEntry)

/-! ## Entries between brackets -/

section

variable {α : Type} (closing : Char) (entry : Attempt α)

/-- One entry of a payload and what stands behind it: a comma, a bracket, or both. -/
def payloadTurn (entries : List α) : Attempt (Turn (List α) (List α)) := do
  let entry ← expect entry (.payloadItem closing)
  branch (scan (token ","))
    (fun _ => (do scan (token (String.singleton closing)); return .done (entries ++ [entry])) <|>
      return .again (entries ++ [entry]))
    (do
      expect (scan (token (String.singleton closing))) (.payloadEnd closing)
      return .done (entries ++ [entry]))

def payload : Attempt (List α) :=
  (do scan (token (String.singleton closing)); return []) <|> loop (payloadTurn closing entry) []

end

section

variable (inner : Attempt Pattern)

/-- Another item of a tuple. The comma is given back if there is no item behind it. -/
def furtherTurn (items : List Pattern) : Attempt (Turn (List Pattern) (List Pattern)) := do
  let before ← mark
  (do
    scan (token ",")
    let item ← inner
    return .again (items ++ [item])) <|>
  (do goTo before; return .done items)

def groupPattern : Attempt Pattern := do
  let before ← mark
  let start ← scan here
  scan (token "(")
  (do scan (token ")"); return .tuple start [] []) <|> do
    let first ← inner <|> backTo before
    (do scan (token ")"); return first) <|> do
      let items ← loop (furtherTurn inner) [first]
      let _ ← optional (scan (token ","))
      expect (scan (token ")")) .tupleEnd
      return .tuple start [] items

def field : Attempt Field := do
  let before ← mark
  scan spaces
  let start ← scan here
  let label ← scan nameToken <|> backTo before
  branch (scan (token ":"))
    (fun _ => return ⟨label, ← expect inner (.missingPattern (.field label))⟩)
    (return ⟨label, .name start label⟩)

/-- Where no payload follows the name, the cursor is put back behind it. -/
def pathPattern : Attempt Pattern := do
  let start ← scan here
  let segments ← scan Grammar.path
  let behind ← mark
  let _ ← optional (scan (keyword "with"))
  branch (scan (token "(")) (fun _ => return .tuple start segments (← payload ')' inner)) <|
    branch (scan (token "\x7b"))
      (fun _ => return .record start segments (← payload '\x7d' (field inner)))
      (do goTo behind; return .path start segments)

def literalPattern : Attempt Pattern := do
  let start ← scan here
  (do return .literal start .string (← scan Grammar.string)) <|>
    (do return .literal start .character (← scan Grammar.characterText)) <|>
    (do return .literal start .number (← scan Grammar.number)) <|>
    (do return .literal start .boolean (← scan Grammar.boolean))

def namePattern : Attempt Pattern := do
  let start ← scan here
  return .name start (← scan Grammar.name)

def patternOf : Attempt Pattern := do
  let before ← mark
  scan spaces
  let pattern ←
    (literalPattern <|> groupPattern inner <|> pathPattern inner <|> namePattern) <|> backTo before
  scan spaces
  return pattern

end

def patternWithin : (brackets : Nat) → Attempt Pattern
  | 0 => scan Grammar.tooDeep
  | brackets + 1 => patternOf (patternWithin brackets)

def pattern [Room] : Attempt Pattern :=
  patternWithin Grammar.bracketLimit

/-! ## What they come to -/

/-! ### Payloads -/

section

variable {α : Type} {closing : Char} {entry : Attempt α} {entry' : Grammar α} {entries : List α}
  {first : α} {cursor middle behind : Cursor}

theorem furtherEntry_ends (closing : Char) (entry' : Grammar α) (offset : Nat) :
    furtherEntry closing entry' ⟨offset, []⟩ = .noMatch := rfl

/-- The entries from one on, behind those that have been read, and the bracket that ends them. -/
def entriesBehind (closing : Char) (entry' : Grammar α) (entries : List α) : Grammar (List α) := do
  let first ← Grammar.expect entry' (.payloadItem closing)
  let others ← Grammar.many (furtherEntry closing entry')
  let _ ← Grammar.optional (token ",")
  Grammar.expect (token (String.singleton closing)) (.payloadEnd closing)
  return entries ++ first :: others

instance : Certain (entriesBehind closing entry' entries) := by
  unfold entriesBehind
  infer_instance

instance : Certain (Grammar.payload closing entry') := by
  unfold Grammar.payload
  infer_instance

section

variable [Consuming entry']
  (read : Grammar.expect entry' (.payloadItem closing) cursor = .matched first middle)

include read

theorem entriesBehind_of_noComma (noComma : token "," middle = .noMatch) :
    entriesBehind closing entry' entries cursor =
      (Grammar.expect (token (String.singleton closing)) (.payloadEnd closing) >>= fun _ =>
        pure (entries ++ [first])) middle := by
  rw [entriesBehind, Grammar.bind_of_matched read,
    Grammar.many_bind_unfold (furtherEntry_ends closing entry'), furtherEntry,
    Grammar.bind_of_noMatch noComma]
  exact Grammar.bind_of_matched (Grammar.optional_of_noMatch noComma)

theorem entriesBehind_of_closed (comma : token "," middle = .matched () behind)
    (closed : behind.rest.head? = some closing) :
    entriesBehind closing entry' entries cursor =
      (Grammar.expect (token (String.singleton closing)) (.payloadEnd closing) >>= fun _ =>
        pure (entries ++ [first])) behind := by
  have noEntry : furtherEntry closing entry' middle = .noMatch := by
    rw [furtherEntry, Grammar.bind_of_matched comma]
    apply Grammar.bind_of_noMatch
    simp [Grammar.ahead, closed]
  rw [entriesBehind, Grammar.bind_of_matched read,
    Grammar.many_bind_unfold (furtherEntry_ends closing entry'), noEntry]
  exact Grammar.bind_of_matched (Grammar.optional_of_matched comma)

theorem entriesBehind_of_further (comma : token "," middle = .matched () behind)
    (unclosed : behind.rest.head? ≠ some closing) :
    entriesBehind closing entry' entries cursor =
      entriesBehind closing entry' (entries ++ [first]) behind := by
  have further : furtherEntry closing entry' middle =
      Grammar.expect entry' (.payloadItem closing) behind := by
    rw [furtherEntry, Grammar.bind_of_matched comma]
    have goesOn : Grammar.ahead (fun rest => rest.head? != some closing) behind =
        .matched () behind := by
      simp [Grammar.ahead, unclosed]
    exact Grammar.bind_of_matched goesOn
  rw [entriesBehind, Grammar.bind_of_matched read,
    Grammar.many_bind_unfold (furtherEntry_ends closing entry'), further, entriesBehind]
  cases next : Grammar.expect entry' (.payloadItem closing) behind with
  | matched second later =>
      rw [Grammar.bind_of_matched next]
      simp only [List.append_assoc, List.singleton_append]
  | noMatch => exact absurd next (Certain.ne_noMatch behind)
  | failed failure => rw [Grammar.bind_of_failed next]

end

/-- Where no blanks are ahead, a bracket is read if it is the next character. -/
theorem token_of_solid (closing : Char) (solid : Text.Solid cursor.rest) :
    (cursor.rest.head? = some closing ∧
        ∃ later, token (String.singleton closing) cursor = .matched () later) ∨
      (cursor.rest.head? ≠ some closing ∧
        token (String.singleton closing) cursor = .noMatch) := by
  rcases cursor with ⟨offset, rest⟩
  by_cases atHead : rest.head? = some closing
  · refine .inl ⟨atHead, ?_⟩
    rcases List.head?_eq_some_iff.mp atHead with ⟨others, rfl⟩
    have noBlank : Text.isSpace closing = false := Text.solid_cons.mp solid
    simp [token, Grammar.spaced, spaces, Grammar.bind_apply, Grammar.exact, Cursor.skipSpaces,
      Cursor.advance, noBlank]
  · refine .inr ⟨atHead, ?_⟩
    apply (Grammar.token_misses_of_head _ (by simp)).eq_noMatch
    intro first atHead' begins
    rw [Text.afterBlanks_of_solid solid] at atHead'
    exact atHead (atHead'.trans (begins.symm.trans (by simp)))

variable [Consuming entry'] (keeps : entry.Keeps entry')

include keeps

theorem payloadLoop_eq (entries : List α) (cursor : Cursor) :
    loop (payloadTurn closing entry) entries cursor =
      (entriesBehind closing entry' entries cursor).from cursor := by
  refine loop_eq
    (fun entries cursor => (entriesBehind closing entry' entries cursor).from cursor)
    (fun entries cursor => ?_) entries cursor
  have entryRead := keeps.expect (.payloadItem closing) cursor
  rw [Returns] at entryRead
  rw [payloadTurn]
  cases read : Grammar.expect entry' (.payloadItem closing) cursor with
  | noMatch => exact absurd read (Certain.ne_noMatch cursor)
  | failed failure =>
      rw [read] at entryRead
      rw [bind_of_failed entryRead, entriesBehind, Grammar.bind_of_failed read]
      rfl
  | matched first middle =>
      rw [read] at entryRead
      rw [bind_of_got entryRead]
      have shorter := (Consuming.passes read).2
      rcases token_cases "," middle with noComma | ⟨behind, comma⟩
      · rw [entriesBehind_of_noComma read noComma, branch_of_gaveUp (scan_of_noMatch noComma)]
        have closed := (scan_keeps (token (String.singleton closing))).expect (.payloadEnd closing) middle
        rw [Returns] at closed
        cases close : Grammar.expect (token (String.singleton closing)) (.payloadEnd closing) middle with
        | matched value later =>
            rw [close] at closed
            rw [Grammar.bind_pure_of_matched close, bind_pure_of_got closed]
            rfl
        | noMatch => exact absurd close (Certain.ne_noMatch middle)
        | failed failure =>
            rw [close] at closed
            rw [Grammar.bind_of_failed close, bind_of_failed closed]
            rfl
      · have shorter' := (Consuming.passes comma).2
        rcases Grammar.token_yields comma with ⟨_, _, _, solid⟩
        rw [branch_of_got (scan_of_matched comma)]
        rcases token_of_solid closing solid with ⟨atHead, later, closed⟩ | ⟨notAtHead, unclosed⟩
        · have ended : Grammar.expect (token (String.singleton closing)) (.payloadEnd closing) behind =
              .matched () later := Grammar.orElse_of_matched closed
          rw [entriesBehind_of_closed read comma atHead, Grammar.bind_pure_of_matched ended,
            orElse_of_got (bind_pure_of_got (scan_of_matched closed))]
          rfl
        · rw [entriesBehind_of_further read comma notAtHead,
            orElse_of_gaveUp (bind_of_gaveUp (scan_of_noMatch unclosed))]
          exact ⟨by omega, from_eq_from (Certain.ne_noMatch behind)⟩

theorem payload_keeps : (payload closing entry).Keeps (Grammar.payload closing entry') := by
  intro cursor
  refine ((scan_keeps _ cursor).bind fun _ _ _ => pure_returns ..).orElse fun _ => ?_
  exact payloadLoop_eq keeps [] cursor

end

/-! ### Patterns -/

/-- The rule from a place that lies further back. -/
def startingAt {α : Type} (cursor : Cursor) (rule : Grammar α) : Grammar α := fun _ => rule cursor

/-- What two rules read first is read once. The third begins before it. -/
theorem orElse_of_shared {α β : Type} {rule : Grammar β} {first second third : Grammar α}
    {value : β} {cursor later : Cursor} (matched : rule cursor = .matched value later) :
    ((rule >>= fun _ => first) <|> (rule >>= fun _ => second) <|> third) cursor =
      (first <|> second <|> startingAt cursor third) later := by
  rw [Grammar.orElse_apply, Grammar.bind_of_matched matched, Grammar.orElse_apply,
    Grammar.bind_of_matched matched]
  rfl

section

variable {inner : Attempt Pattern} {inner' : Grammar Pattern} [Consuming inner']
  (keeps : inner.Keeps inner')

include keeps

omit [Consuming inner'] in
theorem furtherTurn_eq (items : List Pattern) (cursor : Cursor) :
    furtherTurn inner items cursor =
      turned cursor items
        ((do
          let item ← (do token ","; inner')
          return items ++ [item]) cursor) := by
  apply turned_of_follows
  simp only [bind_assoc]
  refine (scan_keeps _ cursor).follows.bind fun _ comma _ => ?_
  exact (keeps comma).follows.bind fun _ _ _ => pure_follows ..

theorem groupPattern_keeps : (groupPattern inner).Keeps (Grammar.groupPattern inner') := by
  refine keeps_of_mark fun cursor => (scan_keeps _ cursor).bind fun start _ begun => ?_
  cases begun
  refine (scan_keeps _ cursor).bind fun _ opened _ => ?_
  refine ((scan_keeps _ opened).bind fun _ _ _ => pure_returns ..).orElse fun _ => ?_
  refine ((keeps.follows opened).orBackTo cursor).bind fun first middle _ => ?_
  refine ((scan_keeps _ middle).bind fun _ _ _ => pure_returns ..).orElse fun _ => ?_
  have looped : (loop (furtherTurn inner) [first]).Keeps
      (Grammar.many (do token ","; inner') >>= fun others => pure ([first] ++ others)) :=
    loop_keeps_many (fun _ => rfl) (furtherTurn_eq keeps) [first]
  have whole : (do
      let others ← Grammar.many do token ","; inner'
      let _ ← Grammar.optional (token ",")
      Grammar.expect (token ")") .tupleEnd
      return .tuple cursor.offset [] (first :: others) : Grammar Pattern) = (do
      let items ← Grammar.many (do token ","; inner') >>= fun others => pure ([first] ++ others)
      let _ ← Grammar.optional (token ",")
      Grammar.expect (token ")") .tupleEnd
      return .tuple cursor.offset [] items) := by
    simp only [bind_assoc, pure_bind, List.singleton_append]
  rw [whole]
  refine (looped.returns cursor middle).bind fun items later _ => ?_
  refine ((scan_keeps _).optional.returns cursor later).bind fun _ behind _ => ?_
  exact (((scan_keeps _).expect _).returns cursor behind).bind fun _ _ _ => pure_returns ..

omit [Consuming inner'] in
theorem field_keeps : (field inner).Keeps (Grammar.field inner') := by
  refine keeps_of_mark fun cursor => (scan_keeps _ cursor).bind fun _ blanks _ => ?_
  refine ((scan_keeps _).returns cursor blanks).bind fun start _ begun => ?_
  cases begun
  refine ((scan_keeps _).follows blanks |>.orBackTo cursor).bind fun label named _ => ?_
  refine (scan_keeps _ named).branch (fun _ colon _ => ⟨?_, fun missed => ?_⟩) fun _ => ?_
  · exact ((keeps.expect _).returns cursor colon).bind fun _ _ _ => pure_returns ..
  · exact absurd missed (Certain.ne_noMatch colon)
  · exact pure_returns ..

theorem pathPattern_keeps : (pathPattern inner).Keeps (Grammar.pathPattern inner') := by
  intro cursor
  refine (scan_keeps _ cursor).bind fun start _ begun => ?_
  cases begun
  refine (scan_keeps _ cursor).bind fun segments behind _ => ?_
  have word := (scan_keeps (keyword "with")).optional behind
  rw [Returns] at word
  rw [Returns, bind_of_got (rfl : mark behind = .got behind behind)]
  cases found : Grammar.optional (keyword "with") behind with
  | noMatch => exact absurd found (Certain.ne_noMatch behind)
  | failed failure =>
      rw [found] at word
      rw [bind_of_failed word, Grammar.orElse_of_failed (Grammar.bind_of_failed found)]
      rfl
  | matched _ later =>
      rw [found] at word
      rw [bind_of_got word]
      refine Eq.trans ?_ (congrArg (Outcome.from cursor) (orElse_of_shared found).symm)
      refine (scan_keeps _ later).branch (fun _ opened _ => ⟨?_, fun missed => ?_⟩) fun _ => ?_
      · exact ((payload_keeps keeps).returns cursor opened).bind fun _ _ _ => pure_returns ..
      · exact absurd missed (Certain.ne_noMatch opened)
      refine (scan_keeps _ later).branch (fun _ opened _ => ⟨?_, fun missed => ?_⟩) fun _ => rfl
      · exact ((payload_keeps (field_keeps keeps)).returns cursor opened).bind fun _ _ _ =>
          pure_returns ..
      · exact absurd missed (Certain.ne_noMatch opened)

omit [Consuming inner'] keeps in
theorem literalPattern_keeps : literalPattern.Keeps Grammar.literalPattern := by
  intro cursor
  refine (scan_keeps _ cursor).bind fun start _ begun => ?_
  cases begun
  have literal (rule : Grammar String) (embed : String → Pattern) :
      (scan rule >>= fun value => pure (embed value)).Returns cursor
        (rule >>= fun value => pure (embed value)) cursor :=
    (scan_keeps rule cursor).bind fun _ _ _ => pure_returns ..
  exact (literal ..).orElse fun _ => (literal ..).orElse fun _ => (literal ..).orElse fun _ =>
    literal ..

omit [Consuming inner'] keeps in
theorem namePattern_keeps : namePattern.Keeps Grammar.namePattern := by
  intro cursor
  refine (scan_keeps _ cursor).bind fun start _ begun => ?_
  cases begun
  exact (scan_keeps _ cursor).bind fun _ _ _ => pure_returns ..

theorem patternOf_keeps : (patternOf inner).Keeps (Grammar.patternOf inner') := by
  refine keeps_of_mark fun cursor => ((scan_keeps _).returns cursor cursor).bind fun _ blanks _ => ?_
  have either : (literalPattern <|> groupPattern inner <|> pathPattern inner <|> namePattern).Keeps
      (Grammar.literalPattern <|> Grammar.groupPattern inner' <|> Grammar.pathPattern inner' <|>
        Grammar.namePattern) :=
    literalPattern_keeps.orElse <| (groupPattern_keeps keeps).orElse <|
      (pathPattern_keeps keeps).orElse namePattern_keeps
  refine ((either.follows blanks).orBackTo cursor).bind fun pattern later _ => ?_
  exact ((scan_keeps _).returns cursor later).bind fun _ _ _ => pure_returns ..

end

theorem patternWithin_keeps (brackets : Nat) :
    (patternWithin brackets).Keeps (Grammar.patternWithin brackets) := by
  induction brackets with
  | zero => exact scan_keeps _
  | succ brackets induction => exact patternOf_keeps induction

theorem pattern_keeps : pattern.Keeps Grammar.pattern :=
  patternWithin_keeps _

end Templating.Attempt

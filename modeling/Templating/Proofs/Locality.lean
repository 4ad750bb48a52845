import Templating.Proofs.Progress

/-! # How far rules look

A rule for an expression does not look past a closing brace that stands outside quotes, nor a
rule for a pattern past a percent sign. What follows there is never asked for, whatever becomes
of the rule and whatever it tries on the way: further text may be added behind and nothing
changes. -/

namespace Templating

open Text

/-! ## Fences -/

/-- A character that some rules do not look past. -/
inductive Fence where
  /-- Closing braces, for expressions. -/
  | expression
  /-- Percent signs, for patterns. -/
  | pattern
  /-- Opening braces and quotes, for the tag behind raw text. -/
  | raw
  deriving DecidableEq

namespace Fence

def isQuote (character : Char) : Bool :=
  character == '"' || character == '\''

def closes : Fence → Char → Bool
  | expression, character => character == '\x7d'
  | pattern, character => character == '%'
  | raw, character => character == '\x7b' || isQuote character

/-- A character that may be passed over by itself. -/
def isPlain (fence : Fence) (character : Char) : Bool :=
  !fence.closes character && !isQuote character

variable {fence : Fence} {character : Char}

theorem isPlain_iff : fence.isPlain character = true ↔
    fence.closes character = false ∧ isQuote character = false := by
  simp [isPlain]

/-- Neither quotes nor any fence stand in a name. -/
theorem isPlain_of_continuesName (continues : continuesName character = true) :
    fence.isPlain character = true := by
  have apart : character ≠ '"' ∧ character ≠ '\'' ∧ character ≠ '\x7b' ∧ character ≠ '\x7d' ∧
      character ≠ '%' := by
    refine ⟨?_, ?_, ?_, ?_, ?_⟩ <;> rintro rfl <;> cases continues
  cases fence <;> simp [isPlain, closes, isQuote, apart]

theorem isPlain_of_isSpace (space : isSpace character = true) :
    fence.isPlain character = true := by
  simp only [isSpace, Bool.or_eq_true, beq_iff_eq] at space
  rcases space with ((rfl | rfl) | rfl) | rfl <;> cases fence <;> decide

theorem isPlain_mark (trim : Trim) : fence.isPlain trim.mark = true := by
  cases trim <;> cases fence <;> decide

end Fence

/-- The text leads to a later place over plain characters and whole quoted texts. -/
inductive Walk (fence : Fence) : (text rest : List Char) → Prop
  | refl (text : List Char) : Walk fence text text
  | plain {first : Char} {rest last : List Char} :
      fence.isPlain first = true → Walk fence rest last → Walk fence (first :: rest) last
  | quoted {quote : Char} {body rest last : List Char} :
      fence.closes quote = false → Fence.isQuote quote = true →
      Grammar.quotedBody? quote (body ++ quote :: rest) = some body →
      Walk fence rest last → Walk fence (quote :: (body ++ quote :: rest)) last

/-- The fence stands somewhere in the text, outside quotes. -/
def Closed (fence : Fence) (text : List Char) : Prop :=
  ∃ first rest, fence.closes first = true ∧ Walk fence text (first :: rest)

variable {fence : Fence} {text rest last : List Char}

theorem Walk.trans (walk : Walk fence text rest) (further : Walk fence rest last) :
    Walk fence text last := by
  induction walk with
  | refl => exact further
  | plain isPlain _ induction => exact .plain isPlain (induction further)
  | quoted opened isQuote found _ induction => exact .quoted opened isQuote found (induction further)

theorem Walk.append {run : List Char} (isPlain : ∀ character ∈ run, fence.isPlain character = true)
    (rest : List Char) : Walk fence (run ++ rest) rest := by
  induction run with
  | nil => exact .refl rest
  | cons first run induction =>
      rw [List.forall_mem_cons] at isPlain
      exact .plain isPlain.1 (induction isPlain.2)

theorem closed_of_closes {first : Char} (closes : fence.closes first = true) (rest : List Char) :
    Closed fence (first :: rest) :=
  ⟨first, rest, closes, .refl _⟩

/-- A walk goes the only way there is, and never over the fence. -/
theorem Walk.closed (walk : Walk fence text rest) (closed : Closed fence text) :
    Closed fence rest := by
  induction walk with
  | refl => exact closed
  | @plain first rest last isPlain walk induction =>
      apply induction
      rcases closed with ⟨_, _, closes, way⟩
      have := Fence.isPlain_iff.mp isPlain
      cases way with
      | refl => simp [closes] at this
      | plain _ way => exact ⟨_, _, closes, way⟩
      | quoted _ isQuote => simp [isQuote] at this
  | @quoted quote body rest last opened isQuote found walk induction =>
      apply induction
      rcases closed with ⟨_, _, closes, way⟩
      generalize shape : quote :: (body ++ quote :: rest) = text at way
      cases way with
      | refl =>
          cases shape
          rw [opened] at closes
          cases closes
      | plain isPlain way =>
          cases shape
          simp [Fence.isPlain, isQuote] at isPlain
      | @quoted quote' body' rest' _ _ _ found' way =>
          rw [List.cons.injEq] at shape
          rcases shape with ⟨rfl, shape⟩
          rw [← shape, found] at found'
          cases found'
          cases List.append_cancel_left shape
          exact ⟨_, _, closes, way⟩

/-- What closes the text behind a walk closes the text before it, whichever fence the walk
minds. -/
theorem Walk.closed_back {other : Fence} (walk : Walk fence text rest)
    (closed : Closed other rest) : Closed other text := by
  induction walk with
  | refl => exact closed
  | @plain first rest last isPlain _ induction =>
      rcases induction closed with ⟨_, _, closes, way⟩
      cases closed' : other.closes first with
      | true => exact closed_of_closes closed' _
      | false =>
          have := (Fence.isPlain_iff.mp isPlain).2
          exact ⟨_, _, closes, .plain (Fence.isPlain_iff.mpr ⟨closed', this⟩) way⟩
  | @quoted quote body rest last opened isQuote found _ induction =>
      rcases induction closed with ⟨_, _, closes, way⟩
      cases closed' : other.closes quote with
      | true => exact closed_of_closes closed' _
      | false => exact ⟨_, _, closes, .quoted closed' isQuote found way⟩

/-- Behind a run of characters that may not contain the fence, the fence is still to come. -/
theorem Closed.mem (closed : Closed fence text) : ∃ first ∈ text, fence.closes first = true := by
  rcases closed with ⟨first, rest, closes, way⟩
  generalize shape : first :: rest = last at way
  induction way with
  | refl =>
      subst shape
      exact ⟨first, List.mem_cons_self, closes⟩
  | plain _ _ induction =>
      rcases induction shape with ⟨found, member, closes⟩
      exact ⟨found, List.mem_cons_of_mem _ member, closes⟩
  | quoted _ _ _ _ induction =>
      rcases induction shape with ⟨found, member, closes⟩
      exact ⟨found, by simp [member], closes⟩

theorem not_closed_nil : ¬ Closed fence [] := by
  intro closed
  rcases closed.mem with ⟨_, member, _⟩
  cases member

theorem Closed.ne_nil (closed : Closed fence text) : text ≠ [] := by
  rintro rfl
  exact not_closed_nil closed

theorem Closed.exists_cons (closed : Closed fence text) : ∃ first rest, text = first :: rest :=
  List.exists_cons_of_ne_nil closed.ne_nil

/-! ## Further text -/

def Cursor.extended (more : List Char) (cursor : Cursor) : Cursor :=
  ⟨cursor.offset, cursor.rest ++ more⟩

def Outcome.extended {α : Type} (more : List Char) : Outcome α → Outcome α
  | .matched value cursor => .matched value (cursor.extended more)
  | .noMatch => .noMatch
  | .failed failure => .failed failure

theorem takeWhile_append_of_closed {accept : Char → Bool} (more : List Char)
    (closed : Closed fence text)
    (refused : ∀ character, accept character = true → fence.isPlain character = true) :
    (text ++ more).takeWhile accept = text.takeWhile accept := by
  rcases closed.mem with ⟨first, member, closing⟩
  rw [List.takeWhile_append, if_neg]
  intro whole
  have all := (List.takeWhile_prefix accept).eq_of_length whole
  rw [← all] at member
  have isPlain := refused first (List.all_eq_true.mp List.all_takeWhile first member)
  simp [Fence.isPlain, closing] at isPlain

theorem isPrefixOf_append_of_closed {expected : List Char} (more : List Char)
    (closed : Closed fence text)
    (isPlain : ∀ character ∈ expected.dropLast, fence.isPlain character = true) :
    expected.isPrefixOf (text ++ more) = expected.isPrefixOf text := by
  rw [Bool.eq_iff_iff, List.isPrefixOf_iff_prefix, List.isPrefixOf_iff_prefix]
  constructor
  · intro starts
    rcases List.prefix_or_prefix_of_prefix starts (List.prefix_append text more) with
      starts | shorter
    · exact starts
    · rcases shorter with ⟨others, rfl⟩
      rcases closed.mem with ⟨first, member, closing⟩
      cases others with
      | nil => simp
      | cons other others =>
          have := isPlain first (by
            rw [List.dropLast_append_of_ne_nil (by simp)]
            exact List.mem_append_left _ member)
          simp [Fence.isPlain, closing] at this
  · exact fun starts => starts.trans (List.prefix_append text more)

namespace Grammar

variable {α β : Type}

/-- The rule passes over no fence, and does not look past the first one. -/
class Local (fence : Fence) (rule : Grammar α) : Prop where
  walks {cursor : Cursor} {value : α} {later : Cursor} :
    rule cursor = .matched value later → Walk fence cursor.rest later.rest
  stays (more : List Char) {cursor : Cursor} :
    Closed fence cursor.rest → rule (cursor.extended more) = (rule cursor).extended more

theorem apply_extended (rule : Grammar α) [Local fence rule] (more : List Char) {cursor : Cursor}
    (closed : Closed fence cursor.rest) :
    rule (cursor.extended more) = (rule cursor).extended more :=
  Local.stays more closed

section

variable {rule other : Grammar α} {next : α → Grammar β}

instance (value : α) : Local fence (pure value) where
  walks matched := by
    cases matched
    exact .refl _
  stays _ _ _ := rfl

instance : Local fence (noMatch : Grammar α) where
  walks matched := by cases matched
  stays _ _ _ := rfl

instance (problem : Problem) (offset : Nat) : Local fence (failAt problem offset : Grammar α) where
  walks matched := by cases matched
  stays _ _ _ := rfl

instance : Local fence here where
  walks matched := by
    cases matched
    exact .refl _
  stays _ _ _ := rfl

theorem bind_extended {more : List Char} {cursor : Cursor}
    (first : rule (cursor.extended more) = (rule cursor).extended more)
    (second : ∀ value middle, rule cursor = .matched value middle →
      next value (middle.extended more) = (next value middle).extended more) :
    (rule >>= next) (cursor.extended more) = ((rule >>= next) cursor).extended more := by
  rw [bind_apply, bind_apply, first]
  cases matched : rule cursor with
  | matched value middle => exact second value middle matched
  | noMatch => rfl
  | failed failure => rfl

theorem orElse_extended {more : List Char} {cursor : Cursor}
    (first : rule (cursor.extended more) = (rule cursor).extended more)
    (second : other (cursor.extended more) = (other cursor).extended more) :
    (rule <|> other) (cursor.extended more) = ((rule <|> other) cursor).extended more := by
  rw [orElse_apply, orElse_apply, first]
  cases rule cursor with
  | matched value later => rfl
  | noMatch => exact second
  | failed failure => rfl

instance [Local fence rule] [∀ value, Local fence (next value)] : Local fence (rule >>= next) where
  walks matched := by
    rcases bind_eq_matched.mp matched with ⟨value, middle, first, second⟩
    exact (Local.walks first).trans (Local.walks second)
  stays more cursor closed :=
    bind_extended (Local.stays more closed) fun _ _ matched =>
      Local.stays more ((Local.walks matched).closed closed)

instance [Local fence rule] [Local fence other] : Local fence (rule <|> other) where
  walks matched := by
    rcases orElse_eq_matched.mp matched with first | ⟨_, second⟩
    · exact Local.walks first
    · exact Local.walks second
  stays more cursor closed := orElse_extended (Local.stays more closed) (Local.stays more closed)

theorem skipSpaces_extended (more : List Char) {cursor : Cursor} (closed : Closed fence cursor.rest) :
    (cursor.extended more).skipSpaces = cursor.skipSpaces.extended more := by
  unfold Cursor.skipSpaces Cursor.extended Cursor.advance
  dsimp only
  rw [takeWhile_append_of_closed more closed fun _ => Fence.isPlain_of_isSpace,
    List.drop_append_of_le_length (List.takeWhile_prefix _).length_le]

instance (problem : Problem) : Local fence (fail problem : Grammar α) where
  walks matched := by cases matched
  stays more cursor closed := by
    simp only [Grammar.fail, skipSpaces_extended more closed]
    rfl

instance : Local fence (tooDeep : Grammar α) where
  walks matched := by cases matched
  stays more cursor closed := by
    simp only [tooDeep, skipSpaces_extended more closed]
    rfl

instance [Local fence rule] (problem : Problem) : Local fence (expect rule problem) :=
  inferInstanceAs (Local fence (rule <|> fail problem))

instance [Local fence rule] : Local fence (optional rule) :=
  inferInstanceAs (Local fence ((rule >>= fun value => pure (some value)) <|> pure none))

instance (condition : Prop) [Decidable condition] [Local fence rule] [Local fence other] :
    Local fence (if condition then rule else other) := by
  split <;> infer_instance

/-! ## Repetition -/

theorem walk_of_chained {step : α → Grammar α} [∀ value, Local fence (step value)]
    {value last : α} {cursor later : Cursor} (chained : Chained step value cursor last later) :
    Walk fence cursor.rest later.rest := by
  induction chained with
  | refl => exact .refl _
  | head first _ induction => exact (Local.walks first).trans induction

theorem chainFor_extended {step : α → Grammar α} [∀ value, Local fence (step value)]
    [∀ value, Consuming (step value)] (more : List Char) {turns turns' : List Char} {value : α}
    {cursor : Cursor} (closed : Closed fence cursor.rest)
    (enough : cursor.rest.length ≤ turns.length) (enough' : cursor.rest.length ≤ turns'.length) :
    chainFor step turns' value (cursor.extended more) =
      (chainFor step turns value cursor).extended more := by
  rcases closed.exists_cons with ⟨head, tail, shape⟩
  -- There is a turn for each character left, so no run is short of turns before the fence.
  induction turns generalizing turns' value cursor head tail with
  | nil => simp [shape] at enough
  | cons turn turns induction =>
      cases turns' with
      | nil => simp [shape] at enough'
      | cons turn' turns' =>
          rw [chainFor, chainFor, apply_extended (step value) more closed]
          cases stepped : step value cursor with
          | matched next later =>
              have shorter := (Consuming.passes stepped).2
              have closed := (Local.walks stepped).closed closed
              rcases closed.exists_cons with ⟨head', tail', shape'⟩
              rw [List.length_cons] at enough enough'
              exact induction closed (by omega) (by omega) head' tail' shape'
          | noMatch => rfl
          | failed failure => rfl

instance {step : α → Grammar α} [∀ value, Local fence (step value)]
    [∀ value, Consuming (step value)] (value : α) : Local fence (chain step value) where
  walks matched := walk_of_chained (chained_of_chain matched)
  stays more cursor closed :=
    chainFor_extended more closed (Nat.le_refl _) (by simp [Cursor.extended])

theorem walk_of_repeated [Local fence rule] {values : List α} {cursor later : Cursor}
    (repeated : Repeated rule cursor values later) : Walk fence cursor.rest later.rest := by
  induction repeated with
  | nil => exact .refl _
  | cons first _ induction => exact (Local.walks first).trans induction

theorem manyFor_extended [Local fence rule] [Consuming rule] (more : List Char)
    {turns turns' : List Char} {cursor : Cursor} (closed : Closed fence cursor.rest)
    (enough : cursor.rest.length ≤ turns.length) (enough' : cursor.rest.length ≤ turns'.length) :
    manyFor rule turns' (cursor.extended more) =
      (manyFor rule turns cursor).extended more := by
  rcases closed.exists_cons with ⟨head, tail, shape⟩
  induction turns generalizing turns' cursor head tail with
  | nil => simp [shape] at enough
  | cons turn turns induction =>
      cases turns' with
      | nil => simp [shape] at enough'
      | cons turn' turns' =>
          rw [manyFor, manyFor, orElse_apply, orElse_apply, bind_apply, bind_apply,
            apply_extended rule more closed]
          cases first : rule cursor with
          | matched value later =>
              have shorter := (Consuming.passes first).2
              have closed := (Local.walks first).closed closed
              rcases closed.exists_cons with ⟨head', tail', shape'⟩
              rw [List.length_cons] at enough enough'
              dsimp only [Outcome.extended]
              rw [bind_apply, bind_apply,
                induction closed (by omega) (by omega) head' tail' shape']
              cases manyFor rule turns later <;> rfl
          | noMatch => rfl
          | failed failure => rfl

instance [Local fence rule] [Consuming rule] : Local fence (many rule) where
  walks matched := walk_of_repeated (repeated_of_many matched)
  stays more cursor closed :=
    manyFor_extended more closed (Nat.le_refl _) (by simp [Cursor.extended])

end

/-! ## Characters -/

theorem advance_extended (more : List Char) {cursor : Cursor} {count : Nat}
    (within : count ≤ cursor.rest.length) :
    (cursor.extended more).advance count = (cursor.advance count).extended more := by
  simp [Cursor.advance, Cursor.extended, List.drop_append_of_le_length within]

theorem exact_extended {expected more : List Char} {cursor : Cursor}
    (same : expected.isPrefixOf (cursor.rest ++ more) = expected.isPrefixOf cursor.rest) :
    exact expected (cursor.extended more) = (exact expected cursor).extended more := by
  show (if expected.isPrefixOf (cursor.rest ++ more) then _ else _) =
    Outcome.extended _ (if _ then _ else _)
  rw [same]
  split
  case isTrue starts =>
      rw [advance_extended more (List.isPrefixOf_iff_prefix.mp starts).length_le]
      rfl
  case isFalse => rfl

theorem local_exact {expected : List Char} (isPlain : expected.all fence.isPlain = true) :
    Local fence (exact expected) where
  walks matched := by
    rw [(exact_eq_matched.mp matched).1]
    exact .append (List.all_eq_true.mp isPlain) _
  stays more cursor closed :=
    exact_extended (isPrefixOf_append_of_closed more closed fun character member =>
      List.all_eq_true.mp isPlain character ((List.dropLast_prefix _).subset member))

theorem character_extended {accept : Char → Bool} {more : List Char} {cursor : Cursor}
    (nonempty : cursor.rest ≠ []) :
    character accept (cursor.extended more) = (character accept cursor).extended more := by
  rcases cursor with ⟨offset, _ | ⟨first, rest⟩⟩
  · exact absurd rfl nonempty
  · unfold character
    dsimp only [Cursor.extended, List.cons_append]
    split <;> rfl

theorem local_character {accept : Char → Bool}
    (isPlain : ∀ character, accept character = true → fence.isPlain character = true) :
    Local fence (character accept) where
  walks matched := by
    rcases character_eq_matched.mp matched with ⟨accepted, shape, _⟩
    rw [shape]
    exact .plain (isPlain _ accepted) (.refl _)
  stays more cursor closed := character_extended closed.ne_nil

theorem local_characters {accept : Char → Bool}
    (isPlain : ∀ character, accept character = true → fence.isPlain character = true) :
    Local fence (characters accept) where
  walks {cursor _ _} matched := by
    rcases characters_yields matched with ⟨shape, accepted, _⟩
    rw [shape]
    exact .append (fun character member => isPlain character (List.all_eq_true.mp accepted _ member)) _
  stays more cursor closed := by
    unfold characters
    dsimp only [Cursor.extended]
    rw [takeWhile_append_of_closed more closed isPlain]
    exact congrArg (Outcome.matched _)
      (advance_extended more (List.takeWhile_prefix _).length_le)

theorem ahead_extended {test : List Char → Bool} {more : List Char} {cursor : Cursor}
    (same : test (cursor.rest ++ more) = test cursor.rest) :
    ahead test (cursor.extended more) = (ahead test cursor).extended more := by
  show (if test (cursor.rest ++ more) then _ else _) = Outcome.extended _ (if _ then _ else _)
  rw [same]
  split <;> rfl

theorem local_ahead {test : List Char → Bool}
    (same : ∀ text more, Closed fence text → test (text ++ more) = test text) :
    Local fence (ahead test) where
  walks matched := by
    rw [(ahead_eq_matched.mp matched).2]
    exact .refl _
  stays more cursor closed := ahead_extended (same cursor.rest more closed)

/-- A look at the next character is a look at no other. -/
theorem local_ahead_head {test : List Char → Bool}
    (same : ∀ first rest more, test (first :: (rest ++ more)) = test (first :: rest)) :
    Local fence (ahead test) := by
  apply local_ahead
  intro text more closed
  rcases closed.exists_cons with ⟨first, rest, rfl⟩
  exact same first rest more

theorem local_ahead_isPrefixOf {expected : List Char}
    (isPlain : expected.dropLast.all fence.isPlain = true) :
    Local fence (ahead fun rest => expected.isPrefixOf rest) :=
  local_ahead fun _ more closed =>
    isPrefixOf_append_of_closed more closed (List.all_eq_true.mp isPlain)

instance : Local fence spaces where
  walks {cursor _ _} matched := by
    cases matched
    have whole : cursor.rest.takeWhile isSpace ++ cursor.skipSpaces.rest = cursor.rest := by
      rw [skipSpaces_rest]
      exact List.takeWhile_append_dropWhile
    rw [← whole]
    exact .append (fun _ member =>
      Fence.isPlain_of_isSpace (List.all_eq_true.mp List.all_takeWhile _ member)) _
  stays more cursor closed := congrArg (Outcome.matched ()) (skipSpaces_extended more closed)

instance {rule : Grammar α} [Local fence rule] : Local fence (spaced rule) :=
  inferInstanceAs (Local fence (spaces >>= fun _ => rule >>= fun value => spaces >>= fun _ =>
    pure value))

/-! ## Lexemes -/

instance : Local fence endOfWord :=
  local_ahead_head fun _ _ _ => rfl

instance : Local fence name := by
  have : Local fence (character startsName) := local_character fun _ starts =>
    Fence.isPlain_of_continuesName (continuesName_of_startsName starts)
  have : Local fence (characters continuesName) :=
    local_characters fun _ => Fence.isPlain_of_continuesName
  unfold name
  infer_instance

instance : Local fence nameToken := inferInstanceAs (Local fence (spaced name))

theorem local_token {symbol : String} (isPlain : symbol.toList.all fence.isPlain = true) :
    Local fence (token symbol) := by
  have := local_exact isPlain
  exact inferInstanceAs (Local fence (spaced (exact symbol.toList)))

theorem local_word {text : String} (isPlain : text.toList.all fence.isPlain = true) :
    Local fence (word text) := by
  have := local_exact isPlain
  exact inferInstanceAs (Local fence (exact text.toList >>= fun _ => endOfWord >>= fun _ =>
    pure text))

theorem local_keyword {text : String} (isPlain : text.toList.all fence.isPlain = true) :
    Local fence (keyword text) := by
  have := local_word isPlain
  exact inferInstanceAs (Local fence (spaced (word text)))

theorem local_wordOf {words : List String}
    (isPlain : ∀ text ∈ words, text.toList.all fence.isPlain = true) : Local fence (wordOf words) := by
  induction words with
  | nil => exact inferInstanceAs (Local fence noMatch)
  | cons text others induction =>
      rw [List.forall_mem_cons] at isPlain
      have := local_word isPlain.1
      have := induction isPlain.2
      exact inferInstanceAs (Local fence (word text <|> wordOf others))

theorem marker_extended {more : List Char} {cursor : Cursor} (nonempty : cursor.rest ≠ []) :
    marker (cursor.extended more) = (marker cursor).extended more := by
  rcases cursor with ⟨offset, _ | ⟨first, rest⟩⟩
  · exact absurd rfl nonempty
  · unfold marker
    dsimp only [Cursor.extended, List.cons_append]
    cases Trim.ofMark? first <;> rfl

instance : Local fence marker where
  walks {cursor _ _} matched := by
    rcases cursor with ⟨offset, _ | ⟨first, rest⟩⟩
    · cases matched
    · unfold marker at matched
      dsimp only at matched
      cases marked : Trim.ofMark? first with
      | none => simp [marked] at matched
      | some found =>
          simp only [marked] at matched
          cases matched
          rw [Trim.ofMark?_eq_some_iff.mp marked]
          exact .plain (Fence.isPlain_mark _) (.refl _)
  stays more cursor closed := marker_extended closed.ne_nil

theorem edge_extended {more : List Char} {cursor : Cursor} (nonempty : cursor.rest ≠ []) :
    edge (cursor.extended more) = (edge cursor).extended more :=
  orElse_extended (bind_extended (marker_extended nonempty) fun _ _ _ => rfl) rfl

instance : Local fence edge := inferInstanceAs (Local fence (optional marker))

instance : Local fence number := by
  have isPlain : ∀ character, isDigit character = true → fence.isPlain character = true :=
    fun _ digit => Fence.isPlain_of_continuesName (by simp [continuesName, digit])
  have : Local fence (character isDigit) := local_character isPlain
  have : Local fence (characters isDigit) := local_characters isPlain
  have : Local fence (exact ['.']) := local_exact (by cases fence <;> rfl)
  have : Local fence fraction := by
    unfold fraction
    infer_instance
  rw [number_eq]
  infer_instance

instance : Local fence separator := by
  have : Local fence (exact [':', ':']) := local_exact (by cases fence <;> rfl)
  unfold separator
  infer_instance

instance : Local fence path := by
  have : Local fence furtherName := by
    unfold furtherName
    infer_instance
  rw [path_eq]
  infer_instance

/-! ## Quoted texts -/

theorem between_apply {quote : Char} (apart : quote ≠ '\\') {body : List Char}
    (isBody : isBody quote body = true) (offset : Nat) (rest : List Char) :
    between quote ⟨offset, quote :: (body ++ quote :: rest)⟩ =
      .matched (String.ofList body) ⟨offset + 1 + body.length + 1, rest⟩ := by
  have opening : exact [quote] ⟨offset, quote :: (body ++ quote :: rest)⟩ =
      .matched () ⟨offset + 1, body ++ quote :: rest⟩ := exact_eq_matched.mpr ⟨rfl, rfl⟩
  have inside : Grammar.body quote ⟨offset + 1, body ++ quote :: rest⟩ =
      .matched body ⟨offset + 1 + body.length, quote :: rest⟩ := by
    simp [Grammar.body, quotedBody?_of_isBody apart isBody, Cursor.advance]
  have closing : exact [quote] ⟨offset + 1 + body.length, quote :: rest⟩ =
      .matched () ⟨offset + 1 + body.length + 1, rest⟩ := exact_eq_matched.mpr ⟨rfl, rfl⟩
  rw [between_eq, bind_of_matched opening, bind_of_matched inside, bind_of_matched closing]
  rfl

theorem local_between {quote : Char} (isQuote : Fence.isQuote quote = true)
    (passed : fence.closes quote = false) : Local fence (between quote) := by
  have apart : quote ≠ '\\' := by
    rintro rfl
    cases isQuote
  refine ⟨fun {cursor value later} matched => ?_, fun more cursor closed => ?_⟩
  · rcases between_yields matched with ⟨isBody, shape⟩
    have shape : cursor.rest = quote :: (value.toList ++ quote :: later.rest) := by
      rw [shape]
      simp
    rw [shape]
    exact .quoted passed isQuote (quotedBody?_of_isBody apart isBody _) (.refl _)
  · rcases cursor with ⟨offset, text⟩
    rcases closed with ⟨first, last, closing, way⟩
    dsimp only [Cursor.extended]
    have missed {head : Char} (different : head ≠ quote) (rest : List Char) :
        between quote ⟨offset, head :: rest⟩ = .noMatch :=
      between_misses (by simpa using different) offset
    cases way with
    | refl =>
        have different : first ≠ quote := by
          rintro rfl
          rw [passed] at closing
          cases closing
        rw [List.cons_append, missed different, missed different]
        rfl
    | @plain head rest _ isPlain way =>
        have different : head ≠ quote := by
          rintro rfl
          simp [Fence.isPlain, isQuote] at isPlain
        rw [List.cons_append, missed different, missed different]
        rfl
    | @quoted head body rest _ _ _ found way =>
        by_cases same : head = quote
        · subst same
          have isBody := (quotedBody?_eq_some found).1
          rw [between_apply apart isBody, List.cons_append, List.append_assoc, List.cons_append,
            between_apply apart isBody]
          rfl
        · rw [List.cons_append, missed same, missed same]
          rfl

instance : Local .expression string := local_between rfl rfl

instance : Local .expression characterText := local_between rfl rfl

instance : Local .pattern string := local_between rfl rfl

instance : Local .pattern characterText := local_between rfl rfl

end Grammar

end Templating

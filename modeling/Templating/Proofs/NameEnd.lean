import Templating.Proofs.Alternatives
import Templating.Proofs.Bare
import Templating.Proofs.Blame
import Templating.Proofs.ExpressionFollow
import Templating.Proofs.ExpressionSoundness
import Templating.Proofs.PatternCompleteness
import Templating.Proofs.PatternSoundness

/-! # What goes on behind a name

A name by itself is an expression, and it is all that is read of a text if nothing behind it goes
on with an expression. Nothing that does can be overlooked: each rule that is tried behind a name
either misses there or reads more. -/

namespace Templating

/-- The expression is a name. -/
def Expr.isVar : Expr → Bool
  | var .. => true
  | _ => false

/-- The pattern is a name. -/
def Pattern.isName : Pattern → Bool
  | name .. => true
  | _ => false

namespace Grammar

open Text Templating.Expr

variable {α β : Type} {rule other : Grammar α} {next : α → Grammar β} {cursor later : Cursor}
  {text rest behind : List Char} {first : Char}

/-! ## Blanks in front of a rule -/

theorem skipSpaces_of_solid (solid : Solid cursor.rest) : cursor.skipSpaces = cursor := by
  have empty : cursor.rest.takeWhile isSpace = [] := by
    cases shape : cursor.rest with
    | nil => rfl
    | cons first rest =>
        rw [shape, solid_cons] at solid
        simp [solid]
  rw [Cursor.skipSpaces, empty]
  exact cursor.advance_zero

/-- The rule passes over the blanks in front of what it reads. -/
class Skipping (rule : Grammar α) : Prop where
  skips (cursor : Cursor) : rule cursor.skipSpaces = rule cursor

theorem apply_skipSpaces (rule : Grammar α) [Skipping rule] (cursor : Cursor) :
    rule cursor.skipSpaces = rule cursor :=
  Skipping.skips cursor

instance : Skipping spaces :=
  ⟨fun cursor => by
    have solid : Solid cursor.skipSpaces.rest := by
      rw [skipSpaces_rest]
      exact solid_afterBlanks cursor.rest
    exact congrArg (Outcome.matched ()) (skipSpaces_of_solid solid)⟩

instance [Skipping rule] : Skipping (rule >>= next) :=
  ⟨fun cursor => by rw [bind_apply, bind_apply, apply_skipSpaces rule]⟩

instance [Skipping rule] [Skipping other] : Skipping (rule <|> other) :=
  ⟨fun cursor => by rw [orElse_apply, orElse_apply, apply_skipSpaces rule, apply_skipSpaces other]⟩

instance : Skipping (noMatch : Grammar α) := ⟨fun _ => rfl⟩

instance : Skipping (spaced rule) :=
  inferInstanceAs (Skipping (spaces >>= _))

instance (symbol : String) : Skipping (token symbol) :=
  inferInstanceAs (Skipping (spaced _))

instance (word : String) : Skipping (keyword word) :=
  inferInstanceAs (Skipping (spaced _))

instance : Skipping furtherName :=
  inferInstanceAs (Skipping (spaced _ >>= _))

instance (inner : Grammar Expr) : Skipping (argumentsOf inner) :=
  inferInstanceAs (Skipping (token "(" >>= _))

instance (inner : Grammar Expr) (start : Nat) (value : Expr) :
    Skipping (postfixStep inner start value) := by
  unfold postfixStep
  infer_instance

instance (inner : Grammar Expr) (start : Nat) (value : Expr) :
    Skipping (filterStep inner start value) :=
  inferInstanceAs (Skipping (token "|" >>= _))

instance (op : BinaryOp) : Skipping (operator op) := by
  unfold operator
  split <;> infer_instance

instance (operators : List BinaryOp) : Skipping (operatorOf operators) := by
  induction operators with
  | nil => exact inferInstanceAs (Skipping noMatch)
  | cons op others induction => exact inferInstanceAs (Skipping (operator op <|> operatorOf others))

instance : Skipping rangeMark := by
  unfold rangeMark
  infer_instance

/-! ## Nothing but a name -/

/-- A rule in front of one that always matches or ends the parse is what does not match. -/
theorem bind_certain_eq_noMatch [∀ value, Certain (next value)] :
    (rule >>= next) cursor = .noMatch ↔ rule cursor = .noMatch := by
  rw [bind_eq_noMatch]
  constructor
  · rintro (missed | ⟨value, middle, _, missed⟩)
    · exact missed
    · exact absurd missed (Certain.ne_noMatch middle)
  · exact .inl

/-- Steps that yield no name do not match where a chain of them ends with one. -/
theorem chain_eq_name {step : Expr → Grammar Expr} [∀ value, Consuming (step value)]
    (built : ∀ value, Always (fun result => result.isVar = false) (step value)) {place : Nat}
    {name : String} {value : Expr} (further : later.rest ≠ []) :
    chain step value cursor = .matched (.var place name) later ↔
      value = .var place name ∧ cursor = later ∧ step value cursor = .noMatch := by
  constructor
  · intro matched
    have stopped := noMatch_of_chain matched further
    have stays : (Expr.var place name = value ∧ later = cursor) ∨
        (Expr.var place name).isVar = false :=
      chain_preserves (motive := fun result middle => (result = value ∧ middle = cursor) ∨
        result.isVar = false) matched
        (fun _ stepped => .inr (built _ _ _ _ stepped)) (.inl ⟨rfl, rfl⟩)
    rcases stays with ⟨rfl, rfl⟩ | built
    · exact ⟨rfl, rfl, stopped⟩
    · cases built
  · rintro ⟨rfl, rfl, stopped⟩
    exact chain_of_chained (.refl _ _) stopped

/-- Behind a rule steps that yield no name lead to one only where none of them matches. -/
theorem bind_chain_eq_name {rule : Grammar Expr} {step : Expr → Grammar Expr}
    [∀ value, Consuming (step value)]
    (built : ∀ value, Always (fun result => result.isVar = false) (step value)) {place : Nat}
    {name : String} (further : later.rest ≠ []) :
    (rule >>= chain step) cursor = .matched (.var place name) later ↔
      rule cursor = .matched (.var place name) later ∧
        step (.var place name) later = .noMatch := by
  rw [bind_eq_matched]
  constructor
  · rintro ⟨value, middle, read, chained⟩
    rcases (chain_eq_name built further).mp chained with ⟨rfl, rfl, stopped⟩
    exact ⟨read, stopped⟩
  · rintro ⟨read, stopped⟩
    exact ⟨_, _, read, (chain_eq_name built further).mpr ⟨rfl, rfl, stopped⟩⟩

section

variable (inner : Grammar Expr) {place : Nat} {name : String}

theorem postfixStep_builds (start : Nat) (value : Expr) :
    Always (fun result => result.isVar = false) (postfixStep inner start value) :=
  .orElse (.bind fun _ => .bind fun _ => .pure rfl) <|
    .orElse (.bind fun _ => .bind fun _ => .bind fun _ => .pure rfl) <|
    .orElse (.bind fun _ => .pure rfl) (.bind fun _ => .pure rfl)

theorem filterStep_builds (start : Nat) (value : Expr) :
    Always (fun result => result.isVar = false) (filterStep inner start value) :=
  .bind fun _ => .bind fun _ => .bind fun _ => .bind fun _ => .pure rfl

theorem binaryStep_builds (operand : Grammar Expr) (operators : List BinaryOp) (start : Nat)
    (value : Expr) :
    Always (fun result => result.isVar = false) (binaryStep operand operators start value) :=
  .bind fun _ => .bind fun _ => .pure rfl

/-- What begins like a name has no operator in front of it. -/
theorem unaryOf_eq_filteredOf (solid : Solid cursor.rest)
    (starts : ∀ first ∈ cursor.rest.head?, startsName first = true) :
    unaryOf inner cursor = filteredOf inner cursor := by
  have unmarked : unaryMark cursor = .noMatch := by
    rcases unaryMark_reads_or_misses cursor.rest with ⟨op, behind, shape, _⟩ | ⟨_, _, misses⟩
    · cases op with
      | not => cases starts '!' (by rw [shape]; rfl)
      | negate => cases starts '-' (by rw [shape]; rfl)
    · exact misses.eq_noMatch
  have blanks : spaces cursor = .matched () cursor :=
    congrArg (Outcome.matched ()) (skipSpaces_of_solid solid)
  have located : here cursor = .matched cursor.offset cursor := rfl
  rw [unaryOf_eq, bind_of_matched blanks, bind_of_matched located,
    bind_of_matched (optional_of_noMatch unmarked)]
  exact congrFun (bind_pure (filteredOf inner)) cursor

variable [Advancing inner] (solid : Solid cursor.rest) (further : later.rest ≠ [])

include solid further

theorem postfixOf_eq_name :
    postfixOf inner cursor = .matched (.var place name) later ↔
      primaryOf inner cursor = .matched (.var place name) later ∧
        postfixStep inner cursor.offset (.var place name) later = .noMatch := by
  have run : postfixOf inner cursor =
      (primaryOf inner >>= chain (postfixStep inner cursor.skipSpaces.offset))
        cursor.skipSpaces := rfl
  rw [run, skipSpaces_of_solid solid]
  exact bind_chain_eq_name (postfixStep_builds inner _) further

theorem filteredOf_eq_name :
    filteredOf inner cursor = .matched (.var place name) later ↔
      postfixOf inner cursor = .matched (.var place name) later ∧
        filterStep inner cursor.offset (.var place name) later = .noMatch := by
  have run : filteredOf inner cursor =
      (postfixOf inner >>= chain (filterStep inner cursor.skipSpaces.offset)) cursor := rfl
  rw [run, skipSpaces_of_solid solid]
  exact bind_chain_eq_name (filterStep_builds inner _) further

end

section

variable {operand : Grammar Expr}

theorem binaryOf_eq_bind (operators : List BinaryOp) (tighter : List (List BinaryOp)) :
    binaryOf operand (operators :: tighter) cursor =
      (binaryOf operand tighter >>=
        chain (binaryStep (binaryOf operand tighter) operators cursor.skipSpaces.offset)) cursor :=
  rfl

/-- Where no operand stands, none is read with operators behind it either. -/
theorem binaryOf_eq_noMatch (layers : List (List BinaryOp)) :
    binaryOf operand layers cursor = .noMatch ↔ operand cursor = .noMatch := by
  induction layers with
  | nil => rfl
  | cons operators tighter induction =>
      rw [binaryOf_eq_bind, bind_certain_eq_noMatch, induction]

theorem binaryStep_eq_noMatch (operators : List BinaryOp) (tighter : List (List BinaryOp))
    (start : Nat) (value : Expr) :
    binaryStep (binaryOf operand tighter) operators start value cursor = .noMatch ↔
      ∀ op behind, operatorOf operators cursor = .matched op behind →
        operand behind = .noMatch := by
  rw [binaryStep, bind_eq_noMatch]
  constructor
  · rintro (missed | ⟨op, middle, found, missed⟩) op' behind found'
    · rw [found'] at missed
      cases missed
    · rw [found'] at found
      cases found
      exact (binaryOf_eq_noMatch tighter).mp (noMatch_of_bind_pure missed)
  · intro each
    cases found : operatorOf operators cursor with
    | matched op behind =>
        have missed := (binaryOf_eq_noMatch tighter).mpr (each op behind found)
        exact .inr ⟨op, behind, rfl, bind_of_noMatch missed⟩
    | noMatch => exact .inl rfl
    | failed failure => exact absurd found (Quiet.ne_failed cursor failure)

theorem binaryOf_eq_name [Consuming operand] {place : Nat} {name : String}
    (further : later.rest ≠ []) (layers : List (List BinaryOp)) :
    binaryOf operand layers cursor = .matched (.var place name) later ↔
      operand cursor = .matched (.var place name) later ∧
        ∀ operators ∈ layers, ∀ op behind, operatorOf operators later = .matched op behind →
          operand behind = .noMatch := by
  induction layers with
  | nil => simp [binaryOf]
  | cons operators tighter induction =>
      have consuming := consuming_binaryOf operand tighter
      rw [binaryOf_eq_bind, bind_chain_eq_name (binaryStep_builds _ _ _) further, induction,
        binaryStep_eq_noMatch, List.forall_mem_cons, and_assoc, and_congr_right_iff]
      exact fun _ => and_comm

end

/-! ## A name at the cursor -/

section

variable {value : String} {middle : Cursor} (read : name cursor = .matched value middle)
  (small : value.toList.any isUppercase = false) (further : middle.rest ≠ [])

include read small further

/-- A name without capital letters is a qualified name if and only if a further name follows. -/
theorem path_eq_noMatch : path cursor = .noMatch ↔ furtherName middle = .noMatch := by
  have unrooted : separator cursor = .noMatch :=
    (separator_misses_of_nameAt (name_yields read)).eq_noMatch
  have run : path cursor = (many furtherName >>= fun others =>
      if others.isEmpty then noMatch else pure (value :: others)) middle := by
    rw [path_eq, bind_of_matched (optional_of_noMatch unrooted), bind_of_matched read]
    refine congrFun (bind_congr fun others => ?_) middle
    cases others <;> simp [small]
  rw [run]
  constructor
  · intro missed
    rcases bind_eq_noMatch.mp missed with missed | ⟨others, last, repeated, missed⟩
    · exact absurd missed (Certain.ne_noMatch middle)
    · cases others with
      | nil =>
          cases repeated_of_many repeated
          exact noMatch_of_many repeated further
      | cons _ _ => cases missed
  · intro stopped
    rw [bind_of_matched (many_of_repeated (.nil middle) stopped)]
    rfl

variable (inner : Grammar Expr) (apart : value ≠ "true" ∧ value ≠ "false")

include apart

theorem primaryOf_eq_name {place : Nat} :
    primaryOf inner cursor = .matched (.var place value) later ↔
      place = cursor.offset ∧ later = middle ∧ furtherName middle = .noMatch := by
  have named := name_yields read
  rcases named.head? with ⟨first, atHead, starts⟩
  have noHead {other : Char} (noName : startsName other = false) : other ∉ cursor.rest.head? := by
    rw [atHead]
    rintro ⟨⟩
    rw [starts] at noName
    cases noName
  have noBoolean : boolean cursor = .noMatch :=
    (boolean_misses_of_wordAt named.2 (continuesName_of_isName named.1) apart).eq_noMatch
  have noNumber : number cursor = .noMatch := by
    have noDigit : ∀ digit ∈ cursor.rest.head?, isDigit digit = false := fun digit atHead' =>
      Bool.eq_false_iff.mpr fun isDigit =>
        noHead (startsName_eq_false_of_isDigit isDigit) atHead'
    exact Misses.eq_noMatch (number_misses noDigit)
  have noString : string cursor = .noMatch :=
    Misses.eq_noMatch (between_misses (noHead (by decide)))
  have noCharacter : characterText cursor = .noMatch :=
    Misses.eq_noMatch (between_misses (noHead (by decide)))
  have noList : listOf inner cursor = .noMatch := by
    rw [listOf, here_bind]
    exact bind_of_noMatch (exact_misses_of_head (noHead (by decide))).eq_noMatch
  have segmented := path_eq_noMatch read small further
  rw [primaryOf, here_bind, orElse_of_noMatch (bind_of_noMatch noBoolean),
    orElse_of_noMatch (bind_of_noMatch noNumber), orElse_of_noMatch (bind_of_noMatch noString),
    orElse_of_noMatch (bind_of_noMatch noCharacter), ← segmented]
  rcases Quiet.cases path cursor with missed | ⟨segments, last, matched⟩
  · rw [orElse_of_noMatch (bind_of_noMatch missed), orElse_of_noMatch noList,
      orElse_of_matched (bind_pure_of_matched read)]
    constructor
    · rintro ⟨⟩
      exact ⟨rfl, rfl, missed⟩
    · rintro ⟨rfl, rfl, _⟩
      rfl
  · rw [orElse_of_matched (bind_pure_of_matched matched), matched]
    constructor
    · rintro ⟨⟩
    · rintro ⟨_, _, ⟨⟩⟩

end

section

variable (inner : Grammar Expr) {place : Nat} {value : String}

theorem expressionOf_eq_name (further : later.rest ≠ []) :
    expressionOf inner cursor = .matched (.var place value) later ↔
      ∃ middle, operationOf inner cursor.skipSpaces = .matched (.var place value) middle ∧
        rangeMark middle = .noMatch ∧ middle.skipSpaces = later := by
  have blanks : spaces cursor = .matched () cursor.skipSpaces := rfl
  rw [expressionOf, bind_of_matched blanks, here_bind]
  constructor
  · intro matched
    rcases bind_eq_matched.mp matched with ⟨left, middle, leftRead, behindLeft⟩
    rcases bind_eq_matched.mp behindLeft with ⟨kind, last, kindRead, behindKind⟩
    clear matched behindLeft
    rcases optional_eq_matched.mp kindRead with ⟨kind, rfl, _⟩ | ⟨rfl, rfl, noRange⟩
    · rcases bind_eq_matched.mp behindKind with ⟨_, _, _, ranged⟩
      cases ranged
    · rcases optional_eq_matched.mp leftRead with ⟨found, rfl, operation⟩ | ⟨rfl, rfl, _⟩
      · cases behindKind
        exact ⟨_, operation, noRange, rfl⟩
      · cases behindKind
  · rintro ⟨middle, leftRead, noRange, rfl⟩
    rw [bind_of_matched (optional_of_matched leftRead),
      bind_of_matched (optional_of_noMatch noRange)]
    rfl

variable {middle : Cursor} [Advancing inner]
  (read : name cursor.skipSpaces = .matched value middle)
  (small : value.toList.any isUppercase = false) (apart : value ≠ "true" ∧ value ≠ "false")
  (more : middle.rest ≠ []) (further : later.rest ≠ [])

include read small apart more further

/-- A name is all that an expression reads if and only if each rule that is tried behind it
misses. -/
theorem expressionOf_eq_name_iff_noMatch :
    expressionOf inner cursor = .matched (.var place value) later ↔
      place = cursor.skipSpaces.offset ∧ later = middle.skipSpaces ∧
        furtherName later = .noMatch ∧
        postfixStep inner place (.var place value) later = .noMatch ∧
        filterStep inner place (.var place value) later = .noMatch ∧
        (∀ operators ∈ BinaryOp.layers, ∀ op behind,
          operatorOf operators later = .matched op behind → unaryOf inner behind = .noMatch) ∧
        rangeMark later = .noMatch := by
  have named := name_yields read
  have solid := named.solid
  have starts : ∀ first ∈ cursor.skipSpaces.rest.head?, startsName first = true := by
    rcases named.head? with ⟨first, atHead, starts⟩
    rw [atHead]
    rintro _ ⟨⟩
    exact starts
  have skipped {α : Type} (rule : Grammar α) [Skipping rule] :
      rule middle.skipSpaces = rule middle := apply_skipSpaces rule middle
  constructor
  · intro matched
    rcases (expressionOf_eq_name inner further).mp matched with ⟨last, operation, noRange, rfl⟩
    have furtherLast : last.rest ≠ [] := by
      intro empty
      apply further
      rw [skipSpaces_rest, empty]
      rfl
    rw [operationOf, binaryOf_eq_name furtherLast, unaryOf_eq_filteredOf inner solid starts,
      filteredOf_eq_name inner solid furtherLast, postfixOf_eq_name inner solid furtherLast,
      primaryOf_eq_name read small more inner apart] at operation
    rcases operation with ⟨⟨⟨⟨rfl, rfl, noName⟩, noPostfix⟩, noFilter⟩, noOperator⟩
    refine ⟨rfl, rfl, ?_⟩
    simp only [skipped]
    exact ⟨noName, noPostfix, noFilter, noOperator, noRange⟩
  · rintro ⟨rfl, rfl, stops⟩
    simp only [skipped] at stops
    rcases stops with ⟨noName, noPostfix, noFilter, noOperator, noRange⟩
    refine (expressionOf_eq_name inner further).mpr ⟨middle, ?_, noRange, rfl⟩
    rw [operationOf, binaryOf_eq_name more, unaryOf_eq_filteredOf inner solid starts,
      filteredOf_eq_name inner solid more, postfixOf_eq_name inner solid more,
      primaryOf_eq_name read small more inner apart]
    exact ⟨⟨⟨⟨rfl, rfl, noName⟩, noPostfix⟩, noFilter⟩, noOperator⟩

end

/-! ## Patterns -/

section

variable (inner : Grammar Pattern) {place : Nat} {value : String} {middle : Cursor}

theorem pathPattern_builds :
    Always (fun result => result.isName = false) (pathPattern inner) :=
  .bind fun _ => .bind fun _ => .orElse (.bind fun _ => .bind fun _ => .bind fun _ => .pure rfl) <|
    .orElse (.bind fun _ => .bind fun _ => .bind fun _ => .pure rfl) (.pure rfl)

/-- A name is all that a pattern reads if and only if no further name stands behind it. -/
theorem patternOf_eq_name_iff (read : name cursor.skipSpaces = .matched value middle)
    (small : value.toList.any isUppercase = false) (apart : value ≠ "true" ∧ value ≠ "false")
    (more : middle.rest ≠ []) :
    patternOf inner cursor = .matched (.name place value) later ↔
      place = cursor.skipSpaces.offset ∧ later = middle.skipSpaces ∧
        furtherName later = .noMatch := by
  have named := name_yields read
  have notBoolean : Misses boolean cursor.skipSpaces.rest :=
    boolean_misses_of_wordAt named.2 (continuesName_of_isName named.1) apart
  rcases named.head? with ⟨first, atHead, starts⟩
  have noBrackets : Misses literalPattern _ ∧ Misses (groupPattern inner) _ :=
    bracket_misses ⟨first, atHead, .inl starts⟩ notBoolean
  rcases noBrackets with ⟨noLiteral, noGroup⟩
  have run : patternOf inner cursor = ((pathPattern inner <|> namePattern) >>= fun result =>
      spaces >>= fun _ => pure result) cursor.skipSpaces := by
    have blanks : spaces cursor = .matched () cursor.skipSpaces := rfl
    rw [patternOf, spaced, bind_of_matched blanks, bind_apply,
      orElse_of_noMatch noLiteral.eq_noMatch, orElse_of_noMatch noGroup.eq_noMatch]
    rfl
  have onName : (namePattern >>= fun result => spaces >>= fun _ => pure result) cursor.skipSpaces =
      .matched (.name cursor.skipSpaces.offset value) middle.skipSpaces := by
    have named : namePattern cursor.skipSpaces =
        .matched (.name cursor.skipSpaces.offset value) middle :=
      bind_pure_of_matched read
    rw [bind_of_matched named]
    rfl
  have segmented :
      path cursor.skipSpaces = .noMatch ↔ furtherName middle.skipSpaces = .noMatch := by
    rw [path_eq_noMatch read small more, apply_skipSpaces furtherName]
  rw [run]
  constructor
  · intro matched
    rcases bind_eq_matched.mp matched with ⟨result, last, chosen, behind⟩
    cases behind
    rcases orElse_eq_matched.mp chosen with qualified | ⟨noPath, _⟩
    · cases pathPattern_builds inner _ _ _ qualified
    · rw [bind_apply, orElse_of_noMatch noPath] at matched
      have same := onName.symm.trans matched
      rw [Outcome.matched.injEq] at same
      rcases same with ⟨⟨⟩, same⟩
      exact ⟨rfl, same.symm, same ▸ segmented.mp (path_noMatch_of_pathPattern noPath)⟩
  · rintro ⟨rfl, rfl, stopped⟩
    have noPath : pathPattern inner cursor.skipSpaces = .noMatch := by
      rw [pathPattern, here_bind]
      exact bind_of_noMatch (segmented.mpr stopped)
    rw [bind_apply, orElse_of_noMatch noPath]
    exact onName

end

end Grammar

end Templating

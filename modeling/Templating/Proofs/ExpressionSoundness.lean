import Templating.Proofs.ExpressionFollow

/-! # What the rules for expressions read

Whatever a rule for expressions yields is well formed, and the text that the rule has read is a
spelling of it. The rules are taken in the order in which they are built, each with its own
lower bound on the rank of what it yields. -/

namespace Templating.Grammar

open Text Templating.Expr

/-- The expression has been read from the start up to blanks before the rest. Its rank is at
least the given level. -/
structure ReadFrom (limit level : Nat) (start : List Char) (value : Expr) (rest : List Char) :
    Prop where
  spelled : ∃ last, value.Spelled start last ∧ Gap last rest
  rank : level ≤ value.rank
  wellFormed : value.WellFormed IsReadable
  nesting : value.nesting ≤ limit

/-- The rule reads expressions of a level only, behind blanks at most. -/
def Sound (limit level : Nat) (rule : Grammar Expr) : Prop :=
  ∀ {cursor value later}, rule cursor = .matched value later →
    ∃ start, Gap cursor.rest start ∧ ReadFrom limit level start value later.rest

/-- The rule reads expressions, each of which can stand in one more pair of brackets. -/
def SoundInside (limit : Nat) (rule : Grammar Expr) : Prop :=
  ∀ {cursor value later}, rule cursor = .matched value later →
    value.Padded cursor.rest later.rest ∧ value.WellFormed IsReadable ∧ value.nesting < limit

/-- The expressions have been read from the start, all of them inside one pair of brackets. -/
structure ReadItems (limit : Nat) (start : List Char) (items : List Expr) (rest : List Char) :
    Prop where
  spelled : ∃ last, SpelledItems items start last ∧ Gap last rest
  wellFormed : ∀ item ∈ items, item.WellFormed IsReadable
  nesting : nestingAll items ≤ limit

variable {limit level : Nat} {inner : Grammar Expr} {cursor later : Cursor}
  {text start rest : List Char}

theorem ReadFrom.mono {level' : Nat} {value : Expr} (lower : level' ≤ level)
    (read : ReadFrom limit level start value rest) : ReadFrom limit level' start value rest :=
  ⟨read.spelled, Nat.le_trans lower read.rank, read.wellFormed, read.nesting⟩

/-! ## Items in brackets -/

theorem furtherItems_sound (sound : SoundInside limit inner) {items : List Expr}
    (repeated : Repeated (furtherItem inner) cursor items later) (gap : Gap text cursor.rest) :
    ∃ last, SpelledTail items text last ∧ Gap last later.rest ∧
      (∀ item ∈ items, item.WellFormed IsReadable) ∧ nestingAll items ≤ limit := by
  induction repeated generalizing text with
  | nil => exact ⟨text, rfl, gap, nofun, Nat.zero_le _⟩
  | cons first _ induction =>
      simp only [furtherItem, bind_eq_matched] at first
      rcases first with ⟨_, between, comma, read⟩
      rcases token_yields comma with ⟨middle, symbol, behind, _⟩
      rcases sound read with ⟨⟨start, stop, before, spelled, after⟩, wellFormed, nesting⟩
      rcases induction after with ⟨last, others, gap', allWellFormed, allNesting⟩
      refine ⟨last, ⟨middle, start, stop, gap.trans symbol, behind.trans before, spelled, others⟩,
        gap', ?_, ?_⟩
      · exact List.forall_mem_cons.mpr ⟨wellFormed, allWellFormed⟩
      · rw [nestingAll]
        omega

theorem items_sound (sound : SoundInside limit inner) {first : Expr} {others : List Expr}
    {middle : Cursor} (gap : Gap text cursor.rest) (read : inner cursor = .matched first middle)
    (repeated : many (furtherItem inner) middle = .matched others later) :
    ReadItems limit text (first :: others) later.rest := by
  rcases sound read with ⟨⟨start, stop, before, spelled, after⟩, wellFormed, nesting⟩
  rcases furtherItems_sound sound (repeated_of_many repeated) after with
    ⟨last, spelledOthers, gap', allWellFormed, allNesting⟩
  refine ⟨⟨last, ⟨start, stop, gap.trans before, spelled, spelledOthers⟩, gap'⟩, ?_, ?_⟩
  · exact List.forall_mem_cons.mpr ⟨wellFormed, allWellFormed⟩
  · rw [nestingAll]
    omega

theorem ReadItems.nil (limit : Nat) (start : List Char) : ReadItems limit start [] start :=
  ⟨⟨start, rfl, .refl _⟩, nofun, Nat.zero_le _⟩

theorem argumentsOf_sound (sound : SoundInside limit inner) {arguments : List Expr}
    (matched : argumentsOf inner cursor = .matched arguments later) :
    ∃ opened closing closed, SymbolAt "(" cursor.rest opened ∧
      ReadItems limit opened arguments closing ∧ SymbolAt ")" closing closed ∧
      Gap closed later.rest := by
  simp only [argumentsOf, bind_eq_matched, orElse_eq_matched, pure_eq_matched] at matched
  rcases matched with ⟨_, between, opening, matched⟩
  rcases token_yields opening with ⟨opened, symbol, gap, _⟩
  rcases matched with ⟨_, _, closing, rfl, rfl⟩ |
    ⟨_, first, middle, read, others, last, repeated, _, _, closing, rfl, rfl⟩
  · rcases token_yields closing with ⟨closed, symbol', gap', _⟩
    exact ⟨opened, opened, closed, symbol, .nil _ _, gap.trans symbol', gap'⟩
  · rcases token_yields closing with ⟨closed, symbol', gap', _⟩
    exact ⟨opened, last.rest, closed, symbol, items_sound sound gap read repeated, symbol', gap'⟩

theorem trailingComma_yields {comma : Option Unit}
    (matched : optional (token ",") cursor = .matched comma later) :
    ∃ last, TrailingComma false true cursor.rest last ∧ Gap last later.rest := by
  rcases optional_eq_matched.mp matched with ⟨_, _, found⟩ | ⟨_, rfl, _⟩
  · rcases token_yields found with ⟨last, symbol, gap, _⟩
    exact ⟨last, .inr ⟨rfl, symbol⟩, gap⟩
  · exact ⟨_, .inl ⟨rfl, rfl⟩, .refl _⟩

theorem listOf_sound (sound : SoundInside limit inner) : Sound limit 14 (listOf inner) := by
  intro cursor value later matched
  simp only [listOf, bind_eq_matched, orElse_eq_matched, pure_eq_matched, here_eq_matched]
    at matched
  rcases matched with ⟨_, _, ⟨rfl, rfl⟩, _, between, opening, matched⟩
  refine ⟨_, .refl _, ?_⟩
  have opened := (exact_eq_matched.mp opening).1
  rcases matched with ⟨_, _, closing, rfl, rfl⟩ |
    ⟨_, first, middle, read, others, last, repeated, _, _, comma, _, _, closing, rfl, rfl⟩
  · rcases token_yields closing with ⟨closed, symbol, gap, _⟩
    refine ⟨⟨closed, ⟨_, _, _, opened, rfl, .inl ⟨rfl, rfl⟩, symbol⟩, gap⟩, Nat.le_refl _, ?_, ?_⟩
    · exact .list (List.forall_mem_nil _)
    · exact Nat.zero_le _
  · rcases items_sound sound (.refl _) read repeated with
      ⟨⟨stop, spelled, gap⟩, wellFormed, nesting⟩
    rcases trailingComma_yields comma with ⟨behind, spelledComma, gap'⟩
    rcases spelledComma.of_gap gap with ⟨closing', spelledComma, gap''⟩
    rcases token_yields closing with ⟨closed, symbol, gap''', _⟩
    refine ⟨⟨closed, ⟨_, stop, closing', opened, spelled, spelledComma, ?_⟩, gap'''⟩,
      Nat.le_refl _, .list wellFormed, nesting⟩
    exact (gap''.trans gap').trans symbol

theorem groupOf_sound (sound : SoundInside limit inner) : Sound limit 14 (groupOf inner) := by
  intro cursor value later matched
  simp only [groupOf, bind_eq_matched, orElse_eq_matched, pure_eq_matched, here_eq_matched]
    at matched
  rcases matched with ⟨_, _, ⟨rfl, rfl⟩, _, between, opening, matched⟩
  refine ⟨_, .refl _, ?_⟩
  have opened := (exact_eq_matched.mp opening).1
  rcases matched with ⟨_, _, closing, rfl, rfl⟩ | ⟨_, first, middle, read, matched⟩
  · rcases token_yields closing with ⟨closed, symbol, gap, _⟩
    refine ⟨⟨closed, ⟨_, _, _, opened, rfl, .inl ⟨rfl, rfl⟩, symbol⟩, gap⟩, Nat.le_refl _, ?_, ?_⟩
    · exact .tuple (List.forall_mem_nil _)
    · exact Nat.zero_le _
  · rcases matched with ⟨_, _, closing, rfl, rfl⟩ | ⟨_, others, last, repeated, matched⟩
    · rcases sound read with ⟨⟨start, stop, before, spelled, after⟩, wellFormed, nesting⟩
      rcases token_yields closing with ⟨closed, symbol, gap, _⟩
      exact ⟨⟨closed, ⟨_, start, stop, opened, before, spelled, after.trans symbol⟩, gap⟩,
        Nat.le_refl _, .group wellFormed, nesting⟩
    · rcases items_sound sound (.refl _) read repeated with
        ⟨⟨stop, spelled, gap⟩, wellFormed, nesting⟩
      -- A comma has to stand behind a single item, and may stand behind several.
      have comma : ∃ behind, TrailingComma (others.length == 0) true last.rest behind ∧
          ∃ closed, SymbolAt ")" behind closed ∧ Gap closed later.rest ∧
            value = .tuple cursor.offset (first :: others) := by
        split at matched
        case isTrue single =>
            simp only [bind_eq_matched, pure_eq_matched] at matched
            rcases matched with ⟨_, _, comma, _, _, closing, rfl, rfl⟩
            rcases token_yields comma with ⟨behind, symbol, gap, _⟩
            rcases token_yields closing with ⟨closed, symbol', gap', _⟩
            exact ⟨behind, .inr ⟨rfl, symbol⟩, closed, gap.trans symbol', gap', rfl⟩
        case isFalse several =>
            simp only [bind_eq_matched, pure_eq_matched] at matched
            rcases matched with ⟨_, _, comma, _, _, closing, rfl, rfl⟩
            rcases trailingComma_yields comma with ⟨behind, spelledComma, gap⟩
            rcases token_yields closing with ⟨closed, symbol', gap', _⟩
            have several : (others.length == 0) = false := by simpa using several
            rw [several]
            exact ⟨behind, spelledComma, closed, gap.trans symbol', gap', rfl⟩
      rcases comma with ⟨behind, spelledComma, closed, symbol, gap', rfl⟩
      rcases spelledComma.of_gap gap with ⟨closing', spelledComma, gap''⟩
      refine ⟨⟨closed, ⟨_, stop, closing', opened, spelled, ?_, gap''.trans symbol⟩, gap'⟩,
        Nat.le_refl _, .tuple wellFormed, nesting⟩
      simpa using spelledComma

/-! ## Primary expressions -/

theorem literal_sound (kind : LiteralKind) {offset : Nat} {value : Expr}
    (matched : (literal kind >>= fun text => pure (Expr.literal offset kind text)) cursor =
      .matched value later) :
    ReadFrom limit 14 cursor.rest value later.rest := by
  simp only [bind_eq_matched, pure_eq_matched] at matched
  rcases matched with ⟨text, _, read, rfl, rfl⟩
  rcases literal_yields read with ⟨lexical, spelled⟩
  exact ⟨⟨_, spelled, .refl _⟩, Nat.le_refl _, .literal lexical, Nat.zero_le _⟩

theorem boolean_ne_noMatch {segment : String} (boolean : segment = "true" ∨ segment = "false")
    (spelled : WordAt segment cursor.rest rest) : Grammar.boolean cursor ≠ .noMatch := by
  have lexical : LiteralKind.boolean.Lexical segment := boolean
  have literalAt : LiteralKind.boolean.LiteralAt segment cursor.rest rest := spelled
  exact (literal_reads lexical literalAt).ne_noMatch

theorem readable_of_boolean_noMatch {segments : List String} (missed : boolean cursor = .noMatch)
    (matched : path cursor = .matched segments later) :
    IsReadable segments ∧ ∃ start, Gap cursor.rest start ∧ PathAt segments start later.rest := by
  rcases path_yields matched with ⟨qualified, start, gap, spelled, rooted⟩
  refine ⟨⟨qualified, ?_⟩, start, gap, spelled⟩
  intro first atHead
  rcases rooted with rooted | rfl
  · rw [Option.mem_def.mp atHead, Option.some_inj] at rooted
    rw [rooted]
    decide
  cases segments with
  | nil => cases atHead
  | cons _ others =>
      cases atHead
      rcases spelled with ⟨_, middle, begun, _⟩
      constructor
      · rintro rfl
        exact boolean_ne_noMatch (.inl rfl) begun missed
      · rintro rfl
        exact boolean_ne_noMatch (.inr rfl) begun missed

theorem primaryOf_sound (sound : SoundInside limit inner) :
    Sound limit 14 (primaryOf inner) := by
  intro cursor value later matched
  unfold primaryOf at matched
  rcases bind_eq_matched.mp matched with ⟨_, _, begun, matched⟩
  rcases here_eq_matched.mp begun with ⟨rfl, rfl⟩
  rcases orElse_eq_matched.mp matched with matched | ⟨notBoolean, matched⟩
  · exact ⟨_, .refl _, literal_sound .boolean matched⟩
  rcases orElse_eq_matched.mp matched with matched | ⟨_, matched⟩
  · exact ⟨_, .refl _, literal_sound .number matched⟩
  rcases orElse_eq_matched.mp matched with matched | ⟨_, matched⟩
  · exact ⟨_, .refl _, literal_sound .string matched⟩
  rcases orElse_eq_matched.mp matched with matched | ⟨_, matched⟩
  · exact ⟨_, .refl _, literal_sound .character matched⟩
  rcases orElse_eq_matched.mp matched with matched | ⟨notPath, matched⟩
  · simp only [bind_eq_matched, pure_eq_matched] at matched
    rcases matched with ⟨segments, _, read, rfl, rfl⟩
    rcases readable_of_boolean_noMatch (noMatch_of_bind_pure notBoolean) read with
      ⟨readable, start, gap, spelled⟩
    exact ⟨start, gap, ⟨_, spelled, .refl _⟩, Nat.le_refl _, .path readable, Nat.zero_le _⟩
  rcases orElse_eq_matched.mp matched with matched | ⟨_, matched⟩
  · exact listOf_sound sound matched
  rcases orElse_eq_matched.mp matched with matched | ⟨_, matched⟩
  · simp only [bind_eq_matched, pure_eq_matched] at matched
    rcases matched with ⟨name, _, read, rfl, rfl⟩
    have named := name_yields read
    have notBoolean := noMatch_of_bind_pure notBoolean
    refine ⟨_, .refl _, ⟨_, named, .refl _⟩, Nat.le_refl _, .var named.1 ?_ ?_ ?_, Nat.zero_le _⟩
    · rintro rfl
      exact boolean_ne_noMatch (.inl rfl) named.2 notBoolean
    · rintro rfl
      exact boolean_ne_noMatch (.inr rfl) named.2 notBoolean
    · exact any_isUppercase_of_path_noMatch named (noMatch_of_bind_pure notPath)
  · exact groupOf_sound sound matched

/-! ## What follows a primary expression -/

theorem postfixStep_sound (sound : SoundInside limit inner) {offset : Nat} {value next : Expr}
    (read : ReadFrom limit 13 start value cursor.rest)
    (matched : postfixStep inner offset value cursor = .matched next later) :
    ReadFrom limit 13 start next later.rest := by
  rcases read with ⟨⟨last, spelled, gap⟩, rank, wellFormed, nesting⟩
  unfold postfixStep at matched
  rcases orElse_eq_matched.mp matched with matched | ⟨_, matched⟩
  · simp only [bind_eq_matched, pure_eq_matched] at matched
    rcases matched with ⟨_, _, point, name, _, named, rfl, rfl⟩
    rcases token_yields point with ⟨middle, symbol, behind, _⟩
    rcases nameToken_yields named with ⟨begun, stop, before, spelledName, after, _⟩
    exact ⟨⟨stop, ⟨last, middle, begun, spelled, gap.trans symbol, behind.trans before,
      spelledName⟩, after⟩, Nat.le_refl _, .member wellFormed rank spelledName.1, nesting⟩
  rcases orElse_eq_matched.mp matched with matched | ⟨_, matched⟩
  · simp only [bind_eq_matched, pure_eq_matched] at matched
    rcases matched with ⟨_, _, opening, key, _, keyRead, _, _, closing, rfl, rfl⟩
    rcases token_yields opening with ⟨middle, symbol, behind, _⟩
    rcases sound keyRead with ⟨⟨begun, stop, before, spelledKey, after⟩, keyFormed, keyNesting⟩
    rcases token_yields closing with ⟨closed, symbol', gap', _⟩
    refine ⟨⟨closed, ⟨last, middle, begun, stop, spelled, gap.trans symbol, behind.trans before,
      spelledKey, after.trans symbol'⟩, gap'⟩, Nat.le_refl _, .item wellFormed rank keyFormed, ?_⟩
    rw [Expr.nesting]
    omega
  rcases orElse_eq_matched.mp matched with matched | ⟨_, matched⟩
  · simp only [bind_eq_matched, pure_eq_matched] at matched
    rcases matched with ⟨arguments, _, argumentsRead, rfl, rfl⟩
    rcases argumentsOf_sound sound argumentsRead with
      ⟨opened, closing, closed, symbol, ⟨⟨stop, spelledItems, after⟩, allFormed, allNesting⟩,
        symbol', gap'⟩
    refine ⟨⟨closed, ⟨last, opened, stop, spelled, gap.trans symbol, spelledItems,
      after.trans symbol'⟩, gap'⟩, Nat.le_refl _, .call wellFormed rank allFormed, ?_⟩
    rw [Expr.nesting]
    omega
  · simp only [bind_eq_matched, pure_eq_matched] at matched
    rcases matched with ⟨_, _, mark, rfl, rfl⟩
    rcases token_yields mark with ⟨stop, symbol, gap', _⟩
    exact ⟨⟨stop, ⟨last, spelled, gap.trans symbol⟩, gap'⟩, Nat.le_refl _,
      .attempt wellFormed rank, nesting⟩

theorem postfixOf_sound (sound : SoundInside limit inner) : Sound limit 13 (postfixOf inner) := by
  intro cursor value later matched
  simp only [postfixOf, bind_eq_matched, here_eq_matched] at matched
  rcases matched with ⟨_, _, blanks, offset, _, ⟨_, rfl⟩, first, middle, read, chained⟩
  rcases primaryOf_sound sound read with ⟨start, gap, readFirst⟩
  refine ⟨start, (spaces_yields blanks).1.trans gap, ?_⟩
  exact chain_preserves (motive := fun value later => ReadFrom limit 13 start value later.rest)
    chained (postfixStep_sound sound) (readFirst.mono (by omega))

/-! ## Filters -/

theorem filterStep_sound (sound : SoundInside limit inner) {offset : Nat} {value next : Expr}
    (read : ReadFrom limit 12 start value cursor.rest)
    (matched : filterStep inner offset value cursor = .matched next later) :
    ReadFrom limit 12 start next later.rest := by
  rcases read with ⟨⟨last, spelled, gap⟩, rank, wellFormed, nesting⟩
  simp only [filterStep, bind_eq_matched, orElse_eq_matched, pure_eq_matched] at matched
  rcases matched with ⟨_, _, bar, _, _, single, name, _, named, arguments, _, argumentsRead, rfl,
    rfl⟩
  rcases token_yields bar with ⟨middle, symbol, behind, _⟩
  cases (ahead_eq_matched.mp single).2
  rcases nameToken_yields named with ⟨begun, stop, before, spelledName, after, _⟩
  rcases argumentsRead with argumentsRead | ⟨_, rfl, rfl⟩
  · rcases argumentsOf_sound sound argumentsRead with
      ⟨opened, closing, closed, symbol', ⟨⟨stop', spelledItems, after'⟩, allFormed, allNesting⟩,
        symbol'', gap'⟩
    refine ⟨⟨closed, ⟨last, middle, begun, stop, spelled, gap.trans symbol, behind.trans before,
      spelledName, .inr ⟨opened, stop', after.trans symbol', spelledItems,
        after'.trans symbol''⟩⟩, gap'⟩, Nat.le_refl _,
      .filter wellFormed rank spelledName.1 allFormed, ?_⟩
    rw [Expr.nesting]
    omega
  · refine ⟨⟨stop, ⟨last, middle, begun, stop, spelled, gap.trans symbol, behind.trans before,
      spelledName, .inl ⟨rfl, rfl⟩⟩, after⟩, Nat.le_refl _,
      .filter wellFormed rank spelledName.1 (List.forall_mem_nil _), ?_⟩
    rw [Expr.nesting, nestingAll]
    omega

theorem filteredOf_sound (sound : SoundInside limit inner) :
    Sound limit 12 (filteredOf inner) := by
  intro cursor value later matched
  simp only [filteredOf, bind_eq_matched] at matched
  rcases matched with ⟨offset, _, counted, first, middle, read, chained⟩
  cases counted
  rcases postfixOf_sound sound read with ⟨start, gap, readFirst⟩
  refine ⟨start, gap, ?_⟩
  exact chain_preserves (motive := fun value later => ReadFrom limit 12 start value later.rest)
    chained (filterStep_sound sound) (readFirst.mono (by omega))

/-! ## Operators -/

theorem unaryMark_yields {op : UnaryOp} (matched : unaryMark cursor = .matched op later) :
    cursor.rest = op.symbol.toList ++ later.rest := by
  simp only [unaryMark, orElse_eq_matched, bind_eq_matched, pure_eq_matched] at matched
  rcases matched with ⟨_, _, mark, rfl, rfl⟩ | ⟨_, _, _, mark, rfl, rfl⟩
  · exact (exact_eq_matched.mp mark).1
  · exact (exact_eq_matched.mp mark).1

theorem unaryOf_sound (sound : SoundInside limit inner) : Sound limit 11 (unaryOf inner) := by
  intro cursor value later matched
  simp only [unaryOf_eq, bind_eq_matched, here_eq_matched] at matched
  rcases matched with ⟨_, between, blanks, offset, _, ⟨_, rfl⟩, op, middle, marked, operand, last,
    read, done⟩
  have gap := (spaces_yields blanks).1
  rcases filteredOf_sound sound read with ⟨start, before, readOperand⟩
  rcases optional_eq_matched.mp marked with ⟨op, rfl, mark⟩ | ⟨rfl, rfl, _⟩
  · cases done
    rcases readOperand with ⟨⟨stop, spelled, after⟩, rank, wellFormed, nesting⟩
    exact ⟨between.rest, gap, ⟨stop, ⟨_, start, unaryMark_yields mark, before, spelled⟩, after⟩,
      Nat.le_refl _, .unary wellFormed rank, nesting⟩
  · cases done
    exact ⟨start, gap.trans before, readOperand.mono (by omega)⟩

theorem operator_yields {op found : BinaryOp}
    (matched : operator op cursor = .matched found later) :
    found = op ∧ ∃ mark, OperatorAt op cursor.rest mark ∧ Gap mark later.rest := by
  simp only [operator] at matched
  split at matched
  case isTrue isWord =>
      simp only [bind_eq_matched, pure_eq_matched] at matched
      rcases matched with ⟨_, _, read, rfl, rfl⟩
      rcases keyword_yields read with ⟨_, start, mark, gap, ⟨rfl, ends⟩, behind, _⟩
      exact ⟨rfl, mark, ⟨gap, fun _ => ends⟩, behind⟩
  case isFalse notWord =>
      simp only [bind_eq_matched, pure_eq_matched] at matched
      rcases matched with ⟨_, _, read, rfl, rfl⟩
      rcases token_yields read with ⟨mark, symbol, behind, _⟩
      refine ⟨rfl, mark, ⟨symbol, ?_⟩, behind⟩
      rw [← isWord_eq]
      exact fun isWord => absurd isWord notWord

theorem operatorOf_yields {operators : List BinaryOp} {found : BinaryOp}
    (matched : operatorOf operators cursor = .matched found later) :
    found ∈ operators ∧ ∃ mark, OperatorAt found cursor.rest mark ∧ Gap mark later.rest := by
  induction operators with
  | nil => cases matched
  | cons op others induction =>
      rcases orElse_eq_matched.mp matched with matched | ⟨_, matched⟩
      · rcases operator_yields matched with ⟨rfl, spelled⟩
        exact ⟨List.mem_cons_self, spelled⟩
      · rcases induction matched with ⟨member, spelled⟩
        exact ⟨List.mem_cons_of_mem _ member, spelled⟩

theorem binaryStep_sound {operand : Grammar Expr} {operators : List BinaryOp} {layer : Nat}
    (sameLayer : ∀ op ∈ operators, op.layer = layer) (sound : Sound limit (layer + 3) operand)
    {offset : Nat} {left next : Expr} (read : ReadFrom limit (layer + 2) start left cursor.rest)
    (matched : binaryStep operand operators offset left cursor = .matched next later) :
    ReadFrom limit (layer + 2) start next later.rest := by
  rcases read with ⟨⟨last, spelled, gap⟩, rank, wellFormed, nesting⟩
  simp only [binaryStep, bind_eq_matched, pure_eq_matched] at matched
  rcases matched with ⟨op, _, operatorRead, right, _, rightRead, rfl, rfl⟩
  rcases operatorOf_yields operatorRead with ⟨member, mark, ⟨symbol, ends⟩, behind⟩
  rcases sound rightRead with ⟨begun, before, ⟨stop, spelledRight, after⟩, rightRank, rightFormed,
    rightNesting⟩
  have layer_eq := sameLayer op member
  refine ⟨⟨stop, ⟨last, mark, begun, spelled, ⟨gap.trans symbol, ends⟩, behind.trans before,
    spelledRight⟩, after⟩, ?_, .binary wellFormed ?_ rightFormed ?_, ?_⟩
  · rw [Expr.rank]
    omega
  · omega
  · omega
  · rw [Expr.nesting]
    omega

theorem binaryOf_sound {operand : Grammar Expr} (sound : Sound limit 11 operand)
    {layers : List (List BinaryOp)} {layer : Nat} (from_layer : LayersFrom layer layers) :
    Sound limit (layer + 2) (binaryOf operand layers) := by
  induction layers generalizing layer with
  | nil =>
      cases from_layer
      exact sound
  | cons operators tighter induction =>
      rcases from_layer with ⟨_, sameLayer, from_next⟩
      have tighterSound : Sound limit (layer + 3) (binaryOf operand tighter) :=
        induction from_next
      intro cursor value later matched
      simp only [binaryOf, bind_eq_matched] at matched
      rcases matched with ⟨offset, _, counted, first, middle, read, chained⟩
      cases counted
      rcases tighterSound read with ⟨start, gap, readFirst⟩
      refine ⟨start, gap, ?_⟩
      -- Every step of the chain makes what has been read the left operand of a larger expression.
      exact chain_preserves
        (motive := fun value later => ReadFrom limit (layer + 2) start value later.rest)
        chained (binaryStep_sound (fun op => (sameLayer op).mp) tighterSound) (readFirst.mono (by omega))

theorem operationOf_sound (sound : SoundInside limit inner) :
    Sound limit 2 (operationOf inner) :=
  binaryOf_sound (unaryOf_sound sound) layersFrom_layers

/-! ## Ranges -/

theorem rangeMark_yields {kind : RangeKind} (matched : rangeMark cursor = .matched kind later) :
    ∃ mark, MarkAt kind cursor.rest mark ∧ Gap mark later.rest := by
  simp only [rangeMark, orElse_eq_matched, bind_eq_matched, pure_eq_matched] at matched
  rcases matched with ⟨_, _, read, rfl, rfl⟩ | ⟨missed, _, _, read, rfl, rfl⟩
  · rcases token_yields read with ⟨mark, symbol, behind, _⟩
    exact ⟨mark, ⟨symbol, by simp⟩, behind⟩
  · rcases token_yields read with ⟨mark, symbol, behind, _⟩
    refine ⟨mark, ⟨symbol, ?_⟩, behind⟩
    intro _ equals
    rcases List.head?_eq_some_iff.mp equals with ⟨mark', rfl⟩
    have closed : SymbolAt "..=" cursor.rest mark' := symbol
    exact (token_reads rfl closed (gap_afterBlanks mark') (solid_afterBlanks mark')).ne_noMatch
      (noMatch_of_bind_pure missed)

theorem expressionOf_sound (sound : SoundInside limit inner) {value : Expr}
    (matched : expressionOf inner cursor = .matched value later) :
    value.Padded cursor.rest later.rest ∧ value.WellFormed IsReadable ∧ value.nesting ≤ limit ∧
      Solid later.rest := by
  simp only [expressionOf, bind_eq_matched, here_eq_matched] at matched
  rcases matched with ⟨_, begun, blanks, offset, _, ⟨_, rfl⟩, left, middle, leftRead, kind, between,
    marked, matched⟩
  rcases spaces_yields blanks with ⟨before, solid⟩
  -- What stands on the left of the mark, if there is one, has been read up to blanks.
  have leftSpelled : ∃ start last, Gap begun.rest start ∧ SpelledStart left start last ∧
      Gap last middle.rest ∧ (∀ value ∈ left, value.WellFormed IsReadable) ∧
        (∀ value ∈ left, 2 ≤ value.rank) ∧ nestingOption left ≤ limit := by
    rcases optional_eq_matched.mp leftRead with ⟨value, rfl, read⟩ | ⟨rfl, rfl, _⟩
    · rcases operationOf_sound sound read with ⟨start, gap, ⟨last, spelled, after⟩, rank,
        wellFormed, nesting⟩
      exact ⟨start, last, gap, spelled, after, by simpa using wellFormed, by simpa using rank,
        nesting⟩
    · exact ⟨_, _, .refl _, ⟨solid, rfl⟩, .refl _, by simp, by simp, Nat.zero_le _⟩
  rcases leftSpelled with ⟨start, last, gap, spelled, after, leftFormed, leftRank, leftNesting⟩
  rcases optional_eq_matched.mp marked with ⟨kind, rfl, mark⟩ | ⟨rfl, rfl, _⟩
  · simp only [bind_eq_matched, pure_eq_matched] at matched
    rcases matched with ⟨right, stopped, rightRead, _, _, blanks', rfl, rfl⟩
    rcases spaces_yields blanks' with ⟨behind, solid'⟩
    rcases rangeMark_yields mark with ⟨behindMark, ⟨symbol, ends⟩, gap'⟩
    have rightSpelled : ∃ closed, SpelledStop right behindMark closed ∧ Gap closed stopped.rest ∧
        (∀ value ∈ right, value.WellFormed IsReadable) ∧ (∀ value ∈ right, 2 ≤ value.rank) ∧
          nestingOption right ≤ limit := by
      rcases optional_eq_matched.mp rightRead with ⟨value, rfl, read⟩ | ⟨rfl, rfl, _⟩
      · rcases operationOf_sound sound read with ⟨start, gap'', ⟨closed, spelledRight, after'⟩,
          rank, wellFormed, nesting⟩
        exact ⟨closed, ⟨start, gap'.trans gap'', spelledRight⟩, after', by simpa using wellFormed,
          by simpa using rank, nesting⟩
      · exact ⟨behindMark, rfl, gap', by simp, by simp, Nat.zero_le _⟩
    rcases rightSpelled with ⟨closed, spelledRight, after', rightFormed, rightRank, rightNesting⟩
    refine ⟨⟨start, closed, before.trans gap, ⟨last, behindMark, spelled, ⟨after.trans symbol, ends⟩,
      spelledRight⟩, after'.trans behind⟩, .range leftFormed leftRank rightFormed rightRank, ?_,
      solid'⟩
    rw [Expr.nesting]
    omega
  · cases left with
    | none => cases matched
    | some value =>
        simp only [bind_eq_matched, pure_eq_matched] at matched
        rcases matched with ⟨_, _, blanks', rfl, rfl⟩
        rcases spaces_yields blanks' with ⟨behind, solid'⟩
        exact ⟨⟨start, last, before.trans gap, spelled, after.trans behind⟩,
          leftFormed value rfl, leftNesting, solid'⟩

/-! ## Whole expressions -/

theorem expressionWithin_sound (brackets : Nat) :
    SoundInside brackets (expressionWithin brackets) := by
  induction brackets with
  | zero => exact nofun
  | succ brackets induction =>
      intro cursor value later matched
      rcases expressionOf_sound induction matched with ⟨padded, wellFormed, nesting, _⟩
      exact ⟨padded, wellFormed, Nat.lt_succ_of_le nesting⟩

theorem solid_of_expressionWithin {brackets : Nat} {value : Expr}
    (matched : expressionWithin brackets cursor = .matched value later) : Solid later.rest := by
  cases brackets with
  | zero => cases matched
  | succ brackets =>
      exact (expressionOf_sound (expressionWithin_sound brackets) matched).2.2.2

end Templating.Grammar

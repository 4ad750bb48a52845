import Templating.Proofs.ExpressionSoundness
import Templating.Proofs.InTurn

/-! # Where expressions are read

Every rule for expressions yields one that begins at the first character that is not blank, with its
operands in turn behind it. A chain of operators, filters or attributes begins with its first operand,
however long it gets. -/

namespace Templating.Grammar

variable {room : Room}

open Text Element

variable {α : Type} {dialect : Dialect} {source : List Char} {rule : Grammar α}

/-- What the rule yields is in turn where it has been read. -/
def Places (dialect : Dialect) (source : List Char) (rule : Grammar α)
    (elements : α → List Element) : Prop :=
  ∀ ⦃cursor value later⦄, rule cursor = .matched value later → cursor.LiesIn source →
    InTurn dialect source cursor.offset (elements value) later.offset

namespace Places

variable {elements : α → List Element} {embed : α → Element}

theorem many [Advancing rule] (places : Places dialect source rule fun value => [embed value]) :
    Places dialect source (many rule) fun values => values.map embed := by
  intro cursor values later matched located
  have repeated := repeated_of_many matched
  clear matched
  induction repeated with
  | nil => exact .nil
  | cons first further induction =>
      have reaches := Advancing.reaches first
      exact (places first located).append (induction (located.of_reaches reaches)) reaches.offset_le
        further.reaches.offset_le

theorem optional (places : Places dialect source rule fun value => [embed value]) :
    Places dialect source (optional rule) fun value => value.toList.map embed := by
  intro cursor value later matched located
  rcases optional_eq_matched.mp matched with ⟨_, rfl, read⟩ | ⟨rfl, _, _⟩
  · exact places read located
  · exact .nil

/-- What is read behind something else is in turn from there on. -/
theorem behind {β : Type} {first : Grammar β} [Advancing first]
    (places : Places dialect source rule elements) :
    Places dialect source (first >>= fun _ => rule) elements := by
  intro cursor value later matched located
  rcases bind_eq_matched.mp matched with ⟨_, _, before, read⟩
  have reaches := Advancing.reaches before
  exact (places read (located.of_reaches reaches)).mono reaches.offset_le (Nat.le_refl _)

theorem expect {problem : Problem} (places : Places dialect source rule elements) :
    Places dialect source (expect rule problem) elements :=
  fun _ _ _ matched => places (expect_eq_matched.mp matched)

end Places

/-! ## Expressions -/

/-- The expression begins at the first offset and is in place before the second one. -/
structure ExprAt (dialect : Dialect) (source : List Char) (start : Nat) (value : Expr)
    (stop : Nat) : Prop where
  begins : value.offset = start
  inTurn : InTurn dialect source start [.expr value] stop

/-- The rule yields expressions that begin at the first character that is not blank. -/
def PlacesExpr (dialect : Dialect) (source : List Char) (rule : Grammar Expr) : Prop :=
  ∀ ⦃cursor value later⦄, rule cursor = .matched value later → cursor.LiesIn source →
    ExprAt dialect source cursor.skipSpaces.offset value later.offset

variable {inner : Grammar Expr} {value left next : Expr} {others : List Expr} {cursor later : Cursor}
  {start middle stop : Nat}

theorem PlacesExpr.places {rule : Grammar Expr} (places : PlacesExpr dialect source rule) :
    Places dialect source rule fun value => [.expr value] :=
  fun cursor _ _ matched located =>
    (places matched located).inTurn.mono cursor.reaches_skipSpaces.offset_le (Nat.le_refl _)

namespace ExprAt

theorem mono {stop' : Nat} (placed : ExprAt dialect source start value stop) (upper : stop ≤ stop') :
    ExprAt dialect source start value stop' :=
  ⟨placed.begins, placed.inTurn.mono (Nat.le_refl _) upper⟩

theorem solidAt (placed : ExprAt dialect source start value stop) : SolidAt source start := by
  have stands : SolidAt source value.offset := placed.inTurn.inPlace.begins
  rwa [placed.begins] at stands

/-- An expression that begins with a character of its own. -/
theorem enclose (inside : InTurn dialect source middle (others.map .expr) stop)
    (solid : SolidAt source start) (lower : start ≤ middle) (upper : start < stop)
    (begins : value.offset = start) (children : value.children = others)
    (leads : (Element.expr value).Leads) : ExprAt dialect source start value stop := by
  subst begins
  have inside : InTurn dialect source middle (Element.expr value).children stop := by
    rw [Element.children, children]
    exact inside
  exact ⟨rfl, inside.parent lower upper solid leads⟩

/-- An expression that has nothing of its own before its first operand. -/
theorem extend (first : ExprAt dialect source start left middle)
    (further : InTurn dialect source middle (others.map .expr) stop) (forward : middle ≤ stop)
    (begins : value.offset = start) (children : value.children = left :: others)
    (leads : (Element.expr value).Leads ↔ left.offset = value.offset) :
    ExprAt dialect source start value stop := by
  have lower : start ≤ middle := first.begins ▸ Nat.le_of_lt first.inTurn.lt
  have inside : InTurn dialect source start (Element.expr value).children stop := by
    rw [Element.children, children]
    exact first.inTurn.append further lower forward
  have ends : value.offset < stop := by
    rw [begins, ← first.begins]
    exact Nat.lt_of_lt_of_le first.inTurn.lt forward
  have solid := first.solidAt
  subst begins
  exact ⟨rfl, inside.parent (Nat.le_refl _) ends solid (leads.mpr first.begins)⟩

end ExprAt

/-! ### Items in brackets -/

theorem furtherItem_places [Advancing inner] (places : PlacesExpr dialect source inner) :
    Places dialect source (furtherItem inner) fun value => [.expr value] :=
  .behind places.places

theorem items_inTurn [Advancing inner] (places : PlacesExpr dialect source inner) {first : Expr}
    {between : Cursor} (located : cursor.LiesIn source)
    (read : inner cursor = .matched first between)
    (repeated : many (furtherItem inner) between = .matched others later) :
    InTurn dialect source cursor.offset ((first :: others).map .expr) later.offset := by
  have reaches := Advancing.reaches read
  have further := (furtherItem_places places).many repeated (located.of_reaches reaches)
  exact (places.places read located).append further reaches.offset_le
    (repeated_of_many repeated).reaches.offset_le

theorem argumentsOf_places [Advancing inner] (places : PlacesExpr dialect source inner) :
    Places dialect source (argumentsOf inner) fun arguments => arguments.map .expr := by
  intro cursor arguments later matched located
  simp only [argumentsOf, bind_eq_matched, orElse_eq_matched, pure_eq_matched] at matched
  rcases matched with ⟨_, between, opening, ⟨_, _, _, rfl, _⟩ |
    ⟨_, first, _, read, others, last, repeated, _, _, closing, rfl, rfl⟩⟩
  · exact .nil
  · have opened : cursor.Reaches between := Advancing.reaches opening
    exact (items_inTurn places (located.of_reaches opened) read repeated).mono opened.offset_le
      (Advancing.reaches closing).offset_le

/-! ### Primary expressions -/

/-- An expression without operands. -/
theorem ExprAt.leaf (located : cursor.LiesIn source) (solid : Solid cursor.rest)
    (passes : cursor.Passes later) (begins : value.offset = cursor.offset)
    (children : value.children = []) (leads : (Element.expr value).Leads) :
    ExprAt dialect source cursor.offset value later.offset :=
  enclose .nil (solidAt_of_passes located solid passes) (Nat.le_refl _) passes.offset_lt begins
    children leads

theorem listOf_places [Advancing inner] (places : PlacesExpr dialect source inner)
    (located : cursor.LiesIn source) (solid : Solid cursor.rest)
    (matched : listOf inner cursor = .matched value later) :
    ExprAt dialect source cursor.offset value later.offset := by
  have passes := Consuming.passes matched
  simp only [listOf, bind_eq_matched, orElse_eq_matched, pure_eq_matched, here_eq_matched] at matched
  rcases matched with ⟨_, _, ⟨rfl, rfl⟩, _, between, opening, matched⟩
  rcases matched with ⟨_, _, _, rfl, rfl⟩ |
    ⟨_, first, _, read, others, last, repeated, _, _, comma, _, _, closing, rfl, rfl⟩
  · exact .leaf located solid passes rfl rfl trivial
  · have opened : cursor.Reaches between := Advancing.reaches opening
    have inside := items_inTurn places (located.of_reaches opened) read repeated
    have upper := ((Advancing.reaches comma).trans (Advancing.reaches closing)).offset_le
    exact .enclose (inside.mono (Nat.le_refl _) upper) (solidAt_of_passes located solid passes)
      opened.offset_le passes.offset_lt rfl rfl trivial

theorem groupOf_places [Advancing inner] (places : PlacesExpr dialect source inner)
    (located : cursor.LiesIn source) (solid : Solid cursor.rest)
    (matched : groupOf inner cursor = .matched value later) :
    ExprAt dialect source cursor.offset value later.offset := by
  have passes := Consuming.passes matched
  simp only [groupOf, bind_eq_matched, orElse_eq_matched, pure_eq_matched, here_eq_matched] at matched
  rcases matched with ⟨_, _, ⟨rfl, rfl⟩, _, between, opening, matched⟩
  have opened : cursor.Reaches between := Advancing.reaches opening
  have enclosed {items : List Expr} {last : Cursor}
      (inside : InTurn dialect source between.offset (items.map .expr) last.offset)
      (forward : last.Reaches later) (begins : value.offset = cursor.offset)
      (children : value.children = items) (leads : (Element.expr value).Leads) :
      ExprAt dialect source cursor.offset value later.offset :=
    .enclose (inside.mono (Nat.le_refl _) forward.offset_le)
      (solidAt_of_passes located solid passes) opened.offset_le passes.offset_lt begins children leads
  rcases matched with ⟨_, _, _, rfl, rfl⟩ | ⟨_, first, _, read, matched⟩
  · exact .leaf located solid passes rfl rfl trivial
  · rcases matched with ⟨_, _, closing, rfl, rfl⟩ | ⟨_, others, last, repeated, matched⟩
    · have inside : InTurn dialect source between.offset ([first].map .expr) _ :=
        places.places read (located.of_reaches opened)
      exact enclosed inside (Advancing.reaches closing) rfl rfl trivial
    · have inside := items_inTurn places (located.of_reaches opened) read repeated
      split at matched
      all_goals
        simp only [bind_eq_matched, pure_eq_matched] at matched
        rcases matched with ⟨_, _, comma, _, _, closing, rfl, rfl⟩
        have ended := (Advancing.reaches comma).trans (Advancing.reaches closing)
        exact enclosed inside ended rfl rfl trivial

theorem primaryOf_places [Advancing inner] (places : PlacesExpr dialect source inner)
    (located : cursor.LiesIn source) (solid : Solid cursor.rest)
    (matched : primaryOf inner cursor = .matched value later) :
    ExprAt dialect source cursor.offset value later.offset := by
  have passes := Consuming.passes matched
  simp only [primaryOf, bind_eq_matched, here_eq_matched, orElse_eq_matched, pure_eq_matched]
    at matched
  rcases matched with ⟨_, _, ⟨rfl, rfl⟩, ⟨_, _, _, rfl, rfl⟩ | ⟨_, ⟨_, _, _, rfl, rfl⟩ |
    ⟨_, ⟨_, _, _, rfl, rfl⟩ | ⟨_, ⟨_, _, _, rfl, rfl⟩ | ⟨_, ⟨_, _, _, rfl, rfl⟩ | ⟨_, read |
    ⟨_, ⟨_, _, _, rfl, rfl⟩ | ⟨_, read⟩⟩⟩⟩⟩⟩⟩⟩
  case inr.inr.inr.inr.inr.inl => exact listOf_places places located solid read
  case inr.inr.inr.inr.inr.inr.inr => exact groupOf_places places located solid read
  all_goals exact .leaf located solid passes rfl rfl trivial

/-! ### What follows a primary expression -/

theorem postfixStep_places [Advancing inner] (places : PlacesExpr dialect source inner)
    (located : cursor.LiesIn source) (placed : ExprAt dialect source start left cursor.offset)
    (matched : postfixStep inner start left cursor = .matched next later) :
    ExprAt dialect source start next later.offset := by
  have forward := (Advancing.reaches matched).offset_le
  unfold postfixStep at matched
  rcases orElse_eq_matched.mp matched with matched | ⟨_, matched⟩
  · simp only [bind_eq_matched, pure_eq_matched] at matched
    rcases matched with ⟨_, _, _, _, _, _, rfl, rfl⟩
    exact placed.extend .nil forward rfl rfl .rfl
  rcases orElse_eq_matched.mp matched with matched | ⟨_, matched⟩
  · simp only [bind_eq_matched, pure_eq_matched] at matched
    rcases matched with ⟨_, between, opening, key, _, read, _, _, closing, rfl, rfl⟩
    have opened : cursor.Reaches between := Advancing.reaches opening
    have inside : InTurn dialect source between.offset ([key].map .expr) _ :=
      places.places read (located.of_reaches opened)
    exact placed.extend (inside.mono opened.offset_le (Advancing.reaches closing).offset_le) forward
      rfl rfl .rfl
  rcases orElse_eq_matched.mp matched with matched | ⟨_, matched⟩
  · simp only [bind_eq_matched, pure_eq_matched] at matched
    rcases matched with ⟨arguments, _, read, rfl, rfl⟩
    exact placed.extend (argumentsOf_places places read located) forward rfl rfl .rfl
  · simp only [bind_eq_matched, pure_eq_matched] at matched
    rcases matched with ⟨_, _, _, rfl, rfl⟩
    exact placed.extend .nil forward rfl rfl .rfl

/-- A chain begins where its first value does. -/
theorem chain_places {step : Nat → Expr → Grammar Expr}
    [∀ start value, Consuming (step start value)]
    (steps : ∀ {start left cursor next later}, cursor.LiesIn source →
      ExprAt dialect source start left cursor.offset →
      step start left cursor = .matched next later → ExprAt dialect source start next later.offset)
    (located : cursor.LiesIn source) (placed : ExprAt dialect source start left cursor.offset)
    (chained : chain (step start) left cursor = .matched next later) :
    ExprAt dialect source start next later.offset := by
  have kept := chain_preserves
    (motive := fun value cursor =>
      cursor.LiesIn source ∧ ExprAt dialect source start value cursor.offset)
    chained
    (fun holds stepped =>
      ⟨holds.1.of_reaches (Advancing.reaches stepped), steps holds.1 holds.2 stepped⟩)
    ⟨located, placed⟩
  exact kept.2

theorem postfixOf_places [Advancing inner] (places : PlacesExpr dialect source inner) :
    PlacesExpr dialect source (postfixOf inner) := by
  intro cursor value later matched located
  simp only [postfixOf, bind_eq_matched, here_eq_matched] at matched
  rcases matched with ⟨_, begun, blanks, _, _, ⟨rfl, rfl⟩, first, middle, read, chained⟩
  have solid := (spaces_yields blanks).2
  cases blanks
  have located := located.of_reaches cursor.reaches_skipSpaces
  exact chain_places (postfixStep_places places) (located.of_reaches (Advancing.reaches read))
    (primaryOf_places places located solid read) chained

/-! ### Filters and operators -/

theorem filterStep_places [Advancing inner] (places : PlacesExpr dialect source inner)
    (located : cursor.LiesIn source) (placed : ExprAt dialect source start left cursor.offset)
    (matched : filterStep inner start left cursor = .matched next later) :
    ExprAt dialect source start next later.offset := by
  have forward := (Advancing.reaches matched).offset_le
  simp only [filterStep, bind_eq_matched, orElse_eq_matched, pure_eq_matched] at matched
  rcases matched with ⟨_, _, bar, _, _, single, name, _, named, arguments, _, read, rfl, rfl⟩
  rcases read with read | ⟨_, rfl, _⟩
  · have reaches := ((Advancing.reaches bar).trans (Advancing.reaches single)).trans
      (Advancing.reaches named)
    have inside := argumentsOf_places places read (located.of_reaches reaches)
    exact placed.extend (inside.mono reaches.offset_le (Nat.le_refl _)) forward rfl rfl .rfl
  · exact placed.extend .nil forward rfl rfl .rfl

theorem filteredOf_places [Advancing inner] (places : PlacesExpr dialect source inner) :
    PlacesExpr dialect source (filteredOf inner) := by
  intro cursor value later matched located
  simp only [filteredOf, bind_eq_matched] at matched
  rcases matched with ⟨_, _, counted, first, middle, read, chained⟩
  cases counted
  exact chain_places (filterStep_places places) (located.of_reaches (Advancing.reaches read))
    (postfixOf_places places read located) chained

theorem unaryOf_places [Advancing inner] (places : PlacesExpr dialect source inner) :
    PlacesExpr dialect source (unaryOf inner) := by
  intro cursor value later matched located
  simp only [unaryOf_eq, bind_eq_matched, here_eq_matched] at matched
  rcases matched with ⟨_, begun, blanks, _, _, ⟨rfl, rfl⟩, op, middle, marked, operand, last, read,
    done⟩
  have solid := (spaces_yields blanks).2
  cases blanks
  have located := located.of_reaches cursor.reaches_skipSpaces
  have reaches := Advancing.reaches marked
  have placed := filteredOf_places places read (located.of_reaches reaches)
  rcases optional_eq_matched.mp marked with ⟨op, rfl, mark⟩ | ⟨rfl, rfl, _⟩
  · cases done
    have inside : InTurn dialect source middle.offset ([operand].map .expr) _ :=
      (filteredOf_places places).places read (located.of_reaches reaches)
    have passes := (Consuming.passes mark).trans_reaches (Advancing.reaches read)
    exact .enclose inside (solidAt_of_passes located solid passes) reaches.offset_le passes.offset_lt
      rfl rfl trivial
  · cases done
    rwa [skipSpaces_of_solid solid] at placed

theorem binaryStep_places {operand : Grammar Expr} [Advancing operand]
    (places : PlacesExpr dialect source operand) {operators : List BinaryOp}
    (located : cursor.LiesIn source) (placed : ExprAt dialect source start left cursor.offset)
    (matched : binaryStep operand operators start left cursor = .matched next later) :
    ExprAt dialect source start next later.offset := by
  have forward := (Advancing.reaches matched).offset_le
  simp only [binaryStep, bind_eq_matched, pure_eq_matched] at matched
  rcases matched with ⟨op, between, operatorRead, right, _, read, rfl, rfl⟩
  have reaches := Advancing.reaches operatorRead
  have inside : InTurn dialect source between.offset ([right].map .expr) _ :=
    places.places read (located.of_reaches reaches)
  exact placed.extend (inside.mono reaches.offset_le (Nat.le_refl _)) forward rfl rfl .rfl

theorem binaryOf_places {operand : Grammar Expr} [Consuming operand]
    (places : PlacesExpr dialect source operand) (layers : List (List BinaryOp)) :
    PlacesExpr dialect source (binaryOf operand layers) := by
  induction layers with
  | nil => exact places
  | cons operators tighter induction =>
      intro cursor value later matched located
      simp only [binaryOf, bind_eq_matched] at matched
      rcases matched with ⟨_, _, counted, first, middle, read, chained⟩
      cases counted
      have := consuming_binaryOf operand tighter
      exact chain_places (binaryStep_places induction) (located.of_reaches (Advancing.reaches read))
        (induction read located) chained

theorem operationOf_places [Advancing inner] (places : PlacesExpr dialect source inner) :
    PlacesExpr dialect source (operationOf inner) :=
  binaryOf_places (unaryOf_places places) _

/-! ### Ranges -/

theorem expressionOf_places [Advancing inner] (places : PlacesExpr dialect source inner) :
    PlacesExpr dialect source (expressionOf inner) := by
  intro cursor value later matched located
  simp only [expressionOf, bind_eq_matched, here_eq_matched] at matched
  rcases matched with ⟨_, begun, blanks, _, _, ⟨rfl, rfl⟩, start, middle, startRead, kind, between,
    marked, matched⟩
  have solid := (spaces_yields blanks).2
  cases blanks
  have located := located.of_reaches cursor.reaches_skipSpaces
  have operations := operationOf_places places
  have first : ∀ left ∈ start, ExprAt dialect source cursor.skipSpaces.offset left middle.offset := by
    intro left among
    rcases optional_eq_matched.mp startRead with ⟨_, rfl, read⟩ | ⟨rfl, _, _⟩
    · cases among
      have placed := operations read located
      rwa [skipSpaces_of_solid solid] at placed
    · cases among
  rcases optional_eq_matched.mp marked with ⟨kind, rfl, mark⟩ | ⟨rfl, rfl, _⟩
  · simp only [bind_eq_matched, pure_eq_matched] at matched
    rcases matched with ⟨stop, stopped, stopRead, _, _, blanks, rfl, rfl⟩
    have begun := Advancing.reaches startRead
    have passes := Consuming.passes mark
    have further := (operations.places.optional stopRead
      ((located.of_reaches begun).of_reaches passes.1)).mono (Nat.le_refl _)
        (Advancing.reaches blanks).offset_le
    have ended := (Advancing.reaches stopRead).trans (Advancing.reaches blanks)
    cases start with
    | some left =>
        exact (first left rfl).extend (further.mono passes.1.offset_le (Nat.le_refl _))
          (passes.1.trans ended).offset_le rfl rfl .rfl
    | none =>
        have whole := begun.trans_passes (passes.trans_reaches ended)
        exact .enclose further (solidAt_of_passes located solid whole) (begun.trans passes.1).offset_le
          whole.offset_lt rfl rfl trivial
  · cases start with
    | none => cases matched
    | some left =>
        simp only [bind_eq_matched, pure_eq_matched] at matched
        rcases matched with ⟨_, _, blanks, rfl, rfl⟩
        exact (first _ rfl).mono (Advancing.reaches blanks).offset_le

theorem expressionWithin_places (brackets : Nat) :
    PlacesExpr dialect source (expressionWithin brackets) := by
  induction brackets with
  | zero => exact nofun
  | succ brackets induction => exact expressionOf_places induction

theorem expression_places : PlacesExpr dialect source expression :=
  expressionWithin_places bracketLimit

end Templating.Grammar

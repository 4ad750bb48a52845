import Templating.Proofs.ExpressionHead
import Templating.Proofs.PatternForm
import Templating.Proofs.Printing

/-! # What is written is a spelling

The canonical text of an expression or a pattern is one of its spellings, in front of any text
that cannot go on with its last lexeme. -/

namespace Templating

namespace Text

/-- No name, number or range mark goes on with the text. -/
structure Parted (text : List Char) : Prop where
  endsName : EndsName text
  endsMark : '=' ∉ text.head?
  endsNumber : ∀ after, text = '.' :: after → EndsDigits after

variable {text rest : List Char} {first : Char}

theorem parted_cons (endsName : continuesName first = false) (apart : first ≠ '=')
    (noPoint : first ≠ '.') : Parted (first :: rest) where
  endsName := endsName_cons.mpr endsName
  endsMark := by
    intro atHead
    exact apart (Option.some.inj atHead)
  endsNumber after same := by
    cases same
    exact absurd rfl noPoint

theorem parted_space : Parted (' ' :: rest) :=
  parted_cons rfl (by decide) (by decide)

theorem parted_close (close : Char) (among : [')', ']', '\x7d'].contains close = true) :
    Parted (close :: rest) := by
  have cases : close = ')' ∨ close = ']' ∨ close = '\x7d' := by simpa using among
  rcases cases with rfl | rfl | rfl <;> exact parted_cons rfl (by decide) (by decide)

theorem parted_comma : Parted (',' :: rest) :=
  parted_cons rfl (by decide) (by decide)

theorem parted_tupleEnd (single : Bool) : Parted (tupleEnd single rest) := by
  cases single with
  | true => exact parted_comma
  | false => exact parted_close ')' rfl

theorem parted_point (noDigit : ∀ first ∈ rest.head?, isDigit first = false) :
    Parted ('.' :: rest) where
  endsName := endsName_cons.mpr rfl
  endsMark := by rintro ⟨⟩
  endsNumber after same := by
    cases same
    exact noDigit

theorem Parted.endsDigits (parted : Parted text) : EndsDigits text := fun first atHead =>
  (Bool.or_eq_false_iff.mp (parted.endsName first atHead)).2

end Text

open Text

variable {text rest : List Char}

theorem LiteralKind.literalAt_written (kind : LiteralKind) (literal : String)
    (parted : Parted rest) : kind.LiteralAt literal (kind.written literal ++ rest) rest := by
  refine ⟨rfl, ?_⟩
  cases kind with
  | boolean => exact parted.endsName
  | number => exact ⟨parted.endsDigits, fun _ => parted.endsNumber⟩
  | string => trivial
  | character => trivial

theorem namesAt_pathOnto {names : List String} (first : String)
    (areNames : ∀ name ∈ names, isName name.toList = true) (ends : EndsName rest) :
    ∃ middle, pathOnto (first :: names) rest = first.toList ++ middle ∧ EndsName middle ∧
      NamesAt names middle rest := by
  induction names generalizing first with
  | nil => exact ⟨rest, rfl, ends, rfl⟩
  | cons name names induction =>
      rw [List.forall_mem_cons] at areNames
      rcases induction name areNames.2 with ⟨middle, shape, ends', namesAt⟩
      refine ⟨"::".toList ++ pathOnto (name :: names) rest, rfl, by rintro _ ⟨⟩; rfl, ?_⟩
      exact ⟨_, _, middle, .refl _, .refl _, ⟨areNames.1, shape, ends'⟩, namesAt⟩

theorem pathAt_pathOnto {segments : List String} (qualified : IsQualified segments)
    (ends : EndsName rest) : PathAt segments (pathOnto segments rest) rest := by
  cases segments with
  | nil => cases qualified
  | cons first names =>
      rcases qualified with ⟨begins, areNames⟩
      rcases namesAt_pathOnto first areNames ends with ⟨middle, shape, ends', namesAt⟩
      refine ⟨?_, middle, ⟨shape, ends'⟩, namesAt⟩
      rcases begins with ⟨rfl, nonempty⟩ | ⟨isName, _⟩
      · cases names with
        | nil => exact absurd rfl nonempty
        | cons name names =>
            rintro _ ⟨⟩
            rfl
      · have named : NameAt first (pathOnto (first :: names) rest) middle := ⟨isName, shape, ends'⟩
        exact named.solid

namespace Expr

variable {items : List Expr}

/-! ## Expressions -/

theorem parted_printTailOnto (parted : Parted rest) : Parted (printTailOnto items rest) := by
  cases items with
  | nil => exact parted
  | cons => exact parted_comma

theorem spelledTail_printTailOnto
    (each : ∀ item ∈ items, ∀ rest, Parted rest → item.Spelled (item.printOnto rest) rest)
    (parted : Parted rest) : SpelledTail items (printTailOnto items rest) rest := by
  induction items with
  | nil => rfl
  | cons item items induction =>
      rw [List.forall_mem_cons] at each
      have comma : SymbolAt "," (printTailOnto (item :: items) rest)
          (' ' :: item.printOnto (printTailOnto items rest)) := .refl _
      exact ⟨_, _, _, comma, .cons rfl (.refl _), each.1 _ (parted_printTailOnto parted),
        induction each.2⟩

theorem spelledItems_printItemsOnto
    (each : ∀ item ∈ items, ∀ rest, Parted rest → item.Spelled (item.printOnto rest) rest)
    (parted : Parted rest) : SpelledItems items (printItemsOnto items rest) rest := by
  cases items with
  | nil => rfl
  | cons item items =>
      rw [List.forall_mem_cons] at each
      exact ⟨_, _, .refl _, each.1 _ (parted_printTailOnto parted),
        spelledTail_printTailOnto each.2 parted⟩

theorem trailingComma_tupleEnd {α : Type} (items : List α) (rest : List Char) :
    ∃ closing, TrailingComma (items.length == 1) (!items.isEmpty)
      (tupleEnd (items.length == 1) rest) closing ∧ SymbolAt ")" closing rest := by
  cases single : items.length == 1 with
  | false => exact ⟨')' :: rest, .inl ⟨rfl, rfl⟩, .refl _⟩
  | true =>
      have nonempty : (!items.isEmpty) = true := by
        cases items with
        | nil => cases single
        | cons => rfl
      exact ⟨')' :: rest, .inr ⟨nonempty, .refl _⟩, .refl _⟩

theorem head_not_digit_of_nameAt {name : String} {text : List Char}
    (named : NameAt name text rest) : ∀ first ∈ text.head?, isDigit first = false := by
  rcases named.head? with ⟨first, atHead, starts⟩
  rw [atHead]
  rintro _ ⟨⟩
  cases digit : isDigit first with
  | false => rfl
  | true =>
      rw [startsName_eq_false_of_isDigit digit] at starts
      cases starts

theorem spelled_filter_printOnto {offset : Nat} {value : Expr} {name : String}
    {arguments : List Expr} (named : isName name.toList = true)
    (each : ∀ argument ∈ arguments, ∀ rest, Parted rest →
      argument.Spelled (argument.printOnto rest) rest)
    (spelled : ∀ {rest}, Parted rest → value.Spelled (value.printOnto rest) rest)
    (parted : Parted rest) : (Expr.filter offset value name arguments).Spelled
      ((Expr.filter offset value name arguments).printOnto rest) rest := by
  have begun (behind : List Char) : value.Spelled (value.printOnto ('|' :: behind))
      ('|' :: behind) := spelled (parted_cons rfl (by decide) (by decide))
  cases arguments with
  | nil =>
      exact ⟨_, _, _, _, begun _, .refl _, .refl _, ⟨named, rfl, parted.endsName⟩, .inl ⟨rfl, rfl⟩⟩
  | cons argument arguments =>
      have nameAt (behind : List Char) : NameAt name (name.toList ++ '(' :: behind)
          ('(' :: behind) := ⟨named, rfl, by simp; rfl⟩
      exact ⟨_, _, _, _, begun _, .refl _, .refl _, nameAt _, .inr ⟨_, _, .refl _,
        spelledItems_printItemsOnto each (parted_close ')' rfl), .refl _⟩⟩

/-- What is printed behind the mark of a range does not begin with an equals sign. -/
theorem spelledStop_printOptionOnto {stop : Option Expr}
    (wellFormed : ∀ value ∈ stop, value.WellFormed IsReadable)
    (rank : ∀ value ∈ stop, 2 ≤ value.rank)
    (spelled : ∀ value ∈ stop, value.Spelled (value.printOnto rest) rest) (parted : Parted rest) :
    SpelledStop stop (printOptionOnto stop rest) rest ∧ '=' ∉ (printOptionOnto stop rest).head? := by
  cases stop with
  | none => exact ⟨rfl, parted.endsMark⟩
  | some stop =>
      have spelled := spelled stop rfl
      refine ⟨⟨_, .refl _, spelled⟩, ?_⟩
      rcases Grammar.spelled_head (wellFormed stop rfl) spelled with ⟨first, atHead, _, starts, _⟩
      intro atHead'
      have same : some first = some '=' := atHead.symm.trans atHead'
      cases same
      cases starts (rank stop rfl)

/-- The canonical text of an expression is a spelling of it. -/
theorem spelled_printOnto {expression : Expr} (wellFormed : expression.WellFormed IsReadable)
    (parted : Parted rest) : expression.Spelled (expression.printOnto rest) rest := by
  induction wellFormed generalizing rest with
  | literal => exact LiteralKind.literalAt_written _ _ parted
  | var isName => exact ⟨isName, rfl, parted.endsName⟩
  | path readable => exact pathAt_pathOnto readable.1 parted.endsName
  | list _ each =>
      exact ⟨_, _, _, rfl, spelledItems_printItemsOnto (fun item among rest => each item among)
        (parted_close ']' rfl), .inl ⟨rfl, rfl⟩, .refl _⟩
  | @tuple _ items _ each =>
      rcases trailingComma_tupleEnd items rest with ⟨closing, comma, symbol⟩
      exact ⟨_, _, closing, rfl, spelledItems_printItemsOnto (fun item among rest => each item among)
        (parted_tupleEnd _), comma, symbol⟩
  | group _ inside => exact ⟨_, _, _, rfl, .refl _, inside (parted_close ')' rfl), .refl _⟩
  | @member _ object name _ _ isName spelled =>
      have named : NameAt name (name.toList ++ rest) rest := ⟨isName, rfl, parted.endsName⟩
      exact ⟨_, _, _, spelled (parted_point (head_not_digit_of_nameAt named)), .refl _, .refl _,
        named⟩
  | item _ _ _ spelled inside =>
      exact ⟨_, _, _, _, spelled (parted_cons rfl (by decide) (by decide)), .refl _, .refl _,
        inside (parted_close ']' rfl), .refl _⟩
  | call _ _ _ spelled each =>
      exact ⟨_, _, _, spelled (parted_cons rfl (by decide) (by decide)), .refl _,
        spelledItems_printItemsOnto (fun item among rest => each item among)
          (parted_close ')' rfl), .refl _⟩
  | attempt _ _ spelled => exact ⟨_, spelled (parted_cons rfl (by decide) (by decide)), .refl _⟩
  | filter _ _ isName _ spelled each =>
      exact spelled_filter_printOnto isName (fun argument among rest => each argument among) spelled
        parted
  | unary _ _ spelled => exact ⟨_, _, rfl, .refl _, spelled parted⟩
  | binary _ _ _ _ spelled spelled' =>
      exact ⟨_, _, _, spelled parted_space, ⟨.cons rfl (.refl _), fun _ => endsName_cons.mpr rfl⟩,
        .cons rfl (.refl _), spelled' parted⟩
  | @range _ kind start stop _ _ wellFormed rank spelled spelled' =>
      have spelledStop := spelledStop_printOptionOnto wellFormed rank
        (fun value among => spelled' value among parted) parted
      have marked : Parted (kind.symbol.toList ++ printOptionOnto stop rest) := by
        cases kind <;> exact parted_point (by rintro _ ⟨⟩; rfl)
      refine ⟨_, _, ?_, ⟨.refl _, fun _ => spelledStop.2⟩, spelledStop.1⟩
      cases start with
      | none =>
          refine ⟨?_, rfl⟩
          cases kind <;> (rintro _ ⟨⟩; rfl)
      | some start => exact spelled start rfl marked

end Expr

namespace Pattern

/-! ## Patterns -/

variable {items : List Pattern} {fields : List Field}
  {inner : Pattern → (text rest : List Char) → Prop}

/-- The pattern is written in the given way wherever its last lexeme ends. -/
def Written (inner : Pattern → (text rest : List Char) → Prop) (pattern : Pattern) : Prop :=
  ∀ rest, Parted rest → inner pattern (pattern.printOnto rest) rest

theorem listed_listOnto {α : Type} {spelled : α → (text rest : List Char) → Prop}
    {one : α → List Char → List Char} {values : List α}
    (each : ∀ value ∈ values, ∀ rest, Parted rest → spelled value (one value rest) rest)
    (parted : Parted rest) : Listed spelled values (listOnto one values rest) rest := by
  have partedTail (values : List α) : Parted (tailOnto one values rest) := by
    cases values with
    | nil => exact parted
    | cons => exact parted_comma
  have listedTail {values : List α}
      (each : ∀ value ∈ values, ∀ rest, Parted rest → spelled value (one value rest) rest) :
      ListedTail spelled values (tailOnto one values rest) rest := by
    induction values with
    | nil => rfl
    | cons value values induction =>
        rw [List.forall_mem_cons] at each
        have comma : SymbolAt "," (tailOnto one (value :: values) rest)
            (' ' :: one value (tailOnto one values rest)) := .refl _
        exact ⟨_, _, _, comma, .cons rfl (.refl _), each.1 _ (partedTail values),
          induction each.2⟩
  cases values with
  | nil => rfl
  | cons value values =>
      rw [List.forall_mem_cons] at each
      exact ⟨_, _, .refl _, each.1 _ (partedTail values), listedTail each.2⟩

theorem printItemsOnto_eq (items : List Pattern) (rest : List Char) :
    printItemsOnto items rest = listOnto printOnto items rest := by
  have tail (items : List Pattern) : printTailOnto items rest = tailOnto printOnto items rest := by
    induction items with
    | nil => rfl
    | cons item items induction => rw [printTailOnto, tailOnto, induction]
  cases items with
  | nil => rfl
  | cons item items => rw [printItemsOnto, listOnto, tail]

theorem fields_printItemsOnto_eq (fields : List Field) (rest : List Char) :
    Field.printItemsOnto fields rest = listOnto Field.printOnto fields rest := by
  have tail (fields : List Field) :
      Field.printTailOnto fields rest = tailOnto Field.printOnto fields rest := by
    induction fields with
    | nil => rfl
    | cons field fields induction => rw [Field.printTailOnto, tailOnto, induction]
  cases fields with
  | nil => rfl
  | cons field fields => rw [Field.printItemsOnto, listOnto, tail]

theorem payloadAt_printItemsOnto (each : ∀ item ∈ items, Written inner item) :
    PayloadAt inner ")" false items (printItemsOnto items (')' :: rest)) rest := by
  rw [printItemsOnto_eq]
  exact ⟨_, _, listed_listOnto each (parted_close ')' rfl), .inl ⟨rfl, rfl⟩, .refl _⟩

theorem tupleAt_printItemsOnto (each : ∀ item ∈ items, Written inner item) :
    PayloadAt inner ")" (items.length == 1) items
      (printItemsOnto items (tupleEnd (items.length == 1) rest)) rest := by
  rcases Expr.trailingComma_tupleEnd items rest with ⟨closing, comma, symbol⟩
  rw [printItemsOnto_eq]
  exact ⟨_, closing, listed_listOnto each (parted_tupleEnd _), comma, symbol⟩

/-- The field is written under its own name or with a pattern that is written. -/
def FieldWritten (inner : Pattern → (text rest : List Char) → Prop) (field : Field) : Prop :=
  isName field.name.toList = true ∧
    (field.pattern.isNamed field.name = false → Written inner field.pattern)

theorem fieldAt_printOnto {field : Field} (written : FieldWritten inner field)
    (parted : Parted rest) : FieldAt inner field (field.printOnto rest) rest := by
  rcases field with ⟨label, pattern⟩
  rcases written with ⟨isName, written⟩
  unfold Field.printOnto
  cases named : pattern.isNamed label with
  | true =>
      refine .inl ⟨?_, isName, rfl, parted.endsName⟩
      cases pattern with
      | name offset bound =>
          have same : bound = label := by simpa [isNamed] using named
          exact ⟨offset, by rw [same]⟩
      | path => cases named
      | tuple => cases named
      | record => cases named
      | literal => cases named
  | false =>
      have labelAt : NameAt label (label.toList ++ (": ".toList ++ pattern.printOnto rest))
          (": ".toList ++ pattern.printOnto rest) := ⟨isName, rfl, endsName_cons.mpr rfl⟩
      exact .inr ⟨_, _, _, labelAt, .refl _, .cons rfl (.refl _), written named rest parted⟩

theorem fieldsAt_printItemsOnto (each : ∀ field ∈ fields, FieldWritten inner field) :
    PayloadAt (FieldAt inner) "\x7d" false fields
      (Field.printItemsOnto fields ('\x7d' :: rest)) rest := by
  rw [fields_printItemsOnto_eq]
  have each : ∀ field ∈ fields, ∀ rest, Parted rest →
      FieldAt inner field (field.printOnto rest) rest :=
    fun field among _ parted => fieldAt_printOnto (each field among) parted
  exact ⟨_, _, listed_listOnto each (parted_close '\x7d' rfl), .inl ⟨rfl, rfl⟩, .refl _⟩

theorem exists_of_listed {α : Type} {spelled : α → (text rest : List Char) → Prop}
    {values : List α} (listed : Listed spelled values text rest) :
    ∀ value ∈ values, ∃ start last, spelled value start last := by
  have tail {values : List α} {text : List Char} (listed : ListedTail spelled values text rest) :
      ∀ value ∈ values, ∃ start last, spelled value start last := by
    induction values generalizing text with
    | nil => exact List.forall_mem_nil _
    | cons value values induction =>
        rcases listed with ⟨_, start, last, _, _, written, listed⟩
        rw [List.forall_mem_cons]
        exact ⟨⟨start, last, written⟩, induction listed⟩
  cases values with
  | nil => exact List.forall_mem_nil _
  | cons value values =>
      rcases listed with ⟨start, last, _, written, listed⟩
      rw [List.forall_mem_cons]
      exact ⟨⟨start, last, written⟩, tail listed⟩

theorem fieldWritten_of_fieldAt {outer : Pattern → (text rest : List Char) → Prop} {field : Field}
    (written : ∀ {pattern text rest}, inner pattern text rest → Written outer pattern)
    (fieldAt : FieldAt inner field text rest) : FieldWritten outer field := by
  rcases fieldAt with ⟨⟨offset, shape⟩, named⟩ | ⟨_, _, _, named, _, _, inside⟩
  · refine ⟨named.1, ?_⟩
    intro notNamed
    rw [shape] at notNamed
    simp [isNamed] at notNamed
  · exact ⟨named.1, fun _ => written inside⟩

theorem bareAt_printOnto {outer : Pattern → (text rest : List Char) → Prop} {pattern : Pattern}
    (written : ∀ {pattern text rest}, inner pattern text rest → Written outer pattern)
    (bare : BareAt inner pattern text rest) : Written (BareAt outer) pattern := by
  intro rest parted
  cases pattern with
  | literal => exact ⟨bare.1, LiteralKind.literalAt_written _ _ parted⟩
  | name => exact ⟨bare.1, bare.2.1, rfl, parted.endsName⟩
  | path => exact ⟨bare.1, pathAt_pathOnto bare.1.1 parted.endsName⟩
  | tuple _ segments items =>
      cases segments with
      | nil =>
          rcases bare with ⟨_, _, _, _, listed, _⟩
          have each : ∀ item ∈ items, Written outer item := by
            intro item among
            rcases exists_of_listed listed item among with ⟨_, _, inside⟩
            exact written inside
          exact ⟨_, rfl, tupleAt_printItemsOnto each⟩
      | cons first others =>
          rcases bare with ⟨readable, _, _, _, _, _, _, _, _, listed, _⟩
          have each : ∀ item ∈ items, Written outer item := by
            intro item among
            rcases exists_of_listed listed item among with ⟨_, _, inside⟩
            exact written inside
          exact ⟨readable, _, _, _, pathAt_pathOnto readable.1 (endsName_cons.mpr rfl), .inl rfl,
            .refl _, payloadAt_printItemsOnto each⟩
  | record _ segments fields =>
      rcases bare with ⟨readable, _, _, _, _, _, _, _, _, listed, _⟩
      have each : ∀ field ∈ fields, FieldWritten outer field := by
        intro field among
        rcases exists_of_listed listed field among with ⟨_, _, fieldAt⟩
        exact fieldWritten_of_fieldAt written fieldAt
      exact ⟨readable, _, _, _, pathAt_pathOnto readable.1 (endsName_cons.mpr rfl), .inl rfl,
        .cons rfl (.refl _), fieldsAt_printItemsOnto each⟩

/-- A pattern that is spelled in some way is spelled by its canonical text. Parentheses that mean
nothing are not written, so more brackets may be admitted. -/
theorem spelledWithin_printOnto {brackets more : Nat} (enough : brackets ≤ more)
    {pattern : Pattern} (spelled : SpelledWithin brackets pattern text rest) :
    Written (SpelledWithin more) pattern := by
  induction brackets generalizing more pattern text rest with
  | zero => cases spelled
  | succ brackets induction =>
      cases more with
      | zero => omega
      | succ more =>
          rcases spelled with bare | ⟨_, _, _, _, _, inside, _⟩
          · intro rest parted
            have written {pattern : Pattern} {text rest : List Char}
                (inside : SpelledWithin brackets pattern text rest) :
                Written (SpelledWithin more) pattern := induction (by omega) inside
            exact .inl (bareAt_printOnto written bare rest parted)
          · exact induction (by omega) inside

end Pattern

end Templating

import Templating.Proofs.Literal

/-! # Rules for qualified names

A qualified name goes on for as long as a separator and a name follow. A name that stands by
itself is a qualified name only if it has a capital letter. -/

namespace Templating.Grammar

open Text

variable {cursor later : Cursor} {text middle rest next : List Char}

/-- A symbol does not stand where another character than its first does. -/
theorem token_misses_of_head {symbol : String}
    (apart : ∀ first ∈ (afterBlanks text).head?, symbol.toList.head? ≠ some first)
    (nonempty : symbol.toList ≠ []) : Misses (token symbol) text := by
  apply token_misses
  rintro ⟨rest, shape⟩
  cases begun : symbol.toList with
  | nil => exact nonempty begun
  | cons first others =>
      rw [begun, List.cons_append] at shape
      apply apart first
      · rw [← shape]
        rfl
      · rw [begun]
        rfl

theorem separator_misses (apart : ∀ first ∈ (afterBlanks text).head?, first ≠ ':') :
    Misses separator text :=
  have misses : Misses (token "::") text :=
    token_misses_of_head
      (fun first atHead same => apart first atHead (Option.some.inj same).symm) (by decide)
  misses

theorem separator_yields (matched : separator cursor = .matched () later) :
    ∃ middle, SymbolAt "::" cursor.rest middle ∧ Gap middle later.rest ∧ Solid later.rest :=
  have matched : token "::" cursor = .matched () later := matched
  token_yields matched

theorem separator_reads (spelled : SymbolAt "::" text middle) (gap : Gap middle rest)
    (solid : Solid rest) : Reads separator text (fun _ => True) rest :=
  have reads : Reads (token "::") text (fun _ => True) rest := token_reads rfl spelled gap solid
  reads

theorem separator_misses_of_nameAt {value : String} (named : NameAt value text rest) :
    Misses separator text := by
  apply separator_misses
  rw [afterBlanks_of_solid named.solid]
  rcases named.head? with ⟨atHead, shape, starts⟩
  rw [shape]
  rintro _ ⟨⟩ rfl
  cases starts

/-- A name behind a separator. -/
def furtherName : Grammar String := do
  separator
  name

instance : Consuming separator :=
  inferInstanceAs (Consuming (spaced (exact [':', ':'])))

instance : Consuming name :=
  inferInstanceAs (Consuming (character startsName >>= fun _ => _))

instance : Consuming furtherName :=
  inferInstanceAs (Consuming (separator >>= fun _ => name))

theorem path_eq : path = (do
    let root ← optional separator
    let first ← name
    let others ← many furtherName
    if root.isSome then
      return "" :: first :: others
    else if !others.isEmpty || first.toList.any isUppercase then
      return first :: others
    else
      noMatch) := rfl

theorem namesAt_of_repeated {names : List String}
    (repeated : Repeated furtherName cursor names later) :
    NamesAt names cursor.rest later.rest := by
  induction repeated with
  | nil => rfl
  | cons first _ induction =>
      simp only [furtherName, bind_eq_matched] at first
      rcases first with ⟨_, between, separated, named⟩
      rcases separator_yields separated with ⟨start, spelled, gap, _⟩
      exact ⟨start, between.rest, _, spelled, gap, name_yields named, induction⟩

theorem namesAt_reads {names : List String} (spelled : NamesAt names text rest) :
    ReadsEach furtherName text (· = names) rest := by
  induction names generalizing text with
  | nil =>
      cases spelled
      exact .nil rfl
  | cons value names induction =>
      rcases spelled with ⟨separated, start, middle, symbol, gap, named, others⟩
      have first : Reads furtherName text (· = value) middle :=
        (separator_reads symbol gap named.solid).bind fun _ _ =>
          name_reads named
      exact ReadsEach.cons first (induction others) (by rintro _ _ rfl rfl; rfl)

theorem isName_of_namesAt {names : List String} (spelled : NamesAt names text rest) :
    ∀ name ∈ names, isName name.toList = true := by
  induction names generalizing text with
  | nil => nofun
  | cons value names induction =>
      rcases spelled with ⟨_, _, _, _, _, named, others⟩
      intro name member
      rcases List.mem_cons.mp member with rfl | member
      · exact named.1
      · exact induction others name member

theorem path_yields {segments : List String}
    (matched : path cursor = .matched segments later) :
    IsQualified segments ∧ ∃ start, Gap cursor.rest start ∧ PathAt segments start later.rest ∧
      (segments.head? = some "" ∨ start = cursor.rest) := by
  rw [path_eq] at matched
  simp only [bind_eq_matched] at matched
  rcases matched with ⟨root, begun, rooted, first, middle, named, others, last, repeated, done⟩
  have named' := name_yields named
  have others' := namesAt_of_repeated (repeated_of_many repeated)
  have areNames := isName_of_namesAt others'
  rcases optional_eq_matched.mp rooted with ⟨_, rfl, separated⟩ | ⟨rfl, rfl, _⟩
  · cases done
    rcases separator_yields separated with ⟨start, spelled, gap, _⟩
    refine ⟨⟨.inl ⟨rfl, by simp⟩, ?_⟩, "::".toList ++ start, spelled,
      ⟨by simp [isSpace], "::".toList ++ start, ?_, ?_⟩, .inl rfl⟩
    · intro name member
      rcases List.mem_cons.mp member with rfl | member
      · exact named'.1
      · exact areNames name member
    · exact ⟨rfl, by simp [continuesName, startsName, isBetween, isDigit]⟩
    · exact ⟨start, begun.rest, middle.rest, .refl _, gap, named', others'⟩
  · simp only [Option.isSome_none, Bool.false_eq_true, if_false] at done
    split at done
    case isTrue several =>
        cases done
        refine ⟨⟨.inr ⟨named'.1, ?_⟩, areNames⟩, _, .refl _,
          ⟨named'.solid, _, named'.2, others'⟩, .inr rfl⟩
        simpa [Bool.or_eq_true] using several
    case isFalse => cases done

theorem path_reads {segments : List String} (qualified : IsQualified segments)
    (spelled : PathAt segments text rest) (stops : Misses furtherName rest) :
    Reads path text (· = segments) rest := by
  rw [path_eq]
  cases segments with
  | nil => cases qualified
  | cons first others =>
      rcases spelled with ⟨solid, middle, ⟨rfl, ends⟩, spelled⟩
      rcases qualified with ⟨⟨rfl, nonempty⟩ | ⟨named, several⟩, areNames⟩
      · cases others with
        | nil => exact absurd rfl nonempty
        | cons first others =>
            rcases spelled with ⟨separated, start, between, symbol, gap, named, spelled⟩
            apply (separator_reads symbol gap named.solid).optional.bind
            rintro _ ⟨_, rfl, _⟩
            apply (name_reads named).bind
            rintro _ rfl
            apply ((namesAt_reads spelled).stop stops).bind
            rintro _ rfl
            exact .pure rfl
      · have nameAt : NameAt first (first.toList ++ middle) middle := ⟨named, rfl, ends⟩
        apply (separator_misses_of_nameAt nameAt).optional.bind
        rintro _ rfl
        apply (name_reads nameAt).bind
        rintro _ rfl
        apply ((namesAt_reads spelled).stop stops).bind
        rintro _ rfl
        rw [if_neg (by simp), if_pos (by simpa [Bool.or_eq_true] using several)]
        exact .pure rfl

/-- A name with a capital letter is always taken for a qualified name. -/
theorem any_isUppercase_of_path_noMatch {value : String} (named : NameAt value cursor.rest rest)
    (missed : path cursor = .noMatch) : value.toList.any isUppercase = false := by
  rw [path_eq] at missed
  simp only [bind_eq_noMatch] at missed
  rcases missed with missed | ⟨root, begun, rooted, missed⟩
  · exact absurd missed optional_ne_noMatch
  have unrooted := separator_misses_of_nameAt named cursor.offset
  rcases optional_eq_matched.mp rooted with ⟨_, _, separated⟩ | ⟨rfl, rfl, _⟩
  · rw [separated] at unrooted
    cases unrooted
  rcases missed with missed | ⟨first, middle, read', missed⟩
  · exact absurd missed (name_reads named).ne_noMatch
  rcases name_reads named begun.offset with ⟨_, _, read, rfl⟩
  rw [show name begun = _ from read] at read'
  cases read'
  rcases missed with missed | ⟨others, last, _, missed⟩
  · exact absurd missed (manyFor_ne_noMatch _ _ _)
  · simp only [Option.isSome_none, Bool.false_eq_true, if_false] at missed
    split at missed
    case isTrue => cases missed
    case isFalse small =>
        simp only [Bool.or_eq_true, not_or, Bool.not_eq_true] at small
        exact small.2

/-- A name without capital letters that stands by itself is no qualified name. -/
theorem path_misses_of_nameAt {value : String} (named : NameAt value text rest)
    (small : value.toList.any isUppercase = false) (stops : Misses furtherName rest) :
    Misses path text := by
  rw [path_eq]
  apply (separator_misses_of_nameAt named).optional.bind_misses
  rintro _ rfl
  apply (name_reads named).bind_misses
  rintro _ rfl
  have alone : ReadsEach furtherName rest (· = []) rest := .nil rfl
  apply (alone.stop stops).bind_misses
  rintro _ rfl
  rw [if_neg (by simp), if_neg (by simp [small])]
  exact fun _ => rfl

theorem path_misses (solid : Solid text)
    (refused : ∀ first ∈ text.head?, startsName first = false ∧ first ≠ ':') :
    Misses path text := by
  have unrooted : Misses separator text := by
    apply separator_misses
    rw [afterBlanks_of_solid solid]
    exact fun first atHead => (refused first atHead).2
  apply unrooted.optional.bind_misses
  intro _ _
  exact (name_misses fun first atHead => (refused first atHead).1).bind

end Templating.Grammar

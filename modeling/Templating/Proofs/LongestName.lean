import Templating.Proofs.Blame
import Templating.Proofs.PrintedSpelling
import Templating.Proofs.TagForm

/-! # Qualified names as far as they go

A qualified name is read up to the last name that a separator leads to: the run of names behind its
first one is the longest that stands there. What is not such a name is not read at all. -/

namespace Templating

namespace Text

/-- The names are the longest run of names behind separators that stands there. -/
def LongestNamesAt (names : List String) (text rest : List Char) : Prop :=
  NamesAt names text rest ∧ ∀ others rest', NamesAt others text rest' → others.length ≤ names.length

/-- A qualified name, as far as it goes. Blanks may stand before its root, and nowhere else before its
first name; without a root it has several names, or one with a capital letter. -/
inductive QualifiedAt : (segments : List String) → (text rest : List Char) → Prop
  | rooted {first : String} {others : List String} {text separated start middle rest : List Char} :
      SymbolAt "::" text separated → Gap separated start → NameAt first start middle →
      LongestNamesAt others middle rest → QualifiedAt ("" :: first :: others) text rest
  | plain {first : String} {others : List String} {text middle rest : List Char} :
      NameAt first text middle → LongestNamesAt others middle rest →
      others ≠ [] ∨ first.toList.any isUppercase = true → QualifiedAt (first :: others) text rest

variable {names : List String} {name : String} {text middle rest rest' : List Char}

theorem NamesAt.snoc {separated start : List Char} (run : NamesAt names text middle)
    (symbol : SymbolAt "::" middle separated) (gap : Gap separated start)
    (named : NameAt name start rest) : NamesAt (names ++ [name]) text rest := by
  induction names generalizing text with
  | nil =>
      cases run
      exact ⟨separated, start, rest, symbol, gap, named, rfl⟩
  | cons first names induction =>
      rcases run with ⟨separated', start', middle', symbol', gap', named', run⟩
      exact ⟨separated', start', middle', symbol', gap', named', induction run⟩

theorem QualifiedAt.isQualified {segments : List String} (stands : QualifiedAt segments text rest) :
    IsQualified segments := by
  cases stands with
  | rooted _ _ named longest =>
      refine ⟨.inl ⟨rfl, List.cons_ne_nil _ _⟩, ?_⟩
      exact List.forall_mem_cons.mpr ⟨named.1, Grammar.isName_of_namesAt longest.1⟩
  | plain named longest several =>
      exact ⟨.inr ⟨named.1, several⟩, Grammar.isName_of_namesAt longest.1⟩

end Text

/-- Segments with separators between them are written as a path is. -/
theorem pathOnto_eq_intercalate (segments : List String) (rest : List Char) :
    pathOnto segments rest = ("::".intercalate segments).toList ++ rest := by
  fun_induction pathOnto segments rest with
  | case1 => rfl
  | case2 => rw [String.intercalate_singleton]
  | case3 first names rest several induction =>
      cases names with
      | nil => exact (several rfl).elim
      | cons second names =>
          rw [induction, String.intercalate_cons_cons]
          simp

namespace Grammar

open Text

variable {names segments : List String} {cursor later : Cursor} {text middle rest behind : List Char}

/-! ## Runs of names -/

/-- A repetition that stops where its rule does not match is the longest. -/
theorem Repeated.length_le {α : Type} {rule : Grammar α} {values others : List α} {place : Cursor}
    (repeated : Repeated rule cursor values later) (stopped : rule later = .noMatch)
    (other : Repeated rule cursor others place) : others.length ≤ values.length := by
  induction repeated generalizing others with
  | nil cursor =>
      cases other with
      | nil => exact Nat.le_refl _
      | cons first =>
          rw [stopped] at first
          cases first
  | cons first _ induction =>
      cases other with
      | nil => exact Nat.zero_le _
      | cons first' other =>
          rw [first] at first'
          cases first'
          exact Nat.succ_le_succ (induction stopped other)

theorem furtherName_ends (offset : Nat) : furtherName ⟨offset, []⟩ = .noMatch :=
  (separator_misses (by simp [afterBlanks])).bind offset

instance : Quiet furtherName := by
  unfold furtherName separator
  infer_instance

theorem longestNamesAt_of_many (matched : many furtherName cursor = .matched names later) :
    LongestNamesAt names cursor.rest later.rest := by
  have repeated := repeated_of_many matched
  have stopped : furtherName later = .noMatch := by
    by_cases further : later.rest = []
    · exact (congrArg furtherName (congrArg (Cursor.mk later.offset) further)).trans
        (furtherName_ends later.offset)
    · exact noMatch_of_many matched further
  refine ⟨namesAt_of_repeated repeated, fun others rest' run => ?_⟩
  rcases namesAt_reads run cursor.offset with ⟨_, place, other, rfl⟩
  exact repeated.length_le stopped other

/-- Behind the longest run of names no further one stands. -/
theorem LongestNamesAt.stops (longest : LongestNamesAt names text rest) : Misses furtherName rest := by
  intro offset
  rcases Quiet.cases furtherName ⟨offset, rest⟩ with missed | ⟨name, last, matched⟩
  · exact missed
  · rcases bind_eq_matched.mp matched with ⟨_, between, separated, named⟩
    rcases separator_yields separated with ⟨start, symbol, gap, _⟩
    have longer := longest.2 _ _ (longest.1.snoc symbol gap (name_yields named))
    rw [List.length_append] at longer
    exact absurd longer (Nat.not_succ_le_self _)

theorem LongestNamesAt.reads (longest : LongestNamesAt names text rest) :
    Reads (many furtherName) text (· = names) rest :=
  (namesAt_reads longest.1).stop (LongestNamesAt.stops longest)

/-! ## Qualified names -/

theorem qualifiedAt_of_path (matched : path cursor = .matched segments later) :
    QualifiedAt segments cursor.rest later.rest := by
  rw [path_eq] at matched
  simp only [bind_eq_matched] at matched
  rcases matched with ⟨root, begun, rooted, first, middle, named, others, last, repeated, done⟩
  have longest := longestNamesAt_of_many repeated
  rcases optional_eq_matched.mp rooted with ⟨_, rfl, separated⟩ | ⟨rfl, rfl, _⟩
  · cases done
    rcases separator_yields separated with ⟨start, symbol, gap, _⟩
    exact .rooted symbol gap (name_yields named) longest
  · simp only [Option.isSome_none, Bool.false_eq_true, if_false] at done
    split at done
    case isTrue several =>
        cases done
        exact .plain (name_yields named) longest (by simpa [Bool.or_eq_true] using several)
    case isFalse => cases done

theorem QualifiedAt.reads (stands : QualifiedAt segments text rest) :
    Reads path text (· = segments) rest := by
  have qualified := stands.isQualified
  cases stands with
  | rooted symbol gap named longest =>
      rw [path_eq]
      apply (separator_reads symbol gap named.solid).optional.bind
      rintro _ ⟨_, rfl, _⟩
      apply (name_reads named).bind
      rintro _ rfl
      apply (LongestNamesAt.reads longest).bind
      rintro _ rfl
      exact .pure rfl
  | plain named longest _ =>
      exact path_reads qualified ⟨named.solid, _, named.2, longest.1⟩ (LongestNamesAt.stops longest)

/-- Names that are written with nothing but separators between them stand there as they are. -/
theorem path_reads_intercalate (qualified : IsQualified segments) (ends : EndsName behind)
    (apart : ¬ "::".toList <+: afterBlanks behind) :
    Reads path (("::".intercalate segments).toList ++ behind) (· = segments) behind := by
  rw [← pathOnto_eq_intercalate]
  have unseparated : Misses separator behind :=
    have misses : Misses (token "::") behind := token_misses apart
    misses
  exact path_reads qualified (pathAt_pathOnto qualified ends) unseparated.bind

/-- A qualified name is read exactly where one stands, as far as it goes, and the cursor moves over it
and no further. With separators alone between its segments it is read again, unless what follows
goes on with its last name or with a separator. -/
theorem path_reads_longest_name (cursor : Cursor) :
    (∀ segments later, path cursor = .matched segments later ↔
      QualifiedAt segments cursor.rest later.rest ∧ cursor.Reaches later) ∧
    (path cursor = .noMatch ↔ ∀ segments rest, ¬ QualifiedAt segments cursor.rest rest) ∧
    ∀ segments rest, QualifiedAt segments cursor.rest rest → ∀ offset behind, EndsName behind →
      ¬ "::".toList <+: afterBlanks behind →
        path ⟨offset, ("::".intercalate segments).toList ++ behind⟩ =
          .matched segments ⟨offset + ("::".intercalate segments).length, behind⟩ := by
  have read {segments : List String} {rest : List Char}
      (stands : QualifiedAt segments cursor.rest rest) :
      ∃ offset, path cursor = .matched segments ⟨offset, rest⟩ := by
    rcases QualifiedAt.reads stands cursor.offset with ⟨_, offset, matched, rfl⟩
    exact ⟨offset, matched⟩
  refine ⟨fun segments later => ⟨fun matched => ?_, ?_⟩, ⟨fun missed segments rest stands => ?_, ?_⟩,
    fun segments rest stands offset behind ends apart => ?_⟩
  · exact ⟨qualifiedAt_of_path matched, Advancing.reaches matched⟩
  · rintro ⟨stands, reaches⟩
    rcases read stands with ⟨offset, matched⟩
    rw [matched, (Advancing.reaches matched).unique reaches rfl]
  · rcases read stands with ⟨offset, matched⟩
    rw [matched] at missed
    cases missed
  · intro absent
    rcases Quiet.cases path cursor with missed | ⟨segments, later, matched⟩
    · exact missed
    · exact absurd (qualifiedAt_of_path matched) (absent _ _)
  · rcases path_reads_intercalate stands.isQualified ends apart offset with
      ⟨segments, last, matched, rfl⟩
    rw [matched]
    have whole : Cursor.Reaches ⟨offset, ("::".intercalate segments).toList ++ behind⟩
        ⟨offset + ("::".intercalate segments).length, behind⟩ :=
      ⟨_, rfl, by rw [String.length_toList]⟩
    exact congrArg (Outcome.matched segments) ((Advancing.reaches matched).unique whole rfl)

/-- A separator that no name follows is given back with the blanks before it. Blanks may stand before
the root, but not before a name without one. -/
theorem path_reads_longest_name_rooted :
    QualifiedAt ["", "a", "B"] " :: a :: B ::1".toList " ::1".toList ∧
    path ⟨3, "::a::B ;".toList⟩ = .matched ["", "a", "B"] ⟨9, " ;".toList⟩ ∧
    ∀ segments rest, ¬ QualifiedAt segments " A".toList rest := by
  rcases path_reads_longest_name (.start " :: a :: B ::1".toList) with ⟨matched_iff, _, again⟩
  have stands := (matched_iff ["", "a", "B"] (.after " :: a :: B ::1".toList 10)).mp (by rfl)
  refine ⟨stands.1, again _ _ stands.1 3 " ;".toList ?_ (by decide), ?_⟩
  · exact endsName_cons.mpr rfl
  · exact (path_reads_longest_name (.start " A".toList)).2.1.mp (by rfl)

end Grammar

end Templating

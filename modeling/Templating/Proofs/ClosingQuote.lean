import Mathlib.Algebra.Group.Nat.Even
import Templating.Proofs.Blame

/-! # Closing quotes

A quoted text ends at the first quote that is not escaped. The reader goes in steps of one character,
or of two behind a backslash, and so comes to a quote exactly if the backslashes right before it
escape each other. -/

namespace Templating

namespace Text

/-- How many backslashes stand one behind the other right before a place of a text. -/
def backslashesBefore (text : List Char) (place : Nat) : Nat :=
  ((text.take place).reverse.takeWhile (· == '\\')).length

/-- A quote stands at the place, and the backslashes right before it escape each other. -/
def UnescapedAt (quote : Char) (text : List Char) (place : Nat) : Prop :=
  text[place]? = some quote ∧ Even (backslashesBefore text place)

/-- The quote at the place is the first one that is not escaped. -/
def FirstUnescapedAt (quote : Char) (text : List Char) (place : Nat) : Prop :=
  UnescapedAt quote text place ∧ ∀ earlier < place, ¬ UnescapedAt quote text earlier

instance (quote : Char) (text : List Char) (place : Nat) :
    Decidable (UnescapedAt quote text place) :=
  inferInstanceAs (Decidable (_ ∧ _))

instance (quote : Char) (text : List Char) (place : Nat) :
    Decidable (FirstUnescapedAt quote text place) :=
  inferInstanceAs (Decidable (_ ∧ ∀ _ < _, _))

variable {quote first escaped : Char} {text rest : List Char} {place place' : Nat}

theorem FirstUnescapedAt.unique (closes : FirstUnescapedAt quote text place)
    (closes' : FirstUnescapedAt quote text place') : place = place' := by
  rcases Nat.lt_trichotomy place place' with before | same | behind
  · exact absurd closes.1 (closes'.2 place before)
  · exact same
  · exact absurd closes'.1 (closes.2 place' behind)

theorem UnescapedAt.lt_length (closes : UnescapedAt quote text place) : place < text.length :=
  (List.getElem?_eq_some_iff.mp closes.1).1

theorem FirstUnescapedAt.length_take (closes : FirstUnescapedAt quote text place) :
    (text.take place).length = place :=
  List.length_take_of_le (Nat.le_of_lt closes.1.lt_length)

/-! ## Steps over a text -/

/-- A character in front of a text counts only if it is a backslash and so is everything up to the
place. -/
theorem backslashesBefore_cons (first : Char) (text : List Char) (place : Nat) :
    backslashesBefore (first :: text) (place + 1) =
      if backslashesBefore text place = (text.take place).length ∧ first = '\\' then
        backslashesBefore text place + 1
      else backslashesBefore text place := by
  rw [backslashesBefore, backslashesBefore, List.take_succ_cons, List.reverse_cons,
    List.takeWhile_append, List.length_reverse]
  by_cases whole : ((text.take place).reverse.takeWhile (· == '\\')).length = (text.take place).length
  · by_cases escapes : first = '\\' <;> simp [whole, escapes]
  · rw [if_neg whole, if_neg fun both => whole both.1]

/-- A character in front that is no backslash does not change which quotes are escaped. -/
theorem unescapedAt_cons (plain : first ≠ '\\') :
    UnescapedAt quote (first :: text) (place + 1) ↔ UnescapedAt quote text place := by
  rw [UnescapedAt, UnescapedAt, List.getElem?_cons_succ, backslashesBefore_cons,
    if_neg (by simp [plain])]

/-- Nor do a backslash and the character that it takes along: at a place further on either both of
them count or the backslash does not. -/
theorem unescapedAt_escape :
    UnescapedAt quote ('\\' :: escaped :: text) (place + 2) ↔ UnescapedAt quote text place := by
  have even_eq : Even (backslashesBefore ('\\' :: escaped :: text) (place + 2)) ↔
      Even (backslashesBefore text place) := by
    have length_eq : ((escaped :: text).take (place + 1)).length = (text.take place).length + 1 := by
      simp
    have bounded : backslashesBefore text place ≤ (text.take place).length :=
      Nat.le_trans (List.takeWhile_prefix _).length_le (Nat.le_of_eq List.length_reverse)
    rw [backslashesBefore_cons, backslashesBefore_cons, length_eq]
    by_cases counts : backslashesBefore text place = (text.take place).length ∧ escaped = '\\'
    · simp [counts, Nat.even_add_one]
    · rw [if_neg counts, if_neg fun both => by omega]
  rw [UnescapedAt, UnescapedAt, List.getElem?_cons_succ, List.getElem?_cons_succ, even_eq]

/-- The quote right behind a backslash is escaped. -/
theorem not_unescapedAt_of_backslash (apart : quote ≠ '\\') (before : place < 2) :
    ¬ UnescapedAt quote ('\\' :: text) place := by
  rintro ⟨stands, even⟩
  rcases Nat.lt_or_ge place 1 with atBackslash | behind
  · obtain rfl : place = 0 := by omega
    exact apart (Option.some.inj stands).symm
  · obtain rfl : place = 1 := by omega
    rw [backslashesBefore_cons] at even
    simp [backslashesBefore] at even

end Text

namespace Grammar

open Text

variable {quote : Char} {text body : List Char} {place : Nat} {cursor later : Cursor} {value : String}

/-! ## The body of a quoted text -/

theorem unescapedAt_of_quotedBody? (found : quotedBody? quote text = some body) :
    UnescapedAt quote text body.length := by
  fun_induction quotedBody? quote text generalizing body with
  | case1 => cases found
  | case2 escaped rest induction =>
      rcases Option.map_eq_some_iff.mp found with ⟨inside, found', rfl⟩
      exact unescapedAt_escape.mpr (induction found')
  | case3 first rest _ atQuote =>
      cases found
      exact ⟨congrArg some (beq_iff_eq.mp atQuote), by simp [backslashesBefore]⟩
  | case4 => cases found
  | case5 first rest _ _ notEscape induction =>
      rcases Option.map_eq_some_iff.mp found with ⟨inside, found', rfl⟩
      exact (unescapedAt_cons (by simpa using notEscape)).mpr (induction found')

/-- The reader steps over no quote that is not escaped. -/
theorem quotedBody?_of_unescapedAt (apart : quote ≠ '\\') (closes : UnescapedAt quote text place) :
    ∃ body, quotedBody? quote text = some body ∧ body.length ≤ place := by
  fun_induction quotedBody? quote text generalizing place with
  | case1 => cases closes.1
  | case2 escaped rest induction =>
      obtain ⟨place, rfl⟩ : ∃ behind, place = behind + 2 := Nat.exists_eq_add_of_le'
        (Nat.le_of_not_lt fun before => not_unescapedAt_of_backslash apart before closes)
      rcases induction (unescapedAt_escape.mp closes) with ⟨body, found, within⟩
      exact ⟨'\\' :: escaped :: body, by rw [found, Option.map_some], Nat.add_le_add_right within 2⟩
  | case3 => exact ⟨[], rfl, Nat.zero_le _⟩
  | case4 first rest alone _ escapes =>
      -- A backslash takes nothing along only at the end of the text.
      obtain rfl : rest = [] := by
        cases rest with
        | nil => rfl
        | cons escaped rest => exact absurd rfl (alone escaped rest (beq_iff_eq.mp escapes))
      rw [beq_iff_eq.mp escapes] at closes
      have atBackslash : place < 1 := closes.lt_length
      exact absurd closes (not_unescapedAt_of_backslash apart (Nat.lt_succ_of_lt atBackslash))
  | case5 first rest _ notQuote notEscape induction =>
      cases place with
      | zero => exact absurd (beq_iff_eq.mpr (Option.some.inj closes.1)) notQuote
      | succ place =>
          rcases induction ((unescapedAt_cons (by simpa using notEscape)).mp closes) with
            ⟨body, found, within⟩
          exact ⟨first :: body, by rw [found, Option.map_some], Nat.succ_le_succ within⟩

theorem firstUnescapedAt_of_quotedBody? (apart : quote ≠ '\\')
    (found : quotedBody? quote text = some body) : FirstUnescapedAt quote text body.length := by
  refine ⟨unescapedAt_of_quotedBody? found, fun earlier before closes => ?_⟩
  rcases quotedBody?_of_unescapedAt apart closes with ⟨body', found', within⟩
  cases found.symm.trans found'
  exact absurd within (Nat.not_le_of_lt before)

/-- The body of a quoted text is what stands before the first quote that is not escaped. -/
theorem quotedBody?_eq_some_iff (apart : quote ≠ '\\') :
    quotedBody? quote text = some body ↔
      ∃ place, FirstUnescapedAt quote text place ∧ body = text.take place := by
  constructor
  · intro found
    rcases quotedBody?_eq_some found with ⟨_, rest, shape⟩
    exact ⟨body.length, firstUnescapedAt_of_quotedBody? apart found, by rw [shape, List.take_left]⟩
  · rintro ⟨place, closes, rfl⟩
    rcases quotedBody?_of_unescapedAt apart closes.1 with ⟨body, found, _⟩
    rcases quotedBody?_eq_some found with ⟨_, rest, shape⟩
    rw [found, closes.unique (firstUnescapedAt_of_quotedBody? apart found), shape, List.take_left]

/-! ## Quoted texts -/

/-- The rule reads a text between two quotes of this kind: what stands behind the first, verbatim, up
to the first one that is not escaped. -/
structure ReadsQuoted (quote : Char) (rule : Grammar String) : Prop where
  matched_iff (cursor later : Cursor) (value : String) :
    rule cursor = .matched value later ↔ ∃ text place, cursor.rest = quote :: text ∧
      FirstUnescapedAt quote text place ∧ value.toList = text.take place ∧
        later = cursor.advance (place + 2)
  noMatch_iff (cursor : Cursor) :
    rule cursor = .noMatch ↔
      ¬ ∃ text place, cursor.rest = quote :: text ∧ UnescapedAt quote text place
  body (offset : Nat) (body rest : List Char) (isBody : isBody quote body = true) :
    rule ⟨offset, quote :: (body ++ quote :: rest)⟩ =
      .matched (String.ofList body) ⟨offset + (body.length + 2), rest⟩

theorem between_of_quotedBody? {offset : Nat} (found : quotedBody? quote text = some body) :
    between quote ⟨offset, quote :: text⟩ =
      .matched (String.ofList body) (Cursor.advance ⟨offset, quote :: text⟩ (body.length + 2)) := by
  rcases quotedBody?_eq_some found with ⟨_, rest, shape⟩
  have opened : exact [quote] ⟨offset, quote :: text⟩ = .matched () ⟨offset + 1, text⟩ :=
    exact_eq_matched.mpr ⟨rfl, rfl⟩
  have read : Grammar.body quote ⟨offset + 1, text⟩ =
      .matched body ⟨offset + 1 + body.length, quote :: rest⟩ := by
    rw [Grammar.body, found]
    simp [Cursor.advance, shape]
  have closed : exact [quote] ⟨offset + 1 + body.length, quote :: rest⟩ =
      .matched () ⟨offset + 1 + body.length + 1, rest⟩ :=
    exact_eq_matched.mpr ⟨rfl, rfl⟩
  rw [between_eq, bind_of_matched opened, bind_of_matched read, bind_of_matched closed, pure_apply]
  have behind : Cursor.advance ⟨offset, quote :: text⟩ (body.length + 2) =
      ⟨offset + 1 + body.length + 1, rest⟩ := by
    simp [Cursor.advance, shape, ← Nat.add_assoc, Nat.add_right_comm]
  rw [behind]

theorem between_of_noBody {offset : Nat} (missed : quotedBody? quote text = none) :
    between quote ⟨offset, quote :: text⟩ = .noMatch := by
  have opened : exact [quote] ⟨offset, quote :: text⟩ = .matched () ⟨offset + 1, text⟩ :=
    exact_eq_matched.mpr ⟨rfl, rfl⟩
  rw [between_eq, bind_of_matched opened]
  exact bind_of_noMatch (by simp [Grammar.body, missed])

/-- A text between quotes is read exactly where it can be told where it ends. -/
theorem between_eq_matched : between quote cursor = .matched value later ↔
    ∃ text body, cursor.rest = quote :: text ∧ quotedBody? quote text = some body ∧
      value = String.ofList body ∧ later = cursor.advance (body.length + 2) := by
  constructor
  · intro matched
    rcases cursor with ⟨offset, rest⟩
    obtain ⟨text, rfl⟩ : ∃ text, rest = quote :: text := ⟨_, (between_yields matched).2⟩
    cases found : quotedBody? quote text with
    | none =>
        rw [between_of_noBody found] at matched
        cases matched
    | some body =>
        rw [between_of_quotedBody? found] at matched
        cases matched
        exact ⟨text, body, rfl, found, rfl, rfl⟩
  · rintro ⟨text, body, shape, found, rfl, rfl⟩
    rcases cursor with ⟨offset, rest⟩
    cases shape
    exact between_of_quotedBody? found

theorem between_readsQuoted (apart : quote ≠ '\\') : ReadsQuoted quote (between quote) where
  matched_iff cursor later value := by
    rw [between_eq_matched]
    constructor
    · rintro ⟨text, body, shape, found, rfl, rfl⟩
      rcases (quotedBody?_eq_some_iff apart).mp found with ⟨place, closes, rfl⟩
      rw [String.toList_ofList, closes.length_take]
      exact ⟨text, place, shape, closes, rfl, rfl⟩
    · rintro ⟨text, place, shape, closes, verbatim, rfl⟩
      refine ⟨text, text.take place, shape, (quotedBody?_eq_some_iff apart).mpr ⟨place, closes, rfl⟩,
        ?_, ?_⟩
      · rw [← verbatim, String.ofList_toList]
      · rw [closes.length_take]
  noMatch_iff cursor := by
    constructor
    · rintro missed ⟨text, place, shape, closes⟩
      rcases quotedBody?_of_unescapedAt apart closes with ⟨body, found, _⟩
      rw [between_eq_matched.mpr ⟨text, body, shape, found, rfl, rfl⟩] at missed
      cases missed
    · intro unclosed
      rcases Quiet.cases (between quote) cursor with missed | ⟨value, later, matched⟩
      · exact missed
      · rcases between_eq_matched.mp matched with ⟨text, body, shape, found, _⟩
        exact absurd ⟨text, body.length, shape, unescapedAt_of_quotedBody? found⟩ unclosed
  body offset body rest isBody := by
    rw [between_of_quotedBody? (quotedBody?_of_isBody apart isBody rest)]
    simp [Cursor.advance]

/-- A string and a character text end at the first quote of their kind that is not escaped. They are
read exactly if there is such a quote, as the text that stands before it, and what is written of
characters other than quotes and backslashes and of backslashes with any character behind them is
read whole, whatever stands behind the closing quote. -/
theorem quoted_text_ends_at_first_unescaped_quote :
    ReadsQuoted '"' string ∧ ReadsQuoted '\'' characterText :=
  ⟨between_readsQuoted (by decide), between_readsQuoted (by decide)⟩

/-- The second quote is escaped, and the third is not, since the backslash before it is. A line may
end in the text. -/
theorem quoted_text_ends_at_first_unescaped_quote_escaped :
    string (.after "x\"a\\\"\n\\\\\"\"".toList 1) =
      .matched "a\\\"\n\\\\" (.after "x\"a\\\"\n\\\\\"\"".toList 9) ∧
    characterText (.start "'\\'".toList) = .noMatch ∧
    characterText ⟨0, "'\\\\'\\".toList⟩ = .matched "\\\\" ⟨4, "\\".toList⟩ := by
  rcases quoted_text_ends_at_first_unescaped_quote with ⟨strings, characters⟩
  have closes : FirstUnescapedAt '"' "a\\\"\n\\\\\"\"".toList 6 := by decide
  have unclosed : ∀ place < 2, ¬ UnescapedAt '\'' "\\'".toList place := by decide
  refine ⟨?_, ?_, ?_⟩
  · exact (strings.matched_iff _ _ _).mpr ⟨_, 6, rfl, closes, rfl, rfl⟩
  · rw [characters.noMatch_iff]
    rintro ⟨_, place, ⟨⟩, closes⟩
    exact unclosed place closes.lt_length closes
  · exact characters.body 0 "\\\\".toList "\\".toList (by decide)

end Grammar

end Templating

import Templating.Text.Space

/-! # Blanks between lexemes

How blanks part a text from its rest, and where a text begins that has none in front. -/

namespace Templating.Text

/-- The rest lies behind blanks at most. -/
inductive Gap : (text rest : List Char) → Prop
  | refl (rest : List Char) : Gap rest rest
  | cons {first : Char} {text rest : List Char} :
      isSpace first = true → Gap text rest → Gap (first :: text) rest

/-- The text does not begin with a blank. -/
def Solid (text : List Char) : Prop :=
  ∀ first ∈ text.head?, isSpace first = false

/-- A name would not go on with the text. -/
def EndsName (text : List Char) : Prop :=
  ∀ first ∈ text.head?, continuesName first = false

def afterBlanks (text : List Char) : List Char :=
  text.dropWhile isSpace

variable {text middle rest next : List Char} {first : Char}

@[simp] theorem solid_nil : Solid [] := nofun

@[simp] theorem solid_cons : Solid (first :: rest) ↔ isSpace first = false := by
  simp [Solid]

@[simp] theorem endsName_nil : EndsName [] := nofun

@[simp] theorem endsName_cons : EndsName (first :: rest) ↔ continuesName first = false := by
  simp [EndsName]

theorem Gap.trans (gap : Gap text middle) (further : Gap middle rest) : Gap text rest := by
  induction gap with
  | refl => exact further
  | cons space _ induction => exact .cons space (induction further)

theorem gap_space (text : List Char) : Gap (' ' :: text) text :=
  .cons rfl (.refl _)

theorem gap_afterBlanks (text : List Char) : Gap text (afterBlanks text) := by
  induction text with
  | nil => exact .refl _
  | cons first text induction =>
      rw [afterBlanks, List.dropWhile_cons]
      split
      case isTrue space => exact .cons space induction
      case isFalse => exact .refl _

theorem solid_afterBlanks (text : List Char) : Solid (afterBlanks text) := by
  intro first atHead
  have := List.head?_dropWhile_not isSpace text
  rw [Option.mem_def, afterBlanks] at atHead
  rw [atHead] at this
  simpa using this

theorem Gap.eq_of_solid (gap : Gap text rest) (solid : Solid text) : text = rest := by
  cases gap with
  | refl => rfl
  | cons space => simp [space] at solid

/-- Blanks lead to one place only that is not blank. -/
theorem Gap.of_gap (gap : Gap text rest) (further : Gap text next) (solid : Solid next) :
    Gap rest next := by
  induction gap with
  | refl => exact further
  | cons space _ induction =>
      cases further with
      | refl => simp [space] at solid
      | cons _ further => exact induction further

theorem Gap.afterBlanks_eq (gap : Gap text rest) (solid : Solid rest) : afterBlanks text = rest :=
  ((gap.of_gap (gap_afterBlanks text) (solid_afterBlanks text)).eq_of_solid solid).symm

theorem afterBlanks_of_solid (solid : Solid text) : afterBlanks text = text :=
  (Gap.refl text).afterBlanks_eq solid

theorem Gap.afterBlanks_eq_afterBlanks (gap : Gap text next) :
    afterBlanks next = afterBlanks text :=
  ((gap.trans (gap_afterBlanks next)).afterBlanks_eq (solid_afterBlanks next)).symm

theorem Solid.of_endsName_not (starts : ∀ first ∈ text.head?, continuesName first = true) :
    Solid text := by
  intro first atHead
  cases space : isSpace first with
  | false => rfl
  | true =>
      have := continuesName_eq_false_of_isSpace space
      simp [starts first atHead] at this

end Templating.Text

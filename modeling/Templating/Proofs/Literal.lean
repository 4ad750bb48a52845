import Templating.Proofs.Lexeme

/-! # Rules for literals and qualified names

Numbers, quoted texts and qualified names are told by how they begin, and each is read as far
as it goes. -/

namespace Templating.Grammar

open Text

variable {cursor later : Cursor} {text middle rest next : List Char}

/-! ## Numbers -/

/-- A point and the digits behind it. -/
def fraction : Grammar (List Char) := do
  exact ['.']
  let first ← character isDigit
  let others ← characters isDigit
  return first :: others

theorem digits_yields {first : Char} {others : List Char} {between : Cursor}
    (begun : character isDigit cursor = .matched first between)
    (goneOn : characters isDigit between = .matched others later) :
    cursor.rest = first :: others ++ later.rest ∧ isDigits (first :: others) = true ∧
      EndsDigits later.rest := by
  rcases character_eq_matched.mp begun with ⟨digit, read, _⟩
  rcases characters_yields goneOn with ⟨read', digits, ends⟩
  rw [read'] at read
  exact ⟨by simpa using read, by simp [isDigits, digit, digits], ends⟩

theorem fraction_yields {digits : List Char}
    (matched : fraction cursor = .matched digits later) :
    cursor.rest = '.' :: digits ++ later.rest ∧ isDigits digits = true ∧
      EndsDigits later.rest := by
  simp only [fraction, bind_eq_matched, pure_eq_matched] at matched
  rcases matched with ⟨_, middle, point, first, between, begun, others, last, goneOn, rfl, rfl⟩
  rcases digits_yields begun goneOn with ⟨read, digits, ends⟩
  have whole := (exact_eq_matched.mp point).1
  rw [read] at whole
  exact ⟨whole, digits, ends⟩

theorem isDigits_cons {text : List Char} (digits : isDigits text = true) :
    ∃ first others, text = first :: others ∧ isDigit first = true ∧
      others.all isDigit = true := by
  cases text with
  | nil => simp [isDigits] at digits
  | cons first others =>
      simp only [isDigits, List.isEmpty_cons, List.all_cons, Bool.not_false, Bool.true_and,
        Bool.and_eq_true] at digits
      exact ⟨first, others, rfl, digits.1, digits.2⟩

theorem digits_reads {digits : List Char} (areDigits : isDigits digits = true)
    (ends : EndsDigits rest) {next : Char → List Char → Grammar (List Char)}
    (next_eq : ∀ first others, next first others = pure (first :: others)) :
    Reads (character isDigit >>= fun first => characters isDigit >>= next first)
      (digits ++ rest) (· = digits) rest := by
  rcases isDigits_cons areDigits with ⟨first, others, rfl, digit, others_digits⟩
  apply (character_reads digit).bind
  rintro _ rfl
  apply (characters_reads others_digits ends).bind
  rintro _ rfl
  rw [next_eq]
  exact .pure rfl

theorem fraction_reads {digits : List Char} (areDigits : isDigits digits = true)
    (ends : EndsDigits rest) : Reads fraction ('.' :: digits ++ rest) (· = digits) rest := by
  apply (exact_reads ['.'] (digits ++ rest)).bind
  intro _ _
  exact digits_reads areDigits ends fun _ _ => rfl

theorem fraction_misses (ends : ∀ after, text = '.' :: after → EndsDigits after) :
    Misses fraction text := by
  by_cases point : ['.'] <+: text
  case pos =>
      rcases point with ⟨after, rfl⟩
      apply (exact_reads ['.'] after).bind_misses
      intro _ _
      exact (character_misses (ends after rfl)).bind
  case neg => exact (exact_misses point).bind

theorem endsDigits_of_noMatch {after : List Char} (missed : fraction cursor = .noMatch)
    (shape : cursor.rest = '.' :: after) : EndsDigits after := by
  rintro first atHead
  rcases after with _ | ⟨_, after⟩
  · cases atHead
  cases atHead
  rcases cursor with ⟨offset, rest⟩
  cases shape
  cases digit : isDigit first with
  | false => rfl
  | true =>
      have point : exact ['.'] ⟨offset, '.' :: first :: after⟩ =
          .matched () ⟨offset + 1, first :: after⟩ :=
        exact_eq_matched.mpr ⟨rfl, rfl⟩
      have digit' : character isDigit ⟨offset + 1, first :: after⟩ =
          .matched first ⟨offset + 2, after⟩ :=
        character_eq_matched.mpr ⟨digit, rfl, rfl⟩
      rw [fraction, bind_of_matched point, bind_of_matched digit'] at missed
      cases missed

/-- The text of a number, from its digits before the point and behind it. -/
def digitsText (first : Char) (whole : List Char) : Option (List Char) → String
  | none => String.ofList (first :: whole)
  | some digits => String.ofList (first :: whole ++ '.' :: digits)

theorem number_eq : number = (do
    let first ← character isDigit
    let whole ← characters isDigit
    let fraction ← optional fraction
    return digitsText first whole fraction) := by
  have same (first : Char) (whole : List Char) (fraction : Option (List Char)) :
      (match fraction with
        | none => pure (String.ofList (first :: whole))
        | some digits => pure (String.ofList (first :: whole ++ '.' :: digits)) : Grammar String) =
      pure (digitsText first whole fraction) := by
    cases fraction <;> rfl
  simp only [← same]
  rfl

theorem isDigits_whole_append {whole fraction : List Char} :
    isDigits (whole ++ '.' :: fraction) = false := by
  have : isDigit '.' = false := by decide
  simp [isDigits, this]

theorem number_yields {value : String} (matched : number cursor = .matched value later) :
    IsNumber value.toList ∧ cursor.rest = value.toList ++ later.rest ∧
      EndsNumber value.toList later.rest := by
  rw [number_eq] at matched
  simp only [bind_eq_matched] at matched
  rcases matched with ⟨first, between, begun, whole, middle, goneOn, digits, last, behind, matched⟩
  rcases digits_yields begun goneOn with ⟨read, areDigits, ends⟩
  rcases optional_eq_matched.mp behind with ⟨digits, rfl, found⟩ | ⟨rfl, rfl, missed⟩
  · cases matched
    rcases fraction_yields found with ⟨read', areDigits', ends'⟩
    rw [read'] at read
    simp only [digitsText, String.toList_ofList]
    refine ⟨.inr ⟨_, _, areDigits, areDigits', rfl⟩, by simpa using read, ends', ?_⟩
    intro digitsOnly
    rw [isDigits_whole_append] at digitsOnly
    cases digitsOnly
  · cases matched
    simp only [digitsText, String.toList_ofList]
    refine ⟨.inl areDigits, read, ends, ?_⟩
    intro _ after shape
    exact endsDigits_of_noMatch missed shape

theorem number_reads {value : String} (isNumber : IsNumber value.toList)
    (ends : EndsNumber value.toList rest) :
    Reads number (value.toList ++ rest) (· = value) rest := by
  rw [number_eq]
  rcases isNumber with areDigits | ⟨whole, digits, areDigits, areDigits', shape⟩
  · have endsFraction := ends.2 areDigits
    rcases isDigits_cons areDigits with ⟨first, others, shape, digit, others_digits⟩
    rw [shape]
    apply (character_reads digit).bind
    rintro _ rfl
    apply (characters_reads others_digits ends.1).bind
    rintro _ rfl
    apply (fraction_misses endsFraction).optional.bind
    rintro _ rfl
    apply Reads.pure
    rw [digitsText, ← shape, String.ofList_toList]
  · rcases isDigits_cons areDigits with ⟨first, others, rfl, digit, others_digits⟩
    have point : ∀ first ∈ ('.' :: digits ++ rest).head?, isDigit first = false := by
      rintro _ ⟨⟩
      decide
    rw [shape, List.append_assoc]
    apply (character_reads digit).bind
    rintro _ rfl
    apply (characters_reads others_digits point).bind
    rintro _ rfl
    apply (fraction_reads areDigits' ends.1).optional.bind
    rintro _ ⟨_, rfl, rfl⟩
    apply Reads.pure
    rw [digitsText, ← shape, String.ofList_toList]

theorem number_misses (refused : EndsDigits text) : Misses number text :=
  (character_misses refused).bind

/-! ## Quoted texts -/

theorem quotedBody?_eq_some {quote : Char} {body : List Char}
    (found : quotedBody? quote text = some body) :
    isBody quote body = true ∧ ∃ rest, text = body ++ quote :: rest := by
  fun_induction quotedBody? quote text generalizing body with
  | case1 => cases found
  | case2 escaped rest induction =>
      rw [Option.map_eq_some_iff] at found
      rcases found with ⟨body, found, rfl⟩
      rcases induction found with ⟨isBody, after, rfl⟩
      exact ⟨by rw [Text.isBody]; exact isBody, after, rfl⟩
  | case3 first rest _ atQuote =>
      cases found
      rw [beq_iff_eq.mp atQuote]
      exact ⟨rfl, rest, rfl⟩
  | case4 => cases found
  | case5 first rest _ notQuote notEscape induction =>
      rw [Option.map_eq_some_iff] at found
      rcases found with ⟨body, found, rfl⟩
      rcases induction found with ⟨isBody, after, rfl⟩
      refine ⟨?_, after, rfl⟩
      rw [Text.isBody]
      · simp [bne, notQuote, notEscape, isBody]
      · rintro _ _ rfl
        simp at notEscape

theorem quotedBody?_of_isBody {quote : Char} (apart : quote ≠ '\\') {body : List Char}
    (isBody : isBody quote body = true) (rest : List Char) :
    quotedBody? quote (body ++ quote :: rest) = some body := by
  fun_induction Text.isBody quote body with
  | case1 =>
      rw [List.nil_append, quotedBody?]
      · simp
      · exact fun _ _ same _ => apart same
  | case2 escaped body induction => simp [quotedBody?, induction isBody]
  | case3 first body escapes induction =>
      simp only [Bool.and_eq_true, bne_iff_ne] at isBody
      rcases isBody with ⟨⟨notQuote, notEscape⟩, isBody⟩
      rw [List.cons_append, quotedBody?]
      · simp [notQuote, notEscape, induction isBody]
      · exact fun _ _ same _ => notEscape same

/-- What stands before the first quote. -/
def body (quote : Char) : Grammar (List Char) := fun cursor =>
  match quotedBody? quote cursor.rest with
  | some body => .matched body (cursor.advance body.length)
  | none => .noMatch

theorem between_eq (quote : Char) : between quote = (do
    exact [quote]
    let body ← body quote
    exact [quote]
    return String.ofList body) := rfl

theorem body_yields {quote : Char} {value : List Char}
    (matched : body quote cursor = .matched value later) :
    isBody quote value = true ∧ cursor.rest = value ++ later.rest := by
  unfold body at matched
  split at matched
  case h_1 value found =>
      cases matched
      rcases quotedBody?_eq_some found with ⟨isBody, rest, shape⟩
      exact ⟨isBody, by simp [Cursor.advance, shape]⟩
  case h_2 => cases matched

theorem body_reads {quote : Char} (apart : quote ≠ '\\') {value : List Char}
    (isBody : isBody quote value = true) (rest : List Char) :
    Reads (body quote) (value ++ quote :: rest) (· = value) (quote :: rest) := by
  intro offset
  refine ⟨value, offset + value.length, ?_, rfl⟩
  simp [body, quotedBody?_of_isBody apart isBody, Cursor.advance]

theorem between_yields {quote : Char} {value : String}
    (matched : between quote cursor = .matched value later) :
    isBody quote value.toList = true ∧
      cursor.rest = quote :: (value.toList ++ [quote]) ++ later.rest := by
  simp only [between_eq, bind_eq_matched, pure_eq_matched] at matched
  rcases matched with ⟨_, opened, opening, value, closed, read, _, _, closing, rfl, rfl⟩
  rcases body_yields read with ⟨isBody, shape⟩
  rw [String.toList_ofList]
  refine ⟨isBody, ?_⟩
  rw [(exact_eq_matched.mp opening).1, shape, (exact_eq_matched.mp closing).1]
  simp

theorem between_reads {quote : Char} (apart : quote ≠ '\\') {value : String}
    (isBody : isBody quote value.toList = true) (rest : List Char) :
    Reads (between quote) (quote :: (value.toList ++ [quote]) ++ rest) (· = value) rest := by
  have shape : quote :: (value.toList ++ [quote]) ++ rest =
      [quote] ++ (value.toList ++ quote :: rest) := by
    simp
  rw [shape, between_eq]
  apply (exact_reads _ _).bind
  intro _ _
  apply (body_reads apart isBody rest).bind
  rintro _ rfl
  apply (exact_reads [quote] rest).bind
  intro _ _
  exact .pure (String.ofList_toList)

theorem between_misses {quote : Char} (apart : quote ∉ text.head?) :
    Misses (between quote) text := by
  apply Misses.bind
  apply exact_misses
  rintro ⟨rest, rfl⟩
  simp at apart

/-! ## Literals -/

/-- The rule for the literals of a kind. -/
def literal : LiteralKind → Grammar String
  | .boolean => boolean
  | .number => number
  | .string => string
  | .character => characterText

theorem literal_yields {kind : LiteralKind} {value : String}
    (matched : literal kind cursor = .matched value later) :
    kind.Lexical value ∧ kind.LiteralAt value cursor.rest later.rest := by
  cases kind with
  | boolean =>
      rcases orElse_eq_matched.mp matched with matched | ⟨_, matched⟩
      · rcases word_yields matched with ⟨rfl, spelled⟩
        exact ⟨.inl rfl, spelled⟩
      · rcases word_yields matched with ⟨rfl, spelled⟩
        exact ⟨.inr rfl, spelled⟩
  | number =>
      rcases number_yields matched with ⟨lexical, read, ends⟩
      exact ⟨lexical, read, ends⟩
  | string =>
      rcases between_yields matched with ⟨lexical, read⟩
      exact ⟨lexical, read, trivial⟩
  | character =>
      rcases between_yields matched with ⟨lexical, read⟩
      exact ⟨lexical, read, trivial⟩

theorem literal_reads {kind : LiteralKind} {value : String} (lexical : kind.Lexical value)
    (spelled : kind.LiteralAt value text rest) :
    Reads (literal kind) text (· = value) rest := by
  cases kind with
  | boolean =>
      rcases lexical with rfl | rfl
      · exact (word_reads spelled).orElse
      · exact (word_reads spelled).orElse_of_misses (word_misses
          (WordAt.not_wordAt (by decide) (by decide) (by decide) spelled))
  | number =>
      rcases spelled with ⟨rfl, ends⟩
      exact number_reads lexical ends
  | string =>
      rcases spelled with ⟨rfl, _⟩
      exact between_reads (by decide) lexical rest
  | character =>
      rcases spelled with ⟨rfl, _⟩
      exact between_reads (by decide) lexical rest

end Templating.Grammar

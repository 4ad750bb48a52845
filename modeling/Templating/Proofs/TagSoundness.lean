import Templating.Proofs.ConditionGrammar
import Templating.Proofs.PatternSoundness
import Templating.Proofs.Regular
import Templating.Proofs.ScopeProgress
import Templating.Proofs.StatementLocality

/-! # What is read in tags

Whatever stands in the tags of a template that has been read, and in the runs of characters between
them, is regular: it can be read again wherever it stands in front of the end of a tag. -/

namespace Templating.Grammar

variable {room : Room}

open Text Templating.Expr

variable {α β : Type} {cursor middle later : Cursor} {text rest : List Char}

/-! ## Expressions and patterns -/

theorem expression_regular {value : Expr} (matched : expression cursor = .matched value later) :
    value.Regular := by
  rcases expressionWithin_sound bracketLimit matched with ⟨_, wellFormed, nesting⟩
  exact ⟨wellFormed, nesting⟩

theorem pattern_regular {value : Pattern} (matched : pattern cursor = .matched value later) :
    value.Regular := by
  rcases patternWithin_sound bracketLimit matched with ⟨start, last, _, spelled, _⟩
  exact ⟨start, last, spelled⟩

theorem arguments_regular {values : List Expr} (matched : arguments cursor = .matched values later) :
    ∀ value ∈ values, value.Regular := by
  rcases argumentsOf_sound (expressionWithin_sound bracketLimit) matched with
    ⟨_, _, _, _, ⟨_, wellFormed, nesting⟩, _⟩
  exact fun value among => ⟨wellFormed value among, nestingAll_le_iff.mp nesting value among⟩

/-! ## Ends of tags -/

theorem edge_yields {trim : Option Trim} (matched : edge cursor = .matched trim later) :
    cursor.rest = (trim.map Trim.mark).toList ++ later.rest := by
  rcases optional_eq_matched.mp matched with ⟨_, rfl, read⟩ | ⟨rfl, rfl, _⟩
  · unfold marker at read
    split at read
    case h_1 first rest shape =>
        cases marked : Trim.ofMark? first with
        | none =>
            rw [marked] at read
            cases read
        | some trim =>
            rw [marked] at read
            cases read
            rw [Trim.ofMark?_eq_some_iff.mp marked] at shape
            simp [Cursor.advance, shape]
    case h_2 => cases read
  · rfl

theorem endsTag_of_tagRest {right : Option Trim}
    (matched : tagRest .standard cursor = .matched right later) : EndsTag cursor.rest := by
  simp only [tagRest, tagEnd, bind_eq_matched, expect_eq_matched, pure_eq_matched] at matched
  rcases matched with ⟨trim, middle, edge, _, behind, delimiter, _, _⟩
  refine .inr ⟨trim, "%\x7d", behind.rest, by decide, ?_⟩
  rw [edge_yields edge, (exact_eq_matched.mp delimiter).1, List.append_assoc]
  rfl

/-- What is read as a condition without a pattern is not taken for a binding at the end of its
tag. -/
theorem condition_regular {value : Condition} {right : Option Trim}
    (matched : condition cursor = .matched value middle)
    (ended : tagRest .standard middle = .matched right later) : value.Regular := by
  rw [condition_eq] at matched
  simp only [bind_eq_matched, here_eq_matched, expect_eq_matched, pure_eq_matched] at matched
  rcases matched with ⟨_, _, ⟨rfl, rfl⟩, pattern, between, attempted, expression, _, read, rfl, rfl⟩
  have regular := expression_regular read
  rcases optional_eq_matched.mp attempted with ⟨found, rfl, bound_read⟩ | ⟨rfl, same, missed⟩
  · simp only [binding, bound, bind_eq_matched, pure_eq_matched] at bound_read
    rcases bound_read with ⟨_, _, _, _, _, patternRead, _, _, _, rfl, rfl⟩
    exact ⟨pattern_regular patternRead, regular⟩
  · subst same
    have comes := binding_comes regular.wellFormed regular.nesting
      (expressionWithin_sound bracketLimit read).1 (endsTag_of_tagRest ended)
    refine ⟨regular, fun fatal => ?_, fun compared => ?_⟩
    · rw [fatal] at comes
      rcases comes with ⟨_, reads, fails⟩
      have fails : Fails binding between.rest := reads.bind_fails fun _ _ => fails.bind
      rcases fails between.offset with ⟨_, _, failed, _⟩
      rw [show binding between = _ from failed] at missed
      cases missed
    · rw [compared] at comes
      rcases comes with ⟨_, reads, _, bound⟩
      have reads : Reads binding between.rest _ _ := reads.bind fun _ _ => bound
      exact reads.ne_noMatch missed

/-! ## The guards of loops

Behind a range without an end no name stands: it would be read as that end. -/

/-- The rule does not pass over what stands here. -/
def Answers (rule : Grammar α) (text : List Char) : Prop :=
  ∀ offset, rule ⟨offset, text⟩ ≠ .noMatch

section

variable {rule : Grammar α} {next : α → Grammar β} {inner : Grammar Expr} {label : String}

theorem Answers.bind (answers : Answers rule text) [∀ value, Certain (next value)] :
    Answers (rule >>= next) text := by
  intro offset missed
  rcases bind_eq_noMatch.mp missed with missed | ⟨_, middle, _, missed⟩
  · exact answers offset missed
  · exact Certain.ne_noMatch middle missed

theorem Reads.bind_answers {accept : α → Prop} (reads : Reads rule text accept rest)
    (answers : ∀ value, accept value → Answers (next value) rest) : Answers (rule >>= next) text := by
  intro offset
  rcases reads offset with ⟨value, offset', matched, accepted⟩
  rw [bind_of_matched matched]
  exact answers value accepted offset'

theorem primaryOf_answers (named : NameAt label text rest) : Answers (primaryOf inner) text := by
  apply Reads.here.bind_answers
  intro start _ offset missed
  simp only [orElse_eq_noMatch] at missed
  have found : name ⟨offset, text⟩ ≠ .noMatch := (name_reads named).ne_noMatch
  exact found (noMatch_of_bind_pure missed.2.2.2.2.2.2.1)

theorem filteredOf_answers (named : NameAt label text rest) : Answers (filteredOf inner) text := by
  apply (nextOffset_reads text).bind_answers
  intro start _
  have begun : Answers (postfixOf inner) text := by
    apply (spaces_reads (.refl _) named.solid).bind_answers
    intro _ _
    apply Reads.here.bind_answers
    intro start _
    exact (primaryOf_answers named).bind
  exact begun.bind

theorem unaryOf_answers (named : NameAt label (afterBlanks text) rest) :
    Answers (unaryOf inner) text := by
  rw [unaryOf_eq]
  apply (spaces_reads (gap_afterBlanks text) (solid_afterBlanks text)).bind_answers
  intro _ _
  apply Reads.here.bind_answers
  intro start _
  have unmarked : Misses unaryMark (afterBlanks text) := by
    rcases unaryMark_reads_or_misses (afterBlanks text) with ⟨op, behind, shape, _⟩ | ⟨_, _, misses⟩
    · rcases named.head? with ⟨first, atHead, starts⟩
      rw [shape] at atHead
      cases op <;> cases atHead <;> cases starts
    · exact misses
  apply unmarked.optional.bind_answers
  rintro _ rfl
  exact (filteredOf_answers named).bind

theorem operationOf_answers (named : NameAt label (afterBlanks text) rest) :
    Answers (operationOf inner) text := by
  have layers (layers : List (List BinaryOp)) : Answers (binaryOf (unaryOf inner) layers) text := by
    induction layers with
    | nil => exact unaryOf_answers named
    | cons operators tighter induction =>
        apply (nextOffset_reads text).bind_answers
        intro start _
        exact induction.bind
  exact layers BinaryOp.layers

/-- If a name stands behind an expression, it is no range without an end. -/
theorem rank_pos_of_name {value : Expr} (matched : expression cursor = .matched value later)
    (named : NameAt label (afterBlanks later.rest) rest) : 0 < value.rank := by
  change expressionOf (expressionWithin Room.brackets) cursor = _ at matched
  simp only [expressionOf, bind_eq_matched, here_eq_matched] at matched
  rcases matched with ⟨_, _, _, _, _, ⟨rfl, rfl⟩, left, _, leftRead, kind, marked, markRead, matched⟩
  cases kind with
  | none =>
      cases left with
      | none => cases matched
      | some left =>
          simp only [bind_eq_matched, pure_eq_matched] at matched
          rcases matched with ⟨_, _, _, rfl, rfl⟩
          rcases optional_eq_matched.mp leftRead with ⟨_, ⟨⟩, read⟩ | ⟨⟨⟩, _⟩
          rcases operationOf_sound (expressionWithin_sound Room.brackets) read with ⟨_, _, read⟩
          exact Nat.lt_of_lt_of_le (by decide) read.rank
  | some kind =>
      simp only [bind_eq_matched, pure_eq_matched] at matched
      rcases matched with ⟨right, stopped, rightRead, _, _, blanks, rfl, rfl⟩
      rcases optional_eq_matched.mp rightRead with ⟨_, rfl, _⟩ | ⟨rfl, rfl, missed⟩
      · exact Nat.one_pos
      · rcases spaces_yields blanks with ⟨gap, solid⟩
        rw [afterBlanks_of_solid solid, ← gap.afterBlanks_eq solid] at named
        exact absurd missed (operationOf_answers named _)

theorem rank_pos_of_keyword {value : Expr} {word found : String}
    (matched : expression cursor = .matched value middle)
    (read : keyword word middle = .matched found later) (isName : isName word.toList = true) :
    0 < value.rank := by
  rcases keyword_yields read with ⟨_, start, stop, gap, written, _⟩
  have named : NameAt word start stop := ⟨isName, written⟩
  rw [← gap.afterBlanks_eq named.solid] at named
  exact rank_pos_of_name matched named

end

/-! ## Names and strings -/

theorem nameToken_isName {name : String} (matched : nameToken cursor = .matched name later) :
    isName name.toList = true := by
  rcases nameToken_yields matched with ⟨_, _, _, named, _⟩
  exact named.1

theorem parameters_areNames {names : List String}
    (matched : parameters cursor = .matched names later) :
    ∀ name ∈ names, isName name.toList = true := by
  simp only [parameters, bind_eq_matched, orElse_eq_matched, expect_eq_matched,
    pure_eq_matched] at matched
  rcases matched with ⟨_, _, _, ⟨_, _, _, rfl, rfl⟩ | ⟨_, first, _, read, others, _, repeated, _, _,
    _, rfl, rfl⟩⟩
  · exact List.forall_mem_nil _
  · refine List.forall_mem_cons.mpr ⟨nameToken_isName read,
      (repeated_of_many repeated).forall_mem fun matched => ?_⟩
    simp only [bind_eq_matched, expect_eq_matched] at matched
    rcases matched with ⟨_, _, _, read⟩
    exact nameToken_isName read

theorem stringToken_isBody {value : String} (matched : stringToken cursor = .matched value later) :
    isBody '"' value.toList = true := by
  rcases spaced_yields matched with ⟨_, _, _, _, read, _⟩
  exact (between_yields read).1

/-! ## Runs of characters -/

/-- A run that has ended in front of a tag ends in front of any other. -/
theorem runsTo_of_text {run : List Char} {last : Bool}
    (read : upTo (opensTag .standard) cursor = .matched run later)
    (ends : EndsText .standard last later.rest) :
    (Passage.ofChars run).RunsTo (opensTag .standard) (EndsText .standard last) := by
  rcases upTo_eq_matched.mp read with ⟨_, _, _, within⟩
  refine ⟨run, rfl, fun rest ends' => ?_⟩
  cases last with
  | true =>
      rw [show later.rest = [] from ends] at within
      rw [show rest = [] from ends']
      exact untilText_append (.inl rfl) within
  | false =>
      refine untilText_append (.inr ends') fun first others suffix => ?_
      have apart := within first others suffix
      cases others with
      | nil =>
          -- A single brace in front of a tag would open another one.
          have opens : ∀ {text}, opensTag .standard text = true → ∃ more, text = '\x7b' :: more := by
            intro text opens
            simp only [opensTag, List.any_eq_true] at opens
            rcases opens with ⟨delimiter, among, starts⟩
            rcases List.isPrefixOf_iff_prefix.mp starts with ⟨more, rfl⟩
            simp only [Dialect.starts, List.mem_cons, List.not_mem_nil, or_false] at among
            rcases among with rfl | rfl | rfl <;> exact ⟨_, rfl⟩
          rcases opens ends with ⟨more, shape⟩
          cases same : opensTag .standard (first :: rest) with
          | false => exact same
          | true =>
              rcases opens same with ⟨_, ⟨⟩⟩
              rw [shape] at apart
              cases apart
      | cons second others =>
          have two : 2 ≤ (first :: second :: others).length := by simp
          rw [← List.cons_append, opensTag_append _ two] at apart ⊢
          exact apart

theorem blockStart_of_matchesAt {dialect : Dialect}
    (ends : matchesAt (rawEnd dialect) text = true) : dialect.blockStart.chars <+: text := by
  unfold matchesAt at ends
  split at ends
  case h_1 matched =>
      rcases bind_eq_matched.mp matched with ⟨_, behind, opening, _⟩
      exact ⟨behind.rest, (exact_eq_matched.mp opening).1.symm⟩
  case h_2 => cases ends

/-- Raw text that has ended in front of a tag ends in front of any other that can close it. -/
theorem runsTo_of_raw {run : List Char}
    (read : upTo (matchesAt (rawEnd .standard)) cursor = .matched run later)
    (ends : matchesAt (rawEnd .standard) later.rest = true) :
    (Passage.ofChars run).RunsTo (matchesAt (rawEnd .standard))
      (matchesAt (rawEnd .standard) · = true) := by
  rcases upTo_eq_matched.mp read with ⟨_, _, _, within⟩
  refine ⟨run, rfl, fun rest ends' => untilText_append (.inr ends') fun first others suffix => ?_⟩
  have same (more : List Char) :
      matchesAt (rawEnd .standard) (first :: (others ++ (Dialect.standard.blockStart.chars ++ more))) =
        matchesAt (rawEnd .standard) (first :: (others ++ Dialect.standard.blockStart.chars)) := by
    rw [← List.append_assoc, ← List.cons_append]
    exact matchesAt_append (rawEnd_extended rfl (List.prefix_refl _) more)
  rcases blockStart_of_matchesAt ends with ⟨more, shape⟩
  rcases blockStart_of_matchesAt ends' with ⟨more', rfl⟩
  have apart := within first others suffix
  rw [← shape, same more] at apart
  rw [same more', apart]

end Templating.Grammar

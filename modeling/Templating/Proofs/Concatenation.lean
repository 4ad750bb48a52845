import Templating.Proofs.BodyLocality
import Templating.Statement.Document

/-! # Sources behind one another

A template that is put behind another one is read as it is by itself, unless the text that ends
the first and the beginning of the second are read together. -/

namespace Templating

variable {room : Room}

namespace Template

/-- The text that the body of the template ends with, and where it begins. -/
def finalText? (template : Template) : Option (Nat × Passage) :=
  match template.body.getLast? with
  | some (.text offset passage) => some (offset, passage)
  | _ => none

/-- A second source may stand behind the one of a template: what the template ends with is no
text, or there is nothing behind it, or what stands there begins with an opening delimiter while
none begins inside the text. -/
def Joins (template : Template) (first second : List Char) : Prop :=
  ∀ final ∈ template.finalText?, second = [] ∨ Grammar.opensTag .standard second = true ∧
    ∀ place < final.2.text.length,
      Grammar.opensTag .standard ((first ++ second).drop (final.1 + place)) = false

instance (template : Template) (first second : List Char) :
    Decidable (template.Joins first second) :=
  inferInstanceAs (Decidable (∀ final ∈ template.finalText?, _))

end Template

namespace Scoped

open Grammar

/-- A node of the outermost body. -/
def outermost [Room] (dialect : Dialect) : Grammar Node :=
  node dialect false fun part => nodesWithin dialect .zero dialect.maxDepth [part, .template]

theorem document_eq : document .standard = (do
    let body ← many (outermost .standard)
    endOfSource .standard
    return body) := by
  rfl

instance (dialect : Dialect) : Consuming (outermost dialect) :=
  inferInstanceAs (Consuming (node _ _ _))

/-- A second text may stand behind what is left of a first one: it begins with an opening delimiter,
if it is not empty, and in what is left of the first none begins that did not before. -/
def Follows (second rest : List Char) : Prop :=
  second = [] ∨ opensTag .standard second = true ∧
    ∀ place < rest.length, opensTag .standard (rest.drop place) = false →
      opensTag .standard ((rest ++ second).drop place) = false

section

variable (inLoop : Bool) {bodies : Part → Grammar (List Node)}

/-- No node is empty. -/
theorem node_nil (offset : Nat) : node .standard inLoop bodies ⟨offset, []⟩ = .noMatch := by
  rfl

variable [∀ part, Certain (bodies part)] [∀ part, Advancing (bodies part)]
  (persists : ∀ part, PersistsBody (bodies part))

include persists

/-- The last node of a source is read if another source is put behind it. -/
theorem node_joins {cursor : Cursor} {last : Node} {offset : Nat} {second : List Char}
    (matched : node .standard inLoop bodies cursor = .matched last ⟨offset, []⟩)
    (follows : ∀ start passage, last = .text start passage → start = cursor.offset →
      passage.text.length = cursor.rest.length → Follows second cursor.rest) :
    node .standard inLoop bodies (cursor.extended second) = .matched last ⟨offset, second⟩ := by
  rcases orElse_eq_matched.mp matched with read | ⟨missed, read⟩
  · rcases text_eq_matched.mp read with ⟨run, nonempty, rfl, reached⟩
    rcases upTo_eq_matched.mp reached with ⟨shape, moved, _, within⟩
    simp only [List.append_nil] at shape within
    have follows := follows _ _ rfl rfl (by simp [Passage.text_ofChars, shape])
    apply orElse_of_matched
    refine text_eq_matched.mpr ⟨run, nonempty, rfl, upTo_eq_matched.mpr ⟨?_, moved, ?_, ?_⟩⟩
    · exact congrArg (· ++ second) shape
    · exact follows.imp id And.left
    · intro first others suffix
      rcases follows with rfl | ⟨_, apart⟩
      · rw [List.append_nil]
        exact within first others suffix
      · rcases suffix with ⟨front, front_eq⟩
        have stands : cursor.rest.drop front.length = first :: others := by
          rw [shape, ← front_eq, List.drop_left]
        have plain := apart front.length (by rw [shape, ← front_eq]; simp)
          (stands ▸ within first others ⟨front, front_eq⟩)
        rw [shape, ← front_eq, List.append_assoc, List.drop_left] at plain
        exact plain
  · have persists : Persists (2 ≤ ·.length) (fun _ => True) (delimited .standard inLoop bodies) :=
      delimited_persists inLoop persists
    rcases persists read trivial with ⟨enough, same⟩
    refine (orElse_of_noMatch (text_refuses missed ?_ second)).trans (same second)
    exact List.ne_nil_of_length_pos (Nat.lt_of_lt_of_le Nat.zero_lt_two enough)

/-- What the body of a source is made of stands there also if another source is put behind it. -/
theorem repeated_joins {first second : List Char} {body : List Node} {offset : Nat}
    (repeated : Repeated (node .standard inLoop bodies) ⟨0, first⟩ body ⟨offset, []⟩)
    (follows : ∀ consumed rest passage, first = consumed ++ rest →
      Template.finalText? { body } = some (consumed.length, passage) →
      passage.text.length = rest.length → Follows second rest) :
    Repeated (node .standard inLoop bodies) ⟨0, first ++ second⟩ body ⟨offset, second⟩ := by
  rcases List.eq_nil_or_concat body with rfl | ⟨front, last, rfl⟩
  · cases repeated
    exact .nil _
  · rw [List.concat_eq_append] at repeated follows ⊢
    rcases repeated_append.mp repeated with ⟨⟨start, rest⟩, front_read, last_read⟩
    rcases last_read with _ | ⟨last_read, ended⟩
    cases ended
    have shorter := (Consuming.passes last_read).2
    have front_read' := ((node_persists inLoop persists).repeated front_read
      (List.ne_nil_of_length_pos (Nat.lt_of_le_of_lt (Nat.zero_le _) shorter))).2 second
    refine repeated_append.mpr
      ⟨_, front_read', .cons (node_joins inLoop persists last_read ?_) (.nil _)⟩
    rintro begun passage rfl here long
    rcases front_read.reaches with ⟨consumed, shape, moved⟩
    obtain rfl : begun = consumed.length := here.trans (moved.trans (Nat.zero_add _))
    exact follows consumed rest passage shape (by simp [Template.finalText?]) long

end

theorem follows_of_joins {body : List Node} {first second consumed rest : List Char}
    {passage : Passage} (joins : Template.Joins { body } first second)
    (shape : first = consumed ++ rest)
    (final : Template.finalText? { body } = some (consumed.length, passage))
    (long : passage.text.length = rest.length) : Follows second rest := by
  refine (joins _ final).imp id (And.imp_right fun apart place inside _ => ?_)
  have plain := apart place (long ▸ inside)
  rw [shape, List.append_assoc, List.drop_length_add_append] at plain
  exact plain

theorem document_append {first second : List Char} {body : List Node} {later : Cursor}
    (matched : document .standard ⟨0, first⟩ = .matched body later)
    (joins : Template.Joins { body } first second) :
    document .standard ⟨0, first ++ second⟩ =
      (document .standard >>= fun other => pure (body ++ other)) ⟨first.length, second⟩ := by
  have read := matched
  rw [document_eq] at read
  simp only [bind_eq_matched, Parser.endOfSource_eq_matched, pure_eq_matched] at read
  rcases read with ⟨body, ⟨offset, rest⟩, read, _, _, ⟨ended, rfl⟩, rfl, rfl⟩
  obtain rfl : rest = [] := List.isEmpty_iff.mp ended
  have repeated := repeated_of_many read
  rcases repeated.reaches with ⟨consumed, shape, moved⟩
  obtain rfl : offset = first.length := by
    dsimp only at shape moved
    rw [moved, shape, List.append_nil, Nat.zero_add]
  have repeated' : Repeated (outermost .standard) ⟨0, first ++ second⟩ body ⟨first.length, second⟩ :=
    repeated_joins false
      (fun part => nodesWithin_persists .zero Dialect.standard.maxDepth [part, .template])
      repeated fun _ _ _ => follows_of_joins joins
  have goesOn : many (outermost .standard) ⟨0, first ++ second⟩ =
      (many (outermost .standard) >>= fun others => pure (body ++ others)) ⟨first.length, second⟩ :=
    many_of_repeated_append (node_nil false) repeated'
  rw [document_eq, bind_apply, goesOn, ← bind_apply]
  simp only [bind_assoc, pure_bind]

end Scoped

namespace Template

/-- Behind the source of a template a second source is what it is by itself, with every offset
greater by the length of the first: its nodes follow those of the template if it is one, and
otherwise the parse ends with its problem. No tag depends on what stands before it or behind its
closing delimiter. -/
theorem parse_append {first second : Source} {template : Template}
    (parsed : parse .standard first = .ok template)
    (joins : template.Joins first.chars second.chars) (name filename : Option String) :
    parse .standard ⟨first.text ++ second.text, name, filename⟩ =
      match parse .standard second with
      | .ok other =>
          .ok { body := template.body ++ other.body.map (Node.moved first.chars.length), name }
      | .error failure => .error (failure.moved first.chars.length) := by
  rw [parse_eq_scoped] at parsed
  cases run : Scoped.document .standard (.start first.chars) with
  | noMatch => simp [run] at parsed
  | failed failure => simp [run] at parsed
  | matched body later =>
      simp only [run, Except.ok.injEq] at parsed
      subst parsed
      have chars : Source.chars ⟨first.text ++ second.text, name, filename⟩ =
          first.chars ++ second.chars := String.toList_append
      have moved : Scoped.document .standard ⟨first.chars.length, second.chars⟩ =
          (Scoped.document .standard (.start second.chars)).moved _ first.chars.length :=
        Scoped.document_moves .standard (.start second.chars)
      rw [parse_eq_scoped, parse_eq_scoped, chars, Cursor.start,
        Scoped.document_append run joins, Grammar.bind_apply, moved]
      cases run' : Scoped.document .standard (.start second.chars) with
      | matched other later' => rfl
      | noMatch => exact absurd run' (Grammar.Certain.ne_noMatch _)
      | failed failure => rfl

/-- Behind text that holds no brace an output may stand. -/
theorem parse_append_output :
    let _ : Room := ⟨20⟩
    ∃ template, parse .standard ⟨"\x7b\x7b x \x7d\x7d a", none, none⟩ = .ok template ∧
      template.Joins (Source.chars ⟨"\x7b\x7b x \x7d\x7d a", none, none⟩)
        (Source.chars ⟨"\x7b\x7b y \x7d\x7d", none, none⟩) ∧
      parse .standard ⟨"\x7b\x7b x \x7d\x7d a" ++ "\x7b\x7b y \x7d\x7d", none, none⟩ =
        match parse .standard ⟨"\x7b\x7b y \x7d\x7d", none, none⟩ with
        | .ok other => .ok { body := template.body ++ other.body.map (Node.moved 9), name := none }
        | .error failure => .error (failure.moved 9) := by
  intro room
  have joined : (parse .standard ⟨"\x7b\x7b x \x7d\x7d a", none, none⟩).toOption.any
      (fun template => decide (template.Joins
        (Source.chars ⟨"\x7b\x7b x \x7d\x7d a", none, none⟩)
        (Source.chars ⟨"\x7b\x7b y \x7d\x7d", none, none⟩))) = true := by
    decide +kernel
  cases parsed : parse .standard ⟨"\x7b\x7b x \x7d\x7d a", none, none⟩ with
  | error failure =>
      rw [parsed] at joined
      cases joined
  | ok template =>
      rw [parsed] at joined
      have joins := of_decide_eq_true joined
      exact ⟨template, rfl, joins, parse_append parsed joins none none⟩

end Template

end Templating

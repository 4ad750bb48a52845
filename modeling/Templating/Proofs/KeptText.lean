import Templating.Proofs.Tiling

/-! # No text is lost

A template keeps the literal text of its source: each of its texts stands in the source where the
tree says, as far as the next opening delimiter, the nodes of every body lie side by side, and every
character belongs to one text or to one piece of what is written around texts, and to nothing
else. -/

namespace Templating

variable {room : Room}

variable {dialect : Dialect} {source : List Char} {stretch : Stretch} {node next : Node}
  {nodes : List Node} {cursor middle later : Cursor}

/-! ## Adjacent nodes -/

/-- No two texts stand next to each other. -/
def Node.Apart (nodes : List Node) : Prop :=
  nodes.IsChain fun first second => ¬(first.isText = true ∧ second.isText = true)

theorem Node.Written.isText_eq_false {keyword : Keyword} {bodies : List (List Node)}
    (written : node.Written keyword bodies) : node.isText = false := by
  cases written <;> rfl

theorem Laid.text_of_isText (laid : Laid dialect (.node node) cursor later)
    (isText : node.isText = true) : Grammar.text dialect cursor = .matched node later := by
  cases laid with
  | text read => exact read
  | leaf leaf =>
      rw [leaf.isLeaf.1] at isText
      cases isText
  | construct written =>
      rw [written.isText_eq_false] at isText
      cases isText
  | choice => cases isText

/-- Behind a text stands an opening delimiter or nothing, and no text begins there. -/
theorem Laid.not_both_text (first : Laid dialect (.node node) cursor middle)
    (second : Laid dialect (.node next) middle later) :
    ¬(node.isText = true ∧ next.isText = true) := by
  intro both
  rcases Grammar.text_eq_matched.mp (first.text_of_isText both.1) with ⟨_, _, _, read⟩
  have ended := (Grammar.upTo_eq_matched.mp read).2.2.1
  have missed := Grammar.text_eq_noMatch.mpr ended
  rw [second.text_of_isText both.2] at missed
  cases missed

theorem Laid.apart (laid : Laid dialect (.body nodes) cursor later) : Node.Apart nodes := by
  generalize shape : Stretch.body nodes = stretch at laid
  induction laid generalizing nodes with
  | nil =>
      cases shape
      exact .nil
  | cons _ first others _ induction =>
      cases shape
      have rest := induction rfl
      cases others with
      | nil => exact .singleton _
      | cons _ second _ => exact .cons_cons (first.not_both_text second) rest
  | _ => cases shape

/-! ## Bodies inside bodies -/

theorem Laid.reaches (laid : Laid dialect stretch cursor later) : cursor.Reaches later := by
  induction laid with
  | text read => exact Grammar.Advancing.reaches read
  | leaf leaf => exact leaf.reaches
  | construct _ opening _ _ body rest => exact opening.reaches.trans (body.trans rest)
  | choice opening skipped _ rest =>
      exact opening.reaches.trans ((Grammar.Advancing.reaches skipped).trans rest)
  | nil cursor => exact .refl cursor
  | cons _ _ _ first rest => exact first.trans rest
  | closing following => exact following.reaches
  | further following _ _ body rest => exact following.reaches.trans (body.trans rest)

/-- The body is laid out somewhere between the two cursors. -/
def LaidWithin [Room] (dialect : Dialect) (cursor later : Cursor) (nodes : List Node) : Prop :=
  ∃ first second, cursor.Reaches first ∧ Laid dialect (.body nodes) first second ∧
    second.Reaches later

theorem LaidWithin.mono {cursor' later' : Cursor} (laid : LaidWithin dialect cursor later nodes)
    (before : cursor'.Reaches cursor) (behind : later.Reaches later') :
    LaidWithin dialect cursor' later' nodes := by
  rcases laid with ⟨first, second, reached, laid, reaches⟩
  exact ⟨first, second, before.trans reached, laid, reaches.trans behind⟩

/-- The bodies of a stretch, those that its nodes hold included. -/
def Stretch.bodies : Stretch → List (List Node)
  | .node inner => Node.bodiesWithin [inner]
  | .body nodes => nodes :: Node.bodiesWithin nodes
  | .sections bodies => bodies ++ Node.bodiesWithin bodies.flatten

namespace Node

theorem Written.flatten_eq {keyword : Keyword} {bodies : List (List Node)}
    (written : node.Written keyword bodies) : node.bodies.flatten = bodies.flatten := by
  cases written <;> simp [Node.bodies]

end Node

namespace Stretch

variable {bodies : List (List Node)} {inner : List Node}

theorem mem_bodies_sections_cons :
    inner ∈ (sections (nodes :: bodies)).bodies ↔
      inner ∈ (body nodes).bodies ∨ inner ∈ (sections bodies).bodies := by
  simp only [Stretch.bodies, List.flatten_cons, Node.bodiesWithin_append, List.mem_append,
    List.mem_cons]
  tauto

theorem mem_bodies_body_cons :
    inner ∈ (body (node :: nodes)).bodies ↔
      inner = node :: nodes ∨ inner ∈ (Stretch.node node).bodies ∨
        inner ∈ Node.bodiesWithin nodes := by
  have split := Node.bodiesWithin_append [node] nodes
  rw [List.singleton_append] at split
  simp only [Stretch.bodies, split, List.mem_append, List.mem_cons]

/-- But for an empty one, the tree holds the bodies that are written. -/
theorem mem_bodies_of_written {keyword : Keyword} (written : node.Written keyword bodies)
    (among : inner ∈ (Stretch.node node).bodies) : inner ∈ (sections bodies).bodies ∨ inner = [] := by
  rw [Stretch.bodies, Node.bodiesWithin_singleton, written.flatten_eq] at among
  cases written with
  | loop =>
      rcases List.mem_append.mp among with among | among
      · rcases List.mem_cons.mp among with rfl | among
        · exact .inl List.mem_cons_self
        · exact .inr (List.mem_singleton.mp among)
      · exact .inl (List.mem_append_right _ among)
  | _ => exact .inl among

end Stretch

/-- Whatever bodies there are in a stretch are laid out in it. -/
theorem Laid.laidWithin (laid : Laid dialect stretch cursor later) :
    ∀ nodes ∈ stretch.bodies, LaidWithin dialect cursor later nodes := by
  induction laid with
  | text read =>
      rcases Grammar.text_eq_matched.mp read with ⟨_, _, rfl, _⟩
      simp [Stretch.bodies, Node.bodiesWithin_singleton, Node.bodies]
  | leaf leaf =>
      simp [Stretch.bodies, Node.bodiesWithin_singleton, leaf.isLeaf.2]
  | construct written opening body sections inside rest =>
      intro inner among
      rcases Stretch.mem_bodies_of_written written among with among | rfl
      · rcases Stretch.mem_bodies_sections_cons.mp among with among | among
        · exact (inside inner among).mono opening.reaches sections.reaches
        · exact (rest inner among).mono (opening.reaches.trans body.reaches) (.refl _)
      · exact ⟨_, _, opening.reaches, .nil _, body.reaches.trans sections.reaches⟩
  | choice opening skipped sections rest =>
      intro inner among
      have among : inner ∈ Stretch.bodies (.sections _) :=
        (Node.bodiesWithin_singleton_perm (Node.bodies_choice_perm ..)).mem_iff.mp among
      exact (rest inner among).mono
        (opening.reaches.trans (Grammar.Advancing.reaches skipped)) (.refl _)
  | nil cursor =>
      intro inner among
      rw [Stretch.bodies, Node.bodiesWithin_nil, List.mem_singleton] at among
      subst among
      exact ⟨cursor, cursor, .refl _, .nil _, .refl _⟩
  | cons begins first others inside rest =>
      intro inner among
      rcases Stretch.mem_bodies_body_cons.mp among with rfl | among | among
      · exact ⟨_, _, .refl _, .cons begins first others, .refl _⟩
      · exact (inside inner among).mono (.refl _) others.reaches
      · exact (rest inner (List.mem_cons_of_mem _ among)).mono first.reaches (.refl _)
  | closing => simp [Stretch.bodies]
  | further following body sections inside rest =>
      intro inner among
      rcases Stretch.mem_bodies_sections_cons.mp among with among | among
      · exact (inside inner among).mono following.reaches sections.reaches
      · exact (rest inner among).mono (following.reaches.trans body.reaches) (.refl _)

/-! ## Whole templates -/

/-- The text takes up this place of a source. -/
def covers (place : Nat) (text : Nat × Passage) : Bool :=
  (Piece.text text.1 text.2).holds place

/-- A piece that holds a place is a text or markup. -/
theorem Piece.countP_holds (place : Nat) (pieces : List Piece) :
    pieces.countP (holds place) = (pieces.filterMap text?).countP (covers place) +
      (pieces.filter isMarkup).countP (holds place) := by
  induction pieces with
  | nil => rfl
  | cons piece pieces induction =>
      cases piece with
      | text offset passage =>
          have texts : (text offset passage :: pieces).filterMap text? =
              (offset, passage) :: pieces.filterMap text? := rfl
          rw [List.countP_cons, induction, Nat.add_right_comm, texts, List.countP_cons]
          rfl
      | markup start stop =>
          have around : (markup start stop :: pieces).filter isMarkup =
              markup start stop :: pieces.filter isMarkup := rfl
          rw [List.countP_cons, induction, Nat.add_assoc, around, List.countP_cons]
          rfl

/-- The texts of a template, each with its offset. -/
def Template.texts (template : Template) : List (Nat × Passage) :=
  template.nodes.filterMap Node.text?

/-- What becomes of the literal text of a source. -/
structure Template.KeepsText [Room] (dialect : Dialect) (source : List Char) (template : Template) :
    Prop where
  /-- Every text is what stands in the source between two tags, and is all of it. -/
  standing : ∀ offset passage, .text offset passage ∈ template.nodes →
    TextAt dialect source offset passage
  apart : ∀ nodes ∈ template.bodies, Node.Apart nodes
  /-- The nodes of every body lie side by side and fill the space between its two ends. -/
  laid : ∀ nodes ∈ template.bodies, ∃ start stop, start ≤ stop ∧ stop ≤ source.length ∧
    Laid dialect (.body nodes) (.after source start) (.after source stop)
  whole : Laid dialect (.body template.body) (.after source 0) (.after source source.length)
  /-- Every character belongs to one text, or to one piece of what is written around texts. -/
  owned : ∃ pieces, Tiles dialect source 0 pieces source.length ∧
    (pieces.filterMap Piece.text?).Perm template.texts ∧
      ∀ place < source.length, template.texts.countP (covers place) +
        (pieces.filter Piece.isMarkup).countP (Piece.holds place) = 1

namespace Template

theorem mem_texts {template : Template} {offset : Nat} {passage : Passage}
    (among : .text offset passage ∈ template.nodes) : (offset, passage) ∈ template.texts :=
  List.mem_filterMap.mpr ⟨_, among, rfl⟩

/-- A template whose body fills its source keeps the text of it. -/
theorem keepsText_of_laid {template : Template}
    (whole : Laid dialect (.body template.body) (.after source 0) (.after source source.length)) :
    template.KeepsText dialect source := by
  have everywhere : ∀ nodes ∈ template.bodies,
      LaidWithin dialect (.after source 0) (.after source source.length) nodes := by
    rw [Template.bodies, Template.nodes_eq]
    exact whole.laidWithin
  rcases whole.covered with ⟨stop, ended, pieces, tiles, same⟩
  cases congrArg Cursor.offset ended
  have same : (pieces.filterMap Piece.text?).Perm template.texts := by
    rwa [Template.texts, Template.nodes_eq]
  constructor
  case standing =>
      intro offset passage among
      rcases List.mem_filterMap.mp (same.mem_iff.mpr (mem_texts among)) with ⟨piece, chosen, text⟩
      cases piece with
      | text => cases text; exact tiles.textAt_of_mem chosen
      | markup => cases text
  case apart =>
      intro nodes among
      rcases everywhere nodes among with ⟨_, _, _, laid, _⟩
      exact laid.apart
  case laid =>
      intro nodes among
      rcases everywhere nodes among with ⟨first, second, before, laid, behind⟩
      rcases Grammar.eq_after_of_reaches before with ⟨_, _, rfl⟩
      rcases Grammar.eq_after_of_reaches laid.reaches with ⟨_, _, rfl⟩
      exact ⟨_, _, Nat.le_add_right _ _, behind.offset_le, laid⟩
  case whole => exact whole
  case owned =>
      refine ⟨pieces, tiles, same, ?_⟩
      intro place inside
      rw [← same.countP_eq, ← Piece.countP_holds, tiles.countP_holds,
        if_pos ⟨Nat.zero_le _, inside⟩]

/-- Where a source is at its end, all of it has been read. -/
theorem eq_after_length {later : Cursor} (reaches : (Cursor.after source 0).Reaches later)
    (ended : later.atEnd = true) : later = .after source source.length := by
  rcases Grammar.eq_after_of_reaches reaches with ⟨consumed, read, rfl⟩
  have whole : source = consumed := by
    rwa [List.isEmpty_iff.mp ended, List.append_nil] at read
  rw [← whole, Nat.zero_add]

/-- The rule for bodies lays out what it reads, whatever the counters tell it. -/
theorem nodesWithin_laid {levels : Nat} {counters counters' : Counters}
    (matched : Parser.nodesWithin dialect levels counters cursor =
      (.matched nodes later, counters')) : Laid dialect (.body nodes) cursor later :=
  Scoped.nodesWithin_laid dialect counters levels [.template]
    (Parser.scoped_of_nodesWithin dialect matched)

/-- No text of a source is lost, repeated or altered, and the nodes of every body that is read lie
side by side from the place where the body begins to that where it ends. -/
theorem literal_text_is_kept {dialect : Dialect} {source : Source} {template : Template}
    (parsed : parse dialect source = .ok template) :
    template.KeepsText dialect source.chars ∧
      ∀ levels counters start nodes later counters',
        Parser.nodesWithin dialect levels counters (.after source.chars start) =
            (.matched nodes later, counters') →
          ∃ stop, start ≤ stop ∧ later = .after source.chars stop ∧
            Laid dialect (.body nodes) (.after source.chars start) later := by
  constructor
  · rcases (Parser.parse_eq_ok dialect).mp parsed with ⟨later, _, read, ended, _⟩
    have laid : Laid dialect (.body template.body) (.after source.chars 0) later :=
      nodesWithin_laid read
    rw [eq_after_length laid.reaches ended] at laid
    exact keepsText_of_laid laid
  · intro levels counters start nodes later counters' matched
    have laid := nodesWithin_laid matched
    rcases Grammar.eq_after_of_reaches laid.reaches with ⟨_, _, rfl⟩
    exact ⟨_, Nat.le_add_right _ _, rfl, laid⟩

/-- The arm that is written first comes last in the tree, and the blanks around the comment belong
to no text. -/
theorem literal_text_is_kept_around_choice :
    let _ : Room := ⟨20⟩
    let source : Source := ⟨"a \x7b% match x %\x7d \x7b# c #\x7d \x7b% else %\x7db" ++
      "\x7b% when 1 %\x7d \x7b\x7b y \x7d\x7d\x7b% endmatch %\x7d\n", none, none⟩
    let template : Template :=
      { body := [
          .text 0 ⟨"", "a", " "⟩,
          .choice 2 {} (.var 11 "x") [
            ⟨35, {}, .literal 43 .number "1", [.text 47 ⟨" ", "", ""⟩, .output 48 {} (.var 51 "y")]⟩,
            ⟨24, {}, .name 24 "_", [.text 34 ⟨"", "b", ""⟩]⟩] {},
          .text 69 ⟨"\n", "", ""⟩]
        name := none }
    parse .standard source = .ok template ∧ template.KeepsText .standard source.chars ∧
      template.texts = [(0, ⟨"", "a", " "⟩), (47, ⟨" ", "", ""⟩), (34, ⟨"", "b", ""⟩),
        (69, ⟨"\n", "", ""⟩)] := by
  intro room source template
  have parsed : parse .standard source = .ok template := by
    rw [parse_eq_scoped]
    unfold source
    rfl
  refine ⟨parsed, (literal_text_is_kept parsed).1, ?_⟩
  rw [Template.texts, Template.nodes_eq]
  simp only [template, Node.within_cons, Node.within_nil, Node.bodies, List.flatten_cons,
    List.flatten_nil, List.map_cons, List.map_nil, List.append_nil, List.nil_append, List.cons_append]
  rfl

end Template

end Templating

import Templating.Proofs.PrintedConstruct

/-! # Bodies that are written

Every regular body is read back from how it is written: each text goes on up to the tag behind it,
and each tag begins with a delimiter that is taken for no other. -/

namespace Templating.Scoped

variable {room : Room}

open Text Grammar

variable {dialect : Dialect} {inLoop : Bool} {bodies : Part → Grammar (List Node)}
  {regular : Part → List Node → Prop} {text rest behind : List Char} {accept : Node → Prop}

/-! ## Nodes -/

/-- A statement is told by the delimiter and the word of its tag. -/
theorem node_reads_statement (keyword : Keyword) {left : Option Trim} (solid : Solid behind)
    (reads : ∀ opened : OpenedTag, opened.trim = left →
      Reads (statementRest dialect opened inLoop bodies keyword) behind accept
        (dialect.blockEnd.chars ++ rest)) :
    Reads (node dialect inLoop bodies) (tagHeadOnto dialect left keyword.word (' ' :: behind)) accept
      rest := by
  have isName : isName keyword.word.toList = true := by cases keyword <;> decide
  have started : Reads (Parser.statementStart dialect)
      (tagHeadOnto dialect left keyword.word (' ' :: behind)) _ _ :=
    statementStart_reads isName (endsName_cons.mpr rfl) (Keyword.ofWord?_word keyword)
  rw [(gap_space behind).afterBlanks_eq solid] at started
  refine .orElse_of_misses (.orElse_of_misses (.orElse_of_misses ?_
    (output_misses dialect.block_apart_expr)) (comment_misses dialect.block_apart_comment))
    (text_misses (opensTag_of_start List.mem_cons_self (List.prefix_append _ _)))
  apply started.bind
  rintro ⟨opened, _⟩ ⟨trimmed, rfl⟩
  apply (reads opened trimmed).bind
  intro found accepted
  apply tagEnd_reads.bind
  intro _ _
  exact .pure accepted

theorem opensTag_of_endsBody (ends : EndsBody dialect rest) : opensTag dialect rest = true := by
  rcases ends with ⟨_, _, _, _, _, _, rfl⟩
  exact opensTag_of_start List.mem_cons_self (List.prefix_append _ _)

/-- No node stands where a body ends. -/
theorem node_misses (ends : EndsBody dialect rest) : Misses (node dialect inLoop bodies) rest := by
  have opens := opensTag_of_endsBody ends
  rcases ends with ⟨left, word, behind, isName, ends, unknown, rfl⟩
  exact (text_misses opens).orElse
    ((comment_misses dialect.block_apart_comment).orElse
      ((output_misses dialect.block_apart_expr).orElse
        (statementStart_misses isName ends unknown).bind))

/-- A node that is no text begins with a delimiter. -/
theorem opensTag_printOnto {node : Node} (noText : node.isText = false) :
    opensTag dialect (node.printOnto dialect rest) = true := by
  have block (rest : List Char) : opensTag dialect (dialect.blockStart.chars ++ rest) = true :=
    opensTag_of_start List.mem_cons_self (List.prefix_append _ _)
  cases node with
  | text => cases noText
  | comment =>
      exact opensTag_of_start (List.mem_cons_of_mem _ List.mem_cons_self) (List.prefix_append _ _)
  | output =>
      exact opensTag_of_start (List.mem_cons_of_mem _ (List.mem_cons_of_mem _ List.mem_cons_self))
        (List.prefix_append _ _)
  | conditional _ branches =>
      rcases branches with _ | ⟨⟨_, _, _, _⟩, _⟩ <;> exact block _
  | choice _ _ _ arms => exact block _
  | _ => exact block _

/-- What stands behind a text of a regular body is a tag or what stands behind the body. -/
theorem endsText_printAllOnto {last : Bool} {nodes : List Node}
    (apart : ∀ next ∈ nodes.head?, next.isText = false) (ends : EndsText dialect last rest) :
    EndsText dialect (last && nodes.isEmpty) (Node.printAllOnto dialect nodes rest) := by
  cases nodes with
  | nil => simpa [Node.printAllOnto] using ends
  | cons next nodes =>
      rw [List.isEmpty_cons, Bool.and_false]
      exact opensTag_printOnto (apart next rfl)

theorem solid_quotedOnto (text : String) (rest : List Char) : Solid (quotedOnto text rest) := by
  rintro _ ⟨⟩
  rfl

theorem endsName_parametersOnto (parameters : List String) (rest : List Char) :
    EndsName (parametersOnto parameters (' ' :: rest)) := by
  cases parameters <;> exact endsName_cons.mpr rfl

theorem solid_calledName {scope : Option String} {name : String}
    (scopeNamed : ∀ qualifier ∈ scope, isName qualifier.toList = true)
    (named : isName name.toList = true) (ends : EndsName rest) :
    Solid (pathOnto (scope.toList ++ [name]) rest) := by
  cases scope with
  | none => exact word_solid named ends
  | some qualifier => exact word_solid (scopeNamed qualifier rfl) (endsName_cons.mpr rfl)

section

variable (legible : dialect.Legible)

include legible

/-- A regular conditional has a first branch, which has a condition. -/
theorem node_reads_conditional [∀ part, Advancing (bodies part)] {offset : Nat}
    {branches : List Branch} {closing : Edges}
    (regular : (Node.conditional offset branches closing).Regular dialect inLoop fun part =>
      ReadsBody dialect (bodies part)) :
    Reads (Scoped.node dialect inLoop bodies)
      ((Node.conditional offset branches closing).printOnto dialect rest)
      ((Node.conditional offset branches closing).same · = true) rest := by
  rcases regular with ⟨nonempty, begun, ordered, each⟩
  rcases branches with _ | ⟨⟨first, edges, _ | condition, nodes⟩, others⟩
  · exact absurd rfl nonempty
  · cases begun _ rfl
  rw [List.forall_mem_cons] at each
  have condition_regular : condition.Regular := each.1.1 condition rfl
  have ordered : ∀ branch ∈ others.dropLast, branch.condition.isSome = true := by
    cases others with
    | nil => nofun
    | cons => exact fun branch among => ordered branch (List.mem_cons_of_mem _ among)
  exact node_reads_statement .conditional (condition_solid condition_regular _)
    fun opened trimmed =>
      conditional_reads legible trimmed condition_regular each.1.2 ordered each.2

/-- A regular node that is no text is read back, whatever stands behind it. -/
theorem node_reads [∀ part, Advancing (bodies part)] {node : Node}
    (regular : node.Regular dialect inLoop fun part => ReadsBody dialect (bodies part))
    (noText : node.isText = false) :
    Reads (Scoped.node dialect inLoop bodies) (node.printOnto dialect rest) (node.same · = true)
      rest := by
  cases node with
  | text => cases noText
  | comment offset edges =>
      refine .orElse_of_misses (.orElse (comment_reads legible)) (text_misses
        (opensTag_of_start ?_ (List.prefix_append _ _)))
      exact List.mem_cons_of_mem _ List.mem_cons_self
  | output offset edges expression =>
      refine .orElse_of_misses (.orElse_of_misses (.orElse (output_reads legible regular))
        (comment_misses dialect.expr_apart_comment)) (text_misses (opensTag_of_start ?_
          (List.prefix_append _ _)))
      simp [Dialect.starts]
  | raw offset opening passage closing =>
      exact node_reads_statement .raw (legible.blockHalts _ _).solid fun opened trimmed =>
        raw_reads legible trimmed regular
  | conditional => exact node_reads_conditional legible regular
  | loop offset opening pattern iterable guard nodes middle others closing =>
      rcases regular with ⟨pattern_regular, iterable_regular, guarded, inside, inside'⟩
      exact node_reads_statement .loop (pattern_solid pattern_regular _) fun opened trimmed =>
        loop_reads legible trimmed pattern_regular iterable_regular guarded inside inside'
  | choice offset opening subject arms closing =>
      rcases regular with ⟨subject_regular, nonempty, each⟩
      exact node_reads_statement .choice (expression_solid subject_regular _) fun opened trimmed =>
        choice_reads legible trimmed subject_regular nonempty each
  | breakLoop offset edges =>
      cases regular
      refine node_reads_statement .breakLoop (legible.blockHalts _ _).solid fun opened trimmed =>
        (loopControl_reads legible trimmed).mono ?_
      rintro _ ⟨found, rfl⟩
      exact beq_self_eq_true edges
  | continueLoop offset edges =>
      cases regular
      refine node_reads_statement .continueLoop (legible.blockHalts _ _).solid fun opened trimmed =>
        (loopControl_reads legible trimmed).mono ?_
      rintro _ ⟨found, rfl⟩
      exact beq_self_eq_true edges
  | macroDef offset name opening parameters nodes closing =>
      rcases regular with ⟨isName, free, areNames, inside⟩
      exact node_reads_statement .macroDef (word_solid isName (endsName_parametersOnto parameters _))
        fun opened trimmed => macroDef_reads legible trimmed isName free areNames inside
  | macroCall offset edges scope name arguments =>
      rcases regular with ⟨scopeNamed, isName, each⟩
      exact node_reads_statement .call
        (solid_calledName scopeNamed isName (endsName_argumentsOnto arguments))
        fun opened trimmed => macroCall_reads legible trimmed scopeNamed isName each
  | assign offset edges pattern value =>
      exact node_reads_statement .letBinding (pattern_solid regular.1 _) fun opened trimmed =>
        assignment_reads_assign legible trimmed regular.1 regular.2
  | declare offset edges pattern =>
      exact node_reads_statement .letBinding (pattern_solid regular _) fun opened trimmed =>
        assignment_reads_declare legible trimmed regular
  | extendTemplate offset template =>
      exact node_reads_statement .extendTemplate (solid_quotedOnto _ _) fun opened trimmed =>
        extension_reads legible regular trimmed
  | block offset opening name nodes closing =>
      exact node_reads_statement .block (word_solid regular.1 (endsName_cons.mpr rfl))
        fun opened trimmed => block_reads legible trimmed regular.1 regular.2
  | includeTemplate offset edges template =>
      exact node_reads_statement .includeTemplate (solid_quotedOnto _ _) fun opened trimmed =>
        inclusion_reads legible trimmed regular
  | importMacros offset edges template scope =>
      exact node_reads_statement .importMacros (solid_quotedOnto _ _) fun opened trimmed =>
        importation_reads legible trimmed regular.1 regular.2

/-- The nodes of a regular body are read back one behind the other. -/
theorem nodes_readsEach [∀ part, Advancing (bodies part)] {last : Bool} {nodes : List Node}
    (texts : Node.TextsEnd dialect last nodes)
    (each : ∀ node ∈ nodes, node.Regular dialect inLoop fun part => ReadsBody dialect (bodies part))
    (ends : EndsText dialect last rest) :
    ReadsEach (node dialect inLoop bodies) (Node.printAllOnto dialect nodes rest)
      (Node.sameAll nodes · = true) rest := by
  induction nodes with
  | nil => exact .nil rfl
  | cons node nodes induction =>
      rw [List.forall_mem_cons] at each
      have together (node' : Node) (nodes' : List Node) (same : node.same node' = true)
          (same' : Node.sameAll nodes nodes' = true) :
          Node.sameAll (node :: nodes) (node' :: nodes') = true := by
        rw [Node.sameAll, same, same']
        rfl
      cases isText : node.isText with
      | true =>
          cases node <;> try cases isText
          rcases texts with ⟨nonempty, runs, apart, texts⟩
          exact .cons (.orElse (text_reads nonempty runs (endsText_printAllOnto apart ends)))
            (induction texts each.2) together
      | false =>
          have texts : Node.TextsEnd dialect last nodes := by
            cases node <;> first | exact texts | cases isText
          exact .cons (node_reads legible each.1 isText) (induction texts each.2) together

end

/-- No node stands where nothing is left. -/
theorem node_misses_nil : Misses (node dialect inLoop bodies) [] := by
  have missed (delimiter : Delimiter) : Misses (exact delimiter.chars) [] :=
    exact_misses fun starts => by
      have long := delimiter.long
      simp [List.prefix_nil.mp starts] at long
  have text_missed : Misses (Grammar.text dialect) [] := fun _ => text_eq_noMatch.mpr (.inl rfl)
  exact text_missed.orElse ((Reads.here.bind_misses fun _ _ => (missed _).bind).orElse
    ((Reads.here.bind_misses fun _ _ => (missed _).bind).orElse
      (Reads.here.bind_misses fun _ _ => (missed _).bind).bind))

/-! ## The bodies of a source -/

variable {outside : Counters} {levels : Nat} {scope : List Part} {nodes : List Node}

/-- The body that is the first of these is read back, if those inside it are. -/
theorem nodesWithin_reads_of {last : Bool} (legible : dialect.Legible)
    (shallow : (outside.within scope).tooDeep dialect.maxDepth = false)
    (texts : Node.TextsEnd dialect last nodes)
    (each : ∀ node ∈ nodes, node.Regular dialect (outside.within scope).inLoop fun part =>
      ReadsBody dialect (nodesWithin dialect outside levels (part :: scope)))
    (ends : EndsText dialect last rest)
    (stops : Misses (node dialect (outside.within scope).inLoop fun part =>
      nodesWithin dialect outside levels (part :: scope)) rest) :
    Reads (nodesWithin dialect outside (levels + 1) scope) (Node.printAllOnto dialect nodes rest)
      (Node.sameAll nodes · = true) rest := by
  rw [nodesWithin, shallow, if_neg Bool.false_ne_true]
  exact (nodes_readsEach legible texts each ends).stop stops

/-- Every regular body inside another one is read back. -/
theorem nodesWithin_reads (legible : dialect.Legible)
    (regular : RegularBody dialect outside levels scope false nodes) :
    ReadsBody dialect (nodesWithin dialect outside levels scope) nodes := by
  induction levels generalizing scope nodes with
  | zero => exact regular.elim
  | succ levels induction =>
      rcases regular with ⟨shallow, texts, each⟩
      intro rest ends
      exact nodesWithin_reads_of legible shallow texts
        (fun node among => (each node among).mono fun _ _ => induction)
        (opensTag_of_endsBody ends) (node_misses ends)

/-- Every regular body that goes on to the end of a source is read back. -/
theorem nodesWithin_reads_last (legible : dialect.Legible)
    (regular : RegularBody dialect outside levels scope true nodes) :
    Reads (nodesWithin dialect outside levels scope) (Node.printAllOnto dialect nodes [])
      (Node.sameAll nodes · = true) [] := by
  cases levels with
  | zero => exact regular.elim
  | succ levels =>
      rcases regular with ⟨shallow, texts, each⟩
      exact nodesWithin_reads_of legible shallow texts
        (fun node among => (each node among).mono fun _ _ => nodesWithin_reads legible)
        rfl node_misses_nil

/-- A source that is written from a regular body is read back. -/
theorem document_reads (legible : dialect.Legible)
    (regular : RegularBody dialect .zero (dialect.maxDepth + 1) [.template] true nodes) :
    Reads (document dialect) (Node.printAllOnto dialect nodes []) (Node.sameAll nodes · = true)
      [] := by
  apply (nodesWithin_reads_last legible regular).bind
  intro found same
  have ended : Reads (endOfSource dialect) [] (fun _ => True) [] := fun offset =>
    ⟨(), offset, (Parser.endOfSource_eq_matched dialect).mpr ⟨rfl, rfl⟩, trivial⟩
  exact ended.bind fun _ _ => .pure same

end Templating.Scoped

namespace Templating.Template

variable {room : Room}

/-- Every regular template is read back as it is written. -/
theorem parse_print {dialect : Dialect} (legible : dialect.Legible) {template : Template}
    (regular : RegularBody dialect .zero (dialect.maxDepth + 1) [.template] true template.body)
    (filename : Option String) :
    ∃ reparsed, parse dialect ⟨template.print dialect, template.name, filename⟩ = .ok reparsed ∧
      template.same reparsed = true := by
  rcases Scoped.document_reads legible regular 0 with ⟨found, offset, matched, same⟩
  refine ⟨{ body := found, name := template.name }, ?_, ?_⟩
  · have chars : Source.chars ⟨template.print dialect, template.name, filename⟩ =
        Node.printAllOnto dialect template.body [] := String.toList_ofList
    rw [parse_eq_scoped, chars, Cursor.start, matched]
  · simp [same, Template.same]

end Templating.Template

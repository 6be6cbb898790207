import PixelBrush.Proofs.NamesApart
import PixelBrush.Proofs.NodeOrder

namespace PixelBrush

/-!
# Where nodes stand

The list of nodes in source order leaves no node of a program out.  Each of them
has the place of a token, and their places increase.  An instruction ends where
its line ends, so the nodes of later instructions stand on later lines.
-/

namespace Node

/-- The nodes in source order are the node itself and those of its parts. -/
theorem mem_inOrder_iff_parts
    {node inner : Node} :
    inner ∈ node.inOrder ↔
      inner = node ∨ ∃ part ∈ node.parts, inner ∈ part.inOrder := by
  cases node with
  | draw | call =>
      rw [inOrder, List.mem_cons, allInOrder_eq_flatMap, List.mem_flatMap]
      rfl
  | assign | goTo =>
      rw [inOrder, List.mem_cons]
      simp [parts]
  | arithmetic | boolean =>
      rw [inOrder, List.mem_append, List.mem_cons]
      simp only [parts, List.mem_cons, List.not_mem_nil, or_false,
        exists_eq_or_imp, exists_eq_left]
      exact or_left_comm
  | _ =>
      simp [inOrder, parts]

/-- A part is smaller than the node it belongs to. -/
theorem sizeOf_lt_of_mem_parts
    {node part : Node}
    (isPart : part ∈ node.parts) :
    sizeOf part < sizeOf node := by
  cases node with
  | draw _ arguments | call _ arguments =>
      have smaller := List.sizeOf_lt_of_mem (show part ∈ arguments from isPart)
      simp only [draw.sizeOf_spec, call.sizeOf_spec]
      omega
  | assign | goTo =>
      cases List.mem_singleton.mp isPart
      simp only [assign.sizeOf_spec, goTo.sizeOf_spec]
      omega
  | arithmetic | boolean =>
      simp only [parts, List.mem_cons, List.not_mem_nil, or_false] at isPart
      simp only [arithmetic.sizeOf_spec, boolean.sizeOf_spec]
      rcases isPart with rfl | rfl <;> omega
  | _ =>
      cases isPart

/-- The nodes that are listed in a node occur in it. -/
theorem occurs_of_mem_inOrder
    {node inner : Node}
    (listed : inner ∈ node.inOrder) :
    inner.Occurs node := by
  rcases mem_inOrder_iff_parts.mp listed with rfl | ⟨part, isPart, inPart⟩
  · exact .whole
  · have smaller := sizeOf_lt_of_mem_parts isPart
    exact .inside isPart (occurs_of_mem_inOrder inPart)
termination_by sizeOf node

/-- The nodes that occur in a node are listed. -/
theorem Occurs.mem_inOrder
    {node inner : Node}
    (occurs : inner.Occurs node) :
    inner ∈ node.inOrder := by
  induction occurs with
  | whole =>
      exact self_mem_inOrder inner
  | inside isPart _ inductionHypothesis =>
      exact mem_inOrder_iff_parts.mpr (.inr ⟨_, isPart, inductionHypothesis⟩)

end Node

/-- The nodes of a program in source order are those that it contains. -/
theorem Program.mem_allInOrder_iff
    {program : Program}
    {node : Node} :
    node ∈ Node.allInOrder program ↔ program.Contains node := by
  rw [Node.allInOrder_eq_flatMap, List.mem_flatMap]
  constructor
  · rintro ⟨instruction, member, listed⟩
    exact ⟨instruction, member, Node.occurs_of_mem_inOrder listed⟩
  · rintro ⟨instruction, member, occurs⟩
    exact ⟨instruction, member, occurs.mem_inOrder⟩

/-- Each node that tokens carry has the place of one of them. -/
theorem Carries.exists_token
    {tokens : List Token}
    {nodes : List Node}
    (carries : Carries tokens nodes) :
    ∀ node ∈ nodes, ∃ token ∈ tokens, token.location = node.location :=
  fun _ member => List.mem_map.mp (carries.subset (List.mem_map_of_mem member))

/-! ## Instructions and lines -/

/-- A place before another one is on no later line. -/
theorem Location.Before.line_le
    {first second : Location}
    (before : first.Before second) :
    first.line ≤ second.line := by
  rcases before with earlier | ⟨same, _⟩
  · exact Nat.le_of_lt earlier
  · exact Nat.le_of_eq same

namespace Grammar

/--
All tokens before a line break stand on earlier lines than those after it.
-/
theorem BreaksLine.line_lt
    {tokens others : List Token}
    (breaks : BreaksLine tokens others)
    (ordered :
      (tokens ++ others).Pairwise fun first second =>
        first.location.Before second.location) :
    ∀ token ∈ tokens, ∀ other ∈ others,
      token.location.line < other.location.line := by
  intro token member other isOther
  obtain ⟨inTokens, inOthers, across⟩ := List.pairwise_append.mp ordered
  obtain ⟨front, last, rfl⟩ : ∃ front last, tokens = front ++ [last] :=
    ⟨_, _, (List.dropLast_append_getLast (List.ne_nil_of_mem member)).symm⟩
  obtain ⟨next, rest, rfl⟩ :=
    List.exists_cons_of_ne_nil (List.ne_nil_of_mem isOther)
  have upToLast : token.location.line ≤ last.location.line := by
    rcases List.mem_append.mp member with inFront | isLast
    · have before := (List.pairwise_append.mp inTokens).2.2 token inFront last
      exact (before List.mem_cons_self).line_le
    · rw [List.mem_singleton.mp isLast]
  have fromNext : next.location.line ≤ other.location.line := by
    rcases List.mem_cons.mp isOther with rfl | inRest
    · exact Nat.le_refl _
    · exact ((List.pairwise_cons.mp inOthers).1 other inRest).line_le
  have broken : last.location.line < next.location.line := by
    have before :=
      across last (List.mem_append_right _ List.mem_cons_self)
        next List.mem_cons_self
    exact Nat.lt_of_le_of_ne before.line_le (breaks last (by simp) next rfl)
  exact Nat.lt_of_le_of_lt upToLast (Nat.lt_of_lt_of_le broken fromNext)

/--
The nodes of an instruction stand on earlier lines than those of all later ones.
-/
theorem Spells.line_lt
    {tokens : List Token}
    {program : Program}
    (spells : Spells tokens program)
    (ordered :
      tokens.Pairwise fun first second =>
        first.location.Before second.location) :
    program.Pairwise fun first second =>
      ∀ inner ∈ first.inOrder, ∀ other ∈ second.inOrder,
        inner.location.line < other.location.line := by
  induction spells with
  | nil =>
      exact .nil
  | @cons tokens rest node program first newLine others inductionHypothesis =>
      refine .cons ?_
        (inductionHypothesis (List.pairwise_append.mp ordered).2.1)
      intro later member inner inNode other inLater
      obtain ⟨token, inTokens, place⟩ := first.carries.exists_token inner inNode
      have listed : other ∈ Node.allInOrder program := by
        rw [Node.allInOrder_eq_flatMap]
        exact List.mem_flatMap_of_mem member inLater
      obtain ⟨next, inRest, nextPlace⟩ :=
        others.carries.exists_token other listed
      rw [← place, ← nextPlace]
      exact newLine.line_lt ordered token inTokens next inRest

end Grammar

/-- A program that is read from a source is parsed from its tokens. -/
theorem exists_tokens_of_ofSource
    {source : String}
    {program : Program}
    (parsed : Program.ofSource source = .ok program) :
    ∃ tokens,
      tokenize source = .ok tokens ∧ Program.parse tokens = .ok program := by
  unfold Program.ofSource at parsed
  split at parsed
  · cases parsed
  · rename_i tokens scanned
    exact ⟨tokens, scanned, parsed⟩

/--
Nodes follow the source.  For a source that spells a program, the list in source
order holds exactly the nodes of the program, each of them has the place of a
token, and these places increase strictly.  The lines of its instructions
increase strictly as well.
-/
theorem nodes_follow_source
    {source : String}
    {program : Program}
    (parsed : Program.ofSource source = .ok program) :
    (∃ tokens,
      tokenize source = .ok tokens ∧
        ∀ node, program.Contains node → ∃ token ∈ tokens,
          token.location = node.location) ∧
      (∀ node, node ∈ Node.allInOrder program ↔ program.Contains node) ∧
      Node.Increasing (Node.allInOrder program) ∧
      program.Pairwise fun first second =>
        first.location.line < second.location.line := by
  obtain ⟨tokens, scanned, parsed⟩ := exists_tokens_of_ofSource parsed
  have spells := spells_of_parse scanned parsed
  have ordered := (lays_of_tokenize scanned).increasing
  refine ⟨⟨tokens, scanned, ?_⟩, fun node => Program.mem_allInOrder_iff,
    spells.carries.increasing ordered, ?_⟩
  · intro node contains
    exact spells.carries.exists_token node
      (Program.mem_allInOrder_iff.mpr contains)
  · apply (spells.line_lt ordered).imp
    intro first second apart
    exact apart first first.self_mem_inOrder second second.self_mem_inOrder

/--
An assignment goes over three lines: its operators stand between their operands,
also where redundant parentheses and a line break come between them.
-/
theorem nodes_follow_source_three_lines :
    let source :=
      "n <- ((1 +\n (2)) * GetColorCount(\"Red\",\n 0, n, 3, 4))\n" ++
        "GoTo [e] (n < 3)\ne"
    let places : List Location :=
      [⟨1, 1⟩, ⟨1, 8⟩, ⟨1, 10⟩, ⟨2, 3⟩, ⟨2, 7⟩, ⟨2, 9⟩, ⟨2, 23⟩, ⟨3, 2⟩, ⟨3, 5⟩,
        ⟨3, 8⟩, ⟨3, 11⟩, ⟨4, 1⟩, ⟨4, 11⟩, ⟨4, 13⟩, ⟨4, 15⟩, ⟨5, 1⟩]
    ∃ program,
      Program.ofSource source = .ok program ∧
        (Node.allInOrder program).map Node.location = places ∧
        program.map (·.location.line) = [1, 4, 5] ∧
        Node.Increasing (Node.allInOrder program) ∧
        program.Pairwise fun first second =>
          first.location.line < second.location.line := by
  intro source places
  have settled :
      (Program.ofSource source).toOption.any (fun program =>
        (Node.allInOrder program).map Node.location = places &&
          program.map (·.location.line) = [1, 4, 5]) = true := by
    decide +kernel
  obtain ⟨program, parsed, known⟩ := exists_eq_ok_of_any settled
  simp only [Bool.and_eq_true, decide_eq_true_eq] at known
  obtain ⟨_, _, increasing, lines⟩ := nodes_follow_source parsed
  exact ⟨program, parsed, known.1, known.2, increasing, lines⟩

end PixelBrush

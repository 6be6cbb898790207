import PixelBrush.Proofs.NodeOrder
import PixelBrush.Proofs.SessionRuns
import PixelBrush.Proofs.Warnings

namespace PixelBrush

/-!
# The order of warnings

The instructions of a program stand one after another, so the warnings about
different instructions come in source order.  About one instruction there is one
exception: the warning that there are many jumps points to a jump, but is found
after what the condition of that jump reads too early.
-/

/-- The diagnostics come in source order. -/
def InOrder (diagnostics : List Diagnostic) : Prop :=
  diagnostics.Pairwise fun first second =>
    first.location.notAfter second.location = true

instance : DecidablePred InOrder :=
  fun diagnostics => inferInstanceAs (Decidable (diagnostics.Pairwise _))

/-- The warning that there are many jumps. -/
def Diagnostic.isCrowding (diagnostic : Diagnostic) : Bool :=
  diagnostic.finding = .warning (.manyJumps jumpThreshold)

/-- A place is after another one exactly if this one is before it. -/
theorem Location.notAfter_eq_false_iff
    {first second : Location} :
    first.notAfter second = false ↔ second.Before first := by
  simp only [notAfter, Before, Bool.or_eq_false_iff, Bool.and_eq_false_iff,
    decide_eq_false_iff_not, beq_eq_false_iff_ne]
  omega

/-- No place is after itself. -/
theorem Location.notAfter_self
    (location : Location) :
    location.notAfter location = true := by
  simp [notAfter]

/-- A place before another one is not after it. -/
theorem Location.Before.notAfter
    {first second : Location}
    (earlier : first.Before second) :
    first.notAfter second = true := by
  unfold Before at earlier
  simp only [Location.notAfter, Bool.or_eq_true, Bool.and_eq_true,
    decide_eq_true_eq, beq_iff_eq]
  omega

/-- Diagnostics of one place are in order. -/
theorem inOrder_of_same_place
    {diagnostics : List Diagnostic}
    (location : Location)
    (here : ∀ diagnostic ∈ diagnostics, diagnostic.location = location) :
    InOrder diagnostics := by
  refine List.pairwise_of_forall_mem_list ?_
  intro first firstMember second secondMember
  rw [here first firstMember, here second secondMember]
  exact location.notAfter_self

namespace Node

/-- A variable that is read early is reported where it is read. -/
theorem location_of_earlyRead?
    {assigned : List String}
    {node : Node}
    {diagnostic : Diagnostic}
    (warns : node.earlyRead? assigned = some diagnostic) :
    diagnostic.location = node.location := by
  cases node with
  | read name location =>
      rw [earlyRead?] at warns
      split at warns
      · cases warns
      · cases warns
        rfl
  | _ =>
      cases warns

/-- The early reads of nodes in source order are reported in order. -/
theorem Increasing.inOrder_earlyReads
    {nodes : List Node}
    (increasing : Increasing nodes)
    (assigned : List String) :
    InOrder (earlyReads assigned nodes) := by
  refine List.Pairwise.filterMap _ ?_ increasing
  intro first second earlier firstFound firstWarns secondFound secondWarns
  rw [location_of_earlyRead? firstWarns, location_of_earlyRead? secondWarns]
  exact earlier.notAfter

end Node

namespace Program

variable
  {program : Program}
  {index : Nat}
  {node : Node}

/-- At an index, an expression reads only names that are assigned before it. -/
def ReadsAssigned
    (program : Program)
    (index : Nat)
    (expression : Node) :
    Prop :=
  ∀ name place,
    .read name place ∈ expression.inOrder →
    name ∈ assigned (program.take index)

/-- Crowding is reported at the jump. -/
theorem location_of_mem_crowding
    {diagnostic : Diagnostic}
    (member : diagnostic ∈ program.crowding index node) :
    diagnostic.location = node.location := by
  unfold crowding at member
  split at member
  · split at member
    · rw [List.mem_singleton.mp member]
      rfl
    · cases member
  · cases member

/-- The other warnings of a jump are reported there too. -/
theorem location_of_mem_remarks
    {diagnostic : Diagnostic}
    (member : diagnostic ∈ program.remarks index node) :
    diagnostic.location = node.location := by
  unfold remarks at member
  split at member
  · split at member
    · split at member
      · cases member
      · rw [List.mem_singleton.mp member]
        rfl
    · cases member
  · split at member
    · rw [List.mem_singleton.mp member]
      rfl
    · cases member
  · cases member

/-- A warning about an instruction points to a node inside it. -/
theorem exists_place_of_mem_warningsAt
    {diagnostic : Diagnostic}
    (member : diagnostic ∈ program.warningsAt index node) :
    ∃ inner ∈ node.inOrder, inner.location = diagnostic.location := by
  unfold warningsAt at member
  rw [List.mem_append, List.mem_append] at member
  rcases member with early | crowd | remark
  · obtain ⟨name, location, read, _, rfl⟩ := Node.mem_earlyReads_iff.mp early
    exact ⟨_, read, rfl⟩
  · exact ⟨node, node.self_mem_inOrder, (location_of_mem_crowding crowd).symm⟩
  · exact ⟨node, node.self_mem_inOrder, (location_of_mem_remarks remark).symm⟩

/-- Warnings about different instructions come in source order. -/
theorem pairwise_warnings_iff
    {Relation : Diagnostic → Diagnostic → Prop}
    (increasing : Node.Increasing (Node.allInOrder program))
    (weaker :
      ∀ first second,
        first.location.Before second.location →
        Relation first second) :
    program.warnings.Pairwise Relation ↔
      ∀ index node,
        program[index]? = some node →
        (program.warningsAt index node).Pairwise Relation := by
  have apart :
      program.zipIdx.Pairwise fun first second =>
        ∀ earlier ∈ program.warningsAt first.2 first.1,
          ∀ later ∈ program.warningsAt second.2 second.1,
            Relation earlier later := by
    rw [Node.Increasing, Node.allInOrder_eq_flatMap,
      List.pairwise_flatMap] at increasing
    have entries := increasing.2
    rw [← List.zipIdx_map_fst 0 program, List.pairwise_map] at entries
    refine entries.imp ?_
    intro first second before earlier isEarlier later isLater
    obtain ⟨firstNode, firstMember, firstPlace⟩ :=
      exists_place_of_mem_warningsAt isEarlier
    obtain ⟨secondNode, secondMember, secondPlace⟩ :=
      exists_place_of_mem_warningsAt isLater
    have ordered := before firstNode firstMember secondNode secondMember
    rw [firstPlace, secondPlace] at ordered
    exact weaker earlier later ordered
  unfold warnings
  rw [List.pairwise_flatMap]
  constructor
  · rintro ⟨within, _⟩ index node found
    exact within (node, index) (List.mk_mem_zipIdx_iff_getElem?.mpr found)
  · intro each
    refine ⟨?_, apart⟩
    intro entry member
    exact each entry.2 entry.1 (List.mem_zipIdx_iff_getElem?.mp member)

/-- An early read and another remark are never about the same instruction. -/
theorem earlyReads_eq_nil_or_remarks_eq_nil
    (spelled : node.IsSpelled)
    (assigned : List String) :
    Node.earlyReads assigned node.inOrder = [] ∨
      program.remarks index node = [] := by
  cases node with
  | setSize size location =>
      exact .inl rfl
  | goTo label condition location =>
      by_cases static : condition.isDynamic = false
      · refine .inl (Node.earlyReads_eq_nil_iff.mpr ?_)
        intro name place member
        have isExpression :=
          spelled.expressions condition (List.mem_singleton_self _)
        -- A jump is called endless only if its condition reads nothing at all.
        have unread :=
          Node.read_not_mem_of_static isExpression static name place
        simp [Node.inOrder, unread] at member
      · rw [Bool.not_eq_false] at static
        refine .inr (if_neg ?_)
        simp [static]
  | _ =>
      exact .inr rfl

/--
Of one instruction, the warnings about early reads and those after them are in
order.
-/
theorem inOrder_earlyReads_remarks
    (increasing : Node.Increasing node.inOrder)
    (spelled : node.IsSpelled)
    (assigned : List String) :
    InOrder
      (Node.earlyReads assigned node.inOrder ++
        program.remarks index node) := by
  rcases earlyReads_eq_nil_or_remarks_eq_nil spelled assigned with none | none
  · rw [none, List.nil_append]
    exact inOrder_of_same_place node.location fun _ member =>
      location_of_mem_remarks member
  · rw [none, List.append_nil]
    exact increasing.inOrder_earlyReads assigned

/-- Only the warning about many jumps can come too late. -/
theorem inOrder_warningsAt_iff
    (increasing : Node.Increasing node.inOrder)
    (spelled : node.IsSpelled) :
    InOrder (program.warningsAt index node) ↔
      program.crowding index node = [] ∨
        Node.earlyReads (assigned (program.take index)) node.inOrder = [] := by
  unfold warningsAt
  constructor
  · intro ordered
    by_contra both
    obtain ⟨crowded, early⟩ := not_or.mp both
    obtain ⟨crowd, isCrowd⟩ := List.exists_mem_of_ne_nil _ crowded
    obtain ⟨read, isRead⟩ := List.exists_mem_of_ne_nil _ early
    have wrong :=
      (List.pairwise_append.mp ordered).2.2 read isRead crowd
        (List.mem_append_left _ isCrowd)
    rw [location_of_mem_crowding isCrowd] at wrong
    -- The condition stands after the jump that it belongs to, and so does the
    -- early read.
    cases node with
    | goTo target condition location =>
        obtain ⟨name, place, member, _, rfl⟩ :=
          Node.mem_earlyReads_iff.mp isRead
        have inside : Node.read name place ∈ condition.inOrder := by
          simpa [Node.inOrder] using member
        have later : location.Before place :=
          (List.pairwise_cons.mp increasing).1 _ inside
        cases (Location.notAfter_eq_false_iff.mpr later).symm.trans wrong
    | _ =>
        cases isCrowd
  · rintro (none | none)
    · rw [none, List.nil_append]
      exact inOrder_earlyReads_remarks increasing spelled _
    · rw [none, List.nil_append]
      refine inOrder_of_same_place node.location ?_
      intro diagnostic member
      rcases List.mem_append.mp member with crowd | remark
      · exact location_of_mem_crowding crowd
      · exact location_of_mem_remarks remark

/-- When the warning about many jumps is not too late, in terms of the jump. -/
theorem crowding_or_earlyReads_iff :
    (program.crowding index node = [] ∨
        Node.earlyReads (assigned (program.take index)) node.inOrder = []) ↔
      ∀ target condition location,
        node = .goTo target condition location →
        (program.take index).countP Node.isJump = jumpThreshold →
        program.ReadsAssigned index condition := by
  cases node with
  | goTo target condition location =>
      rw [Node.earlyReads_eq_nil_iff]
      constructor
      · rintro (none | known) _ _ _ ⟨⟩ crowded name place member
        · rw [crowding, if_pos crowded] at none
          cases none
        · exact known name place (List.mem_cons_of_mem _ member)
      · intro known
        by_cases crowded :
          (program.take index).countP Node.isJump = jumpThreshold
        · refine .inr ?_
          intro name place member
          refine known target condition location rfl crowded name place ?_
          simpa [Node.inOrder] using member
        · exact .inl (if_neg crowded)
  | _ =>
      simp [crowding]

/--
Without crowding, the warnings of an instruction are its early reads and its
remarks.
-/
theorem filter_warningsAt
    (program : Program)
    (index : Nat)
    (node : Node) :
    (program.warningsAt index node).filter (!·.isCrowding) =
      Node.earlyReads (assigned (program.take index)) node.inOrder ++
        program.remarks index node := by
  have reads :
      (Node.earlyReads (assigned (program.take index)) node.inOrder).filter
        (!·.isCrowding) =
        Node.earlyReads (assigned (program.take index)) node.inOrder := by
    refine List.filter_eq_self.mpr ?_
    intro diagnostic member
    obtain ⟨name, location, _, _, rfl⟩ := Node.mem_earlyReads_iff.mp member
    rfl
  have crowd : (program.crowding index node).filter (!·.isCrowding) = [] := by
    unfold crowding
    split
    · split <;> rfl
    · rfl
  have others :
      (program.remarks index node).filter (!·.isCrowding) =
        program.remarks index node := by
    unfold remarks
    split
    · split
      · split <;> rfl
      · rfl
    · split <;> rfl
    · rfl
  rw [warningsAt, List.filter_append, List.filter_append, reads, crowd, others,
    List.nil_append]

/-- All warnings but the one about many jumps come in source order. -/
theorem inOrder_filter_warnings
    (increasing : Node.Increasing (Node.allInOrder program))
    (spelled : ∀ node ∈ program, node.IsSpelled) :
    InOrder (program.warnings.filter (!·.isCrowding)) := by
  unfold InOrder
  rw [List.pairwise_filter, pairwise_warnings_iff increasing]
  · intro index node found
    have member := List.mem_of_getElem? found
    rw [← List.pairwise_filter, filter_warningsAt]
    exact inOrder_earlyReads_remarks (increasing.inside member)
      (spelled node member) _
  · intro first second earlier _ _
    exact earlier.notAfter

/-- With that warning, they do unless its jump has an early read. -/
theorem inOrder_warnings_iff
    (increasing : Node.Increasing (Node.allInOrder program))
    (spelled : ∀ node ∈ program, node.IsSpelled) :
    InOrder program.warnings ↔
      ∀ index target condition location,
        program[index]? = some (.goTo target condition location) →
        (program.take index).countP Node.isJump = jumpThreshold →
        program.ReadsAssigned index condition := by
  have each :
      ∀ index node,
        program[index]? = some node →
        (InOrder (program.warningsAt index node) ↔
          ∀ target condition location,
            node = .goTo target condition location →
            (program.take index).countP Node.isJump = jumpThreshold →
            program.ReadsAssigned index condition) := by
    intro index node found
    have member := List.mem_of_getElem? found
    rw [inOrder_warningsAt_iff (increasing.inside member) (spelled node member),
      crowding_or_earlyReads_iff]
  unfold InOrder
  rw [pairwise_warnings_iff increasing fun _ _ earlier => earlier.notAfter]
  constructor
  · intro ordered index target condition location found
    exact (each index _ found).mp (ordered index _ found) target
      condition location rfl
  · intro known index node found
    refine (each index node found).mpr ?_
    rintro target condition location rfl
    exact known index target condition location found

end Program

namespace Session

/--
The warnings about a source that compiles come in source order, except that the
warning about many jumps can come too late.  It does so exactly if the jump that
it points to, the first one beyond the threshold, reads a name that no
instruction before it assigns.  A run reports the warnings in the order in which
compilation gives them, and its failure last.
-/
theorem warnings_in_source_order_iff
    {session : Session}
    {source : String}
    {compiled : Compiled}
    (compiles : session.compile source = .ok compiled) :
    InOrder (compiled.warnings.filter (!·.isCrowding)) ∧
      (InOrder compiled.warnings ↔
        ∀ index target condition location,
          compiled.program[index]? = some (.goTo target condition location) →
          (compiled.program.take index).countP Node.isJump = jumpThreshold →
          compiled.program.ReadsAssigned index condition) ∧
      (session.run source).2.lines =
        compiled.warnings.map Diagnostic.describe ++
          failureLines (session.machine compiled.program).run.2 := by
  have sound := isSound_of_compile compiles
  obtain ⟨tokens, scanned, parsed, _⟩ := compile_eq_ok compiles
  have increasing := increasing_of_parse scanned parsed
  refine ⟨?_, ?_, lines_run compiles⟩
  · rw [sound.warnings_eq]
    exact Program.inOrder_filter_warnings increasing sound.spelled
  · rw [sound.warnings_eq]
    exact Program.inOrder_warnings_iff increasing sound.spelled

/--
A program with one jump and with every other kind of warning has them in order.
-/
theorem warnings_in_source_order_one_jump :
    let session := Session.start ⟨4, 10, none⟩
    let source :=
      "Spawn(0, 0)\nSize(2)\nx <- y + y\ny <- 1\ne\nGoTo[e](1 == 1)\n"
    ∃ compiled,
      session.compile source = .ok compiled ∧
        compiled.warnings.map Diagnostic.location =
          [⟨2, 1⟩, ⟨3, 6⟩, ⟨3, 10⟩, ⟨6, 1⟩] ∧
        InOrder compiled.warnings := by
  intro session source
  have settled :
      (session.compile source).toOption.any (fun compiled =>
        compiled.warnings.map Diagnostic.location =
          [⟨2, 1⟩, ⟨3, 6⟩, ⟨3, 10⟩, ⟨6, 1⟩] &&
          compiled.program.length = 6) = true := by
    decide +kernel
  obtain ⟨compiled, compiles, known⟩ := exists_eq_ok_of_any settled
  simp only [Bool.and_eq_true, decide_eq_true_eq] at known
  obtain ⟨places, length⟩ := known
  refine ⟨compiled, compiles, places, ?_⟩
  refine (warnings_in_source_order_iff compiles).2.1.mpr ?_
  intro index target condition location _ crowded
  have fewer :
      (compiled.program.take index).countP Node.isJump ≤
        compiled.program.length :=
    Nat.le_trans List.countP_le_length (List.length_take_le' ..)
  rw [crowded, length] at fewer
  exact absurd fewer (by decide)

/--
The jump after fifty others is warned about after the name that it reads too
early.
-/
theorem warnings_out_of_source_order :
    let session := Session.start ⟨1, 10, none⟩
    let source :=
      "Spawn(0, 0)\n" ++ String.join (List.replicate 50 "GoTo[e](1 < 1)\n") ++
        "GoTo[e](k < 1)\nk <- 1\ne"
    ∃ compiled,
      session.compile source = .ok compiled ∧
        compiled.warnings.map Diagnostic.location = [⟨52, 9⟩, ⟨52, 1⟩] ∧
        ¬ InOrder compiled.warnings := by
  intro session source
  have spelled :
      source.toList =
        "Spawn(0, 0)\n".toList ++
          (List.replicate 50 "GoTo[e](1 < 1)\n").flatMap String.toList ++
          "GoTo[e](k < 1)\nk <- 1\ne".toList := by
    rw [String.toList_append, String.toList_append, String.toList_join]
  have settled :
      ∃ compiled,
        session.compile source = .ok compiled ∧
          decide
            (compiled.warnings.map Diagnostic.location = [⟨52, 9⟩, ⟨52, 1⟩] ∧
              ¬ InOrder compiled.warnings) = true :=
    exists_compiled_of_characters spelled (by decide +kernel)
  obtain ⟨compiled, compiles, known⟩ := settled
  exact ⟨compiled, compiles, of_decide_eq_true known⟩

end Session

end PixelBrush

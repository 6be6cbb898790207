import Mathlib.Data.Finset.Card
import PixelBrush.Proofs.Painting

namespace PixelBrush

/-!
# Rolling back a journal

While a journal is open, undoing what it has recorded gives back the cells that
the canvas had when it was opened.  Painting a cell keeps this: a write of
another color records the color that it replaces, and a write of the same color
records nothing.  All drawing is painting, so it holds after any drawings.
Opening a journal anew forgets the older record, and after a commit or a
rollback there is none.
-/

/-- A color given to a cell. -/
structure Write where
  x : Int
  y : Int
  color : Color
  deriving Repr, DecidableEq

/-- One of the ways of drawing on a canvas. -/
inductive Drawing where
  | cell (x y : Int) (color : Color)
  | stamp (center : Point) (color : Color) (size : Int)
  | segment (path : Segment) (color : Color) (size : Int)
  | ring (circle : Ring) (color : Color) (size : Int)
  | box (center : Point) (width height : Int) (color : Color) (size : Int)
  | flood (x y : Int) (color : Color)
  deriving Repr, DecidableEq

/-- A drawing, or one of the three uses of the journal. -/
inductive Edit where
  | draw (drawing : Drawing)
  | openJournal
  | commit
  | rollback
  deriving Repr, DecidableEq

namespace Drawing

/-- The color that a drawing paints in. -/
def color : Drawing → Color
  | .cell _ _ color => color
  | .stamp _ color _ => color
  | .segment _ color _ => color
  | .ring _ color _ => color
  | .box _ _ _ color _ => color
  | .flood _ _ color => color

/-- The canvas after a drawing. -/
def draw (canvas : Canvas) : Drawing → Canvas
  | .cell x y color => canvas.paint x y color
  | .stamp center color size => canvas.stamp center color size
  | .segment path color size => canvas.drawSegment path color size
  | .ring circle color size => canvas.drawRing circle color size
  | .box center width height color size =>
      canvas.drawBox center width height color size
  | .flood x y color => (canvas.flood x y color).canvas

/-- Every drawing only paints, in its color. -/
theorem painted
    (canvas : Canvas)
    (drawing : Drawing) :
    Canvas.Painted drawing.color canvas (drawing.draw canvas) := by
  cases drawing with
  | cell x y color =>
      exact .paint canvas x y color
  | stamp center color size =>
      exact .stamp canvas center color size
  | segment path color size =>
      exact .drawSegment canvas path color size
  | ring circle color size =>
      exact .drawRing canvas circle color size
  | box center width height color size =>
      exact .drawBox canvas center width height color size
  | flood x y color =>
      exact .flood canvas x y color

end Drawing

namespace Canvas

/-- The canvas after an edit. -/
def edit (canvas : Canvas) : Edit → Canvas
  | .draw drawing => drawing.draw canvas
  | .openJournal => canvas.openJournal
  | .commit => canvas.commit
  | .rollback => canvas.rollback

/-- The canvas after edits, the first of the list first. -/
def edited (canvas : Canvas) (edits : List Edit) : Canvas :=
  edits.foldl edit canvas

/-- The canvas after writes, the first of the list first. -/
def paintAll (canvas : Canvas) (writes : List Write) : Canvas :=
  writes.foldl
    (fun canvas write => canvas.paint write.x write.y write.color) canvas

/-- The cell of a write is on the canvas, in another color. -/
def alters (canvas : Canvas) (write : Write) : Bool :=
  (canvas.get? write.x write.y).any (· != write.color)

/-- The number of writes that change the color of a cell. -/
def alterations (canvas : Canvas) : List Write → Nat
  | [] => 0
  | write :: writes =>
      (canvas.alters write).toNat + (canvas.paintAll [write]).alterations writes

/-- The number of cells in which two canvases differ. -/
def differences (before after : Canvas) : Nat :=
  ((Finset.range before.cells.size).filter fun index =>
    before.cells[index]? ≠ after.cells[index]?).card

/-- The number of cells that drawings change, counted anew for each drawing. -/
def recolored (canvas : Canvas) : List Drawing → Nat
  | [] => 0
  | drawing :: drawings =>
      canvas.differences (drawing.draw canvas) +
        (drawing.draw canvas).recolored drawings

/-- Edits can be made one list after the other. -/
theorem edited_append
    (canvas : Canvas)
    (first second : List Edit) :
    canvas.edited (first ++ second) = (canvas.edited first).edited second :=
  List.foldl_append

/-- Writes can be made one list after the other. -/
theorem paintAll_append
    (canvas : Canvas)
    (first second : List Write) :
    canvas.paintAll (first ++ second) =
      (canvas.paintAll first).paintAll second :=
  List.foldl_append

/-- The writes that change a cell are counted one list after the other. -/
theorem alterations_append
    (canvas : Canvas)
    (first second : List Write) :
    canvas.alterations (first ++ second) =
      canvas.alterations first +
        (canvas.paintAll first).alterations second := by
  induction first generalizing canvas with
  | nil =>
      exact (Nat.zero_add _).symm
  | cons write first inductionHypothesis =>
      rw [List.cons_append, alterations, alterations, inductionHypothesis,
        Nat.add_assoc]
      rfl

/-! ## What a write does -/

variable
  {canvas before after : Canvas}
  {write : Write}
  {color : Color}

/-- A write that changes no color changes nothing. -/
theorem paint_of_not_alters
    (same : canvas.alters write = false) :
    canvas.paint write.x write.y write.color = canvas := by
  unfold alters get? at same
  unfold paint
  split
  · rfl
  · rename_i index located
    rw [located, Option.bind_some] at same
    unfold Canvas.write
    split
    · rfl
    · rename_i previous stored
      rw [stored, Option.any_some, bne_eq_false_iff_eq] at same
      rw [if_pos same]

/--
A write of another color replaces it, and records it while a journal is open.
-/
theorem paint_of_alters
    (altered : canvas.alters write = true) :
    ∃ index previous,
      canvas.cells[index]? = some previous ∧
        previous ≠ write.color ∧
          (canvas.paint write.x write.y write.color).cells =
              canvas.cells.setIfInBounds index write.color ∧
            (canvas.paint write.x write.y write.color).journal =
              canvas.journal.map (⟨index, previous⟩ :: ·) := by
  obtain ⟨previous, shown, differs⟩ := (Option.any_eq_true ..).mp altered
  obtain ⟨index, located, stored⟩ := Option.bind_eq_some_iff.mp shown
  have other : previous ≠ write.color := bne_iff_ne.mp differs
  refine ⟨index, previous, stored, other, ?_, ?_⟩
  all_goals simp only [paint, located, Canvas.write, stored, if_neg other]

/-- A cell keeps the color that it shares with a write. -/
theorem getElem?_paint_of_eq
    {index : Nat}
    (colored : canvas.cells[index]? = some write.color) :
    (canvas.paint write.x write.y write.color).cells[index]? =
      some write.color := by
  cases altered : canvas.alters write with
  | false =>
      rw [paint_of_not_alters altered]
      exact colored
  | true =>
      obtain ⟨written, previous, stored, differs, cells, _⟩ :=
        paint_of_alters altered
      rw [cells, Array.getElem?_setIfInBounds_ne]
      · exact colored
      · rintro rfl
        rw [colored, Option.some.injEq] at stored
        exact differs stored.symm

/-- Where all writes are in one color, a cell that has it keeps it. -/
theorem getElem?_paintAll_of_eq
    {writes : List Write}
    (oneColor : ∀ write ∈ writes, write.color = color)
    {index : Nat}
    (colored : canvas.cells[index]? = some color) :
    (canvas.paintAll writes).cells[index]? = some color := by
  induction writes generalizing canvas with
  | nil =>
      exact colored
  | cons write writes inductionHypothesis =>
      obtain ⟨rfl, others⟩ := List.forall_mem_cons.mp oneColor
      exact inductionHypothesis others (getElem?_paint_of_eq colored)

/-- The cell that a write alters is one more in which two canvases differ. -/
theorem differences_of_set
    {index : Nat}
    {previous : Color}
    (stored : before.cells[index]? = some previous)
    (differs : previous ≠ color)
    (cells : canvas.cells = before.cells.setIfInBounds index color)
    (colored : after.cells[index]? = some color) :
    before.differences after = 1 + canvas.differences after := by
  obtain ⟨inside, _⟩ := Array.getElem?_eq_some_iff.mp stored
  have size : canvas.cells.size = before.cells.size := by
    rw [cells, Array.size_setIfInBounds]
  have here : canvas.cells[index]? = some color := by
    rw [cells, Array.getElem?_setIfInBounds_self_of_lt inside]
  have elsewhere :
      ∀ other, other ≠ index → canvas.cells[other]? = before.cells[other]? := by
    intro other apart
    rw [cells, Array.getElem?_setIfInBounds_ne apart.symm]
  have fresh :
      index ∉ (Finset.range canvas.cells.size).filter fun other =>
        canvas.cells[other]? ≠ after.cells[other]? := by
    simp [here, colored]
  rw [differences, differences, Nat.add_comm,
    ← Finset.card_insert_of_notMem fresh]
  congr 1
  ext other
  by_cases same : other = index
  · have unlike : before.cells[index]? ≠ after.cells[index]? := by
      rw [stored, colored, ne_eq, Option.some.injEq]
      exact differs
    rw [same]
    exact iff_of_true
      (Finset.mem_filter.mpr ⟨Finset.mem_range.mpr inside, unlike⟩)
      (Finset.mem_insert_self index _)
  · simp [same, elsewhere other same, size]

/--
In one color, as many writes change a cell as there are cells changed in the
end.
-/
theorem alterations_eq_differences
    {writes : List Write}
    (oneColor : ∀ write ∈ writes, write.color = color) :
    canvas.alterations writes =
      canvas.differences (canvas.paintAll writes) := by
  induction writes generalizing canvas with
  | nil =>
      simp [alterations, differences, paintAll]
  | cons write writes inductionHypothesis =>
      obtain ⟨rfl, others⟩ := List.forall_mem_cons.mp oneColor
      have rest := @inductionHypothesis (canvas.paintAll [write]) others
      rw [← paintAll_append, List.singleton_append] at rest
      rw [alterations, rest]
      cases altered : canvas.alters write with
      | false =>
          have same : canvas.paintAll [write] = canvas :=
            paint_of_not_alters altered
          rw [same, Bool.toNat_false, Nat.zero_add]
      | true =>
          obtain ⟨index, previous, stored, differs, cells, _⟩ :=
            paint_of_alters altered
          obtain ⟨inside, _⟩ := Array.getElem?_eq_some_iff.mp stored
          have colored :
              (canvas.paintAll [write]).cells[index]? = some write.color := by
            show (canvas.paint write.x write.y write.color).cells[index]? = _
            rw [cells, Array.getElem?_setIfInBounds_self_of_lt inside]
          exact
            (differences_of_set stored differs cells
              (getElem?_paintAll_of_eq others colored)).symm

/-! ## Drawings as writes -/

/-- Painting in one color is a list of writes of this color. -/
theorem Painted.exists_writes
    (painted : Painted color before after) :
    ∃ writes,
      (∀ write ∈ writes, write.color = color) ∧
        after = before.paintAll writes := by
  induction painted with
  | refl =>
      exact ⟨[], by simp, rfl⟩
  | tail _ last inductionHypothesis =>
      obtain ⟨writes, oneColor, rfl⟩ := inductionHypothesis
      obtain ⟨x, y, rfl⟩ := last
      refine ⟨writes ++ [⟨x, y, color⟩], ?_, ?_⟩
      · intro write member
        rcases List.mem_append.mp member with earlier | isLast
        · exact oneColor write earlier
        · rw [List.mem_singleton.mp isLast]
      · rw [paintAll_append]
        rfl

/--
Drawings are writes, and those that change a color are counted by the cells
changed.
-/
theorem exists_writes_of_drawings
    (canvas : Canvas)
    (drawings : List Drawing) :
    ∃ writes,
      canvas.edited (drawings.map .draw) = canvas.paintAll writes ∧
        canvas.alterations writes = canvas.recolored drawings := by
  induction drawings generalizing canvas with
  | nil =>
      exact ⟨[], rfl, rfl⟩
  | cons drawing drawings inductionHypothesis =>
      obtain ⟨first, oneColor, drawn⟩ := (drawing.painted canvas).exists_writes
      obtain ⟨others, edited, counted⟩ :=
        inductionHypothesis (drawing.draw canvas)
      refine ⟨first ++ others, ?_, ?_⟩
      · rw [paintAll_append, ← drawn]
        exact edited
      · rw [alterations_append, alterations_eq_differences oneColor, ← drawn,
          counted]
        rfl

/-! ## What an open journal recalls -/

/-- Undoing the open journal gives these cells back, in so many writes. -/
structure Recalls
    (cells : Array Color)
    (count : Nat)
    (canvas : Canvas) :
    Prop where
  isOpen : canvas.journal = some canvas.changes
  cells_eq : undo canvas.cells canvas.changes = cells
  restored_eq : canvas.restored = count

/-- The newest change is undone by the color that it recorded. -/
theorem undo_cons_set
    {cells : Array Color}
    {index : Nat}
    {previous : Color}
    (stored : cells[index]? = some previous)
    (color : Color)
    (changes : List Change) :
    undo (cells.setIfInBounds index color) (⟨index, previous⟩ :: changes) =
      undo cells changes := by
  obtain ⟨inside, same⟩ := Array.getElem?_eq_some_iff.mp stored
  have back :
      (cells.setIfInBounds index color).setIfInBounds index previous =
        cells := by
    rw [Array.setIfInBounds_setIfInBounds, ← same, Array.setIfInBounds,
      dif_pos inside, Array.set_getElem_self]
  show undo
    ((cells.setIfInBounds index color).setIfInBounds index previous) changes = _
  rw [back]

namespace Recalls

variable
  {cells : Array Color}
  {count : Nat}

/-- A journal that was just opened recalls the cells as they are. -/
theorem openJournal (canvas : Canvas) :
    Recalls canvas.cells 0 canvas.openJournal :=
  ⟨rfl, rfl, rfl⟩

/-- A canvas whose journal is open recalls what rolling back would give. -/
theorem self
    (isOpen : canvas.journal ≠ none) :
    Recalls canvas.rollback.cells canvas.restored canvas := by
  obtain ⟨changes, isSome⟩ := Option.ne_none_iff_exists'.mp isOpen
  refine ⟨?_, rfl, rfl⟩
  rw [Canvas.changes, isSome, Option.getD_some]

/--
After a write, a journal recalls the same cells, in one write more if it changed
a color.
-/
theorem paint
    (recalls : Recalls cells count canvas)
    (write : Write) :
    Recalls cells (count + (canvas.alters write).toNat)
      (canvas.paint write.x write.y write.color) := by
  cases altered : canvas.alters write with
  | false =>
      rw [paint_of_not_alters altered]
      exact recalls
  | true =>
      obtain ⟨index, previous, stored, _, newCells, journal⟩ :=
        paint_of_alters altered
      rw [recalls.isOpen, Option.map_some] at journal
      have changes :
          (canvas.paint write.x write.y write.color).changes =
            ⟨index, previous⟩ :: canvas.changes := by
        rw [Canvas.changes, journal, Option.getD_some]
      refine ⟨?_, ?_, ?_⟩
      · rw [journal, changes]
      · rw [newCells, changes, undo_cons_set stored, recalls.cells_eq]
      · rw [restored, changes, List.length_cons]
        exact congrArg (· + 1) recalls.restored_eq

/--
After writes, a journal recalls the same cells, in one write more for each that
changed a color.
-/
theorem paintAll
    (recalls : Recalls cells count canvas)
    (writes : List Write) :
    Recalls cells (count + canvas.alterations writes)
      (canvas.paintAll writes) := by
  induction writes generalizing canvas count with
  | nil =>
      exact recalls
  | cons write writes inductionHypothesis =>
      rw [alterations, ← Nat.add_assoc]
      exact inductionHypothesis (recalls.paint write)

end Recalls

/-- No journal is opened by painting. -/
theorem Painted.journal_eq_none
    (painted : Painted color before after)
    (closed : before.journal = none) :
    after.journal = none := by
  have step :
      ∀ canvas x y,
        journal canvas = none → (canvas.paint x y color).journal = none := by
    intro canvas x y closed
    cases altered : canvas.alters ⟨x, y, color⟩ with
    | false =>
        exact (congrArg journal (paint_of_not_alters altered)).trans closed
    | true =>
        obtain ⟨_, _, _, _, _, journal⟩ := paint_of_alters altered
        rw [closed] at journal
        exact journal
  exact painted.preserves step closed

/-- Drawing opens no journal. -/
theorem journal_eq_none_of_drawings
    (closed : canvas.journal = none)
    (drawings : List Drawing) :
    (canvas.edited (drawings.map .draw)).journal = none := by
  induction drawings generalizing canvas with
  | nil =>
      exact closed
  | cons drawing drawings inductionHypothesis =>
      exact inductionHypothesis
        ((drawing.painted canvas).journal_eq_none closed)

/-- Without a journal there is nothing to roll back. -/
theorem rollback_of_closed
    (closed : canvas.journal = none) :
    canvas.rollback.cells = canvas.cells ∧ canvas.restored = 0 := by
  have nothing : canvas.changes = [] := by
    rw [changes, closed, Option.getD_none]
  constructor
  · show undo canvas.cells canvas.changes = canvas.cells
    rw [nothing]
    rfl
  · rw [restored, nothing, List.length_nil]

/-! ## Sequences of edits -/

/-- No edit changes the size of a canvas. -/
theorem size_edited
    (canvas : Canvas)
    (edits : List Edit) :
    (canvas.edited edits).size = canvas.size := by
  induction edits generalizing canvas with
  | nil =>
      rfl
  | cons first edits inductionHypothesis =>
      refine (inductionHypothesis (canvas.edit first)).trans ?_
      cases first with
      | draw drawing =>
          exact (drawing.painted canvas).size_eq
      | openJournal | commit | rollback =>
          rfl

/-- Edits are drawings only, or drawings after a last use of the journal. -/
theorem drawings_or_last_use (edits : List Edit) :
    (∃ drawings : List Drawing, edits = drawings.map .draw) ∨
      ∃ earlier use, ∃ drawings : List Drawing,
        edits = earlier ++ use :: drawings.map .draw ∧
          (use = .openJournal ∨ use = .commit ∨ use = .rollback) := by
  induction edits with
  | nil =>
      exact .inl ⟨[], rfl⟩
  | cons first edits inductionHypothesis =>
      rcases inductionHypothesis with
        ⟨drawings, rfl⟩ | ⟨earlier, use, drawings, rfl, isUse⟩
      · cases first with
        | draw drawing =>
            exact .inl ⟨drawing :: drawings, rfl⟩
        | openJournal | commit | rollback =>
            exact .inr ⟨[], _, drawings, rfl, by simp⟩
      · exact .inr ⟨first :: earlier, use, drawings, rfl, isUse⟩

/--
Rolling back after any edits.  If the journal was last opened with nothing but
drawings after it, the cells are again those of that moment, and as many changes
are undone as writes have changed a color since: as many as the drawings changed
cells, each drawing counted by itself.  A journal that was open from the start
counts as opened before the edits.  In all other cases no journal is open and
nothing is undone.
-/
theorem rollback_after_edits
    (canvas : Canvas)
    (edits : List Edit) :
    let final := canvas.edited edits
    (final.size = canvas.size ∧
      final.rollback.size = canvas.size ∧ final.rollback.journal = none) ∧
    (∀ (earlier : List Edit) (drawings : List Drawing),
      edits = earlier ++ .openJournal :: drawings.map .draw →
      let opened := (canvas.edited earlier).openJournal
      final.rollback.cells = (canvas.edited earlier).cells ∧
        final.restored = opened.recolored drawings ∧
          ∃ writes,
            final = opened.paintAll writes ∧
              final.restored = opened.alterations writes) ∧
    (∀ drawings : List Drawing,
      edits = drawings.map .draw →
      canvas.journal ≠ none →
      final.rollback.cells = canvas.rollback.cells ∧
        final.restored = canvas.restored + canvas.recolored drawings) ∧
    ((∀ (earlier : List Edit) (drawings : List Drawing),
        edits ≠ earlier ++ .openJournal :: drawings.map .draw) →
      (canvas.journal = none ∨
        ∀ drawings : List Drawing, edits ≠ drawings.map .draw) →
      final.rollback.cells = final.cells ∧ final.restored = 0) := by
  refine ⟨⟨size_edited canvas edits, size_edited canvas edits, rfl⟩, ?_, ?_, ?_⟩
  · rintro earlier drawings rfl
    obtain ⟨writes, drawn, counted⟩ :=
      exists_writes_of_drawings (canvas.edited earlier).openJournal drawings
    have final :
        canvas.edited (earlier ++ .openJournal :: drawings.map .draw) =
          (canvas.edited earlier).openJournal.paintAll writes :=
      (edited_append canvas earlier _).trans drawn
    have recalls :=
      (Recalls.openJournal (canvas.edited earlier)).paintAll writes
    rw [← final, Nat.zero_add] at recalls
    exact ⟨recalls.cells_eq, recalls.restored_eq.trans counted,
      writes, final, recalls.restored_eq⟩
  · rintro drawings rfl isOpen
    obtain ⟨writes, drawn, counted⟩ := exists_writes_of_drawings canvas drawings
    have recalls := (Recalls.self isOpen).paintAll writes
    rw [← drawn, counted] at recalls
    exact ⟨recalls.cells_eq, recalls.restored_eq⟩
  · intro notOpened unopened
    apply rollback_of_closed
    rcases drawings_or_last_use edits with
      ⟨drawings, rfl⟩ | ⟨earlier, use, drawings, rfl, isUse⟩
    · have closed := unopened.resolve_right fun never => never drawings rfl
      exact journal_eq_none_of_drawings closed drawings
    · rw [edited_append]
      rcases isUse with rfl | rfl | rfl
      · exact absurd rfl (notOpened earlier drawings)
      · exact journal_eq_none_of_drawings rfl drawings
      · exact journal_eq_none_of_drawings rfl drawings

end Canvas

end PixelBrush

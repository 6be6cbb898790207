import Mathlib.Logic.Relation
import PixelBrush.Canvas.Flood
import PixelBrush.Canvas.Ring
import PixelBrush.Canvas.Segment

namespace PixelBrush

/-!
# Drawing as painting

Stamps, segments, rings, boxes and floods all reach the canvas through `paint`.
This module states that once, so that what painting one cell preserves is
preserved by every drawing operation.  It also says when a stamp paints
nothing: when its footprint holds no cell of the canvas.
-/

namespace Flood

/-- Looking at a cell changes no cell. -/
theorem canvas_discover
    (old : Color)
    (flood : Flood)
    (point : Point) :
    (flood.discover old point).canvas = flood.canvas := by
  unfold discover
  split <;> rfl

/-- Looking at several cells changes no cell. -/
theorem canvas_discoverAll
    (old : Color)
    (points : List Point)
    (flood : Flood) :
    (points.foldl (discover old) flood).canvas = flood.canvas := by
  induction points generalizing flood with
  | nil =>
      rfl
  | cons point points inductionHypothesis =>
      rw [List.foldl_cons, inductionHypothesis, canvas_discover]

end Flood

namespace Canvas

/-- The second canvas is the first one after painting one cell. -/
def PaintsCell (color : Color) (before after : Canvas) : Prop :=
  ∃ x y, after = before.paint x y color

/-- The second canvas is the first one after painting any number of cells. -/
abbrev Painted (color : Color) : Canvas → Canvas → Prop :=
  Relation.ReflTransGen (PaintsCell color)

namespace Painted

/-- One painted cell is a way of painting. -/
theorem paint
    (canvas : Canvas)
    (x y : Int)
    (color : Color) :
    Painted color canvas (canvas.paint x y color) :=
  .single ⟨x, y, rfl⟩

/-- What painting one cell preserves, painting any number of cells preserves. -/
theorem preserves
    {color : Color}
    {Invariant : Canvas → Prop}
    (step :
      ∀ canvas x y,
        Invariant canvas →
        Invariant (canvas.paint x y color))
    {before after : Canvas}
    (painted : Painted color before after)
    (holds : Invariant before) :
    Invariant after := by
  induction painted with
  | refl =>
      exact holds
  | tail _ last inductionHypothesis =>
      obtain ⟨x, y, rfl⟩ := last
      exact step _ x y inductionHypothesis

/-- Steps that each only paint can be taken one after the other. -/
theorem foldl
    {Item : Type}
    {color : Color}
    {draw : Canvas → Item → Canvas}
    (paints : ∀ canvas item, Painted color canvas (draw canvas item))
    (items : List Item)
    (canvas : Canvas) :
    Painted color canvas (items.foldl draw canvas) := by
  induction items generalizing canvas with
  | nil =>
      exact .refl
  | cons item rest inductionHypothesis =>
      exact (paints canvas item).trans (inductionHypothesis _)

/-! Every drawing operation only paints, since the ones it is made of do. -/

/-- A run of one row is painted cell by cell. -/
theorem paintRun
    (canvas : Canvas)
    (x y : Int)
    (color : Color)
    (count : Nat) :
    Painted color canvas (canvas.paintRun x y color count) := by
  induction count generalizing canvas x with
  | zero =>
      exact .refl
  | succ count inductionHypothesis =>
      exact (paint canvas x y color).trans (inductionHypothesis _ _)

/-- A block is painted row by row. -/
theorem paintBlock
    (canvas : Canvas)
    (x y : Int)
    (color : Color)
    (width height : Nat) :
    Painted color canvas (canvas.paintBlock x y color width height) := by
  induction height generalizing canvas y with
  | zero =>
      exact .refl
  | succ height inductionHypothesis =>
      exact (paintRun canvas x y color width).trans (inductionHypothesis _ _)

/-- A stamp paints a block of cells. -/
theorem stamp
    (canvas : Canvas)
    (center : Point)
    (color : Color)
    (size : Int) :
    Painted color canvas (canvas.stamp center color size) :=
  paintBlock ..

/-- The steps of a segment are painted stamp by stamp. -/
theorem stampSteps
    (canvas : Canvas)
    (segment : Segment)
    (color : Color)
    (size : Int)
    (k count : Nat) :
    Painted color canvas (canvas.stampSteps segment color size k count) := by
  induction count generalizing canvas k with
  | zero =>
      exact .refl
  | succ count inductionHypothesis =>
      exact (stamp canvas _ color size).trans (inductionHypothesis _ _)

/-- A segment only paints. -/
theorem drawSegment
    (canvas : Canvas)
    (segment : Segment)
    (color : Color)
    (size : Int) :
    Painted color canvas (canvas.drawSegment segment color size) :=
  stampSteps ..

/-- A box only paints, one edge after the other. -/
theorem drawBox
    (canvas : Canvas)
    (center : Point)
    (width height : Int)
    (color : Color)
    (size : Int) :
    Painted color canvas (canvas.drawBox center width height color size) :=
  foldl (fun canvas side => drawSegment canvas side color size) _ canvas

/-- The eight stamps of a row only paint. -/
theorem stampOctants
    (canvas : Canvas)
    (walk : Ring.Walk)
    (center : Point)
    (color : Color)
    (size : Int) :
    Painted color canvas (canvas.stampOctants walk center color size) :=
  foldl (fun canvas point => stamp canvas point color size) _ canvas

/-- The walk around a ring only paints. -/
theorem walkRing
    (canvas : Canvas)
    (ring : Ring)
    (bands : List Ring.Band)
    (color : Color)
    (size : Int)
    (walk : Ring.Walk) :
    Painted color canvas (canvas.walkRing ring bands color size walk) := by
  fun_induction Canvas.walkRing canvas ring bands color size walk with
  | case1 canvas walk inside noBand =>
      exact .refl
  | case2 canvas walk inside target band later jumped inductionHypothesis =>
      exact inductionHypothesis
  | case3 canvas walk inside target band stays inductionHypothesis =>
      exact (stampOctants canvas walk ring.center color size).trans
        inductionHypothesis
  | case4 canvas walk done =>
      exact .refl

/-- A ring only paints. -/
theorem drawRing
    (canvas : Canvas)
    (ring : Ring)
    (color : Color)
    (size : Int) :
    Painted color canvas (canvas.drawRing ring color size) := by
  unfold Canvas.drawRing
  dsimp only
  split
  · exact walkRing ..
  · exact .refl

/-- A flood only paints, from any point of its search on. -/
theorem spread
    (old new : Color)
    (flood : Flood) :
    Painted new flood.canvas (Flood.spread old new flood).canvas := by
  fun_induction Flood.spread old new flood with
  | case1 flood done =>
      exact .refl
  | case2 flood point queue popped inductionHypothesis =>
      rw [Flood.canvas_discoverAll] at inductionHypothesis
      exact (paint flood.canvas point.x point.y new).trans inductionHypothesis

/-- A flood only paints, in its color. -/
theorem flood
    (canvas : Canvas)
    (x y : Int)
    (color : Color) :
    Painted color canvas (canvas.flood x y color).canvas := by
  unfold Canvas.flood
  split
  · exact .refl
  · rename_i old found
    split
    · exact .refl
    · have spreading :=
        spread old color ((Flood.start canvas).discover old ⟨x, y⟩)
      rw [Flood.canvas_discover] at spreading
      exact spreading

end Painted

/-- Painting keeps the size of the canvas. -/
theorem size_paint
    (canvas : Canvas)
    (x y : Int)
    (color : Color) :
    (canvas.paint x y color).size = canvas.size := by
  unfold paint
  split
  · rfl
  · unfold write
    split
    · rfl
    · split <;> rfl

/-- Painting keeps the side of the canvas. -/
theorem Painted.size_eq
    {color : Color}
    {before after : Canvas}
    (painted : Painted color before after) :
    after.size = before.size :=
  painted.preserves
    (fun canvas x y same => (size_paint canvas x y color).trans same) rfl

/-- The cells in the square footprint around a point. -/
def Covers (half : Int) (center : Point) (x y : Int) : Prop :=
  center.x - half ≤ x ∧ x ≤ center.x + half ∧
    center.y - half ≤ y ∧ y ≤ center.y + half

/-- A footprint that holds no cell of the canvas. -/
def Misses (canvas : Canvas) (half : Int) (center : Point) : Prop :=
  ∀ x y, InSquare canvas.size x y → ¬ Covers half center x y

/-- A block without columns paints nothing. -/
theorem paintBlock_zero_width
    (canvas : Canvas)
    (x y : Int)
    (color : Color)
    (height : Nat) :
    canvas.paintBlock x y color 0 height = canvas := by
  induction height generalizing y with
  | zero =>
      rfl
  | succ height inductionHypothesis =>
      exact inductionHypothesis (y + 1)

/-- A stamp whose footprint misses the canvas changes nothing. -/
theorem stamp_of_misses
    {canvas : Canvas}
    {center : Point}
    {size : Int}
    (color : Color)
    (misses : canvas.Misses (reach size) center) :
    canvas.stamp center color size = canvas := by
  unfold stamp
  dsimp only
  generalize reach size = half at misses ⊢
  -- The corner where the clipped block starts would be a covered cell.
  have corner :=
    misses (max (center.x - half) 0) (max (center.y - half) 0)
  have empty :
      (min (center.x + half) (canvas.size - 1) -
          max (center.x - half) 0 + 1).toNat = 0 ∨
        (min (center.y + half) (canvas.size - 1) -
          max (center.y - half) 0 + 1).toNat = 0 := by
    apply Decidable.byContradiction
    intro nonempty
    apply corner
    · simp only [InSquare]
      omega
    · simp only [Covers]
      omega
  rcases empty with noColumns | noRows
  · rw [noColumns]
    exact paintBlock_zero_width ..
  · rw [noRows]
    rfl

end Canvas

end PixelBrush

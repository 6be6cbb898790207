import PixelBrush.Number
import PixelBrush.Proofs.Painting
import PixelBrush.Proofs.Words

namespace PixelBrush.Words

open Width Checked

/-!
# Stamps in words

The side of a brush and the coordinates of a cell are words of 32 bits, and the
edges of a footprint are calculated with 64 bits.  Around a point that is not
much farther away than a brush can be, all of them fit, so a stamp in words
paints what a stamp paints.
-/

/--
Paints `count` cells of one row; the coordinates of a cell are narrowed to 32
bits.
-/
def paintRun
    (canvas : Canvas)
    (x y : Int)
    (color : Color) :
    Nat → Checked Canvas
  | 0 => return canvas
  | count + 1 => do
      let column ← bits32.keep x
      let row ← bits32.keep y
      paintRun (canvas.paint column row color) (x + 1) y color count

/-- Paints `height` rows of `width` cells each. -/
def paintBlock
    (canvas : Canvas)
    (x y : Int)
    (color : Color)
    (width : Nat) :
    Nat → Checked Canvas
  | 0 => return canvas
  | height + 1 => do
      let painted ← paintRun canvas x y color width
      paintBlock painted x (y + 1) color width height

/--
How far a footprint reaches from its center; the side of a brush has 32 bits.
-/
def reach (size : Int) : Checked Int :=
  bits32.calculate (size / 2)

/-- Paints the footprint of a brush around a point. -/
def stamp
    (canvas : Canvas)
    (center : Point)
    (color : Color)
    (size : Int) :
    Checked Canvas := do
  let half ← reach size
  let left ← bits64.calculate (max (center.x - half) 0)
  let right ← bits64.calculate (min (center.x + half) ((canvas.size : Int) - 1))
  let top ← bits64.calculate (max (center.y - half) 0)
  let bottom ← bits64.calculate
    (min (center.y + half) ((canvas.size : Int) - 1))
  -- The ends of the ranges are included, and no value beyond them is
  -- calculated.
  paintBlock canvas left top color (right - left + 1).toNat
    (bottom - top + 1).toNat

/-- Of a run of words, the first is one and the others are a run. -/
theorem holds_run
    {start : Int}
    {count : Nat}
    (run : ∀ k : Nat, k < count + 1 → bits32.Holds (start + k)) :
    bits32.Holds start ∧ ∀ k : Nat,
      k < count → bits32.Holds (start + 1 + k) := by
  constructor
  · simpa using run 0 (Nat.zero_lt_succ count)
  · intro k inside
    have shifted : start + 1 + k = start + (k + 1 : Nat) := by
      omega
    rw [shifted]
    exact run (k + 1) (Nat.succ_lt_succ inside)

/-- Painting a run in words paints it, if all its coordinates are words. -/
theorem paintRun_eq
    (canvas : Canvas)
    {x y : Int}
    (color : Color)
    {count : Nat}
    (columns : ∀ k : Nat, k < count → bits32.Holds (x + k))
    (row : bits32.Holds y) :
    paintRun canvas x y color count =
      some (canvas.paintRun x y color count) := by
  induction count generalizing canvas x with
  | zero =>
      rfl
  | succ count inductionHypothesis =>
      obtain ⟨first, rest⟩ := holds_run columns
      rw [paintRun, bind_of_some (keep_of_holds first),
        bind_of_some (keep_of_holds row)]
      exact inductionHypothesis _ rest

/-- Painting a block in words paints it, if all its coordinates are words. -/
theorem paintBlock_eq
    (canvas : Canvas)
    {x y : Int}
    (color : Color)
    {width height : Nat}
    (columns : ∀ k : Nat, k < width → bits32.Holds (x + k))
    (rows : ∀ k : Nat, k < height → bits32.Holds (y + k)) :
    paintBlock canvas x y color width height =
      some (canvas.paintBlock x y color width height) := by
  induction height generalizing canvas y with
  | zero =>
      rfl
  | succ height inductionHypothesis =>
      obtain ⟨first, rest⟩ := holds_run rows
      rw [paintBlock, bind_of_some (paintRun_eq canvas color columns first)]
      exact inductionHypothesis _ rest

/-- The reach of a brush is at most half of the largest side. -/
theorem reach_bounds
    {size : Int}
    (inRange : Number.InRange size) :
    -1073741824 ≤ Canvas.reach size ∧ Canvas.reach size ≤ 1073741824 := by
  unfold Number.InRange at inRange
  unfold Canvas.reach
  grind

/-- The reach of a brush fits into a word. -/
theorem reach_eq
    {size : Int}
    (inRange : Number.InRange size) :
    reach size = some (Canvas.reach size) := by
  have bounds := reach_bounds inRange
  unfold Number.InRange at inRange
  unfold Canvas.reach at bounds
  exact calculate_of_fits (by simp; omega)

/--
The first and the last coordinate around which a footprint reaches the canvas.
-/
theorem edges_eq
    {size : Nat}
    {half : Int}
    (side : size ≤ 512)
    (bounds : -1073741824 ≤ half ∧ half ≤ 1073741824) :
    bits64.calculate (0 - half) = some (-half) ∧
      bits64.calculate ((size : Int) - 1 + half) =
        some ((size : Int) - 1 + half) := by
  constructor
  · rw [← Int.zero_sub half]
    exact calculate_of_fits (by simp; omega)
  · exact calculate_of_fits (by simp; omega)

/-- The points that a brush comes to with a figure of the largest distance. -/
def Near (point : Point) : Prop :=
  -4294967296 ≤ point.x ∧ point.x ≤ 4294967296 ∧
    -4294967296 ≤ point.y ∧ point.y ≤ 4294967296

/-- Stamping in words is stamping. -/
theorem stamp_eq
    {canvas : Canvas}
    {center : Point}
    (color : Color)
    {size : Int}
    (side : canvas.size ≤ 512)
    (near : Near center)
    (inRange : Number.InRange size) :
    stamp canvas center color size = some (canvas.stamp center color size) := by
  have bounds := reach_bounds inRange
  unfold Near at near
  rw [stamp, bind_of_some (reach_eq inRange), Canvas.stamp]
  generalize Canvas.reach size = half at bounds ⊢
  have left :
      bits64.calculate (max (center.x - half) 0) =
        some (max (center.x - half) 0) :=
    calculate_of_fits (by simp; omega)
  have right :
      bits64.calculate (min (center.x + half) ((canvas.size : Int) - 1)) =
        some (min (center.x + half) ((canvas.size : Int) - 1)) :=
    calculate_of_fits (by simp; omega)
  have top :
      bits64.calculate (max (center.y - half) 0) =
        some (max (center.y - half) 0) :=
    calculate_of_fits (by simp; omega)
  have bottom :
      bits64.calculate (min (center.y + half) ((canvas.size : Int) - 1)) =
        some (min (center.y + half) ((canvas.size : Int) - 1)) :=
    calculate_of_fits (by simp; omega)
  rw [bind_of_some left, bind_of_some right, bind_of_some top,
    bind_of_some bottom]
  apply paintBlock_eq
  · intro k inside
    simp only [Width.Holds, Width.bound]
    omega
  · intro k inside
    simp only [Width.Holds, Width.bound]
    omega

/--
Drawing one item after the other in words, when each of them is drawn as it
should be.
-/
theorem foldlM_eq
    {Item : Type}
    {draw : Canvas → Item → Checked Canvas}
    {exactly : Canvas → Item → Canvas}
    {items : List Item}
    {canvas : Canvas}
    (side : canvas.size ≤ 512)
    (keepsSide : ∀ canvas item, (exactly canvas item).size = canvas.size)
    (agrees :
      ∀ canvas : Canvas,
        canvas.size ≤ 512 →
        ∀ item ∈ items,
          draw canvas item = some (exactly canvas item)) :
    items.foldlM draw canvas = some (items.foldl exactly canvas) := by
  induction items generalizing canvas with
  | nil =>
      rfl
  | cons item items inductionHypothesis =>
      rw [List.foldlM_cons, bind_of_some (agrees canvas side item (by simp)),
        List.foldl_cons]
      apply inductionHypothesis
      · rw [keepsSide]
        exact side
      · intro canvas side other member
        exact agrees canvas side other (by simp [member])

end PixelBrush.Words

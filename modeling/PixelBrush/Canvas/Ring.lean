import PixelBrush.Canvas.Stamp
import PixelBrush.Search

namespace PixelBrush

/-!
# Rings

A ring is walked row by row from its rightmost point to the diagonal, and each
row is painted at its eight symmetric points.  Three shortcuts keep the cost of
a ring close to the size of the canvas: rings far from the canvas are not walked
at all, only rows inside a band that can reach the canvas are painted, and the
walk jumps to a band by a closed form of its state.
-/

/-- A circle outline around a point. -/
structure Ring where
  center : Point
  radius : Int
  deriving Repr, DecidableEq

namespace Ring

/-- The state of the walk: its column, its row and its error term. -/
structure Walk where
  x : Int
  y : Int
  error : Int
  deriving Repr, DecidableEq

namespace Walk

/-- The walk starts at the rightmost point. -/
def start (radius : Int) : Walk :=
  ⟨radius, 0, 0⟩

/-- One row further, and one column inwards when the error asks for it. -/
def next (walk : Walk) : Walk :=
  let y := walk.y + 1
  let error := walk.error + (1 + 2 * y)
  if 2 * (error - walk.x) + 1 > 0 then
    ⟨walk.x - 1, y, error + (1 - 2 * (walk.x - 1))⟩
  else
    ⟨walk.x, y, error⟩

/-- Each step of the walk goes one row further. -/
theorem next_y (walk : Walk) : walk.next.y = walk.y + 1 := by
  simp only [next]
  split <;> rfl

/-- The walk never goes outwards. -/
theorem next_x_le (walk : Walk) : walk.next.x ≤ walk.x := by
  simp only [next]
  split <;> simp only <;> omega

/-- The eight points that a row of the walk stands for. -/
def octants (walk : Walk) (center : Point) : List Point :=
  [⟨center.x + walk.x, center.y + walk.y⟩,
    ⟨center.x + walk.y, center.y + walk.x⟩,
    ⟨center.x - walk.y, center.y + walk.x⟩,
    ⟨center.x - walk.x, center.y + walk.y⟩,
    ⟨center.x - walk.x, center.y - walk.y⟩,
    ⟨center.x - walk.y, center.y - walk.x⟩,
    ⟨center.x + walk.y, center.y - walk.x⟩,
    ⟨center.x + walk.x, center.y - walk.y⟩]

end Walk

/--
The column of the walk at a row, exact while it moves at most one column a row.
-/
def columnAt? (radius row : Int) : Option Int :=
  let discriminant :=
    4 * (radius * radius - 2 * radius - row * row - 2 * row) + 9
  if discriminant < 1 then
    none
  else
    some ((squareRoot (discriminant - 1).toNat + 3) / 2 : Nat)

/-- The rows at which the closed form of the column is exact. -/
def exactAt (radius : Int) (row : Nat) : Bool :=
  (columnAt? radius row).any fun column => (row : Int) + 2 ≤ column

/--
The last row in `1..target` where the closed form is exact, if it is at the
first.
-/
def lastExact (radius : Int) (target : Nat) : Nat :=
  if exactAt radius target then
    target
  else
    lastWhere (exactAt radius) 1 target

/--
The state of the walk at the last row in `1..target` where the closed form is
exact.
-/
def walkAt? (radius target : Int) : Option Walk :=
  if target < 1 ∨ ¬ exactAt radius 1 then
    none
  else
    let row := lastExact radius target.toNat
    (columnAt? radius row).map fun column =>
      ⟨column, row, column * column + row * row - radius * radius + 2 * row +
        2 * radius - 2 * column⟩

/-- A range of rows, both ends included. -/
structure Band where
  first : Int
  last : Int
  deriving Repr, DecidableEq

namespace Band

/-- Bands are ordered by their first row, and then by their last one. -/
def le (band other : Band) : Bool :=
  band.first < other.first ∨ band.first = other.first ∧ band.last ≤ other.last

/-- Adds a band to bands in order. -/
def insert (band : Band) : List Band → List Band
  | [] => [band]
  | other :: rest =>
      if band.le other then
        band :: other :: rest
      else
        other :: insert band rest

/-- Puts bands in order. -/
def sort (bands : List Band) : List Band :=
  bands.foldr insert []

end Band

/--
The rows outside which no point of the ring can touch the canvas with its stamp.
-/
def bands (ring : Ring) (size : Nat) (half : Int) : List Band :=
  let low := -half
  let high := size - 1 + half
  let around (center : Int) : List Band :=
    [⟨max (low - center) 0, high - center⟩,
      ⟨max (center - high) 0, center - low⟩]
  let found := around ring.center.x ++ around ring.center.y
  Band.sort (found.filter fun band => band.first ≤ band.last)

/-- The first row of the first band that has not ended before `row`. -/
def nextBand? (bands : List Band) (row : Int) : Option Int :=
  (bands.find? fun band => row ≤ band.last).map Band.first

/-- A ring that is near enough and wide enough to touch the canvas. -/
def mayTouch (ring : Ring) (size : Nat) (half : Int) : Bool :=
  let far : Int := size - 1
  let clamp (value : Int) := min (max value 0) (max far 0)
  let nearest : Int := max (ring.center.x - clamp ring.center.x).natAbs
    (ring.center.y - clamp ring.center.y).natAbs
  let farthest : Int := max ring.center.x.natAbs (ring.center.x - far).natAbs +
    max ring.center.y.natAbs (ring.center.y - far).natAbs
  nearest ≤ ring.radius + half + 1 && ring.radius - 2 * half - 2 ≤ farthest

/--
The later state of the walk from which a band that starts further on is reached.
The state may not lie further out, so that every walk ends; no later state of a
walk does.
-/
def jump? (radius : Int) (walk : Walk) (target : Int) : Option Walk :=
  if walk.y < target then
    (walkAt? radius target).filter fun later =>
      walk.y < later.y && later.x ≤ walk.x
  else
    none

end Ring

namespace Canvas

/-- Stamps the eight points of one row of a walk. -/
def stampOctants
    (canvas : Canvas)
    (walk : Ring.Walk)
    (center : Point)
    (color : Color)
    (size : Int) :
    Canvas :=
  (walk.octants center).foldl
    (fun canvas point => canvas.stamp point color size) canvas

/--
Walks to the diagonal, painting the rows of the bands and jumping between them.
-/
def walkRing
    (canvas : Canvas)
    (ring : Ring)
    (bands : List Ring.Band)
    (color : Color)
    (size : Int)
    (walk : Ring.Walk) :
    Canvas :=
  if walk.y ≤ walk.x then
    match Ring.nextBand? bands walk.y with
    | none => canvas
    | some target =>
        match _found : Ring.jump? ring.radius walk target with
        | some later => canvas.walkRing ring bands color size later
        | none =>
            (canvas.stampOctants walk ring.center color size).walkRing
              ring bands color size walk.next
  else
    canvas
termination_by (walk.x - walk.y + 1).toNat
decreasing_by
  · have forward : walk.y < later.y ∧ later.x ≤ walk.x := by
      have found : Ring.jump? ring.radius walk target = some later := by
        assumption
      unfold Ring.jump? at found
      split at found
      · simpa using (Option.filter_eq_some_iff.mp found).2
      · cases found
    omega
  · have row := walk.next_y
    have column := walk.next_x_le
    omega

/-- Draws a ring. -/
def drawRing
    (canvas : Canvas)
    (ring : Ring)
    (color : Color)
    (size : Int) :
    Canvas :=
  let half := reach size
  if ring.mayTouch canvas.size half then
    canvas.walkRing ring (ring.bands canvas.size half) color size
      (.start ring.radius)
  else
    canvas

end Canvas

end PixelBrush

namespace PixelBrush

/-!
# Points

Columns grow to the right and rows grow downwards, both from zero in the top
left corner.  Points may lie anywhere; a square of a given size holds finitely
many.
-/

/-- A column and a row. -/
structure Point where
  x : Int
  y : Int
  deriving Repr, DecidableEq

/-- The coordinates inside the square with the given side. -/
def InSquare (size : Nat) (x y : Int) : Prop :=
  0 ≤ x ∧ x < size ∧ 0 ≤ y ∧ y < size

instance (size : Nat) (x y : Int) : Decidable (InSquare size x y) :=
  inferInstanceAs (Decidable (_ ∧ _))

end PixelBrush

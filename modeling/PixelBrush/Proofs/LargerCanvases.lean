import PixelBrush.Proofs.ValidationPass

namespace PixelBrush

/-!
# Validation on larger canvases

The size of the canvas is looked at in two places only: where a program spawns,
and where a move is known entirely.  In both it decides between a known position
and an error.  So as long as the validation for one size finds no error, the
validation for a larger size goes through the same states, and both come to the
same end.
-/

namespace Outlook

/-- The same state of a validation, for a canvas of another size. -/
def resize (outlook : Outlook) (size : Nat) : Outlook :=
  { outlook with size }

/-- A side below the limit is read as it is. -/
theorem signedSide_eq
    {outlook : Outlook}
    (bounded : outlook.size < 9223372036854775808) :
    outlook.signedSide = outlook.size := by
  unfold signedSide Int.bmod UInt64.size
  dsimp only
  split <;> omega

variable
  {outlook : Outlook}
  {large : Nat}
  (grows : outlook.size ≤ large)
  (bounded : large < 9223372036854775808)

include grows bounded

/-- A move that stays on the canvas stays on a larger one. -/
theorem arrival_resize
    {command : DrawCommand}
    {directionY directionX distance : Node}
    {location : Location}
    (clean :
      Clean
        (outlook.arrival command directionY directionX distance location).2) :
    (outlook.resize large).arrival command directionY directionX
      distance location =
      outlook.arrival command directionY directionX distance location := by
  have side : outlook.signedSide = outlook.size := signedSide_eq (by omega)
  have largeSide : (outlook.resize large).signedSide = large :=
    signedSide_eq bounded
  have sameBrush : (outlook.resize large).brush = outlook.brush := rfl
  unfold arrival at clean ⊢
  rw [sameBrush, largeSide]
  rw [side] at clean ⊢
  split
  · rename_i position literalY literalX literalDistance
    simp only [position, literalY, literalX, literalDistance] at clean
    split
    · rename_i directed
      rw [if_pos directed] at clean
      dsimp only at clean ⊢
      split at clean
      · rename_i inside
        rw [if_pos inside, if_pos (by omega)]
      · exact absurd clean (not_clean_error _ _)
    · rfl
  · rfl

/-- A command without errors is checked alike on a larger canvas. -/
theorem checkMove_resize
    {command : DrawCommand}
    {directionY directionX distance : Node}
    {extents : List Node}
    {location : Location}
    (clean :
      Clean
        (outlook.checkMove command directionY directionX distance extents
          location).findings) :
    (outlook.resize large).checkMove command directionY directionX distance
      extents location =
      (outlook.checkMove command directionY directionX distance extents
        location).resize
        large := by
  have cleanEnd :
      Clean
        (outlook.arrival command directionY directionX distance location).2 :=
    (clean_append_iff.mp (clean_append_iff.mp clean).2).2
  simp only [checkMove, arrival_resize grows bounded cleanEnd]
  rfl

/--
A draw command without findings has none on a larger canvas, and leads to the
same state.
-/
theorem checkDraw_resize
    {command : DrawCommand}
    {arguments : List Node}
    {location : Location}
    (clean : Clean (outlook.checkDraw command arguments location).findings) :
    (outlook.resize large).checkDraw command arguments location =
      (outlook.checkDraw command arguments location).resize large := by
  unfold checkDraw at clean ⊢
  split
  · exact checkMove_resize grows bounded clean
  · exact checkMove_resize grows bounded clean
  · exact checkMove_resize grows bounded clean
  · rfl

/-- An instruction without errors is checked alike on a larger canvas. -/
theorem check_resize
    {program : Program}
    {index : Nat}
    {node : Node}
    (clean : Clean (outlook.check program index node).findings) :
    (outlook.resize large).check program index node =
      (outlook.check program index node).resize large := by
  cases node with
  | spawn x y location =>
      simp only [check, checkSpawn] at clean ⊢
      split at clean
      · rename_i inside
        have insideLarger :
            InSquare (outlook.resize large).size x.toInt y.toInt := by
          simp only [InSquare, resize] at inside ⊢
          omega
        rw [if_pos inside, if_pos insideLarger]
        rfl
      · exact absurd (clean_append_iff.mp clean).2 (not_clean_error _ _)
  | draw command arguments location =>
      exact checkDraw_resize grows bounded clean
  | setColor name location =>
      simp only [check, checkColor]
      split <;> rfl
  | setSize size location =>
      simp only [check, checkSize]
      split
      · rfl
      · split <;> rfl
  | fill location =>
      simp only [check] at clean ⊢
      split at clean
      · exact absurd (clean_append_iff.mp clean).2 (not_clean_error _ _)
      · rename_i visible
        rw [if_neg visible]
        exact if_neg visible
  | assign | label | goTo | call | arithmetic | boolean | read | number
  | text =>
      rfl

/-- Instructions without errors are checked alike on a larger canvas. -/
theorem checkAll_resize
    {program : Program}
    {index : Nat}
    {nodes : List Node}
    (clean : Clean (outlook.checkAll program index nodes).findings) :
    (outlook.resize large).checkAll program index nodes =
      (outlook.checkAll program index nodes).resize large := by
  induction nodes generalizing outlook index with
  | nil =>
      rfl
  | cons node rest inductionHypothesis =>
      have later :=
        Extends.checkAll (outlook.check program index node) program
          (index + 1) rest
      have step := check_resize grows bounded (clean.of_isPrefix later.findings)
      have sameSize := (Extends.check outlook program index node).size
      rw [checkAll, checkAll, step]
      exact inductionHypothesis (sameSize.symm ▸ grows) clean

end Outlook

namespace Program

/-- Without errors, validation for a larger canvas ends in the same state. -/
theorem validate_resize
    {program : Program}
    {small large : Nat}
    (grows : small ≤ large)
    (bounded : large < 9223372036854775808)
    (valid : (program.validate small).errors = []) :
    program.validate large = (program.validate small).resize large := by
  -- Before the first instruction the two states differ in their sizes only.
  have start :
      Outlook.start program large =
        (Outlook.start program small).resize large :=
    rfl
  unfold validate
  rw [start]
  exact Outlook.checkAll_resize grows bounded
    (Outlook.clean_of_errors_nil valid)

/--
A program without errors for a canvas of one size has none for any larger size,
and both validations end with the same warnings, scope, estimated brush and
count of jumps.
-/
theorem validate_larger
    (program : Program)
    (small large : Nat)
    (grows : small ≤ large)
    (bounded : large < 9223372036854775808)
    (valid : (program.validate small).errors = []) :
    (program.validate large).errors = [] ∧
      (program.validate large).warnings = (program.validate small).warnings ∧
      (program.validate large).scope = (program.validate small).scope ∧
      (program.validate large).brush = (program.validate small).brush ∧
      (program.validate large).jumps = (program.validate small).jumps := by
  rw [validate_resize grows bounded valid]
  exact ⟨valid, rfl, rfl, rfl, rfl⟩

/--
A line that just reaches the edge of a canvas with three columns, drawn with a
brush whose side is adjusted, leaves the estimated brush in the same place on
the largest canvas.
-/
theorem validate_larger_to_limit :
    let place := Location.start
    let line := [Node.number 0 place, .number 1 place, .number 2 place]
    let program : Program :=
      [.spawn 0 0 place, .setSize 2 place, .draw .line line place]
    (program.validate 3).errors = [] ∧
      (program.validate 9223372036854775807).errors = [] ∧
      (program.validate 9223372036854775807).warnings =
        [.warning (.sizeAdjusted 1) place] ∧
      (program.validate 9223372036854775807).brush.position = some (2, 0) := by
  intro place line program
  have valid : (program.validate 3).errors = [] := by
    decide
  obtain ⟨alsoValid, sameWarnings, _, sameBrush, _⟩ :=
    validate_larger program 3 9223372036854775807 (by decide) (by decide) valid
  refine ⟨valid, alsoValid, sameWarnings.trans (by decide), ?_⟩
  rw [sameBrush]
  decide

end Program

end PixelBrush

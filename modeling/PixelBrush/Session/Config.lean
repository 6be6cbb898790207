namespace PixelBrush

/-!
# Configuration

The side of the canvas, the step limit and the memory for the history.  Values
out of range are moved to the nearest allowed one.
-/

/--
The settings of a session; no history is recorded without a budget for it.
-/
structure Config where
  canvasSize : Nat
  stepLimit : Nat
  historyBudget : Option Nat
  deriving Repr, DecidableEq

namespace Config

/-- The largest side of a canvas. -/
def largestCanvas : Nat :=
  512

/-- The settings used where nothing else is asked for. -/
def standard : Config :=
  ⟨32, 1000000, none⟩

/-- The memory for a history where no other budget is given. -/
def standardBudget : Nat :=
  256 * 1024 * 1024

/-- Sets the side of the canvas. -/
def withCanvasSize (config : Config) (size : Nat) : Config :=
  { config with canvasSize := min (max size 1) largestCanvas }

/-- Sets the step limit; at least one instruction may run. -/
def withStepLimit (config : Config) (steps : Nat) : Config :=
  { config with stepLimit := max steps 1 }

/-- Records a history within a budget. -/
def withHistory (config : Config) (budget : Nat) : Config :=
  { config with historyBudget := some budget }

end Config

end PixelBrush

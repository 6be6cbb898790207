import PixelBrush.Machine.Moment

namespace PixelBrush

/-!
# The history of a run

A history keeps moments in the order in which they were reached, as long as the
memory they are counted with stays within a budget.
-/

/-- Recorded moments, the memory they may take and the memory they take. -/
structure History where
  moments : Array Moment
  budget : Nat
  used : Nat
  deriving Repr

/-- A moment that does not fit into the budget. -/
structure BudgetExceeded where
  used : Nat
  needed : Nat
  budget : Nat
  deriving Repr, DecidableEq

/-- The wording of a refusal. -/
def BudgetExceeded.message (refusal : BudgetExceeded) : String :=
  s!"Snapshot memory limit exceeded: {refusal.used} + {refusal.needed} > " ++
    s!"{refusal.budget}"

namespace History

/-- The history without moments. -/
def empty (budget : Nat) : History :=
  ⟨#[], budget, 0⟩

/-- The number of recorded moments. -/
def length (history : History) : Nat :=
  history.moments.size

/-- The recorded moment at an index. -/
def get? (history : History) (index : Nat) : Option Moment :=
  history.moments[index]?

/-- Records a moment if the budget allows it. -/
@[inline]
def push
    (history : History)
    (moment : Moment) :
    Except BudgetExceeded History :=
  if history.budget < history.used + moment.byteSize then
    .error ⟨history.used, moment.byteSize, history.budget⟩
  else
    .ok { history with
      moments := history.moments.push moment
      used := history.used + moment.byteSize }

end History

end PixelBrush

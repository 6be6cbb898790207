import PixelBrush.Machine.Action
import PixelBrush.Machine.History

namespace PixelBrush

/-!
# The machine

A machine runs the instructions of a program from the current moment on, at most
as many as its step limit allows, and records the moments it passes through if
it has a history.  Moving through the history restores recorded moments, and may
fail; a later run goes on from wherever the machine stands.
-/

/--
A program, the current moment, and what is remembered about the runs so far.
-/
structure Machine where
  program : Program
  moment : Moment
  steps : Nat
  stepLimit : Nat
  history : Option History
  recordingStopped : Bool
  position : Nat
  finished : Bool
  failed : Option Nat
  deriving Repr

namespace Machine

/-- A machine at the start of a program. -/
def load
    (program : Program)
    (size stepLimit : Nat)
    (budget : Option Nat) :
    Machine where
  program := program
  moment := Moment.initial size
  steps := 0
  stepLimit := stepLimit
  history := budget.map History.empty
  recordingStopped := false
  position := 0
  finished := false
  failed := none

/-- The number of recorded moments. -/
def recorded (machine : Machine) : Nat :=
  (machine.history.map History.length).getD 0

/-- Records the current moment; the first refusal ends recording for good. -/
def record (machine : Machine) : Machine :=
  match machine.recordingStopped, machine.history with
  | false, some history =>
      -- The history is taken out of the machine, so that it grows in place.
      let rest := { machine with history := none }
      match history.push rest.moment with
      | .ok longer =>
          { rest with history := some longer, position := longer.length - 1 }
      | .error _ =>
          { rest with history := some history, recordingStopped := true }
  | _, _ => machine

/--
One turn of a run: the machine after it, and the result once the run is over.
-/
def turn (machine : Machine) : Machine × Option (Except RunError Unit) :=
  match machine.program[machine.moment.next]? with
  | none => (machine, some (.ok ()))
  | some node =>
      if machine.stepLimit ≤ machine.steps then
        ({ machine with failed := some machine.moment.next },
          some (.error ⟨.stepLimit machine.stepLimit, node.location⟩))
      else
        match Action.execute machine.program node machine.moment with
        | .error error after =>
            ({ machine with
                moment := after
                steps := machine.steps + 1
                failed := some machine.moment.next },
              some (.error error))
        | .ok flow after =>
            (record { machine with
                moment := { after with next := flow.target after.next }
                steps := machine.steps + 1 },
              none)

/-- Recording changes neither the step count nor its limit. -/
theorem record_steps (machine : Machine) :
    machine.record.steps = machine.steps ∧
      machine.record.stepLimit = machine.stepLimit := by
  unfold record
  split
  · dsimp only
    split <;> exact ⟨rfl, rfl⟩
  · exact ⟨rfl, rfl⟩

/-- A turn that does not end the run takes one step below the limit. -/
theorem turn_steps
    {machine after : Machine}
    (goesOn : machine.turn = (after, none)) :
    machine.steps < machine.stepLimit ∧ after.steps = machine.steps + 1 ∧
      after.stepLimit = machine.stepLimit := by
  unfold turn at goesOn
  split at goesOn
  · cases goesOn
  · split at goesOn
    · cases goesOn
    · rename_i below
      split at goesOn
      · cases goesOn
      · cases goesOn
        refine ⟨by omega, ?_, ?_⟩
        · exact (record_steps _).1
        · exact (record_steps _).2

/-- Takes turns until the run is over. -/
def runOn (machine : Machine) : Machine × Except RunError Unit :=
  match _turned : machine.turn with
  | (after, some result) => (after, result)
  | (after, none) => after.runOn
termination_by machine.stepLimit - machine.steps
decreasing_by
  have taken :
      machine.steps < machine.stepLimit ∧ after.steps = machine.steps + 1 ∧
      after.stepLimit = machine.stepLimit := turn_steps (by assumption)
  omega

/-- Runs from the current moment to the end of the program or to an error. -/
def run (machine : Machine) : Machine × Except RunError Unit :=
  let (after, result) := machine.record.runOn
  ({ after with finished := true }, result)

/-- What takes a machine through its history and may fail on the way. -/
abbrev Navigation := EStateM RunError Machine

/-- Fails at the current location. -/
def refuse (reason : NoMoment) : Navigation Unit := do
  throw ⟨.noMoment reason, (← get).moment.location⟩

/--
Goes to a recorded moment: looks it up, and then takes over moment and position.
-/
def restore (index : Nat) : Navigation Unit := do
  match (← get).history.bind (·.get? index) with
  | none => refuse (.missing index)
  | some moment =>
      modify fun machine => { machine with moment }
      modify fun machine => { machine with position := index }

/-- Goes to the recorded moment before the current one. -/
def stepBackward : Navigation Unit := do
  let machine ← get
  if machine.position = 0 then
    refuse .atStart
  else
    restore (machine.position - 1)

/-- Goes to the recorded moment after the current one. -/
def stepForward : Navigation Unit := do
  let machine ← get
  if machine.recorded ≤ machine.position + 1 then
    refuse .atEnd
  else
    restore (machine.position + 1)

/-- Goes to the first recorded moment. -/
def rewind : Navigation Unit :=
  restore 0

/-- Goes to the last recorded moment. -/
def jumpToEnd : Navigation Unit := do
  let machine ← get
  if machine.recorded = 0 then
    refuse .nothingRecorded
  else
    restore (machine.recorded - 1)

end Machine

end PixelBrush

import PixelBrush.Machine.Basic

namespace PixelBrush.Machine

/-!
# Turns and runs

One turn of a machine ends the run, in one of three ways, or executes one
instruction and goes on.  This module says so once, as an inductive relation,
and presents a run as a chain of turns that go on, closed by a turn that does
not.  What a turn preserves holds along every run.
-/

/-- What one turn can do. -/
inductive Turn (machine : Machine) :
    Machine × Option (Except RunError Unit) → Prop where
  | finished
      (ended : machine.program[machine.moment.next]? = none) :
      Turn machine (machine, some (.ok ()))
  | exhausted
      {node : Node}
      (found : machine.program[machine.moment.next]? = some node)
      (spent : machine.stepLimit ≤ machine.steps) :
      Turn machine
        ({ machine with failed := some machine.moment.next },
          some (.error ⟨.stepLimit machine.stepLimit, node.location⟩))
  | failed
      {node : Node}
      {error : RunError}
      {after : Moment}
      (found : machine.program[machine.moment.next]? = some node)
      (below : machine.steps < machine.stepLimit)
      (fails :
        Action.execute machine.program node machine.moment =
          .error error after) :
      Turn machine
        ({ machine with
            moment := after
            steps := machine.steps + 1
            failed := some machine.moment.next },
          some (.error error))
  | advanced
      {node : Node}
      {flow : Flow}
      {after : Moment}
      (found : machine.program[machine.moment.next]? = some node)
      (below : machine.steps < machine.stepLimit)
      (succeeds :
        Action.execute machine.program node machine.moment =
          .ok flow after) :
      Turn machine
        (record { machine with
            moment := { after with next := flow.target after.next }
            steps := machine.steps + 1 },
          none)

/-- The turn that a machine takes is one of these. -/
theorem turn_spec (machine : Machine) :
    Turn machine machine.turn := by
  unfold turn
  split
  · rename_i ended
    exact .finished ended
  · rename_i node found
    split
    · rename_i spent
      exact .exhausted found spent
    · rename_i left
      have below : machine.steps < machine.stepLimit :=
        Nat.lt_of_not_le left
      split
      · rename_i error after fails
        exact .failed found below fails
      · rename_i flow after succeeds
        exact .advanced found below succeeds

/-- The machines that a run passes through while it goes on. -/
inductive Passes (start : Machine) : Machine → Prop where
  | start : Passes start start
  | turn
      {current after : Machine}
      (passed : Passes start current)
      (goesOn : current.turn = (after, none)) :
      Passes start after

namespace Passes

/-- A run also passes through what it passes through after one turn. -/
theorem head
    {start next final : Machine}
    (goesOn : start.turn = (next, none))
    (rest : Passes next final) :
    Passes start final := by
  induction rest with
  | start =>
      exact .turn .start goesOn
  | turn _ last inductionHypothesis =>
      exact .turn inductionHypothesis last

/-- What every turn that goes on preserves, holds wherever a run passes. -/
theorem preserves
    {Invariant : Machine → Prop}
    (step :
      ∀ {current after : Machine},
        current.turn = (after, none) →
        Invariant current →
        Invariant after)
    {start final : Machine}
    (passed : Passes start final)
    (holds : Invariant start) :
    Invariant final := by
  induction passed with
  | start =>
      exact holds
  | turn _ goesOn inductionHypothesis =>
      exact step goesOn inductionHypothesis

end Passes

/-- A turn that ends a run gives its result. -/
theorem runOn_of_ends
    {machine after : Machine}
    {result : Except RunError Unit}
    (ends : machine.turn = (after, some result)) :
    machine.runOn = (after, result) := by
  rw [runOn]
  split
  · rename_i last ended turned
    cases turned.symm.trans ends
    rfl
  · rename_i last turned
    cases turned.symm.trans ends

/-- After a turn that goes on, the run is the run of the machine there. -/
theorem runOn_of_goesOn
    {machine after : Machine}
    (goesOn : machine.turn = (after, none)) :
    machine.runOn = after.runOn := by
  rw [runOn]
  split
  · rename_i last ended turned
    cases turned.symm.trans goesOn
  · rename_i last turned
    cases turned.symm.trans goesOn
    rfl

/--
A run is a chain of turns that go on and a last turn that gives its result.
-/
theorem runOn_spec (machine : Machine) :
    ∃ last,
      Passes machine last ∧
        last.turn = (machine.runOn.1, some machine.runOn.2) := by
  fun_induction runOn machine with
  | case1 machine after result turned =>
      exact ⟨machine, .start, turned⟩
  | case2 machine after turned inductionHypothesis =>
      obtain ⟨last, passed, ended⟩ := inductionHypothesis
      exact ⟨last, passed.head turned, ended⟩

/-- A run records where it starts, takes its turns and is then finished. -/
theorem run_spec (machine : Machine) :
    ∃ last final result,
      Passes machine.record last ∧
        last.turn = (final, some result) ∧
        machine.run = ({ final with finished := true }, result) := by
  obtain ⟨last, passed, ended⟩ := runOn_spec machine.record
  exact ⟨last, _, _, passed, ended, rfl⟩

/-- Recording keeps the program. -/
@[simp] theorem record_program (machine : Machine) :
    machine.record.program = machine.program := by
  unfold record
  split
  · dsimp only
    split <;> rfl
  · rfl

/-- Recording keeps the current moment. -/
@[simp] theorem record_moment (machine : Machine) :
    machine.record.moment = machine.moment := by
  unfold record
  split
  · dsimp only
    split <;> rfl
  · rfl

/-- Recording keeps the mark of a failed instruction. -/
@[simp] theorem record_failed (machine : Machine) :
    machine.record.failed = machine.failed := by
  unfold record
  split
  · dsimp only
    split <;> rfl
  · rfl

/-- A turn that goes on stays with its program. -/
theorem program_of_turn
    {machine after : Machine}
    (goesOn : machine.turn = (after, none)) :
    after.program = machine.program := by
  have spec := turn_spec machine
  rw [goesOn] at spec
  cases spec with
  | advanced =>
      exact record_program _

/-- A turn that goes on names no instruction as failed. -/
theorem failed_of_turn
    {machine after : Machine}
    (goesOn : machine.turn = (after, none)) :
    after.failed = machine.failed := by
  have spec := turn_spec machine
  rw [goesOn] at spec
  cases spec with
  | advanced =>
      exact record_failed _

/--
The machines that a run goes through: those it passes and the one it ends in.
-/
inductive Visits (machine : Machine) : Machine → Prop where
  | passes
      {current : Machine}
      (passed : Passes machine.record current) :
      Visits machine current
  | ends
      {last final : Machine}
      {result : Except RunError Unit}
      (passed : Passes machine.record last)
      (ended : last.turn = (final, some result)) :
      Visits machine { final with finished := true }

/-- A run goes through the machine that it leaves. -/
theorem visits_run (machine : Machine) :
    Visits machine machine.run.1 := by
  obtain ⟨last, final, result, passed, ended, whole⟩ := run_spec machine
  rw [whole]
  exact .ends passed ended

/--
How a run ends: well, or at an instruction of the program, which either fails or
is one too many.
-/
inductive Concludes
    (start : Machine) :
    Machine × Except RunError Unit → Prop where
  | well
      {final : Machine}
      (program : final.program = start.program)
      (failed : final.failed = start.failed) :
      Concludes start (final, .ok ())
  | badly
      {final : Machine}
      {index : Nat}
      {node : Node}
      {error : RunError}
      (program : final.program = start.program)
      (failed : final.failed = some index)
      (found : start.program[index]? = some node)
      (cause :
        error.location = node.location ∨
          ∃ moment after,
            Action.execute start.program node moment = .error error after) :
      Concludes start (final, .error error)

/-- Every run ends in one of these ways. -/
theorem run_concludes (machine : Machine) :
    Concludes machine machine.run := by
  obtain ⟨last, final, result, passed, ended, whole⟩ := run_spec machine
  have sameProgram : last.program = machine.program :=
    passed.preserves
      (fun goesOn same => (program_of_turn goesOn).trans same)
      (record_program machine)
  have sameFailed : last.failed = machine.failed :=
    passed.preserves
      (fun goesOn same => (failed_of_turn goesOn).trans same)
      (record_failed machine)
  rw [whole]
  have spec := turn_spec last
  rw [ended] at spec
  cases spec with
  | finished =>
      exact .well sameProgram sameFailed
  | exhausted found =>
      exact .badly sameProgram rfl (sameProgram ▸ found) (.inl rfl)
  | failed found below fails =>
      exact .badly sameProgram rfl (sameProgram ▸ found)
        (.inr ⟨_, _, sameProgram ▸ fails⟩)

end PixelBrush.Machine

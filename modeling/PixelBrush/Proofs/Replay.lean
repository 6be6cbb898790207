import PixelBrush.Proofs.Navigation

namespace PixelBrush

/-!
# Running again

How execution ends depends on the moment it goes on from and on nothing else a
machine remembers: not on the steps already counted, as long as the limit leaves
room, and not on the history or the position in it.  Every moment of a run ends
as the run did, the one in which it stopped included.  So a machine may be moved
anywhere through its history and run again, and ends as before.
-/

/-- Where and how execution ends, and at which instruction it failed. -/
structure Ending where
  moment : Moment
  result : Except RunError Unit
  failed : Option Nat

namespace Moment

/-- Execution from a moment on ends in this way after so many instructions. -/
inductive Ends (program : Program) : Moment → Nat → Ending → Prop where
  | finished
      {moment : Moment}
      (ended : program[moment.next]? = none) :
      Ends program moment 0 ⟨moment, .ok (), none⟩
  | failed
      {moment after : Moment}
      {error : RunError}
      (breaks : Breaks program moment error after) :
      Ends program moment 1 ⟨after, .error error, some moment.next⟩
  | step
      {moment later : Moment}
      {count : Nat}
      {ending : Ending}
      (follows : Follows program moment later)
      (rest : Ends program later count ending) :
      Ends program moment (count + 1) ending

/-- At most one moment follows. -/
theorem Follows.unique
    {program : Program}
    {moment first second : Moment}
    (one : Follows program moment first)
    (other : Follows program moment second) :
    first = second := by
  rw [← advance?_eq_some_iff] at one other
  exact Option.some.inj (one.symm.trans other)

/-- Where an instruction breaks, nothing follows. -/
theorem Breaks.not_follows
    {program : Program}
    {moment after later : Moment}
    {error : RunError}
    (breaks : Breaks program moment error after) :
    ¬ Follows program moment later := by
  obtain ⟨node, found, fails⟩ := breaks
  rintro ⟨other, flow, performed, alsoFound, succeeds, _⟩
  cases found.symm.trans alsoFound
  cases fails.symm.trans succeeds

/-- An instruction that failed fails again in the same way. -/
theorem Breaks.again
    {program : Program}
    {moment after : Moment}
    {error : RunError}
    (breaks : Breaks program moment error after) :
    after.next = moment.next ∧ Breaks program after error after := by
  obtain ⟨node, found, fails⟩ := breaks
  obtain ⟨_, rfl⟩ := Action.execute_error fails
  exact ⟨rfl, node, found, fails⟩

namespace Ends

variable
  {program : Program}
  {moment later : Moment}
  {count : Nat}
  {ending : Ending}

/-- The moment that follows ends in the same way, one instruction sooner. -/
theorem tail
    (ends : Ends program moment count ending)
    (follows : Follows program moment later) :
    ∃ fewer,
      count = fewer + 1 ∧ Ends program later fewer ending := by
  cases ends with
  | finished ended =>
      obtain ⟨node, _, _, found, _⟩ := follows
      cases ended.symm.trans found
  | failed breaks =>
      exact (breaks.not_follows follows).elim
  | @step _ _ fewer _ alsoFollows rest =>
      rw [follows.unique alsoFollows]
      exact ⟨fewer, rfl, rest⟩

/-- Execution that goes on where it ended, ends there again. -/
theorem last
    (ends : Ends program moment count ending) :
    ∃ fewer ≤ count, Ends program ending.moment fewer ending := by
  induction ends with
  | finished ended =>
      exact ⟨0, Nat.le_refl 0, .finished ended⟩
  | failed breaks =>
      obtain ⟨sameNext, again⟩ := breaks.again
      have ends := Ends.failed again
      rw [sameNext] at ends
      exact ⟨1, Nat.le_refl 1, ends⟩
  | step _ _ inductionHypothesis =>
      obtain ⟨fewer, bounded, ends⟩ := inductionHypothesis
      exact ⟨fewer, Nat.le_succ_of_le bounded, ends⟩

end Ends

/--
Execution from a moment on ends in this way after at most so many instructions.
-/
def EndsWithin
    (program : Program)
    (bound : Nat)
    (ending : Ending)
    (moment : Moment) :
    Prop :=
  ∃ count ≤ bound, Ends program moment count ending

/-- All moments of one execution end in one way. -/
theorem stable_endsWithin
    (program : Program)
    (bound : Nat)
    (ending : Ending) :
    Stable program (EndsWithin program bound ending) where
  follows := by
    rintro moment later follows ⟨count, bounded, ends⟩
    obtain ⟨fewer, rfl, rest⟩ := ends.tail follows
    exact ⟨fewer, Nat.le_of_succ_le bounded, rest⟩
  breaks := by
    rintro moment after error breaks ⟨count, bounded, ends⟩
    cases ends with
    | finished ended =>
        obtain ⟨node, found, _⟩ := breaks
        cases ended.symm.trans found
    | step follows _ =>
        exact (breaks.not_follows follows).elim
    | @failed _ stopped cause alsoBreaks =>
        obtain ⟨node, found, fails⟩ := breaks
        obtain ⟨other, alsoFound, alsoFails⟩ := alsoBreaks
        cases found.symm.trans alsoFound
        cases fails.symm.trans alsoFails
        obtain ⟨fewer, atMostOne, again⟩ :=
          (Ends.failed ⟨node, found, fails⟩).last
        exact ⟨fewer, Nat.le_trans atMostOne bounded, again⟩

end Moment

namespace Machine

/-- The machine stopped with an ending, so many steps after it started. -/
structure Stopped
    (start final : Machine)
    (result : Except RunError Unit)
    (count : Nat)
    (ending : Ending) :
    Prop where
  result : result = ending.result
  moment : final.moment = ending.moment
  steps : final.steps = start.steps + count
  limit : final.stepLimit = start.stepLimit
  failed : final.failed = ending.failed.or start.failed

/-- The first turn of a machine does not change how it stops. -/
theorem Stopped.of_turn
    {machine next final : Machine}
    {result : Except RunError Unit}
    {count : Nat}
    {ending : Ending}
    (goesOn : machine.turn = (next, none))
    (stopped : Stopped next final result count ending) :
    Stopped machine final result (count + 1) ending where
  result := stopped.result
  moment := stopped.moment
  steps := by
    rw [stopped.steps, (turn_steps goesOn).2.1, Nat.add_assoc, Nat.add_comm 1]
  limit := stopped.limit.trans (turn_steps goesOn).2.2
  failed := by
    have spec := turn_spec machine
    rw [goesOn] at spec
    cases spec with
    | advanced =>
        rw [stopped.failed, record_failed]

/--
Unless it is cut off by its limit, a run ends as execution from its moment does.
-/
theorem ends_of_runOn
    (machine : Machine)
    (allowed :
      ∀ limit location, machine.runOn.2 ≠ .error ⟨.stepLimit limit, location⟩) :
    ∃ count ending,
      Moment.Ends machine.program machine.moment count ending ∧
        Stopped machine machine.runOn.1 machine.runOn.2 count ending := by
  fun_induction runOn machine with
  | case1 machine after result ended =>
      have spec := turn_spec machine
      rw [ended] at spec
      cases spec with
      | finished done =>
          exact ⟨0, _, .finished done, rfl, rfl, rfl, rfl, rfl⟩
      | exhausted =>
          exact absurd rfl (allowed _ _)
      | @failed node _ _ found below fails =>
          exact ⟨1, _, .failed ⟨node, found, fails⟩, rfl, rfl, rfl, rfl, rfl⟩
  | case2 machine next goesOn inductionHypothesis =>
      obtain ⟨count, ending, rest, stopped⟩ := inductionHypothesis allowed
      rw [program_of_turn goesOn] at rest
      exact ⟨count + 1, ending, .step (follows_of_turn goesOn) rest,
        stopped.of_turn goesOn⟩

/-- A machine takes the turn that leads to the moment that follows. -/
theorem turn_of_follows
    {machine : Machine}
    {later : Moment}
    (below : machine.steps < machine.stepLimit)
    (follows : Moment.Follows machine.program machine.moment later) :
    ∃ next, machine.turn = (next, none) ∧ next.moment = later := by
  have following := follows
  obtain ⟨node, flow, after, found, succeeds, _⟩ := following
  have goesOn :
      machine.turn =
        (record { machine with
            moment := { after with next := flow.target after.next }
            steps := machine.steps + 1 },
          none) := by
    simp only [turn, found, Nat.not_le_of_lt below, ↓reduceIte, succeeds]
  exact ⟨_, goesOn, (follows_of_turn goesOn).unique follows⟩

/-- With room below the limit, a run ends as execution from its moment does. -/
theorem runOn_of_moment_ends
    {count : Nat}
    {ending : Ending}
    {moment : Moment}
    {program : Program}
    (ends : Moment.Ends program moment count ending)
    {machine : Machine}
    (sameProgram : machine.program = program)
    (sameMoment : machine.moment = moment)
    (room : machine.steps + count ≤ machine.stepLimit) :
    Stopped machine machine.runOn.1 machine.runOn.2 count ending := by
  induction ends generalizing machine with
  | finished ended =>
      subst sameProgram sameMoment
      have stops : machine.turn = (machine, some (.ok ())) := by
        simp only [turn, ended]
      rw [runOn_of_ends stops]
      exact ⟨rfl, rfl, rfl, rfl, rfl⟩
  | @failed moment after error breaks =>
      subst sameProgram sameMoment
      obtain ⟨node, found, fails⟩ := breaks
      have stops :
          machine.turn =
            ({ machine with
                moment := after
                steps := machine.steps + 1
                failed := some machine.moment.next },
              some (.error error)) := by
        simp only [turn, found, Nat.not_le_of_lt room, ↓reduceIte, fails]
      rw [runOn_of_ends stops]
      exact ⟨rfl, rfl, rfl, rfl, rfl⟩
  | @step moment later count ending follows rest inductionHypothesis =>
      subst sameProgram sameMoment
      have below : machine.steps < machine.stepLimit := by
        omega
      obtain ⟨next, goesOn, atLater⟩ := turn_of_follows below follows
      obtain ⟨_, taken, sameLimit⟩ := turn_steps goesOn
      have stopped :=
        inductionHypothesis (program_of_turn goesOn) atLater (by omega)
      rw [runOn_of_goesOn goesOn]
      exact stopped.of_turn goesOn

/-- A run stops as its turns do; recording where it starts changes nothing. -/
theorem Stopped.of_record
    {machine final : Machine}
    {result : Except RunError Unit}
    {count : Nat}
    {ending : Ending}
    (stopped : Stopped machine.record final result count ending) :
    Stopped machine { final with finished := true } result count ending where
  result := stopped.result
  moment := stopped.moment
  steps := by
    rw [← (record_steps machine).1]
    exact stopped.steps
  limit := by
    rw [← (record_steps machine).2]
    exact stopped.limit
  failed := by
    rw [← record_failed machine]
    exact stopped.failed

/-- A run that is not cut off stops with the ending of its execution. -/
theorem ends_of_run
    (machine : Machine)
    (allowed :
      ∀ limit location, machine.run.2 ≠ .error ⟨.stepLimit limit, location⟩) :
    ∃ count ending,
      Moment.Ends machine.program machine.moment count ending ∧
        Stopped machine machine.run.1 machine.run.2 count ending := by
  obtain ⟨count, ending, ends, stopped⟩ := ends_of_runOn machine.record allowed
  rw [record_program, record_moment] at ends
  exact ⟨count, ending, ends, stopped.of_record⟩

/--
Where execution ends within the step limit, the run stops with this ending.
-/
theorem run_of_moment_ends
    {machine : Machine}
    {count : Nat}
    {ending : Ending}
    (ends : Moment.Ends machine.program machine.moment count ending)
    (room : machine.steps + count ≤ machine.stepLimit) :
    Stopped machine machine.run.1 machine.run.2 count ending := by
  obtain ⟨sameSteps, sameLimit⟩ := record_steps machine
  have roomAfter : machine.record.steps + count ≤ machine.record.stepLimit := by
    rw [sameSteps, sameLimit]
    exact room
  exact (runOn_of_moment_ends ends (record_program machine)
    (record_moment machine)
    roomAfter).of_record

/-- Moves leave the program, the step count, its limit and the failure alone. -/
theorem moves_frame
    (moves : List Move)
    (machine : Machine) :
    (moves.foldl move machine).program = machine.program ∧
      (moves.foldl move machine).steps = machine.steps ∧
      (moves.foldl move machine).stepLimit = machine.stepLimit ∧
      (moves.foldl move machine).failed = machine.failed := by
  induction moves generalizing machine with
  | nil =>
      exact ⟨rfl, rfl, rfl, rfl⟩
  | cons first rest inductionHypothesis =>
      rw [List.foldl_cons]
      obtain ⟨program, steps, limit, failed⟩ :=
        inductionHypothesis (machine.move first)
      rw [program, steps, limit, failed]
      rcases move_spec machine first with same | ⟨_, _, _, _, _, moved⟩
      · rw [same]
        exact ⟨rfl, rfl, rfl, rfl⟩
      · rw [moved]
        exact ⟨rfl, rfl, rfl, rfl⟩

/-- Moves do not lead away from what holds of all recorded moments. -/
theorem keeps_moves
    {program : Program}
    {Invariant : Moment → Prop}
    (moves : List Move)
    {machine : Machine}
    (keeps : Keeps program Invariant machine) :
    Keeps program Invariant (moves.foldl move machine) := by
  induction moves generalizing machine with
  | nil =>
      exact keeps
  | cons first rest inductionHypothesis =>
      exact inductionHypothesis (keeps_move keeps first)

/--
A first run that was not cut off can be repeated: after any moves through the
history, possible or not, a second run with room for as many steps again gives
the same result, at the same instruction if it is an error, and ends in the same
moment.
-/
theorem run_after_moves
    {program : Program}
    {size stepLimit : Nat}
    {budget : Option Nat}
    (allowed :
      ∀ limit location,
        (load program size stepLimit budget).run.2 ≠
          .error ⟨.stepLimit limit, location⟩)
    (room : 2 * (load program size stepLimit budget).run.1.steps ≤ stepLimit)
    (moves : List Move) :
    let first := (load program size stepLimit budget).run
    let again := (moves.foldl move first.1).run
    again.2 = first.2 ∧
      again.1.failed = first.1.failed ∧
      again.1.moment = first.1.moment := by
  intro first again
  let start := load program size stepLimit budget
  obtain ⟨count, ending, ends, stopped⟩ := ends_of_run start allowed
  have counted : first.1.steps = count :=
    stopped.steps.trans (Nat.zero_add count)
  have failedFirst : first.1.failed = ending.failed :=
    stopped.failed.trans Option.or_none
  -- Wherever the moves lead, execution from there on ends as the first run did.
  have loaded : Keeps program (Moment.EndsWithin program count ending) start :=
    ⟨rfl, .load ⟨count, Nat.le_refl count, ends⟩ stepLimit budget⟩
  have ran :=
    keeps_visits (Moment.stable_endsWithin program count ending)
      (visits_run start) loaded
  have moved := keeps_moves moves ran
  obtain ⟨fewer, bounded, endsAgain⟩ := moved.holds.current
  rw [← moved.program] at endsAgain
  obtain ⟨_, sameSteps, sameLimit, sameFailure⟩ := moves_frame moves first.1
  have roomAgain :
      (moves.foldl move first.1).steps + fewer ≤
        (moves.foldl move first.1).stepLimit := by
    rw [sameSteps, sameLimit, counted]
    calc
      count + fewer ≤ count + count := Nat.add_le_add_left bounded count
      _ = 2 * first.1.steps := by rw [counted, Nat.two_mul]
      _ ≤ stepLimit := room
      _ = first.1.stepLimit := stopped.limit.symm
  have stoppedAgain := run_of_moment_ends endsAgain roomAgain
  refine ⟨stoppedAgain.result.trans stopped.result.symm, ?_,
    stoppedAgain.moment.trans stopped.moment.symm⟩
  rw [stoppedAgain.failed, sameFailure, failedFirst, Option.or_self]

/--
A loop counts to two and then divides by zero.  The budget holds only the first
moments, one of the moves is not possible, and the second run goes through the
loop again and fails at the same division.
-/
theorem run_after_moves_division :
    let program : Program :=
      [.spawn 0 0 ⟨1, 1⟩,
        .assign "n" (.number 0 ⟨2, 6⟩) ⟨2, 1⟩,
        .label "loop" ⟨3, 1⟩,
        .assign "n"
          (.arithmetic .add (.read "n" ⟨4, 6⟩) (.number 1 ⟨4, 10⟩) ⟨4, 8⟩)
            ⟨4, 1⟩,
        .goTo "loop"
          (.boolean .less (.read "n" ⟨5, 12⟩) (.number 2 ⟨5, 16⟩) ⟨5, 14⟩)
            ⟨5, 1⟩,
        .assign "n"
          (.arithmetic .divide (.read "n" ⟨6, 6⟩) (.number 0 ⟨6, 10⟩) ⟨6, 8⟩)
          ⟨6, 1⟩]
    let machine := load program 1 16 (some 600)
    let moves : List Move := [.backward, .toEnd, .forward, .toStart, .forward]
    machine.run.2 = .error ⟨.zeroDivision .quotient, ⟨6, 8⟩⟩ ∧
      machine.run.1.steps = 8 ∧
      machine.run.1.recordingStopped = true ∧
      (moves.foldl move machine.run.1).run.2 = machine.run.2 ∧
      (moves.foldl move machine.run.1).run.1.failed = some 5 ∧
      (moves.foldl move machine.run.1).run.1.moment = machine.run.1.moment := by
  intro program machine moves
  have fails : machine.run.2 = .error ⟨.zeroDivision .quotient, ⟨6, 8⟩⟩ := by
    decide +kernel
  have counted : machine.run.1.steps = 8 := by
    decide +kernel
  have failed : machine.run.1.failed = some 5 := by
    decide +kernel
  have allowed :
      ∀ limit location,
        machine.run.2 ≠ .error ⟨.stepLimit limit, location⟩ := by
    intro limit location
    rw [fails]
    nofun
  have room : 2 * machine.run.1.steps ≤ 16 :=
    Nat.le_of_eq (congrArg (2 * ·) counted)
  obtain ⟨sameResult, sameFailure, sameMoment⟩ :=
    run_after_moves allowed room moves
  exact ⟨fails, counted, by decide +kernel, sameResult,
    sameFailure.trans failed, sameMoment⟩

end Machine

end PixelBrush

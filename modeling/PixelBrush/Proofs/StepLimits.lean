import PixelBrush.Proofs.Replay
import PixelBrush.Proofs.WellFormedMachines

namespace PixelBrush

/-!
# Step limits

A step limit cuts a run off and does nothing else to it.  A run that ends below
its limit ends in the same way under every larger one.  A run that is cut off
has executed as many instructions as its limit says, and has come as far as a
run under a larger limit has come after that many.
-/

/-- A cause that the execution of an instruction can have. -/
def RunCause.isOfExecution : RunCause → Bool
  | .stepLimit _ | .noMoment _ => false
  | _ => true

/-- Execution can fail for all reasons that values have. -/
theorem RunCause.isOfExecution_of_isOfValues
    {cause : RunCause}
    (ofValues : cause.isOfValues = true) :
    cause.isOfExecution = true := by
  cases cause with
  | stepLimit | noMoment =>
      cases ofValues
  | _ =>
      rfl

/-- What fails to evaluate fails for a reason of execution. -/
theorem Moment.isOfExecution_of_evaluate
    {moment : Moment}
    {node : Node}
    {error : RunError}
    (fails : moment.evaluate node = .error error) :
    error.cause.isOfExecution = true := by
  induction node using Node.operandInduction with
  | step node inductionHypothesis =>
      cases evaluate_error fails with
      | operand member inside =>
          exact inductionHypothesis _ member inside
      | text | read | label | instruction | arity | argument | color
      | operands =>
          rfl
      | calculation _ _ wrong =>
          have ofNumbers := ArithmeticOperator.isOfNumbers_of_calculate wrong
          exact RunCause.isOfExecution_of_isOfValues
            (RunCause.isOfValues_of_isOfNumbers ofNumbers)
      | comparison _ _ _ wrong =>
          exact RunCause.isOfExecution_of_isOfValues
            (BooleanOperator.isOfValues_of_compare wrong)

/-- So does what fails to give a number. -/
theorem Moment.isOfExecution_of_evaluateInt
    {moment : Moment}
    {node : Node}
    {error : RunError}
    (fails : moment.evaluateInt node = .error error) :
    error.cause.isOfExecution = true := by
  unfold evaluateInt at fails
  rcases bind_eq_error fails with inside | ⟨value, _, afterValue⟩
  · exact isOfExecution_of_evaluate inside
  · cases value with
    | int number =>
        cases afterValue
    | string | bool =>
        cases afterValue
        rfl

/-- No instruction fails with the causes that are left to runs and moves. -/
theorem Action.Fails.isOfExecution
    {program : Program}
    {moment : Moment}
    {node : Node}
    {error : RunError}
    (fails : Fails program moment node error) :
    error.cause.isOfExecution = true := by
  cases fails with
  | drawArgument _ inside =>
      exact Moment.isOfExecution_of_evaluateInt inside
  | assign inside | condition inside | expression _ inside =>
      exact Moment.isOfExecution_of_evaluate inside
  | spawn | setColor | setSize | drawArity | direction | distance | movement
  | extent
  | transparentFill | fillOutside | undeclared =>
      rfl

/--
An instruction breaks for a reason of execution, and never for the step limit.
-/
theorem Moment.Breaks.isOfExecution
    {program : Program}
    {moment after : Moment}
    {error : RunError}
    (breaks : Breaks program moment error after) :
    error.cause.isOfExecution = true := by
  obtain ⟨node, _, fails⟩ := breaks
  exact (Action.execute_error fails).1.isOfExecution

namespace Machine

/-! ## Counting executed instructions -/

/--
Where a run stands after exactly so many instructions, all of them successful.
-/
inductive PassesAfter (start : Machine) : Nat → Machine → Prop where
  | start : PassesAfter start 0 start
  | turn
      {count : Nat}
      {current after : Machine}
      (passed : PassesAfter start count current)
      (goesOn : current.turn = (after, none)) :
      PassesAfter start (count + 1) after

/--
The run of a machine executes exactly so many instructions: those after which it
goes on, and one more if that one breaks.
-/
inductive Executes (machine : Machine) : Nat → Prop where
  | stops
      {count : Nat}
      {last final : Machine}
      {result : Except RunError Unit}
      (passed : PassesAfter machine.record count last)
      (ended : last.turn = (final, some result))
      (unbroken :
        ∀ error after,
          Moment.Breaks last.program last.moment error after →
          result ≠ .error error) :
      Executes machine count
  | breaks
      {count : Nat}
      {last final : Machine}
      {error : RunError}
      {after : Moment}
      (passed : PassesAfter machine.record count last)
      (ended : last.turn = (final, some (.error error)))
      (broken : Moment.Breaks last.program last.moment error after) :
      Executes machine (count + 1)

/-- What a run passes through it passes after some number of instructions. -/
theorem Passes.counted
    {start current : Machine}
    (passed : Passes start current) :
    ∃ count, PassesAfter start count current := by
  induction passed with
  | start =>
      exact ⟨0, .start⟩
  | turn _ goesOn inductionHypothesis =>
      obtain ⟨count, counted⟩ := inductionHypothesis
      exact ⟨count + 1, .turn counted goesOn⟩

namespace PassesAfter

variable
  {start current : Machine}
  {count : Nat}

/-- Where a run stands after some instructions, it passes through. -/
theorem passes
    (passed : PassesAfter start count current) :
    Passes start current := by
  induction passed with
  | start =>
      exact .start
  | turn _ goesOn inductionHypothesis =>
      exact .turn inductionHypothesis goesOn

/--
The step count goes up by one with each instruction; limit and program stay.
-/
theorem frame
    (passed : PassesAfter start count current) :
    current.steps = start.steps + count ∧
      current.stepLimit = start.stepLimit ∧
      current.program = start.program := by
  induction passed with
  | start =>
      exact ⟨rfl, rfl, rfl⟩
  | turn _ goesOn inductionHypothesis =>
      obtain ⟨steps, limit, program⟩ := inductionHypothesis
      obtain ⟨_, stepsAfter, limitAfter⟩ := turn_steps goesOn
      refine ⟨?_, limitAfter.trans limit,
        (program_of_turn goesOn).trans program⟩
      rw [stepsAfter, steps, Nat.add_assoc]

/-- A run goes on only below its limit. -/
theorem room
    (passed : PassesAfter start count current) :
    count ≤ start.stepLimit - start.steps := by
  cases passed with
  | start =>
      exact Nat.zero_le _
  | turn passed goesOn =>
      obtain ⟨steps, limit, _⟩ := passed.frame
      obtain ⟨below, _⟩ := turn_steps goesOn
      omega

/--
Another machine with the same program and moment keeps up as far as its limit
goes.
-/
theorem keepsUp
    {other : Machine}
    (passed : PassesAfter start count current)
    (sameProgram : other.program = start.program)
    (sameMoment : other.moment = start.moment)
    (room : other.steps + count ≤ other.stepLimit) :
    ∃ alongside,
      PassesAfter other count alongside ∧
        alongside.moment = current.moment := by
  induction passed with
  | start =>
      exact ⟨other, .start, sameMoment⟩
  | @turn count current after passed goesOn inductionHypothesis =>
      obtain ⟨alongside, otherPassed, together⟩ :=
        inductionHypothesis (Nat.le_of_succ_le room)
      obtain ⟨steps, limit, program⟩ := otherPassed.frame
      have below : alongside.steps < alongside.stepLimit := by
        rw [steps, limit]
        exact room
      have follows :
          Moment.Follows alongside.program alongside.moment after.moment := by
        rw [program, sameProgram, ← passed.frame.2.2, together]
        exact follows_of_turn goesOn
      obtain ⟨next, otherGoesOn, atLater⟩ := turn_of_follows below follows
      exact ⟨next, .turn otherPassed otherGoesOn, atLater⟩

end PassesAfter

/-- The same counts where a run starts by recording its first moment. -/
theorem PassesAfter.frame_record
    {machine current : Machine}
    {count : Nat}
    (passed : PassesAfter machine.record count current) :
    current.steps = machine.steps + count ∧
      current.stepLimit = machine.stepLimit ∧
      current.program = machine.program ∧
      count ≤ machine.stepLimit - machine.steps := by
  obtain ⟨sameSteps, sameLimit⟩ := record_steps machine
  obtain ⟨steps, limit, program⟩ := passed.frame
  have room := passed.room
  rw [sameSteps] at steps room
  rw [sameLimit] at limit room
  rw [record_program] at program
  exact ⟨steps, limit, program, room⟩

/-- A run is what is left of it, wherever it passes. -/
theorem Passes.runOn_eq
    {start current : Machine}
    (passed : Passes start current) :
    start.runOn = current.runOn := by
  induction passed with
  | start =>
      rfl
  | turn _ goesOn inductionHypothesis =>
      exact inductionHypothesis.trans (runOn_of_goesOn goesOn)

/--
Every run executes a number of instructions that its limit leaves it, and counts
each of them once.
-/
theorem exists_executes (machine : Machine) :
    ∃ count ≤ machine.stepLimit - machine.steps,
      Executes machine count ∧ machine.run.1.steps = machine.steps + count := by
  obtain ⟨last, final, result, passed, ended, whole⟩ := run_spec machine
  obtain ⟨count, counted⟩ := passed.counted
  obtain ⟨steps, limit, _, room⟩ := counted.frame_record
  rw [whole]
  have spec := turn_spec last
  rw [ended] at spec
  cases spec with
  | finished done =>
      refine ⟨count, room, .stops counted ended ?_, steps⟩
      intro error after _ isError
      cases isError
  | exhausted found spent =>
      refine ⟨count, room, .stops counted ended ?_, steps⟩
      intro error after breaks isError
      cases isError
      cases breaks.isOfExecution
  | @failed node error after found below fails =>
      refine ⟨count + 1, ?_, .breaks counted ended ⟨node, found, fails⟩, ?_⟩
      · omega
      · exact congrArg (· + 1) steps

/-! ## Runs that are cut off -/

/--
The run of a machine is cut off after so many instructions, at this machine.
-/
structure CutOff
    (machine : Machine)
    (count : Nat)
    (current : Machine)
    (node : Node) :
    Prop where
  passed : PassesAfter machine.record count current
  next : machine.program[current.moment.next]? = some node
  spent : machine.stepLimit ≤ machine.steps + count
  result : machine.run.2 = .error ⟨.stepLimit machine.stepLimit, node.location⟩
  moment : machine.run.1.moment = current.moment
  steps : machine.run.1.steps = machine.steps + count
  failed : machine.run.1.failed = some current.moment.next

section CuttingOff

variable
  {machine current : Machine}
  {count : Nat}
  {node : Node}

/-- A run that stands before an instruction at its limit is cut off there. -/
theorem cutOff_of_passes
    (passed : PassesAfter machine.record count current)
    (next : machine.program[current.moment.next]? = some node)
    (spent : machine.stepLimit ≤ machine.steps + count) :
    CutOff machine count current node := by
  obtain ⟨steps, limit, program, _⟩ := passed.frame_record
  have stops :
      current.turn =
        ({ current with failed := some current.moment.next },
          some (.error ⟨.stepLimit machine.stepLimit, node.location⟩)) := by
    simp only [turn, program, next, steps, limit, spent, ↓reduceIte]
  have whole : machine.run = _ :=
    congrArg (fun ran => (({ ran.1 with finished := true } : Machine), ran.2))
      (passed.passes.runOn_eq.trans (runOn_of_ends stops))
  exact
    { passed
      next
      spent
      result := by rw [whole]
      moment := by rw [whole]
      steps := by rw [whole]; exact steps
      failed := by rw [whole] }

/-- Only the limit makes a run end with the error of the limit. -/
theorem exists_cutOff
    {limit : Nat}
    {location : Location}
    (cut : machine.run.2 = .error ⟨.stepLimit limit, location⟩) :
    ∃ count current node, CutOff machine count current node := by
  obtain ⟨last, final, result, passed, ended, whole⟩ := run_spec machine
  obtain ⟨count, counted⟩ := passed.counted
  obtain ⟨steps, sameLimit, program, _⟩ := counted.frame_record
  rw [whole] at cut
  dsimp only at cut
  subst cut
  have spec := turn_spec last
  rw [ended] at spec
  cases spec with
  | @exhausted node found spent =>
      rw [program] at found
      rw [steps, sameLimit] at spent
      exact ⟨count, last, node, cutOff_of_passes counted found spent⟩
  | @failed node error after found below fails =>
      have breaks : Moment.Breaks last.program last.moment _ after :=
        ⟨node, found, fails⟩
      cases breaks.isOfExecution

/--
A first run that is cut off has executed as many instructions as its limit says.
-/
theorem CutOff.count_eq
    {program : Program}
    {size limit : Nat}
    {budget : Option Nat}
    (cut : CutOff (load program size limit budget) count current node) :
    count = limit := by
  obtain ⟨_, _, _, room⟩ := cut.passed.frame_record
  have spent : limit ≤ 0 + count := cut.spent
  exact Nat.le_antisymm room (Nat.zero_add count ▸ spent)

end CuttingOff

/--
A first run that is not cut off ends in the same way under a larger limit.
-/
theorem run_eq_of_not_cut
    {program : Program}
    {size limit larger : Nat}
    {budget otherBudget : Option Nat}
    (ordered : limit ≤ larger)
    (allowed :
      ∀ cut location,
        (load program size limit budget).run.2 ≠
          .error ⟨.stepLimit cut, location⟩) :
    let short := (load program size limit budget).run
    let long := (load program size larger otherBudget).run
    long.2 = short.2 ∧
      long.1.moment = short.1.moment ∧
      long.1.steps = short.1.steps ∧
      long.1.failed = short.1.failed := by
  intro short long
  let start := load program size limit budget
  obtain ⟨count, ending, ends, stopped⟩ := ends_of_run start allowed
  have bounded : short.1.steps ≤ short.1.stepLimit :=
    steps_le_of_visits (visits_run start) (Nat.zero_le limit)
  have room : 0 + count ≤ larger := by
    calc
      0 + count = short.1.steps := stopped.steps.symm
      _ ≤ short.1.stepLimit := bounded
      _ = limit := stopped.limit
      _ ≤ larger := ordered
  have stoppedLater :
      Stopped (load program size larger otherBudget) long.1 long.2
        count ending :=
    run_of_moment_ends ends room
  exact ⟨stoppedLater.result.trans stopped.result.symm,
    stoppedLater.moment.trans stopped.moment.symm,
    stoppedLater.steps.trans stopped.steps.symm,
    stoppedLater.failed.trans stopped.failed.symm⟩

/-- A first run that is cut off stands where one under a larger limit passes. -/
theorem CutOff.passes_larger
    {program : Program}
    {size limit larger : Nat}
    {budget : Option Nat}
    {count : Nat}
    {current : Machine}
    {node : Node}
    (cut : CutOff (load program size limit budget) count current node)
    (ordered : limit ≤ larger)
    (otherBudget : Option Nat) :
    ∃ alongside,
      PassesAfter (load program size larger otherBudget).record
        limit alongside ∧
        alongside.moment = current.moment := by
  have passed := cut.passed
  rw [cut.count_eq] at passed
  obtain ⟨sameSteps, sameLimit⟩ :=
    record_steps (load program size larger otherBudget)
  apply passed.keepsUp
  · rw [record_program, record_program]
    rfl
  · rw [record_moment, record_moment]
    rfl
  · rw [sameSteps, sameLimit]
    exact (Nat.zero_add limit).symm ▸ ordered

/--
A larger limit continues a run and changes nothing that was done.  A run that is
not cut off ends in the same way under the larger limit.  A run that is cut off
has executed exactly as many instructions as its limit allows, stands where the
run under the larger limit stands after as many, which is where that one is cut
off if the limits are equal, and points to the instruction that is next there.
In any case a run, be it the first one or not, executes no more instructions
than its limit leaves it.
-/
theorem run_of_larger_limit
    (program : Program)
    (size : Nat)
    {limit larger : Nat}
    (ordered : limit ≤ larger)
    (budget otherBudget : Option Nat) :
    let short := (load program size limit budget).run
    let long := (load program size larger otherBudget).run
    ((∀ cut location, short.2 ≠ .error ⟨.stepLimit cut, location⟩) →
      long.2 = short.2 ∧
        long.1.moment = short.1.moment ∧
        long.1.steps = short.1.steps ∧
        long.1.failed = short.1.failed) ∧
    (∀ cut location,
      short.2 = .error ⟨.stepLimit cut, location⟩ →
      cut = limit ∧
        short.1.steps = limit ∧
        (∃ current node,
          PassesAfter (load program size larger otherBudget).record
            limit current ∧
            short.1.moment = current.moment ∧
            program[current.moment.next]? = some node ∧
            location = node.location ∧
            short.1.failed = some current.moment.next) ∧
        (larger = limit → long.2 = short.2 ∧ long.1.moment = short.1.moment)) ∧
    ∀ machine : Machine,
      ∃ count ≤ machine.stepLimit - machine.steps,
        Executes machine count ∧
          machine.run.1.steps = machine.steps + count := by
  intro short long
  refine ⟨run_eq_of_not_cut ordered, ?_, exists_executes⟩
  intro limitInError location cutShort
  obtain ⟨count, current, node, cut⟩ := exists_cutOff cutShort
  obtain ⟨alongside, passed, together⟩ := cut.passes_larger ordered otherBudget
  have pointsTo : RunError.mk (.stepLimit limitInError) location = _ :=
    Except.error.inj (cutShort.symm.trans cut.result)
  cases pointsTo
  refine ⟨rfl, ?_, ⟨alongside, node, passed, ?_, ?_, rfl, ?_⟩, ?_⟩
  · exact cut.steps.trans ((Nat.zero_add count).trans cut.count_eq)
  · exact cut.moment.trans together.symm
  · rw [together]
    exact cut.next
  · rw [together]
    exact cut.failed
  · rintro rfl
    have cutLong :
        CutOff (load program size larger otherBudget) larger alongside node :=
      cutOff_of_passes passed (together ▸ cut.next) (Nat.le_add_left ..)
    exact ⟨cutLong.result.trans cut.result.symm,
      cutLong.moment.trans (together.trans cut.moment.symm)⟩

/--
A loop counts to two in seven steps.  Under a limit of four it is cut off before
the jump, where it also passes under a limit of twenty.  A limit of twenty is
enough, so that one of thirty changes nothing, with a history or without.
-/
theorem run_of_larger_limit_loop :
    let program : Program :=
      [.spawn 0 0 ⟨1, 1⟩,
        .assign "n" (.number 0 ⟨2, 6⟩) ⟨2, 1⟩,
        .label "loop" ⟨3, 1⟩,
        .assign "n"
          (.arithmetic .add (.read "n" ⟨4, 6⟩) (.number 1 ⟨4, 10⟩) ⟨4, 8⟩)
            ⟨4, 1⟩,
        .goTo "loop"
          (.boolean .less (.read "n" ⟨5, 12⟩) (.number 2 ⟨5, 16⟩) ⟨5, 14⟩)
            ⟨5, 1⟩]
    let short := load program 1 4 none
    let enough := load program 1 20 (some 600)
    let plenty := load program 1 30 none
    short.run.2 = .error ⟨.stepLimit 4, ⟨5, 1⟩⟩ ∧
      short.run.1.steps = 4 ∧
      (∃ current,
        PassesAfter enough.record 4 current ∧
          short.run.1.moment = current.moment ∧
          short.run.1.failed = some current.moment.next) ∧
      enough.run.2 = .ok () ∧
      enough.run.1.steps = 7 ∧
      plenty.run.2 = .ok () ∧
      plenty.run.1.moment = enough.run.1.moment ∧
      plenty.run.1.steps = enough.run.1.steps ∧
      ∃ count ≤ 30, Executes plenty count := by
  intro program short enough plenty
  have cutShort : short.run.2 = .error ⟨.stepLimit 4, ⟨5, 1⟩⟩ := by
    decide +kernel
  have succeeds : enough.run.2 = .ok () := by
    decide +kernel
  have allowed :
      ∀ cut location, enough.run.2 ≠ .error ⟨.stepLimit cut, location⟩ := by
    intro cut location
    rw [succeeds]
    nofun
  obtain ⟨_, truncated, _⟩ :=
    run_of_larger_limit program 1 (show 4 ≤ 20 by decide) none (some 600)
  obtain ⟨_, steps, ⟨current, _, passed, sameMoment, _, _, failed⟩, _⟩ :=
    truncated 4 ⟨5, 1⟩ cutShort
  obtain ⟨continued, _, bounded⟩ :=
    run_of_larger_limit program 1 (show 20 ≤ 30 by decide) (some 600) none
  obtain ⟨sameResult, sameEnd, sameSteps, _⟩ := continued allowed
  obtain ⟨count, within, executes, _⟩ := bounded plenty
  exact ⟨cutShort, steps, ⟨current, passed, sameMoment, failed⟩, succeeds,
    by decide +kernel, sameResult.trans succeeds, sameEnd, sameSteps, count,
    within, executes⟩

end Machine

end PixelBrush

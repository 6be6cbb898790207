import PixelBrush.Proofs.Navigation

namespace PixelBrush

/-!
# What a failure leaves behind

An instruction that fails has no effect: the canvas is rolled back and its
journal closed, and the brush, the variables and the next instruction are as
they were.  A run that fails therefore stops with the work of the instructions
that succeeded, and with nothing else.
-/

namespace Moment

/-- The same work was done: the moments differ at most in their place. -/
structure SameWork (first second : Moment) : Prop where
  canvas : first.canvas = second.canvas
  brush : first.brush = second.brush
  bindings : first.bindings = second.bindings
  next : first.next = second.next

/-- No journal is open. -/
def Closed (moment : Moment) : Prop :=
  moment.canvas.journal = none

/--
Executing an instruction closes the journal, whether it succeeds or fails.
-/
theorem stable_closed (program : Program) :
    Stable program Closed where
  follows := by
    rintro moment later ⟨node, flow, after, _, succeeds, rfl, _⟩ _
    obtain ⟨performed, _, rfl⟩ := Action.execute_ok succeeds
    rfl
  breaks := by
    rintro moment after error ⟨node, _, fails⟩ _
    obtain ⟨_, rfl⟩ := Action.execute_error fails
    rfl

/-- An instruction that fails between two others does no work. -/
theorem sameWork_of_fails
    {program : Program}
    {node : Node}
    {moment after : Moment}
    {error : RunError}
    (closed : moment.Closed)
    (fails : Action.execute program node moment = .error error after) :
    after.SameWork moment := by
  obtain ⟨_, rfl⟩ := Action.execute_error fails
  refine ⟨?_, rfl, rfl, rfl⟩
  show { moment.canvas with journal := none } = moment.canvas
  rw [← closed]

end Moment

namespace Machine

/-- Wherever a run passes, it is still on the trace that it started. -/
theorem Passes.remaining_suffix
    {start current : Machine}
    (passed : Passes start current) :
    ∃ earlier, start.remaining = earlier ++ current.remaining := by
  induction passed with
  | start =>
      exact ⟨[], rfl⟩
  | @turn current after _ goesOn inductionHypothesis =>
      obtain ⟨earlier, shape⟩ := inductionHypothesis
      refine ⟨earlier ++ [current.moment], ?_⟩
      rw [shape, (turn_goesOn_spec goesOn).1, List.append_assoc,
        List.singleton_append]

/--
A run that stops with an error has done the work of the last moment of its
trace.
-/
theorem sameWork_of_run_error
    {machine : Machine}
    {error : RunError}
    (closed : ∀ current, Visits machine current → current.moment.Closed)
    (fails : machine.run.2 = .error error) :
    ∃ last,
      machine.remaining.getLast? = some last ∧
        machine.run.1.moment.SameWork last := by
  obtain ⟨last, final, result, passed, ended, whole⟩ := run_spec machine
  obtain ⟨earlier, shape⟩ := passed.remaining_suffix
  have sameTrace : machine.record.remaining = machine.remaining := by
    unfold remaining
    rw [record_program, record_moment, (record_steps machine).1,
      (record_steps machine).2]
  rw [sameTrace, (turn_ends_spec ended).1] at shape
  rw [whole] at fails ⊢
  dsimp only at fails
  subst fails
  refine ⟨last.moment, by rw [shape, List.getLast?_concat], ?_⟩
  have spec := turn_spec last
  rw [ended] at spec
  cases spec with
  | exhausted =>
      exact ⟨rfl, rfl, rfl, rfl⟩
  | failed found below broken =>
      exact Moment.sameWork_of_fails (closed last (.passes passed)) broken

/--
Failures leave no trace.  On every machine that runs and moves lead to, an
instruction that fails keeps canvas, brush, variables and next instruction and
leaves no journal open; and a run that fails, be it at the step limit, ends with
the work of the last instruction that succeeded.
-/
theorem failure_keeps_work
    {program : Program}
    {size : Nat}
    {machine : Machine}
    (reached : Reached program size machine) :
    (∀ node error after,
      Action.execute program node machine.moment = .error error after →
      after.SameWork machine.moment ∧ after.canvas.journal = none) ∧
    ∀ error,
      machine.run.2 = .error error →
      ∃ moments last,
        Moment.Chronicle program machine.moment
            (machine.stepLimit - machine.steps) moments ∧
          moments.getLast? = some last ∧
          machine.run.1.moment.SameWork last := by
  have stable := Moment.stable_closed program
  have keeps := reached.keeps stable rfl
  constructor
  · intro node error after fails
    have same := Moment.sameWork_of_fails keeps.holds.current fails
    refine ⟨same, ?_⟩
    rw [same.canvas]
    exact keeps.holds.current
  · intro error fails
    have closed : ∀ current, Visits machine current → current.moment.Closed :=
      fun current visited => (keeps_visits stable visited keeps).holds.current
    obtain ⟨last, isLast, same⟩ := sameWork_of_run_error closed fails
    refine ⟨machine.remaining, last, ?_, isLast, same⟩
    unfold remaining
    rw [keeps.program]
    exact Moment.chronicle_trace program machine.moment
      (machine.stepLimit - machine.steps)

/--
A rectangle without width fails after its target was computed.  The red cells of
the line before it stay, and so does the brush at the end of that line.
-/
theorem failure_keeps_work_flat_rectangle :
    let program : Program :=
      [.spawn 0 0 ⟨1, 1⟩,
        .setColor "Red" ⟨2, 1⟩,
        .draw .line
          [.number 0 ⟨3, 10⟩, .number 1 ⟨3, 13⟩, .number 1 ⟨3, 16⟩] ⟨3, 1⟩,
        .draw .rectangle
          [.number 1 ⟨4, 15⟩, .number 0 ⟨4, 18⟩, .number 1 ⟨4, 21⟩,
            .number 0 ⟨4, 24⟩, .number 2 ⟨4, 27⟩] ⟨4, 1⟩]
    let machine := load program 2 10 (some 1000)
    machine.run.2 = .error ⟨.badArgument (.extent 0 2), ⟨4, 1⟩⟩ ∧
      machine.run.1.moment.canvas.cells = #[.red, .red, .white, .white] ∧
      ∃ moments last,
        Moment.Chronicle program machine.moment 10 moments ∧
          moments.getLast? = some last ∧
          machine.run.1.moment.SameWork last := by
  intro program machine
  have fails : machine.run.2 = .error ⟨.badArgument (.extent 0 2), ⟨4, 1⟩⟩ := by
    decide +kernel
  exact ⟨fails, by decide +kernel,
    (failure_keeps_work (.load 10 (some 1000))).2 _ fails⟩

end Machine

end PixelBrush

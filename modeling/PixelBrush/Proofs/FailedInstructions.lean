import PixelBrush.Proofs.GrowingHistories
import PixelBrush.Proofs.Replay

namespace PixelBrush

/-!
# Which instruction is named as failed

A run that fails names the instruction it failed at.  A run that ends well names
none, and it takes back no name that an earlier run left.  All moments of a
machine lead to one ending, so where no run is cut off by the step limit, either
all runs fail or none does, and the name is right after every one of them.  A
run that is cut off is the exception: its name stays when a later run ends well.
-/

namespace Moment

variable
  {program : Program}
  {moment : Moment}

/-- Execution ends in one way only. -/
theorem Ends.unique
    {count otherCount : Nat}
    {ending other : Ending}
    (ends : Ends program moment count ending)
    (also : Ends program moment otherCount other) :
    ending = other := by
  induction ends generalizing otherCount with
  | finished ended =>
      cases also with
      | finished =>
          rfl
      | failed breaks =>
          obtain ⟨node, found, _⟩ := breaks
          cases ended.symm.trans found
      | step follows =>
          obtain ⟨node, _, _, found, _⟩ := follows
          cases ended.symm.trans found
  | failed breaks =>
      cases also with
      | finished ended =>
          obtain ⟨node, found, _⟩ := breaks
          cases ended.symm.trans found
      | failed alsoBreaks =>
          obtain ⟨node, found, fails⟩ := breaks
          obtain ⟨other, alsoFound, alsoFails⟩ := alsoBreaks
          cases found.symm.trans alsoFound
          cases fails.symm.trans alsoFails
          rfl
      | step follows =>
          exact (breaks.not_follows follows).elim
  | step follows _ inductionHypothesis =>
      obtain ⟨_, _, rest⟩ := also.tail follows
      exact inductionHypothesis rest

/--
However execution from the second moment ends, that from the first ends so too.
-/
def EndsLike (program : Program) (first second : Moment) : Prop :=
  ∀ count ending,
    Ends program second count ending →
    ∃ longer, Ends program first longer ending

/-- Every moment that execution leads to ends like the one it started from. -/
theorem stable_endsLike
    (program : Program)
    (first : Moment) :
    Stable program (EndsLike program first) where
  follows := by
    intro moment later follows like count ending ends
    exact like (count + 1) ending (.step follows ends)
  breaks := by
    intro moment after error breaks like count ending ends
    obtain ⟨sameNext, again⟩ := breaks.again
    have sameEnding : ending = ⟨after, .error error, some after.next⟩ :=
      ends.unique (.failed again)
    rw [sameEnding, sameNext]
    exact like 1 _ (.failed breaks)

end Moment

namespace Machine

/-- The run of a machine is cut off by its step limit. -/
def IsCutOff (machine : Machine) : Prop :=
  ∃ limit location, machine.run.2 = .error ⟨.stepLimit limit, location⟩

/--
Runs of one program that are not cut off have one result, wherever they start.
-/
theorem Reached.result_eq
    {program : Program}
    {size : Nat}
    {first second : Machine}
    (reached : Reached program size first)
    (alsoReached : Reached program size second)
    (allowed : ¬ first.IsCutOff)
    (alsoAllowed : ¬ second.IsCutOff) :
    first.run.2 = second.run.2 := by
  have fromStart :
      ∀ {machine : Machine},
        Reached program size machine →
        ¬ machine.IsCutOff →
        ∃ count ending,
          Moment.Ends program (Moment.initial size) count ending ∧
            machine.run.2 = ending.result := by
    intro machine reached allowed
    have keeps :=
      reached.keeps (Moment.stable_endsLike program (Moment.initial size))
        fun count ending ends => ⟨count, ends⟩
    obtain ⟨count, ending, ends, stopped⟩ :=
      ends_of_run machine fun limit location cut =>
        allowed ⟨limit, location, cut⟩
    rw [keeps.program] at ends
    obtain ⟨longer, atStart⟩ := keeps.holds.current count ending ends
    exact ⟨longer, ending, atStart, stopped.result⟩
  obtain ⟨_, ending, ends, result⟩ := fromStart reached allowed
  obtain ⟨_, other, alsoEnds, alsoResult⟩ := fromStart alsoReached alsoAllowed
  rw [result, alsoResult, ends.unique alsoEnds]

/-! ## The instruction at which a run fails -/

/--
The run of a machine fails with this error at the instruction with this index.
-/
inductive FailsAt (machine : Machine) (index : Nat) : RunError → Prop where
  | breaks
      {last : Machine}
      {error : RunError}
      {after : Moment}
      (passed : Passes machine.record last)
      (next : last.moment.next = index)
      (breaks : Moment.Breaks machine.program last.moment error after) :
      FailsAt machine index error
  | cutOff
      {last : Machine}
      {node : Node}
      (passed : Passes machine.record last)
      (next : last.moment.next = index)
      (found : machine.program[index]? = some node)
      (spent : last.stepLimit ≤ last.steps) :
      FailsAt machine index ⟨.stepLimit last.stepLimit, node.location⟩

/--
A run that fails names the instruction that failed, which is also the next one.
-/
theorem failed_of_run_error
    {machine : Machine}
    {error : RunError}
    (fails : machine.run.2 = .error error) :
    ∃ index,
      machine.run.1.failed = some index ∧
        machine.run.1.moment.next = index ∧
        FailsAt machine index error := by
  obtain ⟨last, final, result, passed, ended, whole⟩ := run_spec machine
  have sameProgram : last.program = machine.program :=
    passed.preserves (fun goesOn same => (program_of_turn goesOn).trans same)
      (record_program machine)
  rw [whole] at fails ⊢
  dsimp only at fails
  subst fails
  have spec := turn_spec last
  rw [ended] at spec
  refine ⟨last.moment.next, ?_⟩
  cases spec with
  | exhausted found spent =>
      exact ⟨rfl, rfl, .cutOff passed rfl (sameProgram ▸ found) spent⟩
  | @failed node _ after found below broken =>
      have breaks : Moment.Breaks machine.program last.moment error after :=
        sameProgram ▸ ⟨node, found, broken⟩
      exact ⟨rfl, breaks.again.1, .breaks passed rfl breaks⟩

/-- A run that ends well leaves the name that it found. -/
theorem failed_of_run_ok
    {machine : Machine}
    (succeeds : machine.run.2 = .ok ()) :
    machine.run.1.failed = machine.failed := by
  have concludes := run_concludes machine
  generalize machine.run = ran at *
  cases concludes with
  | well _ failed =>
      exact failed
  | badly =>
      cases succeeds

/-! ## Runs and moves in any order -/

/-- The instruction that the run of a machine fails at, if it fails. -/
def failure? (machine : Machine) : Option Nat :=
  match machine.run.2 with
  | .ok _ => none
  | .error _ => machine.run.1.failed

/-- A run without a failed instruction is a run that succeeds. -/
theorem failure?_eq_none_iff
    {machine : Machine} :
    machine.failure? = none ↔ machine.run.2 = .ok () := by
  unfold failure?
  cases ended : machine.run.2 with
  | ok =>
      exact ⟨fun _ => rfl, fun _ => rfl⟩
  | error error =>
      obtain ⟨index, failed, _⟩ := failed_of_run_error ended
      rw [failed]
      constructor
      · intro isNone
        cases isNone
      · intro isOk
        cases isOk

/-- The machines that are run while requests are served, in order. -/
def runStarts (machine : Machine) : List Request → List Machine
  | [] => []
  | .run :: rest => machine :: runStarts machine.run.1 rest
  | .move move :: rest => runStarts (machine.move move) rest

/--
A run marks the instruction at which it failed, or keeps the mark there was.
-/
theorem failed_run (machine : Machine) :
    machine.run.1.failed = machine.failure?.or machine.failed := by
  unfold failure?
  cases ended : machine.run.2 with
  | ok =>
      exact failed_of_run_ok ended
  | error error =>
      obtain ⟨index, failed, _⟩ := failed_of_run_error ended
      rw [failed]
      rfl

/--
After any requests, the name is the one that the last failing run has left.
-/
theorem failed_requests
    (machine : Machine)
    (requests : List Request) :
    (requests.foldl serve machine).failed =
      ((runStarts machine requests).reverse.findSome? failure?).or
        machine.failed := by
  induction requests generalizing machine with
  | nil =>
      rfl
  | cons request rest inductionHypothesis =>
      rw [List.foldl_cons, inductionHypothesis]
      cases request with
      | run =>
          rw [serve, failed_run, runStarts, List.reverse_cons,
            List.findSome?_append, List.findSome?_singleton, Option.or_assoc]
      | move move =>
          have sameFailed : (machine.move move).failed = machine.failed :=
            (moves_frame [move] machine).2.2.2
          rw [serve, sameFailed, runStarts]

/-- A request leads from machines that are reached to one that is. -/
theorem Reached.serve
    {program : Program}
    {size : Nat}
    {machine : Machine}
    (reached : Reached program size machine)
    (request : Request) :
    Reached program size (machine.serve request) := by
  cases request with
  | run =>
      exact .run reached (visits_run machine)
  | move move =>
      exact .move reached move

/--
Serving requests and starting the runs among them leads to no other machines.
-/
theorem Reached.requests
    {program : Program}
    {size : Nat}
    {machine : Machine}
    (reached : Reached program size machine)
    (requests : List Request) :
    Reached program size (requests.foldl Machine.serve machine) ∧
      ∀ before ∈ runStarts machine requests, Reached program size before := by
  induction requests generalizing machine with
  | nil =>
      exact ⟨reached, fun _ member => absurd member List.not_mem_nil⟩
  | cons request rest inductionHypothesis =>
      obtain ⟨reachedLast, reachedStarts⟩ :=
        inductionHypothesis (reached.serve request)
      refine ⟨reachedLast, ?_⟩
      cases request with
      | run =>
          exact List.forall_mem_cons.mpr ⟨reached, reachedStarts⟩
      | move move =>
          exact reachedStarts

/--
Right after a run that failed, the named instruction is the one it failed at.
Right after a run that ended well, the named one is that of the last failure
before, so that none is named exactly if none of the runs before was cut off by
the step limit.
-/
theorem failed_after_requests
    (program : Program)
    (size stepLimit : Nat)
    (budget : Option Nat)
    (requests : List Request) :
    let start := load program size stepLimit budget
    let machine := requests.foldl serve start
    (∀ error,
      machine.run.2 = .error error →
      ∃ index,
        machine.run.1.failed = some index ∧
          machine.run.1.moment.next = index ∧
          FailsAt machine index error) ∧
    (machine.run.2 = .ok () →
      machine.run.1.failed =
        (runStarts start requests).reverse.findSome? failure? ∧
        (machine.run.1.failed = none ↔
          ∀ before ∈ runStarts start requests, ¬ before.IsCutOff)) := by
  intro start machine
  refine ⟨fun error => failed_of_run_error, ?_⟩
  intro succeeds
  obtain ⟨reached, reachedStarts⟩ :=
    Reached.requests
      (.load stepLimit budget : Reached program size start) requests
  have remembered :
      machine.run.1.failed =
        (runStarts start requests).reverse.findSome? failure? := by
    rw [failed_of_run_ok succeeds, failed_requests]
    exact Option.or_none
  refine ⟨remembered, ?_⟩
  have notCut : ¬ machine.IsCutOff := by
    rintro ⟨limit, location, cut⟩
    cases succeeds.symm.trans cut
  rw [remembered, List.findSome?_eq_none_iff]
  simp only [List.mem_reverse, failure?_eq_none_iff]
  constructor
  · rintro allWell before member ⟨limit, location, cut⟩
    cases (allWell before member).symm.trans cut
  · intro noneCut before member
    rw [(reachedStarts before member).result_eq reached
      (noneCut before member) notCut]
    exact succeeds

/--
A division by zero fails twice, the second time after a move back to the start,
and is named after both runs.  A program that runs twice without being cut off
names nothing.
-/
theorem failed_after_requests_division :
    let requests : List Request := [.run, .move .toStart]
    let dividing : Program :=
      [.spawn 0 0 ⟨1, 1⟩,
        .assign "n"
          (.arithmetic .divide (.number 1 ⟨2, 6⟩) (.number 0 ⟨2, 10⟩) ⟨2, 8⟩)
            ⟨2, 1⟩]
    let failing := requests.foldl serve (load dividing 1 10 (some 1000))
    let start := load [.spawn 0 0 ⟨1, 1⟩] 1 2 (some 1000)
    let again := requests.foldl serve start
    failing.run.2 = .error ⟨.zeroDivision .quotient, ⟨2, 8⟩⟩ ∧
      failing.run.1.failed = some 1 ∧
      FailsAt failing 1 ⟨.zeroDivision .quotient, ⟨2, 8⟩⟩ ∧
      again.run.2 = .ok () ∧
      again.run.1.steps = 2 ∧
      again.run.1.failed = none := by
  intro requests dividing failing start again
  have fails : failing.run.2 = .error ⟨.zeroDivision .quotient, ⟨2, 8⟩⟩ := by
    decide +kernel
  obtain ⟨named, _⟩ := failed_after_requests dividing 1 10 (some 1000) requests
  obtain ⟨index, isNamed, isNext, failsAt⟩ := named _ fails
  have second : failing.run.1.moment.next = 1 := by
    decide +kernel
  cases isNext.symm.trans second
  have succeeds : again.run.2 = .ok () := by
    decide +kernel
  obtain ⟨_, unnamed⟩ :=
    failed_after_requests [.spawn 0 0 ⟨1, 1⟩] 1 2 (some 1000) requests
  have notCut : ∀ before ∈ runStarts start requests, ¬ before.IsCutOff := by
    have firstSucceeds : start.run.2 = .ok () := by
      decide +kernel
    have onlyStart : runStarts start requests = [start] := rfl
    rw [onlyStart, List.forall_mem_singleton]
    rintro ⟨limit, location, cut⟩
    cases firstSucceeds.symm.trans cut
  exact ⟨fails, isNamed, failsAt, succeeds, by decide +kernel,
    (unnamed succeeds).2.mpr notCut⟩

/--
A name that a run left when it was cut off stays after a run that ends well.
-/
theorem failed_after_cut_off :
    let requests : List Request := [.run, .move .toStart, .run, .move .backward]
    let machine :=
      requests.foldl serve (load [.spawn 0 0 ⟨1, 1⟩] 1 1 (some 1000))
    machine.run.2 = .ok () ∧ machine.run.1.failed = some 0 := by
  decide +kernel

end Machine

end PixelBrush

import Mathlib.Data.List.Induction
import PixelBrush.Proofs.Instructions
import PixelBrush.Proofs.Turns

namespace PixelBrush

/-!
# Recording a run

A history watches a run and does not take part in it.  Erasing the history from
a machine commutes with its turns, so a run ends in the same way with and
without one.  What the history holds after a first run is the longest prefix of
the moments the run went through that the budget allows.
-/

namespace Moment

/-- The moment after the next instruction, if there is one and it succeeds. -/
def advance? (program : Program) (moment : Moment) : Option Moment :=
  match program[moment.next]? with
  | none => none
  | some node =>
      match Action.execute program node moment with
      | .ok flow after => some { after with next := flow.target after.next }
      | .error _ _ => none

/--
The moments of a run: the one it starts from, and the one after each of at most
`steps` instructions, as long as they succeed.
-/
def trace (program : Program) (moment : Moment) : Nat → List Moment
  | 0 => [moment]
  | steps + 1 =>
      moment ::
        match moment.advance? program with
        | none => []
        | some later => later.trace program steps

/-- The memory that several moments are counted with. -/
def totalBytes : List Moment → Nat
  | [] => 0
  | moment :: rest => moment.byteSize + totalBytes rest

/--
The longest prefix of a list of moments that a budget allows, by its length.
-/
structure LongestWithin
    (budget : Nat)
    (moments : List Moment)
    (count : Nat) :
    Prop where
  bounded : count ≤ moments.length
  fits : totalBytes (moments.take count) ≤ budget
  longest :
    ∀ other,
      other ≤ moments.length →
      totalBytes (moments.take other) ≤ budget →
      other ≤ count

/-- One more moment adds its own bytes. -/
theorem totalBytes_concat
    (moments : List Moment)
    (moment : Moment) :
    totalBytes (moments ++ [moment]) =
      totalBytes moments + moment.byteSize := by
  induction moments with
  | nil =>
      simp [totalBytes]
  | cons first rest inductionHypothesis =>
      simp only [List.cons_append, totalBytes, inductionHypothesis,
        Nat.add_assoc]

namespace LongestWithin

variable
  {budget count : Nat}
  {moments : List Moment}
  {moment : Moment}

/-- Where a moment was left out, all of them with one more exceed the budget. -/
theorem exceeds_of_lt
    (within : LongestWithin budget moments count)
    (proper : count < moments.length) :
    budget < totalBytes (moments ++ [moment]) := by
  apply Decidable.byContradiction
  intro enough
  rw [totalBytes_concat] at enough
  have whole := within.longest moments.length (Nat.le_refl _)
  rw [List.take_length] at whole
  omega

/--
A prefix stays the longest one when the moments with one more exceed the budget.
-/
theorem concat_of_exceeds
    (within : LongestWithin budget moments count)
    (exceeds : budget < totalBytes (moments ++ [moment])) :
    LongestWithin budget (moments ++ [moment]) count where
  bounded := by
    have bounded := within.bounded
    rw [List.length_append]
    omega
  fits := by
    rw [List.take_append_of_le_length within.bounded]
    exact within.fits
  longest := by
    intro other short fits
    by_cases inside : other ≤ moments.length
    · rw [List.take_append_of_le_length inside] at fits
      exact within.longest other inside fits
    · have all : (moments ++ [moment]).take other = moments ++ [moment] :=
        List.take_of_length_le (by
          rw [List.length_append, List.length_singleton]
          omega)
      rw [all] at fits
      omega

end LongestWithin

/-- A trace starts with the moment that it starts from. -/
theorem trace_eq_cons
    (program : Program)
    (moment : Moment)
    (steps : Nat) :
    moment.trace program steps =
      moment :: (moment.trace program steps).tail := by
  cases steps <;> rfl

/--
The next instruction succeeds and leads from one moment to the other: what the
execution left, the index where its flow goes on, and the place of the
instruction.
-/
def Follows (program : Program) (earlier later : Moment) : Prop :=
  ∃ node flow after,
    program[earlier.next]? = some node ∧
      Action.execute program node earlier = .ok flow after ∧
      later = { after with next := flow.target earlier.next } ∧
      later.location = node.location

/-- A moment advances to another one exactly if this one follows it. -/
theorem advance?_eq_some_iff
    {program : Program}
    {moment later : Moment} :
    moment.advance? program = some later ↔ Follows program moment later := by
  unfold advance? Follows
  constructor
  · intro advanced
    split at advanced
    · cases advanced
    · rename_i node found
      split at advanced
      · rename_i flow after succeeds
        cases advanced
        obtain ⟨performed, effect, rfl⟩ := Action.execute_ok succeeds
        obtain ⟨sameNext, sameLocation, _⟩ := effect.frame
        have next :
            (Action.changeCanvas performed Canvas.commit).next = moment.next :=
          sameNext
        exact ⟨node, flow, _, found, succeeds, by rw [next], sameLocation⟩
      · cases advanced
  · rintro ⟨node, flow, after, found, succeeds, rfl, _⟩
    obtain ⟨performed, effect, rfl⟩ := Action.execute_ok succeeds
    have next :
        (Action.changeCanvas performed Canvas.commit).next = moment.next :=
      effect.frame.1
    simp only [found, succeeds, next]

/--
All moments of a run from its first one on: each follows the one before it, and
the list ends only where the step limit is reached or nothing follows.
-/
structure Chronicle
    (program : Program)
    (first : Moment)
    (stepLimit : Nat)
    (moments : List Moment) :
    Prop where
  starts : moments.head? = some first
  linked : moments.IsChain (Follows program)
  bounded : moments.length ≤ stepLimit + 1
  complete :
    moments.length = stepLimit + 1 ∨
      ∀ last later,
        moments.getLast? = some last →
        ¬ Follows program last later

/-- The trace is the chronicle of a run. -/
theorem chronicle_trace
    (program : Program)
    (first : Moment)
    (stepLimit : Nat) :
    Chronicle program first stepLimit (first.trace program stepLimit) := by
  induction stepLimit generalizing first with
  | zero =>
      exact
        { starts := rfl
          linked := .singleton first
          bounded := Nat.le_refl 1
          complete := .inl rfl }
  | succ steps inductionHypothesis =>
      cases advanced : first.advance? program with
      | none =>
          have alone : first.trace program (steps + 1) = [first] := by
            simp only [trace, advanced]
          rw [alone]
          exact
            { starts := rfl
              linked := .singleton first
              bounded := by simp
              complete := .inr (by
                intro last later isLast follows
                rw [List.getLast?_singleton, Option.some.injEq] at isLast
                rw [← isLast, ← advance?_eq_some_iff, advanced] at follows
                cases follows) }
      | some second =>
          have shape :
              first.trace program (steps + 1) =
                first :: second.trace program steps := by
            simp only [trace, advanced]
          have rest := inductionHypothesis second
          have restShape := trace_eq_cons program second steps
          rw [shape]
          exact
            { starts := rfl
              linked := by
                have linked := rest.linked
                rw [restShape] at linked ⊢
                exact .cons_cons (advance?_eq_some_iff.mp advanced) linked
              bounded := by
                have bounded := rest.bounded
                rw [List.length_cons]
                omega
              complete := by
                rcases rest.complete with full | closed
                · left
                  rw [List.length_cons, full]
                · right
                  intro last later isLast
                  rw [restShape, List.getLast?_cons_cons, ← restShape] at isLast
                  exact closed last later isLast }

end Moment

/-- A history, and whether it has refused a moment. -/
structure Recording where
  history : History
  stopped : Bool

namespace Recording

/-- Offers a moment to a history that has not refused one yet. -/
def offer (recording : Recording) (moment : Moment) : Recording :=
  if recording.stopped then
    recording
  else
    match recording.history.push moment with
    | .ok longer => ⟨longer, false⟩
    | .error _ => ⟨recording.history, true⟩

/-- What a recording has kept of the moments offered to it. -/
structure Keeps
    (budget : Nat)
    (moments : List Moment)
    (recording : Recording)
    (count : Nat) :
    Prop where
  longest : Moment.LongestWithin budget moments count
  kept : recording.history.moments.toList = moments.take count
  limit : recording.history.budget = budget
  used : recording.history.used = Moment.totalBytes (moments.take count)
  stopped : recording.stopped = true ↔ count < moments.length

/--
A recording that is offered one more moment still keeps the first of them, as
many as fit.
-/
theorem Keeps.offer
    {budget count : Nat}
    {moments : List Moment}
    {recording : Recording}
    (keeps : Keeps budget moments recording count)
    (moment : Moment) :
    ∃ later,
      Keeps budget (moments ++ [moment]) (recording.offer moment) later := by
  have bounded := keeps.longest.bounded
  have longer : (moments ++ [moment]).length = moments.length + 1 := by
    simp
  have samePrefix :
      (moments ++ [moment]).take count = moments.take count :=
    List.take_append_of_le_length bounded
  unfold Recording.offer
  split
  · rename_i stopped
    have proper := keeps.stopped.mp stopped
    exact ⟨count,
      { longest :=
        keeps.longest.concat_of_exceeds (keeps.longest.exceeds_of_lt proper)
        kept := samePrefix ▸ keeps.kept
        limit := keeps.limit
        used := samePrefix ▸ keeps.used
        stopped := iff_of_true stopped (by omega) }⟩
  · rename_i recordingOn
    -- As long as nothing was refused, every moment was kept.
    have whole : count = moments.length := by
      have notProper := mt keeps.stopped.mpr recordingOn
      omega
    subst whole
    rw [List.take_length] at samePrefix
    have kept : recording.history.moments.toList = moments := by
      rw [keeps.kept, List.take_length]
    have used :
        recording.history.used + moment.byteSize =
          Moment.totalBytes (moments ++ [moment]) := by
      rw [keeps.used, List.take_length, Moment.totalBytes_concat]
    unfold History.push
    rw [used, keeps.limit]
    by_cases tooMuch : budget < Moment.totalBytes (moments ++ [moment])
    · rw [if_pos tooMuch]
      exact ⟨moments.length,
        { longest := keeps.longest.concat_of_exceeds tooMuch
          kept := by
            rw [samePrefix]
            exact kept
          limit := keeps.limit
          used := by
            rw [keeps.used, List.take_length, samePrefix]
          stopped := iff_of_true rfl (by omega) }⟩
    · have all :
          (moments ++ [moment]).take (moments.length + 1) =
            moments ++ [moment] :=
        List.take_of_length_le (by omega)
      rw [if_neg tooMuch]
      exact ⟨moments.length + 1,
        { longest :=
            { bounded := by omega
              fits := by
                rw [all]
                exact Nat.le_of_not_lt tooMuch
              longest := fun other short _ => longer ▸ short }
          kept := by
            rw [all, Array.toList_push, kept]
          limit := rfl
          used := by
            rw [all]
          stopped := iff_of_false Bool.false_ne_true (by omega) }⟩

/-- A recording keeps the longest prefix of everything offered to it. -/
theorem keeps_offered
    (budget : Nat)
    (moments : List Moment) :
    ∃ count,
      Keeps budget moments
        (moments.foldl offer ⟨History.empty budget, false⟩) count := by
  induction moments using List.reverseRecOn with
  | nil =>
      exact ⟨0,
        { longest :=
            { bounded := Nat.le_refl 0
              fits := Nat.zero_le budget
              longest := fun other short _ => short }
          kept := rfl
          limit := rfl
          used := rfl
          stopped := by simp }⟩
  | append_singleton moments moment inductionHypothesis =>
      obtain ⟨count, keeps⟩ := inductionHypothesis
      rw [List.foldl_append, List.foldl_cons, List.foldl_nil]
      exact keeps.offer moment

end Recording

namespace Machine

/-- The recording of a machine that has a history. -/
def recording? (machine : Machine) : Option Recording :=
  machine.history.map fun history => ⟨history, machine.recordingStopped⟩

/-- Recording offers the current moment to the history, if there is one. -/
theorem record_recording? (machine : Machine) :
    machine.record.recording? =
      machine.recording?.map (·.offer machine.moment) := by
  obtain ⟨program, moment, steps, stepLimit, history, stopped, position,
    finished, failed⟩ := machine
  cases history with
  | none =>
      cases stopped <;> rfl
  | some history =>
      cases stopped with
      | true =>
          rfl
      | false =>
          simp only [record, recording?, Recording.offer, Option.map_some,
            Bool.false_eq_true, ↓reduceIte]
          cases history.push moment <;> rfl

/-- What is left of the trace at a machine. -/
def remaining (machine : Machine) : List Moment :=
  machine.moment.trace machine.program (machine.stepLimit - machine.steps)

/-- A turn that goes on leads to the next moment of the trace and offers it. -/
theorem turn_goesOn_spec
    {machine after : Machine}
    (goesOn : machine.turn = (after, none)) :
    machine.remaining = machine.moment :: after.remaining ∧
      after.recording? = machine.recording?.map (·.offer after.moment) := by
  have spec := turn_spec machine
  rw [goesOn] at spec
  cases spec with
  | @advanced node flow performed found below succeeds =>
      constructor
      · obtain ⟨rest, left⟩ :
            ∃ rest, machine.stepLimit - machine.steps = rest + 1 :=
          ⟨machine.stepLimit - machine.steps - 1, by omega⟩
        have later : machine.stepLimit - (machine.steps + 1) = rest := by
          omega
        unfold remaining
        rw [record_program, record_moment, (record_steps _).1,
          (record_steps _).2]
        simp only [left, later, Moment.trace, Moment.advance?, found, succeeds]
      · rw [record_recording?, record_moment]
        rfl

/-- A turn that ends the run is at the end of the trace and offers nothing. -/
theorem turn_ends_spec
    {machine after : Machine}
    {result : Except RunError Unit}
    (ends : machine.turn = (after, some result)) :
    machine.remaining = [machine.moment] ∧
      after.recording? = machine.recording? := by
  have spec := turn_spec machine
  rw [ends] at spec
  unfold remaining
  cases spec with
  | finished ended =>
      refine ⟨?_, rfl⟩
      cases machine.stepLimit - machine.steps with
      | zero =>
          rfl
      | succ steps =>
          simp only [Moment.trace, Moment.advance?, ended]
  | exhausted found spent =>
      refine ⟨?_, rfl⟩
      rw [Nat.sub_eq_zero_of_le spent]
      rfl
  | failed found below fails =>
      refine ⟨?_, rfl⟩
      cases machine.stepLimit - machine.steps with
      | zero =>
          rfl
      | succ steps =>
          simp only [Moment.trace, Moment.advance?, found, fails]

/-- A run offers every moment after the first to the history, in order. -/
theorem runOn_recording? (machine : Machine) :
    machine.runOn.1.recording? =
      machine.recording?.map
        (machine.remaining.tail.foldl Recording.offer) := by
  fun_induction runOn machine with
  | case1 machine after result ends =>
      obtain ⟨last, same⟩ := turn_ends_spec ends
      rw [last, same]
      cases machine.recording? <;> rfl
  | case2 machine after goesOn inductionHypothesis =>
      obtain ⟨rest, offered⟩ := turn_goesOn_spec goesOn
      have restShape :
          after.remaining = after.moment :: after.remaining.tail :=
        Moment.trace_eq_cons ..
      rw [inductionHypothesis, rest, offered, List.tail_cons, restShape]
      cases machine.recording? <;> rfl

/-- The machine without its history. -/
def unwatched (machine : Machine) : Machine :=
  { machine with
    history := none
    recordingStopped := false
    position := 0 }

/-- Recording changes nothing but the history. -/
theorem unwatched_record (machine : Machine) :
    machine.record.unwatched = machine.unwatched := by
  unfold record
  split
  · dsimp only
    split <;> rfl
  · rfl

/-- A machine without a history takes the same turns. -/
theorem turn_unwatched (machine : Machine) :
    machine.unwatched.turn = (machine.turn.1.unwatched, machine.turn.2) := by
  have spec := turn_spec machine
  generalize machine.turn = turned at spec
  cases spec with
  | finished ended =>
      simp only [turn, unwatched, ended]
  | exhausted found spent =>
      simp only [turn, unwatched, found, spent, ↓reduceIte]
  | failed found below fails =>
      simp only [turn, unwatched, found, Nat.not_le_of_lt below, ↓reduceIte,
        fails]
  | advanced found below succeeds =>
      rw [unwatched_record]
      simp only [turn, unwatched, found, Nat.not_le_of_lt below, ↓reduceIte,
        succeeds]
      rfl

/-- A machine without a history runs in the same way. -/
theorem runOn_unwatched (machine : Machine) :
    machine.unwatched.runOn = (machine.runOn.1.unwatched, machine.runOn.2) := by
  fun_induction runOn machine with
  | case1 machine after result ends =>
      have same := turn_unwatched machine
      rw [ends] at same
      exact runOn_of_ends same
  | case2 machine after goesOn inductionHypothesis =>
      have same := turn_unwatched machine
      rw [goesOn] at same
      exact (runOn_of_goesOn same).trans inductionHypothesis

/-- A first run ends in the same way with and without a history. -/
theorem run_unwatched
    (program : Program)
    (size stepLimit budget : Nat) :
    (load program size stepLimit (some budget)).run.2 =
        (load program size stepLimit none).run.2 ∧
      (load program size stepLimit (some budget)).run.1.unwatched =
        (load program size stepLimit none).run.1.unwatched := by
  have loaded :
      (load program size stepLimit (some budget)).record.unwatched =
        (load program size stepLimit none).record := by
    rw [unwatched_record]
    rfl
  have same :=
    runOn_unwatched (load program size stepLimit (some budget)).record
  rw [loaded] at same
  unfold run
  dsimp only
  rw [same]
  exact ⟨rfl, rfl⟩

/-- A first run offers its whole trace to the history. -/
theorem run_recording
    (program : Program)
    (size stepLimit budget : Nat) :
    let watched := (load program size stepLimit (some budget)).run
    ∃ history,
      watched.1.history = some history ∧
        (⟨history, watched.1.recordingStopped⟩ : Recording) =
          ((Moment.initial size).trace program stepLimit).foldl Recording.offer
            ⟨History.empty budget, false⟩ := by
  intro watched
  have recorded :=
    runOn_recording? (load program size stepLimit (some budget)).record
  have wholeTrace :
      (load program size stepLimit (some budget)).record.remaining =
        (Moment.initial size).trace program stepLimit := by
    unfold remaining
    rw [record_program, record_moment, (record_steps _).1, (record_steps _).2]
    rfl
  rw [wholeTrace, record_recording?] at recorded
  rw [Moment.trace_eq_cons, List.foldl_cons]
  obtain ⟨history, found, shape⟩ := Option.map_eq_some_iff.mp recorded
  exact ⟨history, found, shape⟩

/--
Watching a first run with a history changes nothing about it, and the history
holds the moments of the run from the first one on, as many as the budget
allows.  Recording has stopped exactly when a moment was left out.
-/
theorem run_watched
    (program : Program)
    (size stepLimit budget : Nat) :
    let plain := (load program size stepLimit none).run
    let watched := (load program size stepLimit (some budget)).run
    watched.2 = plain.2 ∧
      watched.1.moment = plain.1.moment ∧
      watched.1.steps = plain.1.steps ∧
      watched.1.failed = plain.1.failed ∧
      ∃ moments history count,
        Moment.Chronicle program (Moment.initial size) stepLimit moments ∧
          Moment.LongestWithin budget moments count ∧
          watched.1.history = some history ∧
          history.moments.toList = moments.take count ∧
          (watched.1.recordingStopped = true ↔ count < moments.length) := by
  intro plain watched
  obtain ⟨sameResult, sameMachine⟩ :=
    run_unwatched program size stepLimit budget
  obtain ⟨count, keeps⟩ :=
    Recording.keeps_offered budget
      ((Moment.initial size).trace program stepLimit)
  obtain ⟨history, found, recorded⟩ :=
    run_recording program size stepLimit budget
  rw [← recorded] at keeps
  have sameMoment := congrArg Machine.moment sameMachine
  have sameSteps := congrArg Machine.steps sameMachine
  have sameFailure := congrArg Machine.failed sameMachine
  exact ⟨sameResult, sameMoment, sameSteps, sameFailure, _, history, count,
    Moment.chronicle_trace program (Moment.initial size) stepLimit,
    keeps.longest, found, keeps.kept, keeps.stopped⟩

end Machine

end PixelBrush

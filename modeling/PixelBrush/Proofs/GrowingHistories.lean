import PixelBrush.Proofs.Navigation

namespace PixelBrush

/-!
# Histories under runs and moves

Runs append to a history and moves only read it.  So whatever is asked of a
machine, and in whatever order, its recorded moments keep their places, the
memory that the history counts is the memory its moments are counted with, and
the position stays among them.  A move that succeeds restores the moment at the
position it goes to, and a step forward is undone by a step backward.
-/

namespace History

/-- The memory in use is that of the moments, and the budget allows it. -/
structure Balanced (budget : Nat) (history : History) : Prop where
  limit : history.budget = budget
  counted : history.used = Moment.totalBytes history.moments.toList
  within : history.used ≤ budget

/-- An empty history is balanced. -/
theorem balanced_empty (budget : Nat) :
    (empty budget).Balanced budget where
  limit := rfl
  counted := rfl
  within := Nat.zero_le budget

/-- What is accepted stands at the end and is counted. -/
theorem Balanced.push
    {budget : Nat}
    {history longer : History}
    {moment : Moment}
    (balanced : history.Balanced budget)
    (pushed : history.push moment = .ok longer) :
    longer.Balanced budget ∧
      longer.moments.toList = history.moments.toList ++ [moment] := by
  unfold History.push at pushed
  by_cases tooMuch : history.budget < history.used + moment.byteSize
  · rw [if_pos tooMuch] at pushed
    cases pushed
  · rw [if_neg tooMuch] at pushed
    cases pushed
    have concat :
        (history.moments.push moment).toList =
          history.moments.toList ++ [moment] :=
      Array.toList_push
    refine ⟨?_, concat⟩
    exact
      { limit := balanced.limit
        counted := by
          simp only [concat, Moment.totalBytes_concat, balanced.counted]
        within := balanced.limit ▸ Nat.le_of_not_lt tooMuch }

end History

namespace Machine

/-- The recorded moments, in order. -/
def moments (machine : Machine) : List Moment :=
  (machine.history.map fun history => history.moments.toList).getD []

/-- As many moments are listed as are recorded. -/
@[simp] theorem length_moments (machine : Machine) :
    machine.moments.length = machine.recorded := by
  unfold moments recorded
  cases machine.history with
  | none =>
      rfl
  | some history =>
      exact Array.length_toList

/-- The moments are listed in the order of the history. -/
theorem getElem?_moments
    (machine : Machine)
    (index : Nat) :
    machine.moments[index]? = machine.history.bind (·.get? index) := by
  unfold moments
  cases machine.history with
  | none =>
      rfl
  | some history =>
      exact Array.getElem?_toList

/-- The history of a machine is balanced, and the position is a recorded one. -/
structure Accounted (budget : Nat) (machine : Machine) : Prop where
  balanced :
    ∃ history,
      machine.history = some history ∧ history.Balanced budget
  inside : 0 < machine.recorded → machine.position < machine.recorded

/-- The machine stands at the recorded moment of its position. -/
def AtRecorded (machine : Machine) : Prop :=
  machine.moments[machine.position]? = some machine.moment

/-- What holds of a history that was accounted for and may have grown since. -/
structure Grown (budget : Nat) (earlier later : Machine) : Prop where
  accounted : Accounted budget later
  extended : earlier.moments <+: later.moments

namespace Grown

variable
  {budget : Nat}
  {earlier machine later : Machine}

/-- A history that did not change has grown by nothing. -/
theorem refl
    (accounted : Accounted budget machine) :
    Grown budget machine machine :=
  ⟨accounted, List.prefix_rfl⟩

/-- A history that has grown twice has grown. -/
theorem trans
    (first : Grown budget earlier machine)
    (second : Grown budget machine later) :
    Grown budget earlier later :=
  ⟨second.accounted, first.extended.trans second.extended⟩

/-- Only the history and the position are looked at. -/
theorem of_same
    (grown : Grown budget earlier machine)
    (sameHistory : later.history = machine.history)
    (samePosition : later.position = machine.position) :
    Grown budget earlier later := by
  have sameMoments : later.moments = machine.moments := by
    simp only [moments, sameHistory]
  have sameCount : later.recorded = machine.recorded := by
    simp only [recorded, sameHistory]
  refine ⟨⟨?_, ?_⟩, sameMoments ▸ grown.extended⟩
  · exact sameHistory ▸ grown.accounted.balanced
  · rw [sameCount, samePosition]
    exact grown.accounted.inside

end Grown

section Growth

variable
  {budget : Nat}
  {earlier machine later : Machine}

/-- A machine starts with an empty history, which is accounted for. -/
theorem accounted_load
    (program : Program)
    (size stepLimit budget : Nat) :
    Accounted budget (load program size stepLimit (some budget)) where
  balanced := ⟨_, rfl, History.balanced_empty budget⟩
  inside := fun something => absurd something (Nat.lt_irrefl 0)

/--
Recording appends the current moment and goes to it, or changes nothing
recorded.
-/
theorem grown_record
    (accounted : Accounted budget machine) :
    Grown budget machine machine.record := by
  unfold record
  split
  · rename_i history _ watched
    dsimp only
    split
    · rename_i longer pushed
      obtain ⟨own, isOwn, balanced⟩ := accounted.balanced
      cases watched.symm.trans isOwn
      obtain ⟨stillBalanced, concat⟩ := balanced.push pushed
      refine ⟨⟨⟨longer, rfl, stillBalanced⟩, ?_⟩, ?_⟩
      · intro something
        exact Nat.sub_lt something Nat.one_pos
      · refine ⟨[machine.moment], ?_⟩
        simp only [moments, watched, Option.map_some, Option.getD_some, concat]
    · exact (Grown.refl accounted).of_same watched.symm rfl
  · exact Grown.refl accounted

/-- A history that has grown may grow by one more recording. -/
theorem Grown.record
    (grown : Grown budget earlier machine) :
    Grown budget earlier machine.record :=
  grown.trans (grown_record grown.accounted)

/-- A turn that goes on lets the history grow by one moment at most. -/
theorem grown_turn
    (goesOn : machine.turn = (later, none))
    (grown : Grown budget earlier machine) :
    Grown budget earlier later := by
  have spec := turn_spec machine
  rw [goesOn] at spec
  cases spec with
  | advanced found below succeeds =>
      exact Grown.record (grown.of_same rfl rfl)

/-- A turn that ends the run leaves the history alone. -/
theorem grown_ends
    {result : Except RunError Unit}
    (ends : machine.turn = (later, some result))
    (grown : Grown budget earlier machine) :
    Grown budget earlier later := by
  have spec := turn_spec machine
  rw [ends] at spec
  cases spec with
  | finished =>
      exact grown
  | exhausted | failed =>
      exact grown.of_same rfl rfl

/-- A run only appends to the history, wherever it passes. -/
theorem grown_visits
    (accounted : Accounted budget machine)
    (visited : Visits machine later) :
    Grown budget machine later := by
  have start := grown_record accounted
  cases visited with
  | passes passed =>
      exact passed.preserves grown_turn start
  | ends passed ended =>
      have last := grown_ends ended (passed.preserves grown_turn start)
      exact last.of_same rfl rfl

end Growth

/-! ## Moves -/

section Moves

variable
  {machine moved : Machine}

/-- A move is possible exactly if it leads into the history. -/
theorem exists_tryMove_iff
    {move : Move} :
    (∃ moved, tryMove move machine = .ok () moved) ↔
      ∃ index < machine.recorded, move.LeadsTo machine index := by
  constructor
  · rintro ⟨moved, done⟩
    obtain ⟨index, leads, restored⟩ := tryMove_eq_ok_iff.mp done
    exact ⟨index, lt_recorded_of_restore restored, leads⟩
  · rintro ⟨index, inside, leads⟩
    rw [← length_moments] at inside
    have found := List.getElem?_eq_getElem inside
    rw [getElem?_moments] at found
    exact ⟨_,
      tryMove_eq_ok_iff.mpr
      ⟨index, leads, restore_eq_ok_iff.mpr ⟨_, found, rfl⟩⟩⟩

/--
A move that succeeds changes the moment and the position, to match each other.
-/
theorem tryMove_spec
    {move : Move}
    (done : tryMove move machine = .ok () moved) :
    move.LeadsTo machine moved.position ∧
      moved.AtRecorded ∧
      moved =
        { machine with
          moment := moved.moment, position := moved.position } := by
  obtain ⟨index, leads, restored⟩ := tryMove_eq_ok_iff.mp done
  obtain ⟨moment, found, rfl⟩ := restore_eq_ok_iff.mp restored
  rw [← getElem?_moments] at found
  exact ⟨leads, found, rfl⟩

/-- A move leaves the history alone and the position inside it. -/
theorem grown_move
    {budget : Nat}
    (accounted : Accounted budget machine)
    (move : Move) :
    Grown budget machine (machine.move move) := by
  cases tried : tryMove move machine with
  | ok _ moved =>
      rw [move_of_ok move tried]
      obtain ⟨_, atRecorded, shape⟩ := tryMove_spec tried
      rw [shape] at atRecorded ⊢
      have inside : moved.position < machine.recorded := by
        obtain ⟨within, _⟩ := List.getElem?_eq_some_iff.mp atRecorded
        exact length_moments machine ▸ within
      exact ⟨⟨accounted.balanced, fun _ => inside⟩, List.prefix_rfl⟩
  | error error left =>
      rw [move_of_error move tried]
      exact Grown.refl accounted

/-- From a recorded moment, a step backward undoes a step forward. -/
theorem stepBackward_of_stepForward
    {ahead : Machine}
    (atRecorded : moved.AtRecorded)
    (forward : stepForward moved = .ok () ahead) :
    stepBackward ahead = .ok () moved := by
  have goesOn : tryMove .forward moved = .ok () ahead := forward
  obtain ⟨leads, _, shape⟩ := tryMove_spec goesOn
  have comesBack : Move.backward.LeadsTo ahead moved.position := leads.symm
  have found :
      ahead.history.bind (·.get? moved.position) = some moved.moment := by
    rw [shape, ← getElem?_moments]
    exact atRecorded
  have restored : restore moved.position ahead = .ok () moved := by
    apply restore_eq_ok_iff.mpr
    refine ⟨moved.moment, found, ?_⟩
    rw [shape]
  exact tryMove_eq_ok_iff.mpr ⟨moved.position, comesBack, restored⟩

end Moves

/-! ## Requests -/

/-- What may be asked of a machine. -/
inductive Request where
  | run
  | move (move : Move)
  deriving Repr, DecidableEq

/-- The machine after a request; a run and a move may both fail. -/
def serve (machine : Machine) : Request → Machine
  | .run => machine.run.1
  | .move move => machine.move move

/-- Requests, one after the other, only append to the history. -/
theorem grown_requests
    {budget : Nat}
    {machine : Machine}
    (accounted : Accounted budget machine)
    (requests : List Request) :
    Grown budget machine (requests.foldl serve machine) := by
  induction requests generalizing machine with
  | nil =>
      exact Grown.refl accounted
  | cons request rest inductionHypothesis =>
      have first : Grown budget machine (machine.serve request) := by
        cases request with
        | run =>
            exact grown_visits accounted (visits_run machine)
        | move move =>
            exact grown_move accounted move
      exact first.trans (inductionHypothesis first.accounted)

/--
After any requests to a machine with a budget, the history is balanced and the
position is inside it; further requests, and every turn of a further run, only
append to it.  A move succeeds exactly if it leads into the history.  It then
leaves the machine as it was but for the position and the moment recorded there,
from which a step forward and a step backward lead back to the same machine; a
move that fails changes nothing.
-/
theorem history_of_requests
    (program : Program)
    (size stepLimit budget : Nat)
    (requests : List Request) :
    let machine :=
      requests.foldl serve (load program size stepLimit (some budget))
    Accounted budget machine ∧
      (∀ more : List Request,
        machine.moments <+: (more.foldl serve machine).moments) ∧
      (∀ later,
        Visits machine later →
        Accounted budget later ∧ machine.moments <+: later.moments) ∧
      (∀ move : Move,
        (∃ moved, tryMove move machine = .ok () moved) ↔
          ∃ index < machine.recorded, move.LeadsTo machine index) ∧
      (∀ move moved,
        tryMove move machine = .ok () moved →
        machine.move move = moved ∧
          move.LeadsTo machine moved.position ∧
          moved.moments[moved.position]? = some moved.moment ∧
          moved =
            { machine with
              moment := moved.moment, position := moved.position } ∧
          ∀ ahead,
            stepForward moved = .ok () ahead →
            stepBackward ahead = .ok () moved) ∧
      ∀ move error left,
        tryMove move machine = .error error left →
        left = machine ∧ machine.move move = machine := by
  intro machine
  have accounted : Accounted budget machine :=
    (grown_requests (accounted_load program size stepLimit budget)
      requests).accounted
  refine ⟨accounted, ?_, ?_, fun _ => exists_tryMove_iff, ?_, ?_⟩
  · intro more
    exact (grown_requests accounted more).extended
  · intro later visited
    obtain ⟨stillAccounted, extended⟩ := grown_visits accounted visited
    exact ⟨stillAccounted, extended⟩
  · intro move moved done
    obtain ⟨leads, atRecorded, shape⟩ := tryMove_spec done
    exact ⟨move_of_ok move done, leads, atRecorded, shape,
      fun ahead => stepBackward_of_stepForward atRecorded⟩
  · intro move error left refused
    exact ⟨tryMove_eq_error move refused, move_of_error move refused⟩

/--
The first run records five moments.  Three steps back a second run appends two
more, after which the budget is spent.  From the start the machine can go
forward and come back, and it cannot go back any further.
-/
theorem history_of_requests_second_run :
    let program : Program :=
      [.spawn 0 0 ⟨1, 1⟩,
        .assign "n" (.number 1 ⟨2, 6⟩) ⟨2, 1⟩,
        .setColor "Red" ⟨3, 1⟩,
        .fill ⟨4, 1⟩]
    let requests : List Request :=
      [.run, .move .backward, .move .backward, .move .backward, .run,
        .move .toStart]
    let machine := requests.foldl serve (load program 1 20 (some 1500))
    machine.moments.map Moment.next = [0, 1, 2, 3, 4, 1, 2] ∧
      machine.recordingStopped = true ∧
      Accounted 1500 machine ∧
      (∃ moved ahead,
        tryMove .forward machine = .ok () moved ∧
          moved.moments[moved.position]? = some moved.moment ∧
          stepForward moved = .ok () ahead ∧
          stepBackward ahead = .ok () moved) ∧
      ∃ error left,
        tryMove .backward machine = .error error left ∧
          left = machine ∧ machine.move .backward = machine := by
  intro program requests machine
  obtain ⟨accounted, _, _, possible, succeeds, fails⟩ :=
    history_of_requests program 1 20 1500 requests
  have atStart : machine.position = 0 := by
    decide +kernel
  have counted : machine.recorded = 7 := by
    decide +kernel
  refine ⟨by decide +kernel, by decide +kernel, accounted, ?_, ?_⟩
  · have toSecond : Move.forward.LeadsTo machine 1 := by
      rw [Move.LeadsTo, atStart]
    obtain ⟨moved, moves⟩ :=
      (possible .forward).mpr ⟨1, by rw [counted]; decide, toSecond⟩
    obtain ⟨_, leads, atRecorded, shape, back⟩ := succeeds .forward moved moves
    have sameCount : moved.recorded = 7 := by
      rw [shape]
      exact counted
    have toThird : Move.forward.LeadsTo moved 2 := by
      rw [Move.LeadsTo, ← toSecond.unique leads]
    obtain ⟨ahead, goesOn⟩ :=
      exists_tryMove_iff.mpr ⟨2, by rw [sameCount]; decide, toThird⟩
    exact ⟨moved, ahead, moves, atRecorded, goesOn, back ahead goesOn⟩
  · cases tried : tryMove .backward machine with
    | ok _ moved =>
        obtain ⟨_, leads, _⟩ := succeeds .backward moved tried
        exact absurd (leads.trans atStart) (Nat.succ_ne_zero moved.position)
    | error error left =>
        exact ⟨error, left, rfl, fails .backward error left tried⟩

end Machine

end PixelBrush

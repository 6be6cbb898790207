import PixelBrush.Proofs.Recording

namespace PixelBrush

/-!
# Runs and moves

A machine is used by running it and by moving through its history.  Runs and
moves bring it only to moments that execution has produced, so what execution
preserves holds of the current moment and of every recorded one, in whatever
order runs and moves follow one another.
-/

namespace Moment

/-- The next instruction fails and leaves the second moment. -/
def Breaks
    (program : Program)
    (moment : Moment)
    (error : RunError)
    (after : Moment) :
    Prop :=
  ∃ node,
    program[moment.next]? = some node ∧
      Action.execute program node moment = .error error after

/-- What both ways of executing an instruction preserve. -/
structure Stable (program : Program) (Invariant : Moment → Prop) : Prop where
  follows :
    ∀ {moment later : Moment},
      Follows program moment later →
      Invariant moment →
      Invariant later
  breaks :
    ∀ {moment after : Moment} {error : RunError},
      Breaks program moment error after →
      Invariant moment →
      Invariant after

end Moment

namespace Machine

/-- The ways of moving through a history. -/
inductive Move where
  | backward
  | forward
  | toStart
  | toEnd
  deriving Repr, DecidableEq

/-- Tries to move. -/
def tryMove : Move → Navigation Unit
  | .backward => stepBackward
  | .forward => stepForward
  | .toStart => rewind
  | .toEnd => jumpToEnd

/-- The machine that a move leaves, whether it is possible or not. -/
def move (machine : Machine) (move : Move) : Machine :=
  match tryMove move machine with
  | .ok _ moved => moved
  | .error _ left => left

/-- The machines that runs and moves lead to from the start of a program. -/
inductive Reached (program : Program) (size : Nat) : Machine → Prop where
  | load
      (stepLimit : Nat)
      (budget : Option Nat) :
      Reached program size (load program size stepLimit budget)
  | run
      {machine later : Machine}
      (reached : Reached program size machine)
      (visited : Visits machine later) :
      Reached program size later
  | move
      {machine : Machine}
      (reached : Reached program size machine)
      (move : Move) :
      Reached program size (machine.move move)

/-- What reads the machine first goes on with it as it is. -/
theorem get_bind
    (next : Machine → Navigation Unit)
    (machine : Machine) :
    (get >>= next) machine = next machine machine :=
  rfl

/-- A refusal leaves the machine as it is. -/
theorem refuse_eq
    (reason : NoMoment)
    (machine : Machine) :
    refuse reason machine =
      .error ⟨.noMoment reason, machine.moment.location⟩ machine :=
  rfl

/--
Restoring goes to the moment recorded at an index, if there is one, and changes
nothing but moment and position; otherwise it fails and changes nothing at all.
-/
theorem restore_eq
    (index : Nat)
    (machine : Machine) :
    restore index machine =
      match machine.history.bind (·.get? index) with
      | some moment =>
          .ok () { machine with moment := moment, position := index }
      | none =>
          .error ⟨.noMoment (.missing index), machine.moment.location⟩
            machine := by
  -- The moment and the position are written only after the look-up succeeds.
  rw [restore, get_bind]
  cases machine.history.bind (·.get? index) <;> rfl

/-- Restoring an index goes to the moment recorded there, if there is one. -/
theorem restore_eq_ok_iff
    {machine moved : Machine}
    {index : Nat} :
    restore index machine = .ok () moved ↔
      ∃ moment,
        machine.history.bind (·.get? index) = some moment ∧
          moved = { machine with moment := moment, position := index } := by
  rw [restore_eq]
  cases found : machine.history.bind (·.get? index) with
  | none =>
      constructor
      · intro restored
        cases restored
      · rintro ⟨moment, isSome, _⟩
        cases isSome
  | some moment =>
      constructor
      · intro restored
        cases restored
        exact ⟨moment, rfl, rfl⟩
      · rintro ⟨_, isSome, rfl⟩
        cases isSome
        rfl

/-- A machine in which a moment could not be restored is as before. -/
theorem restore_eq_error
    {machine left : Machine}
    {index : Nat}
    {error : RunError}
    (fails : restore index machine = .error error left) :
    left = machine := by
  rw [restore_eq] at fails
  split at fails
  · cases fails
  · cases fails
    rfl

/-- What is restored is a recorded moment. -/
theorem restore_eq_ok
    {machine moved : Machine}
    {index : Nat}
    (restored : restore index machine = .ok () moved) :
    ∃ history moment,
      machine.history = some history ∧
        moment ∈ history.moments ∧
        moved = { machine with moment := moment, position := index } := by
  obtain ⟨moment, found, shape⟩ := restore_eq_ok_iff.mp restored
  obtain ⟨history, watched, kept⟩ := Option.bind_eq_some_iff.mp found
  exact ⟨history, moment, watched, Array.mem_of_getElem? kept, shape⟩

/-- Only the indices of recorded moments can be restored. -/
theorem lt_recorded_of_restore
    {machine moved : Machine}
    {index : Nat}
    (restored : restore index machine = .ok () moved) :
    index < machine.recorded := by
  obtain ⟨moment, found, _⟩ := restore_eq_ok_iff.mp restored
  obtain ⟨history, watched, kept⟩ := Option.bind_eq_some_iff.mp found
  obtain ⟨inside, _⟩ := Array.getElem?_eq_some_iff.mp kept
  rw [recorded, watched]
  exact inside

/-- Where a move leads in the history. -/
def Move.LeadsTo (machine : Machine) (index : Nat) : Move → Prop
  | .backward => index + 1 = machine.position
  | .forward => index = machine.position + 1
  | .toStart => index = 0
  | .toEnd => index + 1 = machine.recorded

/-- A move leads to one index at most. -/
theorem Move.LeadsTo.unique
    {machine : Machine}
    {move : Move}
    {index other : Nat}
    (leads : move.LeadsTo machine index)
    (alsoLeads : move.LeadsTo machine other) :
    index = other := by
  cases move <;> simp only [LeadsTo] at leads alsoLeads <;> omega

/--
What a move does: it restores the index where it leads, or it is refused because
it leads to no index of the history.
-/
theorem tryMove_cases
    (move : Move)
    (machine : Machine) :
    (∃ index,
      move.LeadsTo machine index ∧
        tryMove move machine = restore index machine) ∨
    ∃ reason,
      tryMove move machine = refuse reason machine ∧
        ∀ index, move.LeadsTo machine index → machine.recorded ≤ index := by
  cases move with
  | toStart =>
      exact .inl ⟨0, rfl, rfl⟩
  | backward =>
      simp only [tryMove, stepBackward, get_bind, Move.LeadsTo]
      split
      · rename_i atStart
        exact .inr ⟨.atStart, rfl, by omega⟩
      · rename_i notAtStart
        exact .inl ⟨machine.position - 1, Nat.sub_one_add_one notAtStart, rfl⟩
  | forward =>
      simp only [tryMove, stepForward, get_bind, Move.LeadsTo]
      split
      · rename_i atEnd
        exact .inr ⟨.atEnd, rfl, by omega⟩
      · exact .inl ⟨machine.position + 1, rfl, rfl⟩
  | toEnd =>
      simp only [tryMove, jumpToEnd, get_bind, Move.LeadsTo]
      split
      · rename_i nothing
        exact .inr ⟨.nothingRecorded, rfl, by omega⟩
      · rename_i something
        exact .inl ⟨machine.recorded - 1, Nat.sub_one_add_one something, rfl⟩

/--
A move is possible exactly if a moment is recorded where it leads, and restores
that.
-/
theorem tryMove_eq_ok_iff
    {machine moved : Machine}
    {move : Move} :
    tryMove move machine = .ok () moved ↔
      ∃ index,
        move.LeadsTo machine index ∧ restore index machine = .ok () moved := by
  rcases tryMove_cases move machine with
    ⟨index, leads, restores⟩ | ⟨reason, refused, out⟩
  · rw [restores]
    constructor
    · intro done
      exact ⟨index, leads, done⟩
    · rintro ⟨other, alsoLeads, done⟩
      rw [leads.unique alsoLeads]
      exact done
  · rw [refused, refuse_eq]
    constructor
    · intro done
      cases done
    · rintro ⟨index, leads, done⟩
      exact absurd (lt_recorded_of_restore done)
        (Nat.not_lt.mpr (out index leads))

/-- A machine in which a move has failed is as before. -/
theorem tryMove_eq_error
    {machine left : Machine}
    (move : Move)
    {error : RunError}
    (fails : tryMove move machine = .error error left) :
    left = machine := by
  rcases tryMove_cases move machine with
    ⟨index, _, restores⟩ | ⟨reason, refused, _⟩
  · rw [restores] at fails
    exact restore_eq_error fails
  · rw [refused, refuse_eq] at fails
    cases fails
    rfl

section Moved

variable
  {machine moved : Machine}

/-- A possible move leaves the machine that it leads to. -/
theorem move_of_ok
    (move : Move)
    (done : tryMove move machine = .ok () moved) :
    machine.move move = moved := by
  simp only [Machine.move, done]

/-- A move that is not possible changes nothing. -/
theorem move_of_error
    (move : Move)
    {error : RunError}
    (refused : tryMove move machine = .error error moved) :
    machine.move move = machine := by
  simp only [Machine.move, refused]
  exact tryMove_eq_error move refused

/-- A move changes nothing or restores a recorded moment. -/
theorem move_spec
    (machine : Machine)
    (move : Move) :
    machine.move move = machine ∨
      ∃ history moment index,
        machine.history = some history ∧
          moment ∈ history.moments ∧
          machine.move move =
            { machine with moment := moment, position := index } := by
  cases tried : tryMove move machine with
  | ok _ moved =>
      obtain ⟨index, _, restored⟩ := tryMove_eq_ok_iff.mp tried
      obtain ⟨history, moment, watched, member, rfl⟩ := restore_eq_ok restored
      exact .inr
        ⟨history, moment, index, watched, member, move_of_ok move tried⟩
  | error error left =>
      exact .inl (move_of_error move tried)

end Moved

/-- The current moment and all recorded ones have a property. -/
structure Holds (Invariant : Moment → Prop) (machine : Machine) : Prop where
  current : Invariant machine.moment
  recorded :
    ∀ history,
      machine.history = some history →
      ∀ moment ∈ history.moments, Invariant moment

/-- The moments of a longer history are the old ones and the new one. -/
theorem mem_of_push
    {history longer : History}
    {moment kept : Moment}
    (pushed : history.push moment = .ok longer)
    (member : kept ∈ longer.moments) :
    kept ∈ history.moments ∨ kept = moment := by
  unfold History.push at pushed
  split at pushed
  · cases pushed
  · cases pushed
    exact Array.mem_push.mp member

namespace Holds

variable
  {Invariant : Moment → Prop}
  {machine : Machine}

/-- A machine starts with the property that its initial moment has. -/
theorem load
    {program : Program}
    {size : Nat}
    (holds : Invariant (Moment.initial size))
    (stepLimit : Nat)
    (budget : Option Nat) :
    Holds Invariant (Machine.load program size stepLimit budget) where
  current := holds
  recorded := by
    intro history watched moment member
    obtain ⟨allowed, _, rfl⟩ := Option.map_eq_some_iff.mp watched
    simp [History.empty] at member

/-- Recording adds the current moment at most. -/
theorem record
    (holds : Holds Invariant machine) :
    Holds Invariant machine.record where
  current := by
    rw [record_moment]
    exact holds.current
  recorded := by
    unfold Machine.record
    split
    · rename_i history _ watched
      dsimp only
      split
      · rename_i longer pushed
        intro later isLater moment member
        cases isLater
        rcases mem_of_push pushed member with old | rfl
        · exact holds.recorded history watched moment old
        · exact holds.current
      · intro later isLater
        cases isLater
        exact holds.recorded history watched
    · exact holds.recorded

/-- Moving only exchanges the current moment for a recorded one. -/
theorem move
    (holds : Holds Invariant machine)
    (move : Move) :
    Holds Invariant (machine.move move) := by
  rcases move_spec machine move with
    same | ⟨history, moment, index, watched, member, moved⟩
  · rw [same]
    exact holds
  · rw [moved]
    exact ⟨holds.recorded history watched moment member, holds.recorded⟩

end Holds

/-- A turn that goes on leads to the moment that follows. -/
theorem follows_of_turn
    {machine after : Machine}
    (goesOn : machine.turn = (after, none)) :
    Moment.Follows machine.program machine.moment after.moment := by
  have spec := turn_spec machine
  rw [goesOn] at spec
  cases spec with
  | advanced found below succeeds =>
      rw [record_moment, ← Moment.advance?_eq_some_iff]
      simp only [Moment.advance?, found, succeeds]

/-- A machine that runs a program and has only moments with a property. -/
structure Keeps
    (program : Program)
    (Invariant : Moment → Prop)
    (machine : Machine) :
    Prop where
  program : machine.program = program
  holds : Holds Invariant machine

section Stability

variable
  {program : Program}
  {Invariant : Moment → Prop}
  {machine later : Machine}

/-- A turn that goes on keeps a property that instructions keep. -/
theorem keeps_turn
    (stable : Moment.Stable program Invariant)
    (goesOn : machine.turn = (later, none))
    (keeps : Keeps program Invariant machine) :
    Keeps program Invariant later := by
  obtain ⟨rfl, holds⟩ := keeps
  have follows := follows_of_turn goesOn
  refine ⟨program_of_turn goesOn, ?_⟩
  have spec := turn_spec machine
  rw [goesOn] at spec
  cases spec with
  | advanced found below succeeds =>
      rw [record_moment] at follows
      exact Holds.record ⟨stable.follows follows holds.current, holds.recorded⟩

/-- So does a turn that ends the run. -/
theorem keeps_ends
    {result : Except RunError Unit}
    (stable : Moment.Stable program Invariant)
    (ends : machine.turn = (later, some result))
    (keeps : Keeps program Invariant machine) :
    Keeps program Invariant later := by
  obtain ⟨rfl, holds⟩ := keeps
  have spec := turn_spec machine
  rw [ends] at spec
  cases spec with
  | finished | exhausted =>
      exact ⟨rfl, holds.current, holds.recorded⟩
  | @failed node _ _ found below fails =>
      exact ⟨rfl, stable.breaks ⟨node, found, fails⟩ holds.current,
        holds.recorded⟩

/-- A run keeps what both ways of executing an instruction preserve. -/
theorem keeps_visits
    (stable : Moment.Stable program Invariant)
    (visited : Visits machine later)
    (keeps : Keeps program Invariant machine) :
    Keeps program Invariant later := by
  have start : Keeps program Invariant machine.record :=
    ⟨(record_program machine).trans keeps.program, keeps.holds.record⟩
  cases visited with
  | passes passed =>
      exact passed.preserves (keeps_turn stable) start
  | ends passed ended =>
      have last :=
        keeps_ends stable ended (passed.preserves (keeps_turn stable) start)
      exact ⟨last.program, last.holds.current, last.holds.recorded⟩

/-- A move leads to a recorded moment, which has the property already. -/
theorem keeps_move
    (keeps : Keeps program Invariant machine)
    (move : Move) :
    Keeps program Invariant (machine.move move) := by
  refine ⟨?_, keeps.holds.move move⟩
  rcases move_spec machine move with same | ⟨_, _, _, _, _, moved⟩
  · rw [same]
    exact keeps.program
  · rw [moved]
    exact keeps.program

/--
Runs and moves, in any order, keep what holds before the first instruction and
is preserved by both ways of executing one.
-/
theorem Reached.keeps
    {size : Nat}
    (stable : Moment.Stable program Invariant)
    (initially : Invariant (Moment.initial size))
    (reached : Reached program size machine) :
    Keeps program Invariant machine := by
  induction reached with
  | load stepLimit budget =>
      exact ⟨rfl, .load initially stepLimit budget⟩
  | run _ visited inductionHypothesis =>
      exact keeps_visits stable visited inductionHypothesis
  | move _ move inductionHypothesis =>
      exact keeps_move inductionHypothesis move

end Stability

end Machine

end PixelBrush

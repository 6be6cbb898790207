import PixelBrush.Proofs.GrowingHistories
import PixelBrush.Proofs.SessionRuns
import PixelBrush.Viewer.Basic

namespace PixelBrush

/-!
# The viewer as a bounded cursor

Keys move a viewer over the recorded moments of a run and change nothing that
was recorded.  So after any keys the viewer stands where a cursor stands that
knows no more than the number of the moments, and everything it shows is settled
by that position.
-/

namespace Key

/-- How many steps forward a character key asks for. -/
def steps? : Char → Option Nat
  | '1' => some 1
  | '2' => some 2
  | '3' => some 3
  | '4' => some 4
  | '5' => some 5
  | '6' => some 6
  | '7' => some 7
  | '8' => some 8
  | '9' => some 9
  | _ => none

/-- Where a key moves a cursor over so many recorded moments. -/
def moveCursor (recorded position : Nat) : Key → Nat
  | .right => min (position + 1) (recorded - 1)
  | .left => position - 1
  | .enter | .end => recorded - 1
  | .backspace | .home => 0
  | .character typed =>
      match steps? typed with
      | some count => min (position + count) (recorded - 1)
      | none => position
  | .up | .down | .tab | .escape | .delete | .other _ => position

/-- A digit from one on tells how many steps to play. -/
theorem steps?_of_digit
    {typed : Char}
    (digit : '1' ≤ typed ∧ typed ≤ '9') :
    steps? typed = some (typed.toNat - '0'.toNat) := by
  have table :
      ∀ code ≤ '9'.toNat,
        '1'.toNat ≤ code →
        steps? (Char.ofNat code) = some (code - '0'.toNat) := by
    decide
  have counted := table typed.toNat digit.2 digit.1
  rwa [Char.ofNat_toNat] at counted

/-- No other character tells a number of steps. -/
theorem steps?_of_not_digit
    {typed : Char}
    (noDigit : ¬ ('1' ≤ typed ∧ typed ≤ '9')) :
    steps? typed = none := by
  unfold steps?
  split
  case h_10 =>
    rfl
  all_goals exact absurd (by decide) noDigit

end Key

namespace Machine

/-- The machine differs from another in where it stands in the history alone. -/
structure ShowsAt
    (machine : Machine)
    (position : Nat)
    (current : Machine) :
    Prop where
  recorded : machine.moments[position]? = some current.moment
  frame :
    current = { machine with moment := current.moment, position := position }

/-- Where a move leads, as far as the history goes. -/
def Move.target (recorded position : Nat) : Move → Nat
  | .backward => position - 1
  | .forward => min (position + 1) (recorded - 1)
  | .toStart => 0
  | .toEnd => recorded - 1

/-- A move inside the history leads to its target. -/
theorem Move.target_of_leadsTo
    {machine : Machine}
    {move : Move}
    {index : Nat}
    (leads : move.LeadsTo machine index)
    (inside : index < machine.recorded) :
    move.target machine.recorded machine.position = index := by
  cases move with
  | backward =>
      exact (Nat.eq_sub_of_add_eq leads).symm
  | forward =>
      cases leads
      exact Nat.min_eq_left (Nat.le_sub_one_of_lt inside)
  | toStart =>
      exact Eq.symm leads
  | toEnd =>
      exact (Nat.eq_sub_of_add_eq leads).symm

/-- A move that leads nowhere has the current position as its target. -/
theorem Move.target_of_stuck
    {machine : Machine}
    {move : Move}
    (inside : machine.position < machine.recorded)
    (stuck : ∀ index < machine.recorded, ¬ move.LeadsTo machine index) :
    move.target machine.recorded machine.position = machine.position := by
  cases move with
  | backward =>
      by_cases atStart : machine.position = 0
      · rw [atStart]
        rfl
      · have before : machine.position - 1 < machine.recorded :=
          Nat.lt_of_le_of_lt (Nat.sub_le ..) inside
        exact absurd (Nat.sub_one_add_one atStart) (stuck _ before)
  | forward =>
      have atEnd : ¬ machine.position + 1 < machine.recorded :=
        fun further => stuck _ further rfl
      have last : machine.recorded - 1 = machine.position := by
        omega
      rw [target, last]
      exact Nat.min_eq_right (Nat.le_succ _)
  | toStart =>
      exact absurd rfl (stuck 0 (Nat.zero_lt_of_lt inside))
  | toEnd =>
      have something : machine.recorded ≠ 0 :=
        Nat.ne_zero_of_lt inside
      exact absurd (Nat.sub_one_add_one something)
        (stuck _ (Nat.sub_one_lt something))

namespace ShowsAt

variable
  {machine current : Machine}
  {position : Nat}

/-- The position that is shown is inside the history. -/
theorem inside
    (shows : machine.ShowsAt position current) :
    position < machine.recorded := by
  obtain ⟨within, _⟩ := List.getElem?_eq_some_iff.mp shows.recorded
  exact length_moments machine ▸ within

/-- The machine stands at the position that is shown. -/
theorem position_eq
    (shows : machine.ShowsAt position current) :
    current.position = position := by
  rw [shows.frame]

/-- The history is that of the finished run. -/
theorem history_eq
    (shows : machine.ShowsAt position current) :
    current.history = machine.history := by
  rw [shows.frame]

/-- So is the number of recorded moments. -/
theorem recorded_eq
    (shows : machine.ShowsAt position current) :
    current.recorded = machine.recorded := by
  unfold Machine.recorded
  rw [shows.history_eq]

/-- A machine that restores a moment shows this moment. -/
theorem of_restore
    {index : Nat}
    {moved : Machine}
    (restored : restore index machine = .ok () moved) :
    machine.ShowsAt index moved := by
  obtain ⟨moment, found, rfl⟩ := restore_eq_ok_iff.mp restored
  rw [← getElem?_moments] at found
  exact ⟨found, rfl⟩

/-- A moment that is shown from another one is shown from the start. -/
theorem trans
    {later : Machine}
    {other : Nat}
    (shows : machine.ShowsAt position current)
    (showsLater : current.ShowsAt other later) :
    machine.ShowsAt other later := by
  obtain ⟨recorded, frame⟩ := showsLater
  rw [shows.frame] at recorded frame
  exact ⟨recorded, frame⟩

/-- A move leads to its target, possible or not. -/
theorem move
    (shows : machine.ShowsAt position current)
    (move : Move) :
    machine.ShowsAt (move.target machine.recorded position)
      (current.move move) := by
  have inside : current.position < current.recorded := by
    rw [shows.position_eq, shows.recorded_eq]
    exact shows.inside
  rw [← shows.recorded_eq, ← shows.position_eq]
  cases done : tryMove move current with
  | ok _ moved =>
      obtain ⟨index, leads, restored⟩ := tryMove_eq_ok_iff.mp done
      rw [move_of_ok move done,
        Move.target_of_leadsTo leads (lt_recorded_of_restore restored)]
      exact shows.trans (.of_restore restored)
  | error error left =>
      have stuck :
          ∀ index < current.recorded, ¬ move.LeadsTo current index := by
        intro index within leads
        obtain ⟨moved, possible⟩ :=
          exists_tryMove_iff.mpr ⟨index, within, leads⟩
        cases done.symm.trans possible
      rw [move_of_error move done, Move.target_of_stuck inside stuck,
        shows.position_eq]
      exact shows

/-- Several steps forward stop at the end of the history. -/
theorem advance
    (shows : machine.ShowsAt position current)
    (count : Nat) :
    machine.ShowsAt (min (position + count) (machine.recorded - 1))
      (Viewer.advance current count).1 := by
  have inside := shows.inside
  induction count generalizing current position with
  | zero =>
      have here : min (position + 0) (machine.recorded - 1) = position := by
        omega
      rw [here]
      exact shows
  | succ count inductionHypothesis =>
      have forward := shows.move .forward
      unfold Viewer.advance
      cases done : stepForward current with
      | ok _ next =>
          rw [move_of_ok .forward done] at forward
          have rest := inductionHypothesis forward forward.inside
          have same :
              min (min (position + 1) (machine.recorded - 1) + count)
                (machine.recorded - 1) =
                min (position + (count + 1)) (machine.recorded - 1) := by
            omega
          exact same ▸ rest
      | error error left =>
          obtain rfl := tryMove_eq_error .forward done
          rw [move_of_error .forward done] at forward
          -- Standing still, the step has its target here, so this is the last
          -- moment.
          have last : min (position + 1) (machine.recorded - 1) = position :=
            forward.position_eq.symm.trans shows.position_eq
          have same :
              min (position + (count + 1)) (machine.recorded - 1) =
                position := by
            omega
          exact same.symm ▸ shows

end ShowsAt

end Machine

namespace Viewer

/-- A move on the viewer is a move of the machine, told of in the status. -/
theorem move_tryMove
    (viewer : Viewer)
    (move : Machine.Move)
    (done attempt : String) :
    ∃ status,
      viewer.move (Machine.tryMove move) done attempt =
        { viewer with
          machine := viewer.machine.move move, status := status } := by
  unfold Viewer.move
  split
  · rename_i moved tried
    rw [Machine.move_of_ok move tried]
    exact ⟨_, rfl⟩
  · rename_i reason location left tried
    rw [Machine.move, tried]
    exact ⟨_, rfl⟩
  · rename_i error left unexpected tried
    rw [Machine.move, tried]
    exact ⟨_, rfl⟩

/--
The viewer shows a run at a position, beside the texts that it was started with.
-/
structure Shows
    (machine : Machine)
    (source : String)
    (diagnostics : List String)
    (position : Nat)
    (viewer : Viewer) :
    Prop where
  machine : machine.ShowsAt position viewer.machine
  source : viewer.source = source
  diagnostics : viewer.diagnostics = diagnostics

namespace Shows

variable
  {machine : Machine}
  {source : String}
  {diagnostics : List String}
  {position : Nat}
  {viewer other : Viewer}

/-- Only the machine and the texts are looked at. -/
theorem of_same
    (shows : Shows machine source diagnostics position viewer)
    (sameMachine : other.machine = viewer.machine)
    (sameSource : other.source = viewer.source)
    (sameDiagnostics : other.diagnostics = viewer.diagnostics) :
    Shows machine source diagnostics position other where
  machine := sameMachine ▸ shows.machine
  source := sameSource.trans shows.source
  diagnostics := sameDiagnostics.trans shows.diagnostics

/-- A move shows the moment that it leads to. -/
theorem move
    (shows : Shows machine source diagnostics position viewer)
    (move : Machine.Move)
    (done attempt : String) :
    Shows machine source diagnostics (move.target machine.recorded position)
      (viewer.move (Machine.tryMove move) done attempt) := by
  obtain ⟨status, moved⟩ := move_tryMove viewer move done attempt
  rw [moved]
  exact ⟨shows.machine.move move, shows.source, shows.diagnostics⟩

/-- Scrolling works on the panes alone. -/
theorem scroll
    (shows : Shows machine source diagnostics position viewer) :
    Shows machine source diagnostics position viewer.scrollUp ∧
      Shows machine source diagnostics position viewer.scrollDown := by
  unfold scrollUp scrollDown
  cases viewer.focus <;>
    exact ⟨shows.of_same rfl rfl rfl, shows.of_same rfl rfl rfl⟩

/-- Playing and pausing keep the moment that is shown. -/
theorem togglePlaying
    (shows : Shows machine source diagnostics position viewer) :
    Shows machine source diagnostics position viewer.togglePlaying := by
  unfold Viewer.togglePlaying
  split <;> exact shows.of_same rfl rfl rfl

/-- A character that is pressed shows the moment that it moves the cursor to. -/
theorem pressCharacter
    (shows : Shows machine source diagnostics position viewer)
    (typed : Char) :
    Shows machine source diagnostics
      (Key.moveCursor machine.recorded position (.character typed))
      (viewer.pressCharacter typed) := by
  unfold Viewer.pressCharacter
  split
  · rename_i isQuit
    rcases isQuit with rfl | rfl <;> exact shows.of_same rfl rfl rfl
  · split
    · rename_i isSpace
      cases isSpace
      exact shows.togglePlaying
    · split
      · rename_i digit
        rw [Key.moveCursor, Key.steps?_of_digit digit]
        exact ⟨shows.machine.advance _, shows.source, shows.diagnostics⟩
      · rename_i noDigit
        rw [Key.moveCursor, Key.steps?_of_not_digit noDigit]
        exact shows

/-- A key moves what is shown as it moves the cursor. -/
theorem press
    (shows : Shows machine source diagnostics position viewer)
    (key : Key) :
    Shows machine source diagnostics (key.moveCursor machine.recorded position)
      (viewer.press key) := by
  have paused :
      Shows machine source diagnostics position
        { viewer with playing := false } :=
    shows.of_same rfl rfl rfl
  cases key with
  | left =>
      exact paused.move .backward _ _
  | right =>
      exact paused.move .forward _ _
  | enter | «end» =>
      exact paused.move .toEnd _ _
  | backspace | home =>
      exact paused.move .toStart _ _
  | up =>
      exact shows.scroll.1
  | down =>
      exact shows.scroll.2
  | tab | escape =>
      exact shows.of_same rfl rfl rfl
  | delete | other =>
      exact shows
  | character typed =>
      exact shows.pressCharacter typed

/-- So does any sequence of keys. -/
theorem pressAll
    (shows : Shows machine source diagnostics position viewer)
    (keys : List Key) :
    Shows machine source diagnostics
      (keys.foldl (Key.moveCursor machine.recorded) position)
      (keys.foldl Viewer.press viewer) := by
  induction keys generalizing position viewer with
  | nil =>
      exact shows
  | cons key rest inductionHypothesis =>
      exact inductionHypothesis (shows.press key)

/--
The line of a failed instruction shows at the last moment, if some instruction
failed.
-/
theorem failedLine?_isSome_iff
    (shows : Shows machine source diagnostics position viewer)
    {start : Machine}
    {result : Except RunError Unit}
    (fresh : start.failed = none)
    (concludes : Machine.Concludes start (machine, result)) :
    viewer.failedLine?.isSome = true ↔
      (∃ error, result = .error error) ∧ position + 1 = machine.recorded := by
  have inside := shows.machine.inside
  have atEnd : viewer.atEnd = true ↔ position + 1 = machine.recorded := by
    unfold Viewer.atEnd
    rw [shows.machine.recorded_eq, shows.machine.position_eq,
      decide_eq_true_iff]
    omega
  have sameFailed : viewer.machine.failed = machine.failed := by
    rw [shows.machine.frame]
  have sameProgram : viewer.machine.program = machine.program := by
    rw [shows.machine.frame]
  unfold failedLine?
  rw [sameFailed, sameProgram]
  cases concludes with
  | well program failed =>
      rw [failed, fresh, Option.bind_none, ite_self]
      refine iff_of_false Bool.false_ne_true ?_
      rintro ⟨⟨error, fails⟩, _⟩
      cases fails
  | badly program failed found cause =>
      rw [failed, program, Option.bind_some, found, Option.map_some, ← atEnd,
        and_iff_right ⟨_, rfl⟩]
      cases viewer.atEnd with
      | true =>
          exact iff_of_true rfl rfl
      | false =>
          exact iff_of_false Bool.false_ne_true Bool.false_ne_true

end Shows

end Viewer

namespace Session

/--
A run that got past compilation is the run of a machine, and fails as that does.
-/
theorem exists_run_of_machine
    {session : Session}
    {source : String}
    {machine : Machine}
    (ran : (session.run source).2.machine = some machine) :
    ∃ program result,
      (session.machine program).run = (machine, result) ∧
        ((session.run source).2.outcome = .failed ↔
          ∃ error, result = .error error) := by
  cases compiles : session.compile source with
  | error error =>
      rw [run_of_error compiles] at ran
      cases ran
  | ok compiled =>
      rw [run_of_ok compiles] at ran ⊢
      cases result : (session.machine compiled.program).run.2 with
      | error error =>
          rw [result] at ran
          cases ran
          exact ⟨compiled.program, .error error, Prod.ext rfl result,
            iff_of_true rfl ⟨error, rfl⟩⟩
      | ok =>
          rw [result] at ran
          cases ran
          refine ⟨compiled.program, .ok (), Prod.ext rfl result,
            iff_of_false ?_ ?_⟩
          · dsimp only [report]
            split <;> decide
          · rintro ⟨error, fails⟩
            cases fails

/--
A viewer of a finished run, started on the machine at its first moment, is a
cursor over the recorded moments.  After any keys it stands where the cursor
stands and shows the moment recorded there; the history, the source and the
diagnostics are those it was started with; and it shows a line as failed exactly
if the run has failed and the cursor is at the end.
-/
theorem viewer_follows_cursor
    {session : Session}
    {source : String}
    {machine : Machine}
    (ran : (session.run source).2.machine = some machine)
    (recorded : 0 < machine.recorded) :
    ∃ rewound,
      machine.rewind = .ok () rewound ∧
        ∀ keys : List Key,
          let report := (session.run source).2
          let viewer :=
            keys.foldl Viewer.press (.start rewound source report.lines)
          let position := keys.foldl (Key.moveCursor machine.recorded) 0
          viewer.machine.position = position ∧
            (∃ moment,
              machine.moments[position]? = some moment ∧
                viewer.machine.moment = moment ∧
                viewer.currentLine = moment.location.line) ∧
            viewer.machine.history = machine.history ∧
            viewer.source = source ∧
            viewer.diagnostics = report.lines ∧
            (viewer.failedLine?.isSome = true ↔
              report.outcome = .failed ∧ position + 1 = machine.recorded) := by
  obtain ⟨program, result, isRun, failure⟩ := exists_run_of_machine ran
  have leads : Machine.Move.toStart.LeadsTo machine 0 := rfl
  obtain ⟨rewound, rewinds⟩ :=
    Machine.exists_tryMove_iff.mpr ⟨0, recorded, leads⟩
  refine ⟨rewound, rewinds, ?_⟩
  intro keys report viewer position
  have concludes := Machine.run_concludes (session.machine program)
  rw [isRun] at concludes
  have starts :
      Viewer.Shows machine source report.lines 0
        (.start rewound source report.lines) :=
    ⟨.of_restore rewinds, rfl, rfl⟩
  have shows : Viewer.Shows machine source report.lines position viewer :=
    starts.pressAll keys
  refine ⟨shows.machine.position_eq, ⟨_, shows.machine.recorded, rfl, rfl⟩,
    shows.machine.history_eq, shows.source, shows.diagnostics, ?_⟩
  rw [failure]
  exact shows.failedLine?_isSome_iff rfl concludes

/--
Three moments are recorded before a division fails; the keys lead past the last
and back.
-/
theorem viewer_follows_cursor_division :
    let session := Session.start ⟨2, 10, some 4000⟩
    let source := "Spawn(0, 0)\nColor(\"Red\")\nn <- 1 / 0\n"
    let report := (session.run source).2
    let keys : List Key :=
      [.character '9', .left, .tab, .right, .right, .other 5]
    ∃ machine rewound,
      report.machine = some machine ∧
        machine.recorded = 3 ∧
        machine.rewind = .ok () rewound ∧
        let viewer :=
          keys.foldl Viewer.press (.start rewound source report.lines)
        viewer.machine.position = 2 ∧
          machine.moments[2]? = some viewer.machine.moment ∧
          viewer.machine.history = machine.history ∧
          viewer.failedLine?.isSome = true := by
  intro session source report keys
  have settled : report.machine.any (·.recorded = 3) = true := by
    decide +kernel
  have failed : report.outcome = .failed := by
    decide +kernel
  obtain ⟨machine, ran, counted⟩ := (Option.any_eq_true _ _).mp settled
  have recorded : machine.recorded = 3 := of_decide_eq_true counted
  obtain ⟨rewound, rewinds, follows⟩ :=
    viewer_follows_cursor ran (recorded ▸ Nat.succ_pos 2)
  obtain ⟨position, ⟨moment, found, shown, _⟩, history, _, _, line⟩ :=
    follows keys
  rw [recorded] at position found line
  refine ⟨machine, rewound, ran, recorded, rewinds, position, ?_, history, ?_⟩
  · exact shown ▸ found
  · exact line.mpr ⟨failed, rfl⟩

end Session

end PixelBrush

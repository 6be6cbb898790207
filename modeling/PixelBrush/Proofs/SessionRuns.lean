import PixelBrush.Proofs.CompiledPrograms

namespace PixelBrush

/-!
# Runs of a session

A session remembers a configuration and a canvas, but a run looks at the
configuration only.  So a run after any requests gives the report of the same
run in a fresh session, and the canvas is the one that the last compiled run has
left.  The outcome in a report can be read off its lines.
-/

/-! ## Report lines -/

/-- The line reports an error. -/
def IsErrorLine (line : String) : Prop :=
  "[Error]".toList <+: line.toList

/-- Whether a line reports an error is settled by how it opens. -/
theorem isErrorLine_append_iff
    {opening : String}
    (long : "[Error]".length ≤ opening.length)
    (rest : String) :
    IsErrorLine (opening ++ rest) ↔ "[Error]".toList <+: opening.toList := by
  unfold IsErrorLine
  rw [String.toList_append]
  constructor
  · intro starts
    exact List.prefix_of_prefix_length_le starts (List.prefix_append ..) long
  · intro starts
    exact starts.trans (List.prefix_append ..)

/-- The line of an error is an error line. -/
theorem isErrorLine_errorLine
    (location : Location)
    (message : String) :
    IsErrorLine (errorLine location message) := by
  unfold errorLine
  rw [String.append_assoc, String.append_assoc]
  exact (isErrorLine_append_iff (by decide) _).mpr (by decide)

/-- The line of a warning is none. -/
theorem not_isErrorLine_warningLine
    (location : Location)
    (message : String) :
    ¬ IsErrorLine (warningLine location message) := by
  unfold warningLine
  rw [String.append_assoc, String.append_assoc]
  exact mt (isErrorLine_append_iff (by decide) _).mp (by decide)

/-- The line of a diagnostic tells whether it is an error. -/
theorem Diagnostic.isErrorLine_describe_iff
    {diagnostic : Diagnostic} :
    IsErrorLine diagnostic.describe ↔ diagnostic.isError = true := by
  obtain ⟨finding, location⟩ := diagnostic
  cases finding with
  | error cause =>
      exact iff_of_true (isErrorLine_errorLine location cause.message) rfl
  | warning cause =>
      have noError := not_isErrorLine_warningLine location cause.message
      exact iff_of_false noError Bool.false_ne_true

/-- Compilation does not fail without a line that reports an error. -/
theorem exists_isErrorLine_of_compile
    {size : Nat}
    {source : String}
    {error : CompileError}
    (fails : compile size source = .error error) :
    ∃ line ∈ error.lines, IsErrorLine line := by
  unfold compile at fails
  split at fails
  · cases fails
    exact ⟨_, List.mem_singleton_self _, isErrorLine_errorLine ..⟩
  · rename_i tokens scanned
    split at fails
    · cases fails
      exact ⟨_, List.mem_singleton_self _, isErrorLine_errorLine ..⟩
    · rename_i program parsed
      dsimp only at fails
      split at fails
      · cases fails
      · rename_i someError
        cases fails
        obtain ⟨diagnostic, member⟩ :=
          List.exists_mem_of_ne_nil _ (mt List.isEmpty_iff.mpr someError)
        have isError := (List.mem_filter.mp member).2
        have listed : diagnostic ∈ (program.validate size).diagnostics :=
          List.mem_mergeSort.mpr (List.mem_append_left _ member)
        exact ⟨diagnostic.describe, List.mem_map_of_mem listed,
          Diagnostic.isErrorLine_describe_iff.mpr isError⟩

/-- A program that compiles has no error lines among its diagnostics. -/
theorem not_isErrorLine_of_compile
    {size : Nat}
    {source : String}
    {compiled : Compiled}
    (compiles : compile size source = .ok compiled) :
    ∀ line ∈ compiled.warnings.map Diagnostic.describe, ¬ IsErrorLine line := by
  rw [(isSound_of_compile compiles).warnings]
  intro line member
  obtain ⟨diagnostic, isWarning, rfl⟩ := List.mem_map.mp member
  rw [Diagnostic.isErrorLine_describe_iff]
  simpa using (List.mem_filter.mp isWarning).2

namespace RunReport

/-- The outcome tells what kinds of lines a report has. -/
structure Graded (report : RunReport) : Prop where
  success : report.outcome = .success ↔ report.lines = []
  successWithWarnings :
    report.outcome = .successWithWarnings ↔
      report.lines ≠ [] ∧ ∀ line ∈ report.lines, ¬ IsErrorLine line
  failed : report.outcome = .failed ↔ ∃ line ∈ report.lines, IsErrorLine line

variable
  {report : RunReport}

/-- A failure that is reported in an error line is graded. -/
theorem Graded.of_failed
    (failed : report.outcome = .failed)
    (reported : ∃ line ∈ report.lines, IsErrorLine line) :
    report.Graded := by
  obtain ⟨line, member, isError⟩ := reported
  refine ⟨?_, ?_, iff_of_true failed ⟨line, member, isError⟩⟩
  · rw [failed]
    refine iff_of_false (by decide) ?_
    exact List.ne_nil_of_mem member
  · rw [failed]
    refine iff_of_false (by decide) ?_
    rintro ⟨_, noError⟩
    exact noError line member isError

/-- A report without error lines is graded by whether it has lines at all. -/
theorem Graded.of_warnings
    (noError : ∀ line ∈ report.lines, ¬ IsErrorLine line)
    (outcome :
      report.outcome =
        if report.lines.isEmpty then .success else .successWithWarnings) :
    report.Graded := by
  have noFailure : ¬ ∃ line ∈ report.lines, IsErrorLine line := by
    rintro ⟨line, member, isError⟩
    exact noError line member isError
  by_cases empty : report.lines = []
  · have success : report.outcome = .success := by
      rw [outcome, empty]
      rfl
    refine ⟨iff_of_true success empty, ?_, ?_⟩
    · rw [success]
      exact iff_of_false (by decide) (fun nonempty => nonempty.1 empty)
    · rw [success]
      exact iff_of_false (by decide) noFailure
  · have warned : report.outcome = .successWithWarnings := by
      rw [outcome, if_neg (mt List.isEmpty_iff.mp empty)]
    refine ⟨?_, iff_of_true warned ⟨empty, noError⟩, ?_⟩
    · rw [warned]
      exact iff_of_false (by decide) empty
    · rw [warned]
      exact iff_of_false (by decide) noFailure

end RunReport

namespace Session

/-- A run of a source text that does not compile. -/
theorem run_of_error
    {session : Session}
    {source : String}
    {error : CompileError}
    (fails : session.compile source = .error error) :
    session.run source = (session, ⟨.failed, error.lines, none⟩) := by
  unfold run
  rw [fails]

/-- A run of a source text that compiles is the run of a machine. -/
theorem run_of_ok
    {session : Session}
    {source : String}
    {compiled : Compiled}
    (compiles : session.compile source = .ok compiled) :
    session.run source =
      ({ session with
          canvas := (session.machine compiled.program).run.1.moment.canvas },
        report compiled.warnings (session.machine compiled.program).run.1
          (session.machine compiled.program).run.2) := by
  unfold run
  rw [compiles]

/-- The line about the failure of a run. -/
def failureLines : Except RunError Unit → List String
  | .error error => [errorLine error.location error.message]
  | .ok () => []

/--
A report has the lines of the warnings and of the failure, and the machine.
-/
theorem report_eq
    (warnings : List Diagnostic)
    (machine : Machine)
    (result : Except RunError Unit) :
    (report warnings machine result).lines =
        warnings.map Diagnostic.describe ++ failureLines result ∧
      (report warnings machine result).machine = some machine := by
  cases result with
  | error error =>
      exact ⟨rfl, rfl⟩
  | ok =>
      exact ⟨(List.append_nil _).symm, rfl⟩

/--
A run reports the warnings first, in the order in which compilation gives them.
-/
theorem lines_run
    {session : Session}
    {source : String}
    {compiled : Compiled}
    (compiles : session.compile source = .ok compiled) :
    (session.run source).2.lines =
      compiled.warnings.map Diagnostic.describe ++
        failureLines (session.machine compiled.program).run.2 := by
  rw [run_of_ok compiles]
  exact (report_eq ..).1

/-- Every run gives an outcome that fits the lines it reports. -/
theorem graded_run
    (session : Session)
    (source : String) :
    (session.run source).2.Graded := by
  cases compiles : session.compile source with
  | error error =>
      rw [run_of_error compiles]
      exact .of_failed rfl (exists_isErrorLine_of_compile compiles)
  | ok compiled =>
      have noError := not_isErrorLine_of_compile compiles
      rw [run_of_ok compiles]
      cases (session.machine compiled.program).run.2 with
      | error error =>
          exact .of_failed rfl
            ⟨_, List.mem_append_right _ (List.mem_singleton_self _),
              isErrorLine_errorLine ..⟩
      | ok =>
          refine .of_warnings noError ?_
          simp only [report, List.isEmpty_map]

/-! ## Sequences of requests -/

/-- What may be asked of a session. -/
inductive Request where
  | run (source : String)
  | compile (source : String)
  | resize (size : Nat)
  deriving Repr, DecidableEq

/-- The session after a request; compilation alone leaves it as it was. -/
def serve (session : Session) : Request → Session
  | .run source => (session.run source).1
  | .compile _ => session
  | .resize size => session.resize size

/-- The configuration after a request. -/
def Request.configure (config : Config) : Request → Config
  | .run _ | .compile _ => config
  | .resize size => config.withCanvasSize size

/--
The machine with which a request ends under a configuration: a run of a source
text that compiles loads its program and runs it; all other requests run
nothing.
-/
def Request.finalMachine? (config : Config) : Request → Option Machine
  | .run source =>
      (PixelBrush.compile config.canvasSize source).toOption.map fun compiled =>
        (Machine.load compiled.program config.canvasSize config.stepLimit
          config.historyBudget).run.1
  | .compile _ | .resize _ => none

/--
The machines with which requests end, each under the configuration of its
moment.
-/
def finalMachines (config : Config) : List Request → List Machine
  | [] => []
  | request :: rest =>
      (request.finalMachine? config).toList ++
        finalMachines (request.configure config) rest

/--
The canvas that the last of some machines has left, or another if there is none.
-/
def lastCanvas (initial : Canvas) (machines : List Machine) : Canvas :=
  (machines.getLast?.map (·.moment.canvas)).getD initial

/-- The last machine of two lists is that of the second, if it has one. -/
theorem lastCanvas_append
    (initial : Canvas)
    (first second : List Machine) :
    lastCanvas initial (first ++ second) =
      lastCanvas (lastCanvas initial first) second := by
  unfold lastCanvas
  rw [List.getLast?_append]
  cases second.getLast? <;> rfl

/--
A request changes the configuration as it asks, and the canvas if it runs.
-/
theorem serve_eq
    (session : Session)
    (request : Request) :
    session.serve request =
      ⟨request.configure session.config,
        lastCanvas session.canvas
          (request.finalMachine? session.config).toList⟩ := by
  cases request with
  | compile | resize =>
      rfl
  | run source =>
      -- A session compiles for the canvas size of its configuration.
      have sameProgram :
          PixelBrush.compile session.config.canvasSize source =
            session.compile source :=
        rfl
      rw [serve, Request.finalMachine?, sameProgram]
      cases compiles : session.compile source with
      | error error =>
          rw [run_of_error compiles]
          rfl
      | ok compiled =>
          rw [run_of_ok compiles]
          rfl

/-- So do any requests, one after the other. -/
theorem foldl_serve_eq
    (session : Session)
    (requests : List Request) :
    requests.foldl serve session =
      ⟨requests.foldl Request.configure session.config,
        lastCanvas session.canvas (finalMachines session.config requests)⟩ := by
  induction requests generalizing session with
  | nil =>
      rfl
  | cons request rest inductionHypothesis =>
      rw [List.foldl_cons, List.foldl_cons, inductionHypothesis, serve_eq,
        finalMachines, lastCanvas_append]

/-- A run looks at the configuration and at nothing else. -/
theorem run_report
    (session : Session)
    (source : String) :
    (session.run source).2 = ((start session.config).run source).2 := by
  have sameProgram :
      (start session.config).compile source = session.compile source :=
    rfl
  unfold run
  rw [sameProgram]
  cases session.compile source with
  | error =>
      rfl
  | ok =>
      rfl

/--
After any requests, a run gives the report, machine included, that it gives in a
fresh session with the configuration of the moment, and its outcome fits the
lines of the report.  A source text that does not compile is reported with the
lines of its errors and without a machine; one that compiles is reported with
the machine with which the run of its program ends, and with the lines of its
warnings and of the failure of that run.  What the session keeps besides the
configuration is the canvas of the last run of a source text that compiled, at
first a white one.
-/
theorem run_after_requests
    (config : Config)
    (requests : List Request)
    (source : String) :
    let session := requests.foldl serve (start config)
    let report := (session.run source).2
    session.config = requests.foldl Request.configure config ∧
      session.canvas =
        lastCanvas (.blank config.canvasSize) (finalMachines config requests) ∧
      report = ((start session.config).run source).2 ∧
      (∀ error,
        session.compile source = .error error →
        report.machine = none ∧ report.lines = error.lines) ∧
      (∀ compiled,
        session.compile source = .ok compiled →
        report.machine = some (session.machine compiled.program).run.1 ∧
          report.lines =
            compiled.warnings.map Diagnostic.describe ++
              failureLines (session.machine compiled.program).run.2) ∧
      report.Graded := by
  intro session report
  have kept : session = ⟨_, _⟩ := foldl_serve_eq (start config) requests
  refine ⟨congrArg Session.config kept, congrArg Session.canvas kept,
    run_report session source, ?_, ?_, graded_run session source⟩
  · intro error fails
    have isReport : report = ⟨.failed, error.lines, none⟩ :=
      congrArg Prod.snd (run_of_error fails)
    rw [isReport]
    exact ⟨rfl, rfl⟩
  · intro compiled compiles
    have isReport : report = Session.report _ _ _ :=
      congrArg Prod.snd (run_of_ok compiles)
    refine ⟨?_, lines_run compiles⟩
    rw [isReport]
    exact (report_eq ..).2

/--
A blue canvas outlasts a change of the side and a text that does not compile.
The next run gets past compilation and fails with one line.
-/
theorem run_after_requests_division :
    let requests : List Request :=
      [.run "Spawn(0, 0)\nColor(\"Blue\")\nFill()\n", .resize 3,
        .run "Color(1)\n"]
    let source := "Spawn(0, 0)\nn <- 1 / 0\n"
    let session := requests.foldl serve (start ⟨2, 10, none⟩)
    session.config = ⟨3, 10, none⟩ ∧
      session.canvas.size = 2 ∧
      session.canvas.get? 1 1 = some .blue ∧
      ∃ compiled error,
        session.compile source = .ok compiled ∧
          (session.machine compiled.program).run.2 = .error error ∧
          (session.run source).2.machine =
            some (session.machine compiled.program).run.1 ∧
          (session.run source).2.lines =
            [errorLine error.location error.message] ∧
          (session.run source).2.outcome = .failed := by
  intro requests source session
  obtain ⟨config, canvas, _, _, runs, graded⟩ :=
    run_after_requests ⟨2, 10, none⟩ requests source
  have settled :
      (session.compile source).toOption.any (fun compiled =>
        compiled.warnings.isEmpty &&
          !(session.machine compiled.program).run.2.isOk) = true := by
    decide +kernel
  obtain ⟨compiled, compiles, known⟩ := exists_eq_ok_of_any settled
  rw [Bool.and_eq_true, List.isEmpty_iff] at known
  obtain ⟨machine, lines⟩ := runs compiled compiles
  refine ⟨config, by rw [canvas]; decide +kernel,
    by rw [canvas]; decide +kernel, compiled, ?_⟩
  cases ended : (session.machine compiled.program).run.2 with
  | ok =>
      rw [ended] at known
      cases known.2
  | error error =>
      rw [known.1, ended] at lines
      refine ⟨error, compiles, rfl, machine, lines, graded.failed.mpr ?_⟩
      rw [lines]
      exact ⟨_, List.mem_singleton_self _, isErrorLine_errorLine ..⟩

end Session

end PixelBrush

import PixelBrush.Validation.Basic

namespace PixelBrush

/-!
# The validation pass, instruction by instruction

Validation checks the instructions in order and only ever adds findings.  So
the state in which an instruction is checked is the state after the
instructions before it, and a program without errors is one in which no
instruction was found to have one.
-/

/-- No finding is an error. -/
def Clean (findings : List Diagnostic) : Prop :=
  ∀ finding ∈ findings, finding.isError = false

/-- Findings have no error if neither part of them has. -/
@[simp] theorem clean_append_iff
    {first second : List Diagnostic} :
    Clean (first ++ second) ↔ Clean first ∧ Clean second := by
  simp only [Clean, List.mem_append, or_imp, forall_and]

/-- Findings with an error are not clean. -/
@[simp] theorem not_clean_error
    (cause : ErrorCause)
    (location : Location) :
    ¬ Clean [.error cause location] := by
  intro clean
  have wrong := clean (.error cause location) (by simp)
  cases wrong

/-- Earlier findings have no error if all have none. -/
theorem Clean.of_isPrefix
    {first whole : List Diagnostic}
    (clean : Clean whole)
    (begins : first <+: whole) :
    Clean first :=
  fun finding member => clean finding (begins.subset member)

namespace Outlook

/-- A validation that lists no errors has found none. -/
theorem clean_of_errors_nil
    {outlook : Outlook}
    (none : outlook.errors = []) :
    Clean outlook.findings := by
  intro finding member
  unfold errors at none
  rw [List.filter_eq_nil_iff] at none
  exact (Bool.not_eq_true _).mp (none finding member)

/-- One state of a validation comes from another by adding findings. -/
structure Extends (earlier later : Outlook) : Prop where
  size : later.size = earlier.size
  findings : earlier.findings <+: later.findings

namespace Extends

/-- A state extends itself. -/
theorem refl (outlook : Outlook) :
    Extends outlook outlook :=
  ⟨rfl, List.prefix_refl _⟩

/-- What extends a later state extends an earlier one. -/
theorem trans
    {first second third : Outlook}
    (toSecond : Extends first second)
    (toThird : Extends second third) :
    Extends first third :=
  ⟨toThird.size.trans toSecond.size, toSecond.findings.trans toThird.findings⟩

/-- Reporting more findings extends a state. -/
theorem report
    (outlook : Outlook)
    (findings : List Diagnostic) :
    Extends outlook (outlook.report findings) :=
  ⟨rfl, List.prefix_append _ _⟩

/-- Placing the brush extends what the state extended. -/
theorem place
    {earlier later : Outlook}
    (extends_ : Extends earlier later)
    (position : Option (Number × Number)) :
    Extends earlier (later.place position) :=
  ⟨extends_.size, extends_.findings⟩

/-- Checking an instruction only adds findings. -/
theorem check
    (outlook : Outlook)
    (program : Program)
    (index : Nat)
    (node : Node) :
    Extends outlook (outlook.check program index node) := by
  cases node with
  | spawn x y location =>
      simp only [Outlook.check, checkSpawn]
      split
      · exact (refl outlook).place _
      · exact (report outlook _).place _
  | setColor name location =>
      simp only [Outlook.check, checkColor]
      split
      · exact ⟨rfl, List.prefix_refl _⟩
      · exact ⟨rfl, List.prefix_append _ _⟩
  | setSize size location =>
      simp only [Outlook.check, checkSize]
      split
      · exact report outlook _
      · split
        · exact refl outlook
        · exact report outlook _
  | draw command arguments location =>
      simp only [Outlook.check, checkDraw]
      split
      · exact (report outlook _).place _
      · exact (report outlook _).place _
      · exact (report outlook _).place _
      · exact (report outlook _).place _
  | fill location =>
      simp only [Outlook.check]
      split
      · exact report outlook _
      · exact refl outlook
  | assign name value location =>
      exact ⟨rfl, List.prefix_append _ _⟩
  | label name location =>
      exact ⟨rfl, List.prefix_refl _⟩
  | goTo label condition location =>
      exact ⟨rfl, List.prefix_append _ _⟩
  | call | arithmetic | boolean | read | number | text =>
      exact report outlook _

/-- Checking several instructions only adds findings. -/
theorem checkAll
    (outlook : Outlook)
    (program : Program)
    (index : Nat)
    (nodes : List Node) :
    Extends outlook (outlook.checkAll program index nodes) := by
  induction nodes generalizing outlook index with
  | nil =>
      exact refl outlook
  | cons node rest inductionHypothesis =>
      exact (check outlook program index node).trans (inductionHypothesis _ _)

end Extends

/--
A drawing command with the right number of arguments is checked as a move.
-/
theorem checkDraw_of_arity
    (outlook : Outlook)
    {command : DrawCommand}
    {nodes : List Node}
    (location : Location)
    (arity : nodes.length = command.arity) :
    ∃ nodeY nodeX nodeDistance extents,
      nodes = nodeY :: nodeX :: nodeDistance :: extents ∧
        outlook.checkDraw command nodes location =
          outlook.checkMove command nodeY nodeX nodeDistance extents
            location := by
  cases command with
  | line =>
      match nodes, arity with
      | [first, second, third], _ =>
          exact ⟨first, second, third, [], rfl, rfl⟩
  | circle =>
      match nodes, arity with
      | [first, second, third], _ =>
          exact ⟨first, second, third, [], rfl, rfl⟩
  | rectangle =>
      match nodes, arity with
      | [first, second, third, fourth, fifth], _ =>
          exact ⟨first, second, third, [fourth, fifth], rfl, rfl⟩

/-- Instructions can be checked one list after the other. -/
theorem checkAll_append
    (outlook : Outlook)
    (program : Program)
    (index : Nat)
    (first second : List Node) :
    outlook.checkAll program index (first ++ second) =
      (outlook.checkAll program index first).checkAll program
        (index + first.length) second := by
  induction first generalizing outlook index with
  | nil =>
      rfl
  | cons node rest inductionHypothesis =>
      rw [List.cons_append, checkAll, checkAll, inductionHypothesis,
        List.length_cons, Nat.add_assoc, Nat.add_comm 1]

/--
The state of validation when the instruction at an index is about to be checked.
-/
def before (program : Program) (size index : Nat) : Outlook :=
  (start program size).checkAll program 0 (program.take index)

variable
  {program : Program}
  {size index : Nat}
  {node : Node}

/-- Validation keeps the size of the canvas. -/
theorem size_before
    (program : Program)
    (size index : Nat) :
    (before program size index).size = size :=
  (Extends.checkAll (start program size) program 0 (program.take index)).size

/-- The state after an instruction is the state before the next one. -/
theorem before_succ
    (found : program[index]? = some node) :
    before program size (index + 1) =
      (before program size index).check program index node := by
  have within : index < program.length :=
    (List.getElem?_eq_some_iff.mp found).1
  unfold before
  rw [List.take_add_one, found, Option.toList_some, checkAll_append,
    List.length_take, Nat.min_eq_left (Nat.le_of_lt within), Nat.zero_add]
  rfl

/-- What is found up to an instruction is found in the whole program. -/
theorem before_extends_validate
    (program : Program)
    (size index : Nat) :
    Extends (before program size index) (program.validate size) := by
  have parts := checkAll_append (start program size) program 0
    (program.take index) (program.drop index)
  rw [List.take_append_drop] at parts
  unfold Program.validate
  rw [parts]
  exact Extends.checkAll ..

/-- In a program without errors, no instruction was found to have one. -/
theorem clean_check
    (valid : (program.validate size).errors = [])
    (found : program[index]? = some node) :
    Clean ((before program size index).check program index node).findings := by
  have later := before_extends_validate program size (index + 1)
  rw [before_succ found] at later
  exact (clean_of_errors_nil valid).of_isPrefix later.findings

end Outlook

end PixelBrush

import PixelBrush.Proofs.PrintedPrograms
import PixelBrush.Token.Naming

namespace PixelBrush

/-!
# Names in printed programs

Each instruction of a printed program has a line to itself.  So the words before
an arrow are exactly those that the program assigns, and a word alone on its
line is a declared label.  Where no label is assigned, no word is ambiguous, and
every word gets the class of its role.
-/

/-! ## Lines of tokens -/

/-- Within a line only the column changes. -/
theorem Location.advanceOver_of_oneLine
    {characters : List Char}
    (oneLine : '\n' ∉ characters)
    (location : Location) :
    location.advanceOver characters =
      ⟨location.line, location.column + characters.length⟩ := by
  induction characters generalizing location with
  | nil =>
      rfl
  | cons character others inductionHypothesis =>
      have notBreak : character ≠ '\n' := (List.ne_of_not_mem_cons oneLine).symm
      have after := inductionHypothesis (List.not_mem_of_not_mem_cons oneLine)
      show (location.advance character).advanceOver others = _
      rw [after, advance, if_neg notBreak, List.length_cons, Nat.add_assoc,
        Nat.add_comm 1 others.length]

/-- Characters without a line break lead to a place on the same line. -/
theorem Location.line_advanceOver
    {characters : List Char}
    (oneLine : '\n' ∉ characters)
    (location : Location) :
    (location.advanceOver characters).line = location.line := by
  rw [advanceOver_of_oneLine oneLine]

/-- Only a line break spells one. -/
theorem Mark.oneLine
    {mark : Mark}
    (wellFormed : mark.WellFormed)
    (sameLine : mark ≠ .lineBreak) :
    '\n' ∉ mark.spelling := by
  cases mark with
  | word name =>
      intro member
      cases List.all_eq_true.mp wellFormed.continues '\n' member
  | number value =>
      have noDigit (magnitude : Nat) : '\n' ∉ Nat.toDigits 10 magnitude := by
        intro member
        cases Number.isDigit_of_mem_toDigits magnitude '\n' member
      rw [spelling, Number.toList_toString]
      split
      · exact noDigit _
      · exact List.not_mem_cons_of_ne_of_not_mem (by decide) (noDigit _)
  | text value =>
      intro member
      have inside : '\n' ∈ value.toList := by
        simpa [spelling] using member
      exact wellFormed.oneLine inside
  | symbol kind shape =>
      have noBreak : ∀ entry ∈ Scan.symbols, '\n' ∉ entry.1 := by
        decide
      exact noBreak _ wellFormed
  | space =>
      decide
  | lineBreak =>
      exact (sameLine rfl).elim

/-- The marks of an instruction spell no line break. -/
theorem Line.oneLine
    {marks : List Mark}
    (line : Line marks) :
    '\n' ∉ spell marks := by
  intro member
  obtain ⟨mark, isMark, inside⟩ := List.mem_flatMap.mp member
  exact Mark.oneLine (line.wellFormed mark isMark)
    (line.sameLine mark isMark) inside

/-- Marks without a line break have their tokens on one line. -/
theorem line_of_mem_place
    {marks : List Mark}
    {location : Location}
    (oneLine : '\n' ∉ spell marks) :
    ∀ token ∈ place location marks, token.location.line = location.line := by
  induction marks generalizing location with
  | nil =>
      nofun
  | cons mark others inductionHypothesis =>
      obtain ⟨first, rest⟩ := not_or.mp (mt List.mem_append.mpr oneLine)
      have after :=
        @inductionHypothesis (location.advanceOver mark.spelling) rest
      rw [Location.line_advanceOver first] at after
      rw [place]
      cases mark.token? with
      | none =>
          exact after
      | some shape =>
          exact List.forall_mem_cons.mpr ⟨rfl, after⟩

/-! ## Words before arrows and words alone -/

namespace Naming

/--
Words before arrows are found part by part, if no part starts with an arrow.
-/
theorem assigned_append
    {first second : List Token}
    (noArrow : ∀ token ∈ second.head?, token.kind ≠ .assignment) :
    assigned (first ++ second) = assigned first ++ assigned second := by
  induction first with
  | nil =>
      rfl
  | cons token others inductionHypothesis =>
      cases others with
      | nil =>
          cases second with
          | nil =>
              rfl
          | cons next rest =>
              have notArrow := noArrow next rfl
              exact if_neg fun both => notArrow both.2
      | cons next rest =>
          rw [List.cons_append, List.cons_append, assigned, assigned,
            ← List.cons_append, inductionHypothesis]
          split <;> rfl

/-- Without an arrow no word is assigned. -/
theorem assigned_of_noArrow
    {tokens : List Token}
    (noArrow : ∀ token ∈ tokens, token.kind ≠ .assignment) :
    assigned tokens = [] := by
  induction tokens with
  | nil =>
      rfl
  | cons token others inductionHypothesis =>
      obtain ⟨_, noArrow⟩ := List.forall_mem_cons.mp noArrow
      cases others with
      | nil =>
          rfl
      | cons next rest =>
          have notArrow := noArrow next List.mem_cons_self
          rw [assigned, if_neg fun both => notArrow both.2,
            inductionHypothesis noArrow]

/-- After a token, no other token of its line stands alone. -/
theorem alone_of_sameLine
    {line : Nat}
    {tokens rest : List Token}
    (sameLine : ∀ token ∈ tokens, token.location.line = line) :
    alone (some line) (tokens ++ rest) = alone (some line) rest := by
  induction tokens with
  | nil =>
      rfl
  | cons token others inductionHypothesis =>
      obtain ⟨first, sameLine⟩ := List.forall_mem_cons.mp sameLine
      rw [List.cons_append, alone, first]
      rw [if_neg fun both => both.2.2.1 rfl, inductionHypothesis sameLine]

/-- No word is alone on a line with a second token. -/
theorem alone_of_two
    {previous : Option Nat}
    {line : Nat}
    {first second : Token}
    {others rest : List Token}
    (sameLine :
      ∀ token ∈ first :: second :: others, token.location.line = line) :
    alone previous (first :: second :: others ++ rest) =
      alone (some line) rest := by
  obtain ⟨firstLine, sameLine⟩ := List.forall_mem_cons.mp sameLine
  have secondLine := sameLine second List.mem_cons_self
  rw [List.cons_append, alone, firstLine]
  rw [if_neg, alone_of_sameLine sameLine]
  intro both
  exact both.2.2.2 (congrArg some secondLine)

end Naming

/-! ## The names of a program -/

/-- Scanning takes a name for a free word. -/
theorem IsName.wordKind_eq
    {name : String}
    (isName : IsName name) :
    Scan.wordKind name = .identifier := by
  unfold Scan.wordKind
  rw [if_neg (mt List.contains_iff_mem.mp isName.notKeyword),
    if_neg (mt List.contains_iff_mem.mp isName.notFunction),
    if_neg (mt List.contains_iff_mem.mp isName.notCommand)]

/-- The marks of an expression have no arrow among their tokens. -/
theorem noArrow_place
    {marks : List Mark}
    {location : Location}
    (plain : ∀ mark ∈ marks, mark.Plain) :
    ∀ token ∈ place location marks, token.kind ≠ .assignment := by
  induction marks generalizing location with
  | nil =>
      nofun
  | cons mark others inductionHypothesis =>
      obtain ⟨first, plain⟩ := List.forall_mem_cons.mp plain
      rw [place]
      cases token : mark.token? with
      | none =>
          exact inductionHypothesis plain
      | some shape =>
          exact List.forall_mem_cons.mpr
            ⟨first.noArrow shape token, inductionHypothesis plain⟩

namespace Node

variable
  {assigned : List String}
  {node : Node}

/--
The words before the arrows of a printed line are what its instruction assigns
to.
-/
theorem WritableLine.assigned_line
    (writable : node.WritableLine assigned)
    (location : Location) :
    Naming.assigned (place location node.line) = node.target?.toList := by
  rcases writable.phrase_or_assign with
    ⟨noTarget, phrase⟩ | ⟨name, marks, target, isName, phrase, shape⟩
  · rw [noTarget]
    exact Naming.assigned_of_noArrow (noArrow_place phrase.plain)
  · have noArrow
        {start : Location} :
        ∀ token ∈ place start marks, token.kind ≠ .assignment :=
      noArrow_place phrase.plain
    rw [target, shape]
    show Naming.assigned ([_, _] ++ place _ marks) = [name]
    rw [Naming.assigned_append, Naming.assigned_of_noArrow noArrow,
      List.append_nil]
    · exact if_pos ⟨isName.wordKind_eq, rfl⟩
    · intro token isHead
      exact noArrow token (List.mem_of_mem_head? isHead)

/-- A line has two tokens at least, unless it declares a label. -/
theorem WritableLine.label_or_two
    (writable : node.WritableLine assigned)
    (location : Location) :
    (∃ name,
      name ∉ assigned ∧
        place location node.line = [⟨Scan.wordKind name, name, location⟩]) ∨
      ∃ first second others,
        place location node.line = first :: second :: others := by
  cases writable with
  | label _ apart =>
      exact .inl ⟨_, apart, rfl⟩
  | spawn | setColor | setSize | fill | draw | assign | goTo | call =>
      exact .inr ⟨_, _, _, rfl⟩

end Node

namespace Program

variable
  {assigned : List String}
  {program : Program}

/--
The first instruction is printed on the line that is reached, and the others
start on the next one.
-/
theorem place_cons
    {node : Node}
    (oneLine : '\n' ∉ spell node.line)
    (location : Location)
    (program : Program) :
    place location (marks (node :: program)) =
      place location node.line ++
        place ⟨location.line + 1, 1⟩ (marks program) := by
  have endLine := Location.line_advanceOver oneLine location
  rw [marks_cons, place_append, ← endLine]
  rfl

/--
The first token of a program is a word at the place where the program starts.
-/
theorem head_place
    (writable : ∀ node ∈ program, node.WritableLine assigned)
    (location : Location) :
    ∀ token ∈ (place location program.marks).head?,
      ∃ name, token = ⟨Scan.wordKind name, name, location⟩ := by
  have starts := startsWithWord writable
  cases shape : program.marks with
  | nil =>
      nofun
  | cons mark others =>
      rw [shape] at starts
      obtain ⟨name, rfl⟩ := starts mark rfl
      intro token isHead
      cases isHead
      exact ⟨name, rfl⟩

/--
The assigned names of a program start with those of its first instruction.
-/
theorem assigned_cons
    (node : Node)
    (program : Program) :
    Program.assigned (node :: program) =
      node.target?.toList ++ program.assigned := by
  rw [Program.assigned, List.filterMap_cons]
  cases node.target? <;> rfl

/-- The words before the arrows of a printed program are its assigned names. -/
theorem assigned_marks
    (writable : ∀ node ∈ program, node.WritableLine assigned)
    (location : Location) :
    Naming.assigned (place location program.marks) = program.assigned := by
  induction program generalizing location with
  | nil =>
      rfl
  | cons node program inductionHypothesis =>
      obtain ⟨first, others⟩ := List.forall_mem_cons.mp writable
      rw [place_cons first.isLine.oneLine, Naming.assigned_append,
        first.assigned_line, inductionHypothesis others, assigned_cons]
      intro token isHead
      obtain ⟨name, rfl⟩ := head_place others _ token isHead
      exact Scan.wordKind_ne name rfl

/-- No word that stands alone in a printed program is assigned. -/
theorem apart_of_alone
    (writable : ∀ node ∈ program, node.WritableLine assigned)
    {previous : Option Nat}
    {location : Location} :
    ∀ token ∈ Naming.alone previous (place location program.marks),
      token.lexeme ∉ assigned := by
  induction program generalizing previous location with
  | nil =>
      nofun
  | cons node program inductionHypothesis =>
      obtain ⟨first, others⟩ := List.forall_mem_cons.mp writable
      have oneLine := first.isLine.oneLine
      have sameLine :
          ∀ token ∈ place location node.line,
            token.location.line = location.line :=
        line_of_mem_place oneLine
      rw [place_cons oneLine]
      rcases first.label_or_two location with
        ⟨name, apart, shape⟩ | ⟨head, next, more, shape⟩
      · rw [shape, List.singleton_append, Naming.alone]
        split
        · exact List.forall_mem_cons.mpr ⟨apart, inductionHypothesis others⟩
        · exact inductionHypothesis others
      · rw [shape] at sameLine ⊢
        rw [Naming.alone_of_two sameLine]
        exact inductionHypothesis others

/--
The text of a program has the tokens of its marks, each word with its role.
-/
theorem tokenize_print
    (writable : program.Writable) :
    tokenize program.print =
      .ok ((place .start program.marks).map
        (Naming.settle program.assigned)) := by
  have noConflict : Naming.conflict? (place .start program.marks) = none := by
    rw [Naming.conflict?, assigned_marks writable, List.find?_eq_none]
    intro token isAlone isAssigned
    exact apart_of_alone writable token isAlone
      (List.contains_iff_mem.mp isAssigned)
  rw [tokenize, scan_print writable]
  show resolveNames _ = _
  rw [resolveNames, noConflict, assigned_marks writable]

end Program

end PixelBrush

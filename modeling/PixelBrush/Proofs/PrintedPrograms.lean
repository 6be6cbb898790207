import PixelBrush.Proofs.ScannedMarks

namespace PixelBrush

/-!
# Printed programs are scanned

The marks of an expression are a phrase: each mark can be scanned, no two
neighbours run into each other, and parentheses are balanced.  Phrases are
closed under what the printer does with them, so that the marks of every program
that can be printed are scanned back to its tokens.
-/

/-- Marks have their places after what the marks before them spell. -/
theorem place_append
    (location : Location)
    (first second : List Mark) :
    place location (first ++ second) =
      place location first ++
        place (location.advanceOver (spell first)) second := by
  induction first generalizing location with
  | nil =>
      rfl
  | cons mark others inductionHypothesis =>
      rw [List.cons_append, place, place, inductionHypothesis,
        ← Location.advanceOver_append]
      cases mark.token? <;> rfl

/-! ## Balanced marks -/

/-- What the marks open they close. -/
def Balanced (marks : List Mark) : Prop :=
  ∀ location nesting,
    Scan.Nesting.afterAll nesting (place location marks) = .ok nesting

namespace Balanced

variable {left right marks : List Mark}

/-- Balanced marks one after the other are balanced. -/
theorem append
    (first : Balanced left)
    (second : Balanced right) :
    Balanced (left ++ right) := by
  intro location nesting
  rw [place_append, Scan.Nesting.afterAll, List.foldlM_append]
  exact (congrArg (· >>= _) (first location nesting)).trans (second _ nesting)

/-- A mark that is no punctuation opens and closes nothing. -/
theorem single
    {mark : Mark}
    (neutral : ∀ token ∈ mark.token?, token.1 ≠ .punctuation) :
    Balanced [mark] := by
  intro location nesting
  rw [place]
  cases token : mark.token? with
  | none =>
      rfl
  | some shape =>
      have unchanged :
          nesting.after ⟨shape.1, shape.2, location⟩ = .ok nesting :=
        if_pos (neutral shape token)
      exact congrArg (· >>= _) unchanged

/-- A comma opens and closes nothing. -/
theorem comma : Balanced [.punctuation ","] :=
  fun _ _ => rfl

/-- Balanced marks stay balanced between two marks that undo each other. -/
theorem surround
    {opening closing : String}
    (undo :
      ∀ location (nesting : Scan.Nesting),
        ∃ opened,
          nesting.after ⟨.punctuation, opening, location⟩ = .ok opened ∧
            ∀ other, opened.after ⟨.punctuation, closing, other⟩ = .ok nesting)
    (inner : Balanced marks) :
    Balanced (.punctuation opening :: (marks ++ [.punctuation closing])) := by
  intro location nesting
  obtain ⟨opened, opens, closes⟩ := undo location nesting
  have inside := inner (location.advanceOver opening.toList) opened
  unfold Scan.Nesting.afterAll at inside ⊢
  simp only [place, Mark.punctuation, Mark.token?, Mark.spelling, place_append,
    List.foldlM_cons, List.foldlM_append, List.foldlM_nil, opens, inside,
    closes, bind, Except.bind]
  rfl

end Balanced

/-! ## Phrases -/

/-- A mark that expressions are made of. -/
structure Mark.Plain (mark : Mark) : Prop where
  wellFormed : mark.WellFormed
  sameLine : mark ≠ .lineBreak
  noArrow : ∀ token ∈ mark.token?, token.1 ≠ .assignment

/-- The listed punctuation is plain. -/
theorem Mark.Plain.punctuation
    {shape : String}
    (listed : (shape.toList, TokenKind.punctuation) ∈ Scan.symbols) :
    (Mark.punctuation shape).Plain where
  wellFormed := listed
  sameLine := nofun
  noArrow := by
    intro token found
    cases found
    nofun

/-- Marks that are scanned on one line, whatever stands around them. -/
structure Phrase (marks : List Mark) : Prop where
  plain : ∀ mark ∈ marks, mark.Plain
  joined : marks.IsChain Mark.Joins
  balanced : Balanced marks

namespace Phrase

variable
  {left right marks : List Mark}

/--
Phrases are put together where the marks at the seam can stand side by side.
-/
theorem append
    (first : Phrase left)
    (second : Phrase right)
    (joins : ∀ last ∈ left.getLast?, ∀ next ∈ right.head?, last.Joins next) :
    Phrase (left ++ right) where
  plain := List.forall_mem_append.mpr ⟨first.plain, second.plain⟩
  joined := List.isChain_append.mpr ⟨first.joined, second.joined, joins⟩
  balanced := first.balanced.append second.balanced

/-- No marks make a phrase. -/
theorem nil : Phrase [] where
  plain := nofun
  joined := .nil
  balanced := fun _ _ => rfl

/-- A phrase can be continued by a mark that ends what stands before it. -/
theorem continued
    {mark : Mark}
    (first : Phrase left)
    (second : Phrase (mark :: right))
    (closes : mark.closes = true) :
    Phrase (left ++ mark :: right) := by
  apply first.append second
  intro last _ next isNext
  cases isNext
  exact .inr closes

/-- A space is a phrase. -/
theorem blank : Phrase [.space] where
  plain := List.forall_mem_singleton.mpr ⟨trivial, nofun, nofun⟩
  joined := .singleton _
  balanced := .single nofun

/-- A phrase may follow a space. -/
theorem afterSpace
    (phrase : Phrase marks) :
    Phrase (.space :: marks) := by
  apply blank.append phrase
  intro last isLast next _
  cases isLast
  exact .inl rfl

/-- A token that is neither punctuation nor an arrow. -/
theorem token
    (mark : Mark)
    {kind : TokenKind}
    {lexeme : String}
    (isToken : mark.token? = some (kind, lexeme))
    (wellFormed : mark.WellFormed)
    (noPunctuation : kind ≠ .punctuation)
    (noArrow : kind ≠ .assignment) :
    Phrase [mark] where
  plain := by
    refine List.forall_mem_singleton.mpr ⟨wellFormed, ?_, ?_⟩
    · rintro rfl
      cases isToken
    · intro token found
      cases isToken.symm.trans found
      exact noArrow
  joined := .singleton mark
  balanced := by
    apply Balanced.single
    intro token found
    cases isToken.symm.trans found
    exact noPunctuation

/-- A word is a phrase. -/
theorem word
    {name : String}
    (isWord : IsWord name) :
    Phrase [.word name] :=
  token (.word name) rfl isWord (Scan.wordKind_ne name rfl)
    (Scan.wordKind_ne name rfl)

/-- A number is a phrase. -/
theorem number (value : Number) :
    Phrase [.number value] :=
  token (.number value) rfl trivial nofun nofun

/-- A string literal without quotes or line breaks is a phrase. -/
theorem text
    {value : String}
    (plain : IsPlain value) :
    Phrase [.text value] :=
  token (.text value) rfl plain nofun nofun

/-- An operator is a phrase. -/
theorem operator (operator : Operator) :
    Phrase [.operator operator] := by
  refine token (.operator operator) rfl (Grammar.operator_listed operator) ?_ ?_
  · cases operator <;> nofun
  · cases operator <;> nofun

/-- A phrase may follow a comma and a space. -/
theorem comma
    (phrase : Phrase marks) :
    Phrase (.punctuation "," :: .space :: marks) := by
  have single : Phrase [.punctuation ","] :=
    ⟨List.forall_mem_singleton.mpr (.punctuation (by decide)), .singleton _,
      .comma⟩
  exact single.continued phrase.afterSpace rfl

/-- A phrase between parentheses or brackets. -/
theorem surround
    {opening closing : String}
    (opens : opening = "(" ∧ closing = ")" ∨ opening = "[" ∧ closing = "]")
    (inner : Phrase marks) :
    Phrase (.punctuation opening :: (marks ++ [.punctuation closing])) where
  plain := by
    rw [List.forall_mem_cons, List.forall_mem_append, List.forall_mem_singleton]
    rcases opens with ⟨rfl, rfl⟩ | ⟨rfl, rfl⟩
    · exact ⟨.punctuation (by decide), inner.plain, .punctuation (by decide)⟩
    · exact ⟨.punctuation (by decide), inner.plain, .punctuation (by decide)⟩
  joined := by
    apply List.isChain_cons.mpr
    constructor
    · intro next _
      rcases opens with ⟨rfl, rfl⟩ | ⟨rfl, rfl⟩ <;> exact .inl rfl
    · apply List.isChain_append.mpr
      refine ⟨inner.joined, .singleton _, ?_⟩
      intro last _ next isNext
      cases isNext
      exact .inr rfl
  balanced := by
    rcases opens with ⟨rfl, rfl⟩ | ⟨rfl, rfl⟩
    · exact inner.balanced.surround fun _ _ => ⟨_, rfl, fun _ => rfl⟩
    · exact inner.balanced.surround fun _ _ => ⟨_, rfl, fun _ => rfl⟩

/-- A phrase in parentheses is a phrase. -/
theorem enclose
    (inner : Phrase marks) :
    Phrase (Printing.enclose marks) :=
  inner.surround (.inl ⟨rfl, rfl⟩)

/-- A word and a phrase in parentheses are a phrase. -/
theorem wordEnclose
    {name : String}
    (inner : Phrase marks)
    (isWord : IsWord name) :
    Phrase (.word name :: Printing.enclose marks) :=
  (word isWord).continued inner.enclose rfl

/-- An operator between two phrases, with or without parentheses. -/
theorem between
    (minimum : Nat)
    {operator : Operator}
    (first : Phrase left)
    (second : Phrase right) :
    Phrase (Printing.between minimum operator left right) := by
  have after := (Phrase.operator operator).continued second.afterSpace rfl
  have whole := first.continued after.afterSpace rfl
  unfold Printing.between
  split
  · exact whole.enclose
  · exact whole

end Phrase

/-! ## The marks of nodes -/

/-- Keywords are words. -/
theorem isWord_keyword
    {name : String}
    (listed : name ∈ Scan.keywords) :
    IsWord name := by
  simp only [Scan.keywords, List.mem_cons, List.not_mem_nil, or_false] at listed
  rcases listed with
    rfl | rfl | rfl | rfl | rfl <;> exact ⟨⟨_, rfl, rfl⟩, by decide⟩

/-- The names of functions are words. -/
theorem isWord_function (function : Builtin) :
    IsWord function.name := by
  cases function <;> exact ⟨⟨_, rfl, rfl⟩, by decide⟩

/-- The names of draw commands are words. -/
theorem isWord_command (command : DrawCommand) :
    IsWord command.name := by
  cases command <;> exact ⟨⟨_, rfl, rfl⟩, by decide⟩

namespace Node

/-- Arguments with commas between them are a phrase if each of them is. -/
theorem phrase_separated
    {arguments : List Node}
    (each :
      ∀ argument ∈ arguments, Phrase (argument.marks Grammar.primaryLevel)) :
    Phrase (separated arguments) := by
  induction arguments with
  | nil =>
      rw [separated]
      exact .nil
  | cons argument others inductionHypothesis =>
      obtain ⟨first, each⟩ := List.forall_mem_cons.mp each
      cases others with
      | nil =>
          rw [separated]
          exact first
      | cons next others =>
          rw [separated]
          exact first.continued (inductionHypothesis each).comma rfl

/-- A printed expression is a phrase, with or without parentheses around it. -/
theorem Writable.phrase
    {assigned : List String}
    {node : Node}
    (writable : node.Writable assigned)
    (minimum : Nat) :
    Phrase (node.marks minimum) := by
  induction writable generalizing minimum with
  | number =>
      rw [marks]
      exact .number _
  | text plain =>
      rw [marks]
      exact .text plain
  | read isName _ | label isName _ =>
      rw [marks]
      exact .word isName.toIsWord
  | call _ inductionHypothesis =>
      rw [marks]
      have inner :=
        phrase_separated fun argument member =>
          inductionHypothesis argument member _
      exact inner.wordEnclose (isWord_function _)
  | arithmetic _ _ firstHypothesis secondHypothesis
  | boolean _ _ firstHypothesis secondHypothesis =>
      rw [marks]
      exact (firstHypothesis _).between minimum (secondHypothesis _)

end Node

/-! ## Lines -/

/-- The marks of an instruction, which an arrow may be one of. -/
structure Line (marks : List Mark) : Prop where
  wellFormed : ∀ mark ∈ marks, mark.WellFormed
  sameLine : ∀ mark ∈ marks, mark ≠ .lineBreak
  joined : marks.IsChain Mark.Joins
  balanced : Balanced marks

/-- A phrase can be a line. -/
theorem Phrase.line
    {marks : List Mark}
    (phrase : Phrase marks) :
    Line marks where
  wellFormed := fun mark member => (phrase.plain mark member).wellFormed
  sameLine := fun mark member => (phrase.plain mark member).sameLine
  joined := phrase.joined
  balanced := phrase.balanced

/-- A word, an arrow and a phrase are a line. -/
theorem Line.assign
    {name : String}
    {marks : List Mark}
    (isWord : IsWord name)
    (phrase : Phrase marks) :
    Line (.word name :: .space :: .arrow :: .space :: marks) := by
  have target := (Phrase.word isWord).continued Phrase.blank rfl
  have value := phrase.afterSpace
  have arrow : Balanced [.arrow] := by
    apply Balanced.single
    intro token found
    cases found
    nofun
  constructor
  · rw [List.forall_mem_cons, List.forall_mem_cons, List.forall_mem_cons]
    have listed : ("<-".toList, TokenKind.assignment) ∈ Scan.symbols := by
      decide
    exact ⟨isWord, trivial, listed, value.line.wellFormed⟩
  · rw [List.forall_mem_cons, List.forall_mem_cons, List.forall_mem_cons]
    exact ⟨nofun, nofun, nofun, value.line.sameLine⟩
  · rw [List.isChain_cons_cons, List.isChain_cons_cons, List.isChain_cons_cons]
    exact ⟨.inr rfl, .inl rfl, .inr rfl, value.joined⟩
  · exact target.balanced.append (arrow.append value.balanced)

namespace Node

variable
  {assigned : List String}
  {node : Node}

/-- The line of an instruction is a phrase or an assignment of one. -/
theorem WritableLine.phrase_or_assign
    (writable : node.WritableLine assigned) :
    node.target? = none ∧ Phrase node.line ∨
      ∃ name marks,
        node.target? = some name ∧
          IsName name ∧
            Phrase marks ∧
              node.line =
                .word name :: .space :: .arrow :: .space :: marks := by
  cases writable with
  | @spawn x y location =>
      have inner := (Phrase.number x).continued (Phrase.number y).comma rfl
      exact .inl ⟨rfl, inner.wordEnclose (isWord_keyword (by decide))⟩
  | setColor plain =>
      exact .inl
        ⟨rfl, (Phrase.text plain).wordEnclose (isWord_keyword (by decide))⟩
  | setSize =>
      exact .inl
        ⟨rfl, (Phrase.number _).wordEnclose (isWord_keyword (by decide))⟩
  | fill =>
      exact .inl ⟨rfl, Phrase.nil.wordEnclose (isWord_keyword (by decide))⟩
  | draw each =>
      have inner :=
        phrase_separated fun argument member => (each argument member).phrase _
      exact .inl ⟨rfl, inner.wordEnclose (isWord_command _)⟩
  | assign isName inner =>
      exact .inr ⟨_, _, rfl, isName, inner.phrase 1, rfl⟩
  | label isName _ =>
      exact .inl ⟨rfl, Phrase.word isName.toIsWord⟩
  | goTo isName _ inner =>
      have condition := (inner.phrase 1).enclose.afterSpace
      have target := (Phrase.word isName.toIsWord).surround (.inr ⟨rfl, rfl⟩)
      have after := (target.continued condition rfl).afterSpace
      exact .inl
        ⟨rfl, (Phrase.word (isWord_keyword (by decide))).continued after rfl⟩
  | call each =>
      have inner :=
        phrase_separated fun argument member => (each argument member).phrase _
      exact .inl ⟨rfl, inner.wordEnclose (isWord_function _)⟩

/-- A printed instruction is a line. -/
theorem WritableLine.isLine
    (writable : node.WritableLine assigned) :
    Line node.line := by
  rcases writable.phrase_or_assign with
    ⟨_, phrase⟩ | ⟨name, marks, _, isName, phrase, shape⟩
  · exact phrase.line
  · rw [shape]
    exact .assign isName.toIsWord phrase

/-- Every line starts with a word. -/
theorem WritableLine.startsWithWord
    (writable : node.WritableLine assigned) :
    ∃ name others, node.line = .word name :: others := by
  cases writable <;> exact ⟨_, _, rfl⟩

end Node

/-! ## Programs -/

namespace Program

variable
  {assigned : List String}
  {program : Program}

/--
A program is printed instruction by instruction, with a line break after each.
-/
theorem marks_cons
    (node : Node)
    (program : Program) :
    marks (node :: program) = node.line ++ .lineBreak :: marks program := by
  rw [marks, List.flatMap_cons, List.append_assoc]
  rfl

/-- A printed program starts with a word. -/
theorem startsWithWord
    (writable : ∀ node ∈ program, node.WritableLine assigned) :
    ∀ mark ∈ program.marks.head?, ∃ name, mark = .word name := by
  cases program with
  | nil =>
      nofun
  | cons node program =>
      obtain ⟨name, others, starts⟩ :=
        (writable node List.mem_cons_self).startsWithWord
      rw [marks_cons, starts]
      intro mark isHead
      cases isHead
      exact ⟨name, rfl⟩

/-- The marks of a printed program are well formed. -/
theorem wellFormed_marks
    (writable : ∀ node ∈ program, node.WritableLine assigned) :
    ∀ mark ∈ program.marks, mark.WellFormed := by
  induction program with
  | nil =>
      nofun
  | cons node program inductionHypothesis =>
      obtain ⟨first, others⟩ := List.forall_mem_cons.mp writable
      rw [marks_cons, List.forall_mem_append, List.forall_mem_cons]
      exact ⟨first.isLine.wellFormed, trivial, inductionHypothesis others⟩

/-- The marks of a printed program can stand side by side. -/
theorem joined_marks
    (writable : ∀ node ∈ program, node.WritableLine assigned) :
    program.marks.IsChain Mark.Joins := by
  induction program with
  | nil =>
      exact .nil
  | cons node program inductionHypothesis =>
      obtain ⟨first, others⟩ := List.forall_mem_cons.mp writable
      rw [marks_cons, List.isChain_append, List.isChain_cons]
      refine ⟨first.isLine.joined, ⟨?_, inductionHypothesis others⟩, ?_⟩
      · intro next isNext
        obtain ⟨name, rfl⟩ := startsWithWord others next isNext
        exact .inl rfl
      · intro last _ next isNext
        cases isNext
        exact .inr rfl

/-- A printed program closes what it opens. -/
theorem balanced_marks
    (writable : ∀ node ∈ program, node.WritableLine assigned) :
    Balanced program.marks := by
  induction program with
  | nil =>
      exact fun _ _ => rfl
  | cons node program inductionHypothesis =>
      obtain ⟨first, others⟩ := List.forall_mem_cons.mp writable
      have lineBreak : Balanced [.lineBreak] := .single nofun
      rw [marks_cons]
      exact first.isLine.balanced.append
        (lineBreak.append (inductionHypothesis others))

/-- The text of a program is scanned to the tokens of its marks. -/
theorem scan_print
    (writable : program.Writable) :
    scan program.print = .ok (place .start program.marks) := by
  rw [scan, print, String.toList_ofList]
  apply Scan.tokens_spell (wellFormed_marks writable) (joined_marks writable)
  · intro mark isHead
    obtain ⟨name, rfl⟩ := startsWithWord writable mark isHead
    trivial
  · exact balanced_marks writable .start .empty
  · rfl

end Program

end PixelBrush

import PixelBrush.Program.Cursor
import PixelBrush.Proofs.Evaluation
import PixelBrush.Proofs.Grammar

namespace PixelBrush

/-!
# What cursors read

A cursor reads a list of tokens when they are the next ones, and stands after
the last of them then.  Each way of reading one token is described by an
equivalence between its result and the token that is read.
-/

namespace Cursor

variable
  {cursor middle next : Cursor}
  {token : Token}
  {tokens others : List Token}

/-- The tokens are the next ones, and the second cursor stands after them. -/
structure Reads
    (cursor : Cursor)
    (tokens : List Token)
    (next : Cursor) :
    Prop where
  rest : cursor.rest = tokens ++ next.rest
  last : next.last = tokens.foldl (fun _ token => token.location) cursor.last

namespace Reads

/-- Reading nothing leaves the cursor where it is. -/
theorem nil (cursor : Cursor) :
    cursor.Reads [] cursor :=
  ⟨rfl, rfl⟩

/-- Tokens that are read one list after the other are read together. -/
theorem append
    (first : cursor.Reads tokens middle)
    (second : middle.Reads others next) :
    cursor.Reads (tokens ++ others) next where
  rest := by
    rw [first.rest, second.rest, List.append_assoc]
  last := by
    rw [List.foldl_append, ← first.last, second.last]

/-- A token and the tokens after it are read together. -/
theorem cons
    (first : cursor.Reads [token] middle)
    (second : middle.Reads others next) :
    cursor.Reads (token :: others) next :=
  first.append second

/-- Tokens that are read together can be read one part after the other. -/
theorem split
    (reads : cursor.Reads (tokens ++ others) next) :
    ∃ middle, cursor.Reads tokens middle ∧ middle.Reads others next := by
  refine
    ⟨⟨tokens.foldl (fun _ token => token.location) cursor.last,
        others ++ next.rest⟩,
      ⟨?_, rfl⟩, rfl, ?_⟩
  · rw [reads.rest, List.append_assoc]
  · rw [reads.last, List.foldl_append]

/-- The first of some tokens can be read by itself. -/
theorem uncons
    (reads : cursor.Reads (token :: others) next) :
    ∃ middle, cursor.Reads [token] middle ∧ middle.Reads others next := by
  rw [← List.singleton_append] at reads
  exact reads.split

/-- After reading a token, fewer are left. -/
theorem fewer
    (reads : cursor.Reads (token :: others) next) :
    next.rest.length < cursor.remaining := by
  rw [remaining, reads.rest, List.cons_append, List.length_cons,
    List.length_append]
  exact Nat.lt_succ_of_le (Nat.le_add_left ..)

/-- The place kept as the last one is that of the last token. -/
theorem last_eq
    (reads : cursor.Reads tokens next)
    (nonempty : tokens ≠ []) :
    next.last = (tokens.getLast nonempty).location := by
  rw [reads.last]
  generalize cursor.last = start
  clear reads
  induction tokens generalizing start with
  | nil =>
      exact (nonempty rfl).elim
  | cons first rest inductionHypothesis =>
      cases rest with
      | nil =>
          rfl
      | cons second others =>
          exact inductionHypothesis nofun first.location

/-- What is left after reading was ahead before. -/
theorem rest_sublist
    (reads : cursor.Reads tokens next) :
    next.rest.Sublist cursor.rest := by
  rw [reads.rest]
  exact List.sublist_append_right ..

end Reads

/-- The result is this value, with this cursor after it. -/
def Yields
    {Value : Type}
    {bound : Nat}
    (result : Except ParseError (Reading Value bound))
    (value : Value)
    (next : Cursor) :
    Prop :=
  ∃ fewer, result = .ok ⟨value, next, fewer⟩

/-- A reading goes on where the one before it ended. -/
theorem Yields.bind
    {First Result : Type}
    {bound limit : Nat}
    {first : Except ParseError (Reading First bound)}
    {rest : Reading First bound → Except ParseError (Reading Result limit)}
    {value : First}
    {result : Result}
    (done : Yields first value middle)
    (continues : ∀ fewer, Yields (rest ⟨value, middle, fewer⟩) result next) :
    Yields (first >>= rest) result next := by
  obtain ⟨fewer, same⟩ := done
  rw [same]
  exact continues fewer

/-- The next token is the one that can be read. -/
theorem next?_eq_some_iff
    {reading : Reading Token cursor.remaining} :
    cursor.next? = some reading ↔
      cursor.Reads [reading.value] reading.next := by
  obtain ⟨value, ⟨last, rest⟩, fewer⟩ := reading
  obtain ⟨start, tokens⟩ := cursor
  cases tokens with
  | nil =>
      constructor
      · nofun
      · intro reads
        cases reads.rest
  | cons first tokens =>
      constructor
      · intro found
        cases found
        exact ⟨rfl, rfl⟩
      · rintro ⟨sameRest, sameLast⟩
        obtain ⟨rfl, rfl⟩ := List.cons.inj sameRest
        dsimp only [List.foldl] at sameLast
        subst sameLast
        rfl

/-- There is no next token exactly if none is left. -/
theorem next?_eq_none_iff :
    cursor.next? = none ↔ cursor.rest = [] := by
  obtain ⟨last, rest⟩ := cursor
  cases rest with
  | nil =>
      exact iff_of_true rfl rfl
  | cons =>
      exact iff_of_false nofun nofun

/-- An optional token is read exactly if it is next and accepted. -/
theorem token?_eq_some_iff
    {accepts : Token → Bool}
    {reading : Reading Token cursor.remaining} :
    cursor.token? accepts = some reading ↔
      cursor.Reads [reading.value] reading.next ∧
        accepts reading.value = true := by
  unfold token?
  rw [Option.filter_eq_some_iff, next?_eq_some_iff]

/-- A required token is read exactly if it is next and accepted. -/
theorem token_eq_ok_iff
    {accepts : Token → Bool}
    {expectation : Expectation}
    {reading : Reading Token cursor.remaining} :
    cursor.token accepts expectation = .ok reading ↔
      cursor.Reads [reading.value] reading.next ∧
        accepts reading.value = true := by
  rw [← token?_eq_some_iff]
  unfold Cursor.token
  cases cursor.token? accepts with
  | none =>
      exact iff_of_false nofun nofun
  | some found =>
      simp only [Except.ok.injEq, Option.some.injEq]

/-- A required symbol is read exactly if it is next. -/
theorem symbol_eq_ok_iff
    {text : String}
    {expectation : Expectation}
    {reading : Reading Token cursor.remaining} :
    cursor.symbol text expectation = .ok reading ↔
      cursor.Reads [reading.value] reading.next ∧
        reading.value.isSymbol text = true :=
  token_eq_ok_iff

/-- A token of a required kind is read exactly if it is next. -/
theorem kind_eq_ok_iff
    {kind : TokenKind}
    {expectation : Expectation}
    {reading : Reading Token cursor.remaining} :
    cursor.kind kind expectation = .ok reading ↔
      cursor.Reads [reading.value] reading.next ∧
        reading.value.kind = kind := by
  unfold Cursor.kind
  rw [token_eq_ok_iff, decide_eq_true_iff]

/-- An integer is read exactly if the next token is a literal of its value. -/
theorem integer_eq_ok_iff
    {use : LiteralUse}
    {reading : Reading Number cursor.remaining} :
    cursor.integer use = .ok reading ↔
      ∃ token,
        cursor.Reads [token] reading.next ∧
          Grammar.IsInteger reading.value token := by
  unfold Cursor.integer
  constructor
  · intro done
    obtain ⟨⟨token, next, fewer⟩, isNumber, rest⟩ := bind_eq_ok done
    obtain ⟨reads, kind⟩ := kind_eq_ok_iff.mp isNumber
    dsimp only at rest
    split at rest
    · rename_i value found
      cases rest
      exact ⟨token, reads, kind, found⟩
    · cases rest
  · rintro ⟨token, reads, kind, found⟩
    have isNumber :
        cursor.kind .number (.integer use) =
          .ok ⟨token, reading.next, reading.fewer⟩ :=
      kind_eq_ok_iff.mpr ⟨reads, kind⟩
    rw [isNumber]
    simp only [bind, Except.bind, found]
    rfl

end Cursor

end PixelBrush

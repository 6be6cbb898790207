namespace PixelBrush

/-!
# Tables

A table gives entries to names.  A name has at most one entry; setting it again
replaces the entry in place, and a new name is added at the end.
-/

/-- Named entries, each name once. -/
structure Table (Entry : Type) where
  entries : List (String × Entry)
  deriving Repr, DecidableEq

namespace Table

variable {Entry : Type}

/-- The table without entries. -/
def empty : Table Entry :=
  ⟨[]⟩

/-- The entry of a name. -/
def get? (table : Table Entry) (name : String) : Option Entry :=
  table.entries.lookup name

/-- Replaces the entry of a name, or adds it at the end. -/
def setIn
    (name : String)
    (entry : Entry) :
    List (String × Entry) → List (String × Entry)
  | [] => [(name, entry)]
  | (other, old) :: rest =>
      if name == other then
        (name, entry) :: rest
      else
        (other, old) :: setIn name entry rest

/-- The table after a name was given an entry. -/
def set (table : Table Entry) (name : String) (entry : Entry) : Table Entry :=
  ⟨setIn name entry table.entries⟩

/-- The table without the entry of a name. -/
def erase (table : Table Entry) (name : String) : Table Entry :=
  ⟨table.entries.filter fun entry => !(name == entry.1)⟩

/-- A name has the entry it was given last, and other names keep theirs. -/
theorem get?_set
    (table : Table Entry)
    (name other : String)
    (entry : Entry) :
    (table.set name entry).get? other =
      if other == name then some entry else table.get? other := by
  unfold get? set
  simp only
  generalize table.entries = entries
  induction entries with
  | nil =>
      simp only [setIn, List.lookup_cons, List.lookup_nil]
      cases other == name <;> rfl
  | cons first rest inductionHypothesis =>
      obtain ⟨key, old⟩ := first
      unfold setIn
      by_cases same : name == key
      · rw [eq_of_beq same]
        simp only [beq_self_eq_true, ↓reduceIte, List.lookup_cons]
        split <;> simp_all
      · simp only [same, List.lookup_cons, Bool.false_eq_true, ↓reduceIte]
        split
        · rename_i found
          rw [eq_of_beq found]
          split
          · rename_i equal
            exact absurd
              (by rw [eq_of_beq equal]; exact beq_self_eq_true name) same
          · rfl
        · exact inductionHypothesis

/-- An erased name has no entry, and other names keep theirs. -/
theorem get?_erase
    (table : Table Entry)
    (name other : String) :
    (table.erase name).get? other =
      if other == name then none else table.get? other := by
  unfold get? erase
  simp only
  generalize table.entries = entries
  induction entries with
  | nil =>
      simp
  | cons first rest inductionHypothesis =>
      obtain ⟨key, old⟩ := first
      by_cases same : name == key
      · rw [← eq_of_beq same]
        simp only [beq_self_eq_true, Bool.not_true, Bool.false_eq_true,
          not_false_eq_true, List.filter_cons_of_neg, List.lookup_cons,
          inductionHypothesis]
        cases other == name <;> rfl
      · simp only [same, Bool.not_false, List.filter_cons_of_pos,
          List.lookup_cons, inductionHypothesis]
        split
        · rename_i found
          rw [eq_of_beq found]
          split
          · rename_i equal
            exact absurd
              (by rw [eq_of_beq equal]; exact beq_self_eq_true name) same
          · rfl
        · rfl

end Table

end PixelBrush

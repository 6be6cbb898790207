import PixelBrush.Viewer.CanvasPane
import PixelBrush.Viewer.SourcePane

namespace PixelBrush

/-!
# The focus stays in view

The source pane shows a window of the lines of a text, and the canvas pane a
window of the rows and of the columns of a canvas.  Both windows are put so that
the item in focus comes to a chosen row, and are then moved back from the end of
what they show.  That leaves the focus in view, however the pane was scrolled
and whatever size it had before.
-/

/--
A window of visible items, of so many in total, shows the one in focus.  It is
filled where there are more items than fit, and shows all of them otherwise.
-/
structure InView (start visible total focus : Nat) : Prop where
  notBefore : start ≤ focus
  notBeyond : focus < start + visible
  filled : visible < total → start + visible ≤ total
  whole : total ≤ visible → start = 0

/-- Any row of the window may be chosen for the focus. -/
theorem inView_clampScroll
    {visible total focus row : Nat}
    (inside : focus < total)
    (chosen : row < visible) :
    InView (clampScroll (focus - row) total visible) visible total focus := by
  unfold clampScroll
  by_cases overflows : visible < total
  · rw [if_pos overflows]
    have atEnd :
        total - visible ≤ focus - row ∨ focus - row ≤ total - visible :=
      Nat.le_total ..
    rcases atEnd with late | early
    · rw [Nat.min_eq_right late]
      exact ⟨by omega, by omega, fun _ => by omega, fun fits => by omega⟩
    · rw [Nat.min_eq_left early]
      exact ⟨by omega, by omega, fun _ => by omega, fun fits => by omega⟩
  · rw [if_neg overflows]
    exact ⟨Nat.zero_le focus, by omega, fun more => absurd more overflows,
      fun _ => rfl⟩

/-- Some line of a pane is always visible. -/
theorem visibleLines_pos (height : Nat) :
    0 < visibleLines height :=
  Nat.lt_of_lt_of_le Nat.one_pos (Nat.le_max_right ..)

/-- The current line is in view, whatever row it was kept on before. -/
theorem SourceScroll.inView_follow
    (scroll : SourceScroll)
    {visible current total : Nat}
    (someVisible : 0 < visible)
    (positive : 0 < current)
    (within : current ≤ total) :
    InView (scroll.follow visible current total).offset visible total
      (current - 1) := by
  unfold follow
  rw [if_pos ⟨positive, within⟩]
  have chosen : min (scroll.row.getD (visible / 2)) (visible - 1) < visible :=
    Nat.lt_of_le_of_lt (Nat.min_le_right ..) (Nat.sub_one_lt_of_lt someVisible)
  exact inView_clampScroll (by omega) chosen

/-- The window of the canvas is the one that has its focus on the middle row. -/
theorem CanvasPane.windowStart_eq_clampScroll
    {focus visible size : Nat}
    (inside : focus < size) :
    windowStart focus visible size =
      clampScroll (focus - visible / 2) size visible := by
  unfold windowStart clampScroll
  rw [Int.toNat_natCast, Nat.min_eq_left (Nat.le_sub_one_of_lt inside)]
  by_cases overflows : visible < size
  · rw [if_pos overflows, if_neg (Nat.not_le_of_lt overflows)]
  · rw [if_neg overflows, if_pos (Nat.le_of_not_lt overflows)]

/--
After the source pane is drawn, the current line is in view for every height of
the pane and however it was scrolled before.  The window of a canvas shows every
row or column that is in focus.  Both windows are filled where there is more to
show than fits, and start at the beginning otherwise.
-/
theorem focus_in_view :
    (∀ (width height current : Nat) (source : String) (failed : Option Nat)
        (scroll : SourceScroll) (focused : Bool),
      1 ≤ current →
      current ≤ (textLines source).length →
      InView
        (SourcePane.draw width height source current failed scroll
          focused).2.offset
        (max (height - 2) 1) (textLines source).length (current - 1)) ∧
      ∀ focus visible size : Nat,
        1 ≤ visible →
        focus < size →
        InView (CanvasPane.windowStart focus visible size) visible
          size focus := by
  constructor
  · intro width height current source failed scroll focused positive within
    exact scroll.inView_follow (visibleLines_pos height) positive within
  · intro focus visible size someVisible inside
    rw [CanvasPane.windowStart_eq_clampScroll inside]
    exact inView_clampScroll inside (Nat.div_lt_self someVisible (by decide))

/--
The last of five lines in a pane with three rows that was scrolled past the end,
and the last column of a canvas that is larger than its pane.
-/
theorem focus_in_view_last_line :
    let source := "Spawn(0, 0)\nColor(\"Red\")\r\n\nSize(3)\nFill()"
    let scroll : SourceScroll := ⟨7, some 12⟩
    (textLines source).length = 5 ∧
      InView (SourcePane.draw 40 5 source 5 none scroll true).2.offset 3 5 4 ∧
      InView (CanvasPane.windowStart 99 10 100) 10 100 99 := by
  intro source scroll
  have length : (textLines source).length = 5 := by
    decide +kernel
  obtain ⟨pane, canvas⟩ := focus_in_view
  have shown :=
    pane 40 5 5 source none scroll true (by decide) (Nat.le_of_eq length.symm)
  rw [length] at shown
  exact ⟨length, shown, canvas 99 10 100 (by decide) (by decide)⟩

end PixelBrush

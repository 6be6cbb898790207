import PixelBrush.Viewer.Picture

namespace PixelBrush

/-!
# The status bar

The left half has the step counter and a message, the right half the keys and a
badge for where the viewer stands.
-/

/-- What the status bar tells. -/
structure Status where
  message : String
  current : Nat
  total : Nat
  failed : Bool
  playing : Bool
  truncated : Bool
  deriving Repr, DecidableEq

namespace StatusBar

/-- Text on the background of the bar. -/
def onBar (ink : Ink) : Style :=
  Style.ofInks ink Theme.currentLine

/-- A dark bold text on a color. -/
def plate (ink : Ink) : Style :=
  (Style.ofInks .black ink).inBold

/-- The step counter; a plus says that further steps were not recorded. -/
def counterText (status : Status) : String :=
  if status.truncated then
    s!" Step {status.current + 1}/{status.total}+ "
  else
    s!" Step {status.current + 1}/{max status.total 1} "

/-- The left half. -/
def left (status : Status) : List Span :=
  [⟨counterText status,
      plate (if status.failed then Theme.error else Theme.primary)⟩,
    ⟨" | ", onBar Theme.comment⟩,
    ⟨s!" {status.message} ", onBar Theme.text⟩]

/-- A bar between two keys. -/
def separator : Span :=
  ⟨"│", onBar Theme.comment⟩

/-- A key and what it does. -/
def hint (key purpose : String) : List Span :=
  [⟨key, Style.ofInks .black Theme.comment⟩, ⟨purpose, onBar Theme.text⟩]

/-- The space between two hints. -/
def divider : List Span :=
  [separator, ⟨" ", onBar Theme.text⟩]

/-- The badge for where the viewer stands. -/
def badge? (status : Status) : Option Span :=
  if status.playing then
    some ⟨" ▶ PLAYING ", plate Theme.secondary⟩
  else if status.total ≤ status.current + 1 then
    if status.failed then
      some ⟨" FAILED ", plate Theme.error⟩
    else
      some ⟨" END ", plate Theme.success⟩
  else if status.current = 0 then
    some ⟨" START ", plate Theme.success⟩
  else
    none

/-- The right half. -/
def right (status : Status) : List Span :=
  hint " ←/→ " " step " ++ divider ++
    hint " ⎵ " " play " ++ divider ++
    hint " ↵ / ⌫ " " end/start " ++ divider ++
    hint "q" " quit " ++
    match badge? status with
    | some badge => [separator, badge]
    | none => []

/-- The bar; only its first row has text. -/
def draw (width height : Nat) (status : Status) : Picture :=
  let base := Style.ofBackground Theme.currentLine
  let middle := edgeAt width 50
  Picture.fit width height base
    [Row.ofSpans middle base (left status) ++
      Row.ofSpansRight (width - middle) base (right status)]

end StatusBar

end PixelBrush

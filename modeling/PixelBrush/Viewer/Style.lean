import PixelBrush.Palette

namespace PixelBrush

/-!
# Styles

A style names the colors of a character cell and whether it is bold; what it
does not name stays as it was.
-/

/-- The colors of a terminal. -/
inductive Ink where
  | rgb (red green blue : Nat)
  | black
  | white
  deriving Repr, DecidableEq

/-- Colors and weight of text, as far as they are given. -/
structure Style where
  foreground : Option Ink
  background : Option Ink
  bold : Bool
  deriving Repr, DecidableEq

namespace Style

/-- Nothing is given. -/
def plain : Style :=
  ⟨none, none, false⟩

/-- Text in a color. -/
def ofForeground (ink : Ink) : Style :=
  ⟨some ink, none, false⟩

/-- Text on a color. -/
def ofBackground (ink : Ink) : Style :=
  ⟨none, some ink, false⟩

/-- Text in a color on a color. -/
def ofInks (foreground background : Ink) : Style :=
  ⟨some foreground, some background, false⟩

/-- The same colors in bold. -/
def inBold (style : Style) : Style :=
  { style with bold := true }

/-- What a second style names is laid over the first. -/
def patch (base style : Style) : Style where
  foreground := style.foreground <|> base.foreground
  background := style.background <|> base.background
  bold := base.bold || style.bold

end Style

namespace Theme

/-- Ordinary text. -/
def text : Ink :=
  .rgb 205 214 244

/-- Brackets and the step counter. -/
def primary : Ink :=
  .rgb 137 180 250

/-- The number of the current line. -/
def secondary : Ink :=
  .rgb 250 179 135

/-- Faint text. -/
def comment : Ink :=
  .rgb 108 112 134

/-- Success. -/
def success : Ink :=
  .rgb 166 227 161

/-- Warnings. -/
def warning : Ink :=
  .rgb 249 226 175

/-- Errors. -/
def error : Ink :=
  .rgb 243 139 168

/-- Keywords. -/
def keyword : Ink :=
  .rgb 137 180 250

/-- String literals. -/
def string : Ink :=
  .rgb 250 179 135

/-- Numbers. -/
def number : Ink :=
  .rgb 250 179 135

/-- Query functions and drawing commands. -/
def function : Ink :=
  .rgb 249 226 175

/-- Kinds of values. -/
def kind : Ink :=
  .rgb 148 226 213

/-- The background of the current line and of the status bar. -/
def currentLine : Ink :=
  .rgb 50 50 70

/-- The border of a pane; the focused one is bright and bold. -/
def border (focused : Bool) : Style :=
  if focused then
    (Style.ofForeground (.rgb 249 226 175)).inBold
  else
    Style.ofForeground (.rgb 108 112 134)

/-- The color that shows a cell of the canvas; transparent cells have none. -/
def cell? : Color → Option Ink
  | .red => some (.rgb 220 50 47)
  | .blue => some (.rgb 38 110 210)
  | .green => some (.rgb 64 160 43)
  | .yellow => some (.rgb 240 200 40)
  | .orange => some (.rgb 245 130 30)
  | .purple => some (.rgb 136 57 239)
  | .black => some (.rgb 0 0 0)
  | .white => some (.rgb 255 255 255)
  | .transparent => none

end Theme

end PixelBrush

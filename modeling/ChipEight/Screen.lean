import ChipEight.Display
import ChipEight.Library
import ChipEight.Parameters

/-!
The screen shows a display on a surface: every cell is a square of as many pixels as the scale says, in
the foreground colour if the cell is lit and in the background colour if not.
-/

namespace ChipEight

structure Screen where
  surface : Surface
  scale : Int
  background : Colour
  foreground : Colour
  deriving DecidableEq, Repr

namespace Screen

def onSurface (surface : Surface) (scale : Int) (background foreground : Colour) : Screen where
  surface := surface.fill background
  scale := scale
  background := background
  foreground := foreground

def windowSize (scale : Int) : Int × Int :=
  (Parameters.screenWidth * scale, Parameters.screenHeight * scale)

def onWindow (scale : Int) (size : Nat × Nat) : Screen :=
  onSurface ⟨size.1, size.2, .darkBlue, []⟩ scale .darkBlue .lightBlue

def inWindow? (library : Library) (scale : Int) : Except ArgumentError Screen :=
  (library.window (windowSize scale)).map (onWindow scale)

theorem inWindow?_eq_ok_iff {library : Library} {scale : Int} {s : Screen} :
    inWindow? library scale = .ok s ↔
      ∃ size, library.window (windowSize scale) = .ok size ∧ s = onWindow scale size := by
  rw [inWindow?]
  cases library.window (windowSize scale) <;> simp [Except.map, eq_comm]

def square (s : Screen) (x y : Nat) : Rectangle :=
  ⟨x * s.scale, y * s.scale, s.scale, s.scale⟩

def litSquares (s : Screen) (d : Display) : List Rectangle :=
  d.rows.zipIdx.flatMap fun (row, y) =>
    row.zipIdx.filterMap fun (lit, x) => if lit then some (s.square x y) else none

def repaint (s : Screen) (squares : List Rectangle) : Screen :=
  { s with
    surface := squares.foldl (fun surface r => surface.paint r s.foreground)
      (s.surface.fill s.background) }

def render (s : Screen) (d : Display) : Screen × Display :=
  (s.repaint (s.litSquares d), d.markClean)

/-- The screen painted anew by the library, which may paint other rectangles than it is given, or none. -/
def render? (s : Screen) (d : Display) (library : Library := .usual) : Except ArgumentError (Screen × Display) :=
  match (s.litSquares d).mapM library.rectangle with
  | .error e => .error e
  | .ok squares => .ok (s.repaint squares, d.markClean)

def isLit (s : Screen) (px py : Int) : Bool :=
  s.surface.pixel px py == s.foreground

inductive Mark where
  | foreground
  | background
  | neither
  deriving DecidableEq, Repr

/-- The mark of a colour; the foreground is compared first. -/
def markOf (s : Screen) (c : Colour) : Mark :=
  if c = s.foreground then .foreground else if c = s.background then .background else .neither

def marks (s : Screen) : List (List Mark) :=
  s.surface.rows.map fun row => row.map s.markOf

/-- What the window shows of the display: the top left pixel of every cell. -/
def cells (s : Screen) : List (List Bool) :=
  (List.range Parameters.screenHeight).map fun (y : Nat) =>
    (List.range Parameters.screenWidth).map fun (x : Nat) => s.isLit (x * s.scale) (y * s.scale)

end Screen

end ChipEight

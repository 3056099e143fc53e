import ChipEight.Fault
import ChipEight.Word

/-!
A surface to paint on. It is filled with a colour, and rectangles are painted over it; a rectangle counts
only as far as it lies on the surface. The colour of a pixel is that of the last rectangle that covers it.
A surface keeps no alpha: whatever is painted on it lets nothing through. The numbers of a rectangle and
of the size of a surface have to fit into 64 bits, and only the lowest 32 of them count.
-/

namespace ChipEight

structure Colour where
  red : Nat
  green : Nat
  blue : Nat
  alpha : Nat
  deriving DecidableEq, Repr

namespace Colour

def solid (red green blue : Nat) : Colour :=
  ⟨red, green, blue, 255⟩

def kept (c : Colour) : Colour :=
  solid c.red c.green c.blue

def darkBlue : Colour := solid 80 69 155

def lightBlue : Colour := solid 136 126 203

/-- The colour that the 32 bits of one number hold, the red highest and the alpha lowest. -/
def packed (v : Nat) : Colour :=
  ⟨v / 16777216 % 256, v / 65536 % 256, v / 256 % 256, v % 256⟩

def allBelow (limit : Int) (numbers : List Int) : Bool :=
  numbers.all fun v => 0 ≤ v && v < limit

/-- The colour of one number that holds it packed, or of three or four bytes, the fourth of which is the
alpha. -/
def ofNumbers? (numbers : List Int) : Except ArgumentError Colour :=
  match numbers.map Int.toNat with
  | [] => .error .noColour
  | [v] => if allBelow 4294967296 numbers then .ok (packed v) else .error .notAColour
  | [red, green, blue] =>
    if allBelow 256 numbers then .ok (solid red green blue) else .error .notAColour
  | [red, green, blue, alpha] =>
    if allBelow 256 numbers then .ok ⟨red, green, blue, alpha⟩ else .error .notAColour
  | [_, _] => .error .notAColour
  | _ => .error (.colourTooLong numbers.length)

end Colour

structure Rectangle where
  x : Int
  y : Int
  width : Int
  height : Int
  deriving DecidableEq, Repr

namespace Rectangle

/-- Whether the pixel lies in the rectangle; one without an extent covers nothing. -/
def covers (r : Rectangle) (px py : Int) : Bool :=
  r.x ≤ px && px < r.x + r.width && r.y ≤ py && py < r.y + r.height

def taken? (r : Rectangle) : Except ArgumentError Rectangle :=
  if Fits64 r.x ∧ Fits64 r.y ∧ Fits64 r.width ∧ Fits64 r.height then
    .ok ⟨lowSigned r.x, lowSigned r.y, lowSigned r.width, lowSigned r.height⟩
  else .error .notARectangle

end Rectangle

structure Surface where
  width : Nat
  height : Nat
  base : Colour
  /-- The rectangles painted since the surface was filled, the last one first. -/
  painted : List (Rectangle × Colour)
  deriving DecidableEq, Repr

namespace Surface

/-- The most bytes that a surface takes, of which there are four to a pixel. Even a surface without lines
has to keep to it with the length of a line. -/
def bytesLimit : Nat := 2147483647

def ofSize? (width height : Int) : Except ArgumentError Surface :=
  if ¬ (Fits64 width ∧ Fits64 height) then .error .surfaceSize
  else
    let w := lowSigned width
    let h := lowSigned height
    if w < 0 ∨ h < 0 then .error .negativeSurface
    else if bytesLimit < 4 * w * max 1 h then .error .surfaceTooLarge
    else .ok ⟨w.toNat, h.toNat, .solid 0 0 0, []⟩

def fill (s : Surface) (c : Colour) : Surface :=
  { s with base := c.kept, painted := [] }

def paint (s : Surface) (r : Rectangle) (c : Colour) : Surface :=
  { s with painted := (r, c.kept) :: s.painted }

def pixel (s : Surface) (px py : Int) : Colour :=
  match s.painted.find? fun (r, _) => r.covers px py with
  | some (_, c) => c
  | none => s.base

theorem pixel_fill (s : Surface) (c : Colour) (px py : Int) : (s.fill c).pixel px py = c.kept := rfl

theorem pixel_paint (s : Surface) (r : Rectangle) (c : Colour) (px py : Int) :
    (s.paint r c).pixel px py = if r.covers px py then c.kept else s.pixel px py := by
  by_cases h : r.covers px py <;> simp [pixel, paint, h]

def rows (s : Surface) : List (List Colour) :=
  (List.range s.height).map fun (y : Nat) => (List.range s.width).map fun (x : Nat) => s.pixel x y

end Surface

end ChipEight

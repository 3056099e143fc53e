import ChipEight.Room

/-!
The display: a grid of cells that are lit or dark. Coordinates wrap around at the edges, so any integers
name a cell. A cell can be toggled, and the whole grid cleared; either leaves the display dirty until it
is marked clean. Drawing toggles a list of points and tells whether a lit cell was hit. A display of which
a side is not positive has no cells, and refuses to read or toggle one.
-/

namespace ChipEight

structure Display where
  width : Int
  height : Int
  cells : Array Bool
  dirty : Bool
  deriving DecidableEq, Repr

namespace Display

def dark (width height : Int) : Array Bool :=
  Array.replicate (height.toNat * width.toNat) false

def blank (width height : Int) : Display where
  width := width
  height := height
  cells := dark width height
  dirty := false

/-- Refuses a display that there is no room for. The cells of a column are counted first, and a side that is
not positive leaves none. -/
def ofSize? (width height : Int) (room : Room := .usual) : Except ArgumentError Display :=
  match roomError? room.entries height with
  | some e => .error e
  | none =>
    if ¬ Fits64 width then .error .countTooWide
    else if room.entries < height.toNat * width.toNat then .error .outOfRoom
    else .ok (blank width height)

theorem ofSize?_eq_ok_iff {width height : Int} {room : Room} {d : Display} :
    ofSize? width height room = .ok d ↔
      (Fits64 height ∧ height ≤ room.entries) ∧ Fits64 width ∧ height.toNat * width.toNat ≤ room.entries ∧
        d = blank width height := by
  rw [← roomError?_eq_none_iff, ofSize?]
  cases roomError? room.entries height with
  | some e => exact iff_of_false nofun fun h => nomatch h.1
  | none =>
    by_cases fits : Fits64 width
    · by_cases crowded : room.entries < height.toNat * width.toNat
      · simp [fits, crowded, Nat.not_le.mpr crowded]
      · simp [fits, crowded, Nat.not_lt.mp crowded, eq_comm]
    · simp [fits]

def offset (d : Display) (x y : Int) : Nat :=
  (y % d.height).toNat * d.width.toNat + (x % d.width).toNat

def read (d : Display) (x y : Int) : Bool :=
  d.cells.getD (d.offset x y) false

def toggle (d : Display) (x y : Int) : Display :=
  { d with cells := d.cells.modify (d.offset x y) not, dirty := true }

theorem size_toggle (d : Display) (x y : Int) : (d.toggle x y).cells.size = d.cells.size := by
  simp [toggle]

/-- Why a cell cannot be read or toggled. Where no side is zero but one is negative, the place of the cell
is still computed, with remainders of the sign of the divisor, before the cell turns out to be missing. -/
def accessError? (d : Display) (x y : Int) : Option ArgumentError :=
  if d.width = 0 ∨ d.height = 0 then some .noCells
  else if 0 < d.width ∧ 0 < d.height then none
  else if Fits64 (y.fmod d.height * d.width + x.fmod d.width) then some .noSuchCell
  else some .placeTooWide

def read? (d : Display) (x y : Int) : Except ArgumentError Bool :=
  match d.accessError? x y with
  | some e => .error e
  | none => .ok (d.read x y)

def toggle? (d : Display) (x y : Int) : Except ArgumentError (Bool × Display) :=
  match d.accessError? x y with
  | some e => .error e
  | none => .ok (d.read x y, d.toggle x y)

def clear (d : Display) : Display :=
  { d with cells := dark d.width d.height, dirty := true }

def markClean (d : Display) : Display :=
  { d with dirty := false }

def markDirty (d : Display) : Display :=
  { d with dirty := true }

theorem read_markDirty (d : Display) (x y : Int) : d.markDirty.read x y = d.read x y := rfl

/-- Toggles the points one after the other and tells whether any of them was lit when its turn came. -/
def draw (d : Display) (points : List (Int × Int)) : Display × Bool :=
  points.foldl (fun (d, hit) (x, y) =>
    let hit := hit || d.read x y
    (d.toggle x y, hit)) (d, false)

def rows (d : Display) : List (List Bool) :=
  (List.range d.height.toNat).map fun y =>
    (d.cells.extract (y * d.width.toNat) ((y + 1) * d.width.toNat)).toList

def lit (d : Display) : List Nat :=
  (List.range d.cells.size).filter fun k => d.cells.getD k false

def text (d : Display) : String :=
  "\n".intercalate (d.rows.map fun row =>
    String.ofList (row.map fun lit => if lit then '#' else '.'))

inductive Action where
  | toggle (x y : Int)
  | clear
  | markClean
  deriving DecidableEq, Repr

def apply (d : Display) : Action → Display
  | .toggle x y => d.toggle x y
  | .clear => d.clear
  | .markClean => d.markClean

end Display

/-- The points that a sprite covers: each byte is a line of eight cells, its highest bit the leftmost. -/
def spritePoints (x y : Int) (sprite : List UInt8) : List (Int × Int) :=
  sprite.zipIdx.flatMap fun (line, row) =>
    (List.range 8).filterMap fun column =>
      if line.toNat.testBit (7 - column) then some (x + (column : Int), y + (row : Int)) else none

end ChipEight

import ChipEight.Surface

/-!
The library that opens the window, paints on it and plays the tone. It is taken as it comes: the program asks it
for a window and for rectangles, and goes by what it gets.
-/

namespace ChipEight

structure Library where
  /-- The size of the surface of a window, or why there is no window of the size that was asked for. -/
  window : Int × Int → Except ArgumentError (Nat × Nat)
  /-- A rectangle as it is painted, or why it is not. -/
  rectangle : Rectangle → Except ArgumentError Rectangle
  /-- What it says where there is no sound device. -/
  noDevice : String

namespace Library

def windowLimit : Nat := 16384

/-- A window of a size of which only the lowest 32 bits count. -/
def cutWindow (size : Int × Int) : Except ArgumentError (Nat × Nat) :=
  if ¬ (Fits64 size.1 ∧ Fits64 size.2) then .error .windowSize
  else if lowSigned size.1 < 0 ∨ lowSigned size.2 < 0 then .error .negativeWindow
  else if windowLimit < lowSigned size.1 ∨ windowLimit < lowSigned size.2 then .error .windowTooLarge
  else .ok ((lowSigned size.1).toNat, (lowSigned size.2).toNat)

/-- The library that programs usually find. -/
def usual : Library where
  window := cutWindow
  rectangle := Rectangle.taken?
  noDevice := "no device"

end Library

end ChipEight

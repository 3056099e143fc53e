import ChipEight.HexTable
import ChipEight.Parameters
import ChipEight.Text.Numeral
import ChipEight.Word

/-!
The keypad: sixteen keys, each up or down. A key is named by any integer, of which the lowest four bits
count.
-/

namespace ChipEight

open Text

structure Keypad where
  down : HexTable Bool
  deriving DecidableEq, Repr

namespace Keypad

def released : Keypad :=
  ⟨.fill false⟩

def isDown (p : Keypad) (key : Fin 16) : Bool :=
  p.down.entry key

def get (p : Keypad) (key : Int) : Bool :=
  p.isDown (nibble key)

def set (p : Keypad) (key : Int) (down : Bool) : Keypad :=
  ⟨p.down.setEntry (nibble key) down⟩

theorem isDown_set (p : Keypad) (key : Int) (down : Bool) (k : Fin 16) :
    (p.set key down).isDown k = if nibble key = k then down else p.isDown k :=
  p.down.entry_setEntry (nibble key) k down

def press (p : Keypad) (key : Int) : Keypad :=
  p.set key true

def release (p : Keypad) (key : Int) : Keypad :=
  p.set key false

def pressed (p : Keypad) : List (Fin 16) :=
  (List.finRange Parameters.keyCount).filter p.isDown

def untouched (p : Keypad) : Bool :=
  !p.down.toList.any id

def first? (p : Keypad) : Option (Fin 16) :=
  p.pressed.head?

theorem first?_eq_none_iff (p : Keypad) : p.first? = none ↔ ∀ key, p.isDown key = false := by
  simp [first?, pressed]

def text (p : Keypad) : String :=
  if p.pressed.isEmpty then "-" else " ".intercalate (p.pressed.map hexName)

end Keypad

end ChipEight

import ChipEight.Fault
import ChipEight.Word

/-!
Room for sequences. How much of it there is depends on where the program runs. A number of cells has to fit into
64 bits, and there has to be room for them; a negative number asks for none.
-/

namespace ChipEight

/-- The greatest sequences of each kind that there is room for. -/
structure Room where
  /-- The entries of a list. -/
  entries : Nat
  /-- The bytes of a memory. -/
  bytes : Nat
  /-- The samples of a wave. -/
  samples : Nat
  deriving DecidableEq, Repr

namespace Room

def usual : Room :=
  ⟨8589934592, 8589934592, 8589934592⟩

end Room

def roomError? (room : Nat) (count : Int) : Option ArgumentError :=
  if ¬ Fits64 count then some .countTooWide
  else if room < count then some .outOfRoom
  else none

theorem roomError?_eq_none_iff {room : Nat} {count : Int} :
    roomError? room count = none ↔ Fits64 count ∧ count ≤ room := by
  simp only [roomError?]
  split
  next wide => exact iff_of_false nofun fun h => wide h.1
  next fits =>
    split
    next crowded => exact iff_of_false nofun fun h => Int.not_lt.mpr h.2 crowded
    next room => exact iff_of_true rfl ⟨Classical.not_not.mp fits, Int.not_lt.mp room⟩

end ChipEight

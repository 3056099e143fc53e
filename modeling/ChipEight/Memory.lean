import ChipEight.Fault
import ChipEight.Font
import ChipEight.Room

/-!
Memory: bytes under addresses from zero up, with the font at the start. An access outside faults, and so
does a write into the font. Blocks are checked before anything is written, so that a refused block leaves
memory as it was. Neither a write nor a load changes the number of bytes.
-/

namespace ChipEight

structure Memory where
  bytes : Array UInt8
  deriving DecidableEq, Repr

namespace Memory

/-- The font, and zeros behind it up to the given size. The font is always there as a whole. -/
def ofSize (size : Nat) : Memory :=
  ⟨Font.glyphs.toArray ++ Array.replicate (size - Font.size) 0⟩

/-- Refuses a negative size, and one that there is no room for. -/
def ofSize? (size : Int) (room : Room := .usual) : Except ArgumentError Memory :=
  match roomError? room.bytes size with
  | some e => .error e
  | none => if size < 0 then .error .negativeSize else .ok (ofSize size.toNat)

theorem ofSize?_eq_ok_iff {size : Int} {room : Room} {m : Memory} :
    ofSize? size room = .ok m ↔ Fits64 size ∧ size ≤ room.bytes ∧ 0 ≤ size ∧ m = ofSize size.toNat := by
  simp only [ofSize?]
  split
  next e refused =>
    refine iff_of_false nofun fun ⟨fits, room, _⟩ => ?_
    rw [roomError?_eq_none_iff.mpr ⟨fits, room⟩] at refused
    cases refused
  next stored =>
    obtain ⟨fits, room⟩ := roomError?_eq_none_iff.mp stored
    split
    next negative => exact iff_of_false nofun fun ⟨_, _, nonneg, _⟩ => absurd nonneg (Int.not_le.mpr negative)
    next nonneg =>
      constructor
      · intro built
        exact ⟨fits, room, Int.not_lt.mp nonneg, (Except.ok.inj built).symm⟩
      · rintro ⟨-, -, -, rfl⟩
        rfl

def size (m : Memory) : Nat :=
  m.bytes.size

theorem size_ofSize (size : Nat) : (ofSize size).size = max size Font.size := by
  simp [ofSize, Memory.size, Font.length_glyphs]
  omega

/-- The byte at an address, zero where there is none. -/
def byteAt (m : Memory) (a : Int) : UInt8 :=
  if a < 0 then 0 else m.bytes.getD a.toNat 0

def Valid (m : Memory) (a : Int) : Prop :=
  0 ≤ a ∧ a < m.size

instance (m : Memory) (a : Int) : Decidable (m.Valid a) :=
  inferInstanceAs (Decidable (_ ∧ _))

def readFault? (m : Memory) (a : Int) : Option Fault :=
  if m.Valid a then none else some (.memoryAccess a .outOfRange)

def writeFault? (m : Memory) (a : Int) : Option Fault :=
  if ¬ m.Valid a then some (.memoryAccess a .outOfRange)
  else if a < Font.size then some (.memoryAccess a .fontReadOnly)
  else none

def read (m : Memory) (a : Int) : Except Fault UInt8 :=
  match m.readFault? a with
  | some f => .error f
  | none => .ok (m.byteAt a)

def set (m : Memory) (a : Int) (b : UInt8) : Except Fault Memory :=
  match m.writeFault? a with
  | some f => .error f
  | none => .ok ⟨m.bytes.setIfInBounds a.toNat b⟩

/-- The bytes of a block. Its first and its last address are checked, so a block of no byte is read from
behind its last address too. -/
def readBlock (m : Memory) (a length : Int) : Except Fault (List UInt8) :=
  match m.readFault? a with
  | some f => .error f
  | none =>
    match m.readFault? (a + length - 1) with
    | some f => .error f
    | none => .ok (m.bytes.extract a.toNat (a + length).toNat).toList

theorem length_of_readBlock {m : Memory} {a length : Int} {bs : List UInt8} (read : m.readBlock a length = .ok bs) :
    bs.length = length.toNat := by
  simp only [readBlock, readFault?] at read
  by_cases first : m.Valid a
  · by_cases last : m.Valid (a + length - 1)
    · simp only [if_pos first, if_pos last, Except.ok.injEq] at read
      subst read
      have nonneg := first.1
      have inside := last.2
      simp only [size] at inside
      simp only [Array.length_toList, Array.size_extract]
      omega
    · simp [if_pos first, if_neg last] at read
  · simp [if_neg first] at read

/-- The fault of writing a block, which names its first address that cannot be written. -/
def blockFault? (m : Memory) (a : Int) (length : Nat) : Option Fault :=
  (List.range length).findSome? fun (k : Nat) => m.writeFault? (a + k)

def splice (m : Memory) (start : Nat) (bs : List UInt8) : Memory :=
  ⟨m.bytes.extract 0 start ++ bs.toArray ++ m.bytes.extract (start + bs.length) m.bytes.size⟩

theorem size_splice (m : Memory) {start : Nat} {bs : List UInt8}
    (fits : start + bs.length ≤ m.size) : (m.splice start bs).size = m.size := by
  simp only [size] at fits
  simp [splice, size]
  omega

def writeBlock (m : Memory) (a : Int) (bs : List UInt8) : Except Fault Memory :=
  match m.blockFault? a bs.length with
  | some f => .error f
  | none => .ok (m.splice a.toNat bs)

/-- Memory with a ROM in it. The ROM has to lie behind the font and to fit. -/
def load (m : Memory) (rom : List UInt8) (offset : Int) : Except RomTooLarge Memory :=
  if offset < Font.size ∨ offset + rom.length > m.size then
    .error ⟨rom.length, offset, m.size⟩
  else .ok (m.splice offset.toNat rom)

def clear (m : Memory) : Memory :=
  ⟨m.bytes.extract 0 Font.size ++ Array.replicate (m.size - Font.size) 0⟩

theorem size_clear (m : Memory) : m.clear.size = m.size := by
  simp [clear, size]
  omega

end Memory

def bytesOfInts? (values : List Int) : Except ArgumentError (List UInt8) :=
  if values.all fun v => 0 ≤ v && v < 256 then .ok (values.map lowByte) else .error .notAByte

end ChipEight

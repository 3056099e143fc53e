/-!
Bytes, words and nibbles cut out of integers of any size. The low part of an integer is its remainder
on division by a power of two. That remainder is never negative, so a negative integer wraps around
as it does in two's complement. Other numbers have to fit into 64 bits with a sign, or are cut to 32.
-/

namespace ChipEight

def lowByte (v : Int) : UInt8 :=
  UInt8.ofNat (v % 256).toNat

theorem toNat_lowByte (v : Int) : (lowByte v).toNat = (v % 256).toNat := by
  have h : (v % 256).toNat < 256 := by omega
  simp [lowByte, UInt8.toNat_ofNat', Nat.mod_eq_of_lt h]

theorem lowByte_toNat (b : UInt8) : lowByte b.toNat = b := by
  apply UInt8.toNat_inj.mp
  rw [toNat_lowByte]
  have h := b.toNat_lt
  omega

def lowWord (v : Int) : UInt16 :=
  UInt16.ofNat (v % 65536).toNat

theorem toNat_lowWord (v : Int) : (lowWord v).toNat = (v % 65536).toNat := by
  have h : (v % 65536).toNat < 65536 := by omega
  simp [lowWord, UInt16.toNat_ofNat', Nat.mod_eq_of_lt h]

def nibble (v : Int) : Fin 16 :=
  ⟨(v % 16).toNat, by omega⟩

theorem val_nibble (v : Int) : (nibble v).val = (v % 16).toNat := rfl

def lowNibble (b : UInt8) : Fin 16 :=
  nibble b.toNat

/-- The integer fits into 64 bits, of which the highest is a sign. -/
def Fits64 (v : Int) : Prop :=
  -9223372036854775808 ≤ v ∧ v < 9223372036854775808

instance (v : Int) : Decidable (Fits64 v) :=
  inferInstanceAs (Decidable (_ ∧ _))

/-- The lowest 32 bits, of which the highest is a sign. -/
def lowSigned (v : Int) : Int :=
  v.bmod 4294967296

theorem lowSigned_of_small {v : Int} (nonneg : 0 ≤ v) (lt : v < 2147483648) : lowSigned v = v := by
  simp only [lowSigned, Int.bmod]
  omega

end ChipEight

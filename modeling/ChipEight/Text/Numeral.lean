/-!
Hexadecimal and decimal numerals. A padded numeral is filled with zeros up to a number of places in
which the sign counts as one place; a longer numeral is written in full.
-/

namespace ChipEight.Text

def hexDigits (n : Nat) : List Char :=
  Nat.toDigits 16 n

def zeroFill (places : Nat) (digits : List Char) : List Char :=
  List.replicate (places - digits.length) '0' ++ digits

/-- A hexadecimal numeral of at least the given number of places, the sign included. -/
def hex (places : Nat) (v : Int) : String :=
  if v < 0 then String.ofList ('-' :: zeroFill (places - 1) (hexDigits v.natAbs))
  else String.ofList (zeroFill places (hexDigits v.natAbs))

def hexByte (b : UInt8) : String :=
  hex 2 b.toNat

def hexBytes (bs : List UInt8) : String :=
  String.join (bs.map hexByte)

def hexName (d : Fin 16) : String :=
  String.ofList ((hexDigits d.val).map Char.toUpper)

def dec (v : Int) : String :=
  v.repr

def hexValue? (c : Char) : Option Nat :=
  if '0' ≤ c ∧ c ≤ '9' then some (c.toNat - '0'.toNat)
  else if 'a' ≤ c ∧ c ≤ 'f' then some (c.toNat - 'a'.toNat + 10)
  else if 'A' ≤ c ∧ c ≤ 'F' then some (c.toNat - 'A'.toNat + 10)
  else none

end ChipEight.Text

import ChipEight.Text.Blank
import ChipEight.Text.Numeral

/-!
Reading bytes from text: pairs of hexadecimal digits, with blanks of ASCII around the pairs but not inside
one. A refusal names a position, the first at which a digit is missing; a character beyond ASCII is found
before everything else.
-/

namespace ChipEight.Text

def readPairs (position : Nat) : List Char → Except Nat (List UInt8)
  | [] => .ok []
  | c :: rest =>
    if isPlainBlank c then readPairs (position + 1) rest
    else
      match hexValue? c, rest with
      | none, _ => .error position
      | some _, [] => .error (position + 1)
      | some high, c' :: rest' =>
        match hexValue? c' with
        | none => .error (position + 1)
        | some low =>
          (readPairs (position + 2) rest').map (UInt8.ofNat (16 * high + low) :: ·)

/-- The bytes that are written in a text, or the position where it is none. -/
def bytesOfHex (text : String) : Except Nat (List UInt8) :=
  match text.toList.findIdx? (128 ≤ ·.toNat) with
  | some position => .error position
  | none => readPairs 0 text.toList

end ChipEight.Text

/-!
The characters that may surround a numeral: the six blanks of ASCII that layout uses, and beyond ASCII
every space of Unicode 14.
-/

namespace ChipEight.Text

def wideBlanks : List Nat :=
  [0x85, 0xA0, 0x1680, 0x2000, 0x2001, 0x2002, 0x2003, 0x2004, 0x2005, 0x2006, 0x2007, 0x2008,
    0x2009, 0x200A, 0x2028, 0x2029, 0x202F, 0x205F, 0x3000]

def isPlainBlank (c : Char) : Bool :=
  c = ' ' || (0x09 ≤ c.toNat && c.toNat ≤ 0x0D)

def isBlank (c : Char) : Bool :=
  isPlainBlank c || wideBlanks.contains c.toNat

end ChipEight.Text

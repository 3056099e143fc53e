/-!
The operations of the machine as one table: each has a form, which says what operands its opcodes carry,
and a pattern, which is its opcode with every operand bit zero. The form fixes the mask under which an
opcode is compared with the pattern.
-/

namespace ChipEight

/-- The operands an opcode carries, from its second hexadecimal digit on. -/
inductive Form where
  | fixed
  | register
  | registers
  | registerByte
  | sprite
  | address
  deriving DecidableEq, Repr

namespace Form

def mask : Form → Nat
  | fixed => 0xFFFF
  | register => 0xF0FF
  | registers => 0xF00F
  | registerByte | sprite | address => 0xF000

end Form

/-- The operations, and the one that stands for every opcode without a meaning. -/
inductive Op where
  | clearScreen | ret | jump | call
  | skipIfByte | skipUnlessByte | skipIfSame | setByte | addByte
  | copy | or | and | xor | add | sub | shiftRight | subFrom | shiftLeft | skipUnlessSame
  | setIndex | jumpFrom | random | draw | skipIfKey | skipUnlessKey
  | readDelay | waitKey | setDelay | setSound | addIndex | glyph | decimal | store | load
  | unknown
  deriving DecidableEq, Repr

namespace Op

def known : List Op :=
  [clearScreen, ret, jump, call, skipIfByte, skipUnlessByte, skipIfSame, setByte, addByte,
    copy, or, and, xor, add, sub, shiftRight, subFrom, shiftLeft, skipUnlessSame,
    setIndex, jumpFrom, random, draw, skipIfKey, skipUnlessKey,
    readDelay, waitKey, setDelay, setSound, addIndex, glyph, decimal, store, load]

theorem mem_known_iff (op : Op) : op ∈ known ↔ op ≠ unknown := by
  cases op <;> decide

def form : Op → Form
  | clearScreen | ret => .fixed
  | jump | call | setIndex | jumpFrom => .address
  | skipIfByte | skipUnlessByte | setByte | addByte | random => .registerByte
  | skipIfSame | skipUnlessSame | copy | or | and | xor | add | sub | shiftRight | subFrom
  | shiftLeft => .registers
  | draw => .sprite
  | skipIfKey | skipUnlessKey | readDelay | waitKey | setDelay | setSound | addIndex | glyph
  | decimal | store | load => .register
  | unknown => .fixed

/-- The opcode with every operand bit zero; opcodes without a meaning have none. -/
def pattern? : Op → Option Nat
  | clearScreen => some 0x00E0
  | ret => some 0x00EE
  | jump => some 0x1000
  | call => some 0x2000
  | skipIfByte => some 0x3000
  | skipUnlessByte => some 0x4000
  | skipIfSame => some 0x5000
  | setByte => some 0x6000
  | addByte => some 0x7000
  | copy => some 0x8000
  | or => some 0x8001
  | and => some 0x8002
  | xor => some 0x8003
  | add => some 0x8004
  | sub => some 0x8005
  | shiftRight => some 0x8006
  | subFrom => some 0x8007
  | shiftLeft => some 0x800E
  | skipUnlessSame => some 0x9000
  | setIndex => some 0xA000
  | jumpFrom => some 0xB000
  | random => some 0xC000
  | draw => some 0xD000
  | skipIfKey => some 0xE09E
  | skipUnlessKey => some 0xE0A1
  | readDelay => some 0xF007
  | waitKey => some 0xF00A
  | setDelay => some 0xF015
  | setSound => some 0xF018
  | addIndex => some 0xF01E
  | glyph => some 0xF029
  | decimal => some 0xF033
  | store => some 0xF055
  | load => some 0xF065
  | unknown => none

theorem pattern?_eq_none_iff (op : Op) : op.pattern? = none ↔ op = unknown := by
  cases op <;> decide

/-- The number that stands for the operation: its pattern, or minus one. -/
def code (op : Op) : Int :=
  match op.pattern? with
  | some p => p
  | none => -1

def Matches (op : Op) (w : Nat) : Prop :=
  op.pattern? = some (w &&& op.form.mask)

instance (op : Op) (w : Nat) : Decidable (op.Matches w) :=
  inferInstanceAs (Decidable (_ = _))

theorem not_matches_unknown (w : Nat) : ¬ unknown.Matches w := by
  simp [Matches, pattern?]

/-- The masks in the order in which they are tried. -/
def masks : List Nat :=
  [0xFFFF, 0xF0FF, 0xF00F, 0xF000]

def under? (mask w : Nat) : Option Op :=
  known.find? fun op => op.form.mask == mask && op.Matches w

def search (order : List Nat) (w : Nat) : Op :=
  (order.findSome? (under? · w)).getD unknown

/-- The short name of an operation, which tells operations of one mnemonic apart. -/
def name : Op → String
  | clearScreen => "CLS"
  | ret => "RET"
  | jump => "JP"
  | call => "CALL"
  | skipIfByte => "SE_VX_KK"
  | skipUnlessByte => "SNE_VX_KK"
  | skipIfSame => "SE_VX_VY"
  | setByte => "LD_VX_KK"
  | addByte => "ADD_VX_KK"
  | copy => "LD_VX_VY"
  | or => "OR"
  | and => "AND"
  | xor => "XOR"
  | add => "ADD_VX_VY"
  | sub => "SUB"
  | shiftRight => "SHR"
  | subFrom => "SUBN"
  | shiftLeft => "SHL"
  | skipUnlessSame => "SNE_VX_VY"
  | setIndex => "LD_I"
  | jumpFrom => "JP_V0"
  | random => "RND"
  | draw => "DRW"
  | skipIfKey => "SKP"
  | skipUnlessKey => "SKNP"
  | readDelay => "LD_VX_DT"
  | waitKey => "LD_VX_K"
  | setDelay => "LD_DT_VX"
  | setSound => "LD_ST_VX"
  | addIndex => "ADD_I_VX"
  | glyph => "LD_F_VX"
  | decimal => "LD_B_VX"
  | store => "LD_I_VX"
  | load => "LD_VX_I"
  | unknown => "UNKNOWN"

end Op

end ChipEight

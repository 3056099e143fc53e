import ChipEight.Fault
import ChipEight.Op
import ChipEight.Word

/-!
A decoded opcode: its operation and every operand that any operation could take from it. Only the lowest
sixteen bits of an opcode are looked at; the opcode itself is kept as it came. Encoding puts the operands
that the form of an operation has into its pattern.
-/

namespace ChipEight

/-- The operand fields of an opcode. Which of them mean something depends on the operation. -/
structure Operands where
  x : Fin 16
  y : Fin 16
  n : Fin 16
  kk : UInt8
  nnn : Fin 4096
  deriving DecidableEq, Repr

namespace Operands

def ofOpcode (opcode : Int) : Operands where
  x := nibble (opcode / 256)
  y := nibble (opcode / 16)
  n := nibble opcode
  kk := lowByte opcode
  nnn := ⟨(opcode % 4096).toNat, by omega⟩

def bits (i : Operands) : Form → Nat
  | .fixed => 0
  | .register => 256 * i.x.val
  | .registers => 256 * i.x.val + 16 * i.y.val
  | .registerByte => 256 * i.x.val + i.kk.toNat
  | .sprite => 256 * i.x.val + 16 * i.y.val + i.n.val
  | .address => i.nnn.val

end Operands

structure Instruction extends Operands where
  op : Op
  opcode : Int
  deriving DecidableEq, Repr

namespace Instruction

def decodeWith (order : List Nat) (opcode : Int) : Instruction where
  toOperands := .ofOpcode opcode
  op := Op.search order (opcode % 65536).toNat
  opcode := opcode

end Instruction

def decode (opcode : Int) : Instruction :=
  Instruction.decodeWith Op.masks opcode

/-- How many integers there are from one up or down to another, which is left out, in equal steps. -/
def stepCount (start stop step : Int) : Nat :=
  (if 0 < step then (stop - start + step - 1) / step else (start - stop - step - 1) / (-step)).toNat

def Op.sweep? (start stop step : Int) : Except ArgumentError (List Op) :=
  if step = 0 then .error .zeroStep
  else .ok ((List.range (stepCount start stop step)).map fun (k : Nat) => (decode (start + k * step)).op)

def Op.encode? (op : Op) (i : Operands) : Option Nat :=
  op.pattern?.map (· + i.bits op.form)

end ChipEight

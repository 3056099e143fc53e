import ChipEight.Fault
import ChipEight.HexTable
import ChipEight.Parameters
import ChipEight.Word

/-!
The registers: sixteen variable registers of a byte, the index register of sixteen bits, and the program
counter, which takes any integer and is checked only when an opcode is fetched.
-/

namespace ChipEight

open Text

structure Registers where
  v : HexTable UInt8
  index : UInt16
  pc : Int
  deriving DecidableEq, Repr

namespace Registers

def initial : Registers where
  v := .fill 0
  index := 0
  pc := Parameters.programStart

def get (r : Registers) (x : Fin 16) : UInt8 :=
  r.v.entry x

def set (r : Registers) (x : Fin 16) (b : UInt8) : Registers :=
  { r with v := r.v.setEntry x b }

theorem get_set (r : Registers) (x y : Fin 16) (b : UInt8) :
    (r.set x b).get y = if x = y then b else r.get y :=
  r.v.entry_setEntry x y b

/-- Sets a register given by its number; a negative number counts back from the last register. -/
def set? (r : Registers) (x : Int) (b : UInt8) : Except ArgumentError Registers :=
  if ¬ Fits64 x then .error .placeTooWide
  else if -Parameters.registerCount ≤ x ∧ x < Parameters.registerCount then .ok (r.set (nibble x) b)
  else .error .noSuchRegister

def upTo (r : Registers) (x : Fin 16) : List UInt8 :=
  r.v.toList.take (x.val + 1)

/-- The registers up to and including the given one replaced by the bytes of a list, which is to have one for each. -/
def setUpTo (r : Registers) (x : Fin 16) (bs : List UInt8) : Registers :=
  { r with v := .tabulate fun k => if k ≤ x then bs.getD k.val 0 else r.get k }

theorem get_setUpTo (r : Registers) (x k : Fin 16) (bs : List UInt8) :
    (r.setUpTo x bs).get k = if k ≤ x then bs.getD k.val 0 else r.get k :=
  HexTable.entry_tabulate _ k

def advance (r : Registers) : Registers :=
  { r with pc := r.pc + 2 }

def skipIf (r : Registers) (c : Bool) : Registers :=
  if c then r.advance else r

def text (r : Registers) : String :=
  let values := (List.finRange 16).map fun x => "V" ++ hexName x ++ ":" ++ hexByte (r.get x)
  "PC_REGISTER:0x" ++ hex 4 r.pc ++ " | IDX_REGISTER:0x" ++ hex 4 r.index.toNat ++
    " | VARIABLE_REGISTERS:" ++ " ".intercalate values

end Registers

end ChipEight

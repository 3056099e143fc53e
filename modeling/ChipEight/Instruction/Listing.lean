import ChipEight.Instruction
import ChipEight.Text.Numeral

/-!
The assembly text of an instruction: a mnemonic and the operands that it takes.
-/

namespace ChipEight.Instruction

open Text

def register (x : Fin 16) : String :=
  "V" ++ hexName x

def address (nnn : Fin 4096) : String :=
  "0x" ++ hex 3 nnn.val

/-- The assembly text; an unknown opcode has only a name. -/
def listing (i : Instruction) : String :=
  let vx := register i.x
  let vy := register i.y
  let byte := dec i.kk.toNat
  match i.op with
  | .clearScreen => "CLS"
  | .ret => "RET"
  | .jump => "JP " ++ address i.nnn
  | .call => "CALL " ++ address i.nnn
  | .skipIfByte => "SE " ++ vx ++ ", " ++ byte
  | .skipUnlessByte => "SNE " ++ vx ++ ", " ++ byte
  | .skipIfSame => "SE " ++ vx ++ ", " ++ vy
  | .skipUnlessSame => "SNE " ++ vx ++ ", " ++ vy
  | .setByte => "LD " ++ vx ++ ", " ++ byte
  | .addByte => "ADD " ++ vx ++ ", " ++ byte
  | .copy => "LD " ++ vx ++ ", " ++ vy
  | .or => "OR " ++ vx ++ ", " ++ vy
  | .and => "AND " ++ vx ++ ", " ++ vy
  | .xor => "XOR " ++ vx ++ ", " ++ vy
  | .add => "ADD " ++ vx ++ ", " ++ vy
  | .sub => "SUB " ++ vx ++ ", " ++ vy
  | .subFrom => "SUBN " ++ vx ++ ", " ++ vy
  | .shiftRight => "SHR " ++ vx
  | .shiftLeft => "SHL " ++ vx
  | .setIndex => "LD I, " ++ address i.nnn
  | .jumpFrom => "JP V0, " ++ address i.nnn
  | .random => "RND " ++ vx ++ ", 0x" ++ hexByte i.kk
  | .draw => "DRW " ++ vx ++ ", " ++ vy ++ ", " ++ dec i.n.val
  | .skipIfKey => "SKP " ++ vx
  | .skipUnlessKey => "SKNP " ++ vx
  | .readDelay => "LD " ++ vx ++ ", DT"
  | .waitKey => "LD " ++ vx ++ ", K"
  | .setDelay => "LD DT, " ++ vx
  | .setSound => "LD ST, " ++ vx
  | .addIndex => "ADD I, " ++ vx
  | .glyph => "LD F, " ++ vx
  | .decimal => "LD B, " ++ vx
  | .store => "LD [I], " ++ vx
  | .load => "LD " ++ vx ++ ", [I]"
  | .unknown => "UNKNOWN"

end ChipEight.Instruction

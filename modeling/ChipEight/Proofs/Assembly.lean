import ChipEight.Event
import ChipEight.Proofs.Encoding

/-!
The assembly text of an opcode, said by its hexadecimal digits: the mnemonic of its operation and what each
operand shows.
-/

namespace ChipEight

open Text

/-- What an operand of an assembly text shows: digits of the opcode in one form or another, or a name that
is the same for every opcode. -/
inductive Shown where
  | registerX
  | registerY
  | decimalByte
  | hexByte
  | lines
  | address
  | named (name : String)
  deriving DecidableEq, Repr

namespace Shown

def digit (n : Nat) : Char :=
  Nat.digitChar (n % 16)

def text (w : Nat) : Shown → String
  | registerX => String.ofList ['V', (digit (w / 256)).toUpper]
  | registerY => String.ofList ['V', (digit (w / 16)).toUpper]
  | decimalByte => dec (w % 256 : Nat)
  | hexByte => String.ofList ['0', 'x', digit (w / 16), digit w]
  | lines => dec (w % 16 : Nat)
  | address => String.ofList ['0', 'x', digit (w / 256), digit (w / 16), digit w]
  | named name => name

end Shown

namespace Op

def mnemonic : Op → String
  | clearScreen => "CLS"
  | ret => "RET"
  | jump | jumpFrom => "JP"
  | call => "CALL"
  | skipIfByte | skipIfSame => "SE"
  | skipUnlessByte | skipUnlessSame => "SNE"
  | setByte | copy | setIndex | readDelay | waitKey | setDelay | setSound | glyph | decimal | store
  | load => "LD"
  | addByte | add | addIndex => "ADD"
  | or => "OR"
  | and => "AND"
  | xor => "XOR"
  | sub => "SUB"
  | subFrom => "SUBN"
  | shiftRight => "SHR"
  | shiftLeft => "SHL"
  | random => "RND"
  | draw => "DRW"
  | skipIfKey => "SKP"
  | skipUnlessKey => "SKNP"
  | unknown => "UNKNOWN"

/-- The operands of the assembly text. The shifts do not show the second register of their form. -/
def shown : Op → List Shown
  | clearScreen | ret | unknown => []
  | jump | call => [.address]
  | jumpFrom => [.named "V0", .address]
  | setIndex => [.named "I", .address]
  | skipIfByte | skipUnlessByte | setByte | addByte => [.registerX, .decimalByte]
  | skipIfSame | skipUnlessSame | copy | or | and | xor | add | sub | subFrom =>
    [.registerX, .registerY]
  | shiftRight | shiftLeft | skipIfKey | skipUnlessKey => [.registerX]
  | random => [.registerX, .hexByte]
  | draw => [.registerX, .registerY, .lines]
  | readDelay => [.registerX, .named "DT"]
  | waitKey => [.registerX, .named "K"]
  | setDelay => [.named "DT", .registerX]
  | setSound => [.named "ST", .registerX]
  | addIndex => [.named "I", .registerX]
  | glyph => [.named "F", .registerX]
  | decimal => [.named "B", .registerX]
  | store => [.named "[I]", .registerX]
  | load => [.registerX, .named "[I]"]

end Op

def assembly (w : Nat) : String :=
  let op := (decode w).op
  match op.shown with
  | [] => op.mnemonic
  | first :: rest =>
    rest.foldl (fun text a => text ++ ", " ++ a.text w) (op.mnemonic ++ " " ++ first.text w)

namespace Text

theorem zeroFill_hexDigits (places n : Nat) (more : 0 < places) :
    zeroFill (places + 1) (hexDigits n) =
      zeroFill places (hexDigits (n / 16)) ++ [Nat.digitChar (n % 16)] := by
  rw [hexDigits, hexDigits, Nat.toDigits_eq_if (by decide)]
  split
  next small =>
    have zero : n / 16 = 0 := by omega
    obtain ⟨k, rfl⟩ := Nat.exists_eq_add_one.mpr more
    rw [zero, Nat.mod_eq_of_lt small]
    simp [zeroFill, ← List.replicate_succ']
  next => simp [zeroFill]

theorem zeroFill_hexDigits_one {n : Nat} (small : n < 16) :
    zeroFill 1 (hexDigits n) = [Nat.digitChar n] := by
  rw [hexDigits, Nat.toDigits_of_lt_base small]
  rfl

theorem hex_natCast (places n : Nat) : hex places n = String.ofList (zeroFill places (hexDigits n)) := by
  rw [hex, if_neg (by omega), Int.natAbs_natCast]

theorem hex_two {n : Nat} (small : n < 256) :
    hex 2 n = String.ofList [Nat.digitChar (n / 16), Nat.digitChar (n % 16)] := by
  rw [hex_natCast, zeroFill_hexDigits 1 n (by decide), zeroFill_hexDigits_one (by omega)]
  rfl

theorem hex_three {n : Nat} (small : n < 4096) :
    hex 3 n =
      String.ofList [Nat.digitChar (n / 256), Nat.digitChar (n / 16 % 16), Nat.digitChar (n % 16)] := by
  rw [hex_natCast, zeroFill_hexDigits 2 n (by decide), zeroFill_hexDigits 1 _ (by decide),
    zeroFill_hexDigits_one (by omega), Nat.div_div_eq_div_mul]
  rfl

end Text

section Operands

variable {w : Nat}

theorem register_text {x : Fin 16} {d : Nat} (value : x.val = d) :
    Instruction.register x = String.ofList ['V', (Nat.digitChar d).toUpper] := by
  subst value
  rw [Instruction.register, hexName, hexDigits, Nat.toDigits_of_lt_base x.isLt]
  apply String.toList_inj.mp
  simp

theorem hexByte_text {kk : UInt8} (value : kk.toNat = w % 256) :
    "0x" ++ hexByte kk = Shown.hexByte.text w := by
  have high : w % 256 / 16 = w / 16 % 16 := by omega
  have low : w % 256 % 16 = w % 16 := by omega
  rw [hexByte, value, hex_two (by omega), high, low]
  apply String.toList_inj.mp
  simp [Shown.text, Shown.digit]

theorem address_text {nnn : Fin 4096} (value : nnn.val = w % 4096) :
    Instruction.address nnn = Shown.address.text w := by
  have first : w % 4096 / 256 = w / 256 % 16 := by omega
  have second : w % 4096 / 16 % 16 = w / 16 % 16 := by omega
  have third : w % 4096 % 16 = w % 16 := by omega
  rw [Instruction.address, value, hex_three (by omega), first, second, third]
  apply String.toList_inj.mp
  simp [Shown.text, Shown.digit]

end Operands

theorem listing_decode {w : Nat} (small : w < 65536) : (decode w).listing = assembly w := by
  obtain ⟨x, y, n, kk, nnn⟩ := Operands.ofOpcode_digits (show ((w : Int) % 65536).toNat = w by omega)
  have vx : Instruction.register (decode w).x = Shown.registerX.text w := register_text x
  have vy : Instruction.register (decode w).y = Shown.registerY.text w := register_text y
  have byte : dec (decode w).kk.toNat = Shown.decimalByte.text w := congrArg (fun n : Nat => dec n) kk
  have digits : "0x" ++ hexByte (decode w).kk = Shown.hexByte.text w := hexByte_text kk
  have lines : dec (decode w).n.val = Shown.lines.text w := congrArg (fun n : Nat => dec n) n
  have address : Instruction.address (decode w).nnn = Shown.address.text w := address_text nnn
  cases op : (decode w).op
  case random =>
    -- the comma and the prefix of the byte are one literal here
    have comma : ", 0x" ++ hexByte (decode w).kk = ", " ++ Shown.hexByte.text w := by
      rw [← digits, ← String.append_assoc]
      rfl
    simp only [Instruction.listing, op, vx, assembly, Op.mnemonic, Op.shown, List.foldl,
      String.append_assoc, comma]
    simp only [← String.append_assoc, String.reduceAppend]
  all_goals
    simp only [Instruction.listing, op, vx, vy, byte, lines, address, assembly, Op.mnemonic, Op.shown,
      List.foldl, Shown.text, String.reduceAppend]
  all_goals simp only [String.append_assoc, String.reduceAppend]

end ChipEight

import ChipEight.Text.Blank
import ChipEight.Text.DecimalDigit

/-!
Reading a decimal integer. Blanks may surround it, a sign may stand before it, and single underscores may
stand between its digits, which can be of any script. Leading zeros are allowed; the number of digits is
limited. The digits are counted before the rest of the text is looked at, so too many of them are told
even where something else follows them.
-/

namespace ChipEight.Text

def digitLimit : Nat := 4300

inductive IntegerError where
  | notAnInteger
  | tooManyDigits (count : Nat)
  deriving DecidableEq, Repr

/-- The digits of a numeral with the underscores between them taken out. -/
def digitsOf? : List Char → Option (List Nat)
  | [] => none
  | [c] => (decimalValue? c).map ([·])
  | c :: '_' :: rest => do
    let d ← decimalValue? c
    let ds ← digitsOf? rest
    pure (d :: ds)
  | c :: rest => do
    let d ← decimalValue? c
    let ds ← digitsOf? rest
    pure (d :: ds)

def ofDigits (ds : List Nat) : Nat :=
  ds.foldl (fun n d => 10 * n + d) 0

def cutSign : List Char → Bool × List Char
  | '-' :: rest => (true, rest)
  | '+' :: rest => (false, rest)
  | rest => (false, rest)

def isNumeral (c : Char) : Bool :=
  isDecimal c || c = '_'

def readInt (text : String) : Except IntegerError Int :=
  let (negative, rest) := cutSign (text.toList.dropWhile isBlank)
  match digitsOf? (rest.takeWhile isNumeral) with
  | none => .error .notAnInteger
  | some ds =>
    if digitLimit < ds.length then .error (.tooManyDigits ds.length)
    else if (rest.dropWhile isNumeral).all isBlank then
      .ok (if negative then -(ofDigits ds : Int) else ofDigits ds)
    else .error .notAnInteger

end ChipEight.Text

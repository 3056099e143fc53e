import ChipEight.Text.Numeral

/-!
What can go wrong in the machine, each cause with its text. A fault stops the machine for good. A ROM
that does not fit is refused at load time, and a halted machine refuses to run; neither of these two
is recorded as a fault. An unknown opcode is only noted.
-/

namespace ChipEight

open Text

inductive AccessReason where
  | outOfRange
  | fontReadOnly
  | other (text : String)
  deriving DecidableEq, Repr

namespace AccessReason

def message : AccessReason → String
  | outOfRange => "out of range"
  | fontReadOnly => "the font area is read only"
  | other text => text

end AccessReason

inductive Fault where
  | programCounter (pc : Int)
  | stackOverflow (depth : Int)
  | stackUnderflow
  | memoryAccess (address : Int) (reason : AccessReason)
  deriving DecidableEq, Repr

namespace Fault

def overflowText (depth : String) : String :=
  "The CHIP-8 stack can contain at most " ++ depth ++ " addresses. Limit exceeded"

def message : Fault → String
  | programCounter pc => "program counter 0x" ++ hex 4 pc ++ " is outside of the program area"
  | stackOverflow depth => overflowText (dec depth)
  | stackUnderflow => "return from subroutine with an empty stack"
  | memoryAccess address reason => "memory access at 0x" ++ hex 4 address ++ ": " ++ reason.message

end Fault

/-- The text of a refusal by a halted machine, with the text of what halted it if that is known. -/
def haltedMessage : Option String → String
  | none => "the machine is halted"
  | some cause => "the machine is halted (" ++ cause ++ ")"

structure RomTooLarge where
  size : Int
  offset : Int
  capacity : Int
  deriving DecidableEq, Repr

namespace RomTooLarge

def text (size : String) (offset : Int) (capacity : String) : String :=
  "a " ++ size ++ " bytes ROM loaded at 0x" ++ hex 4 offset ++ " does not fit in " ++
    capacity ++ " bytes of memory"

def message (r : RomTooLarge) : String :=
  text (dec r.size) r.offset (dec r.capacity)

end RomTooLarge

structure UnknownOpcode where
  opcode : Int
  address : Int
  deriving DecidableEq, Repr

namespace UnknownOpcode

def message (u : UnknownOpcode) : String :=
  "unknown opcode 0x" ++ hex 4 u.opcode ++ " at 0x" ++ hex 4 u.address ++ ", skipped"

end UnknownOpcode

inductive ArgumentError where
  | notAByte
  /-- What should be a hexadecimal digit is none, at the given position of its text. -/
  | notHexadecimal (position : Nat)
  | negativeSize
  | countTooWide
  | outOfRoom
  | placeTooWide
  | noSuchRegister
  | noCells
  | noSuchCell
  | zeroStep
  | zeroFrequency
  | sampleTooLarge
  | sampleTooSmall
  | sampleTooWide
  | volumeTooGreat
  | noVolume
  | notANumber (quoted : String)
  | tooManyDigits (limit count : Nat)
  | notAColour
  | noColour
  | colourTooLong (count : Nat)
  | surfaceSize
  | negativeSurface
  | surfaceTooLarge
  | notARectangle
  | windowSize
  | negativeWindow
  | windowTooLarge
  | zeroCharacter
  | noPath
  | noSpeed
  deriving DecidableEq, Repr

namespace ArgumentError

def message : ArgumentError → String
  | notAByte => "bytes must be in range(0, 256)"
  | notHexadecimal position =>
    "non-hexadecimal number found in fromhex() arg at position " ++ dec position
  | negativeSize => "negative count"
  | countTooWide | placeTooWide => "cannot fit 'int' into an index-sized integer"
  | outOfRoom => ""
  | noSuchRegister => "list assignment index out of range"
  | noCells => "integer modulo by zero"
  | noSuchCell => "list index out of range"
  | zeroStep => "range() arg 3 must not be zero"
  | zeroFrequency => "integer division or modulo by zero"
  | sampleTooLarge => "signed short integer is greater than maximum"
  | sampleTooSmall => "signed short integer is less than minimum"
  | sampleTooWide => "Python int too large to convert to C long"
  | volumeTooGreat => "cannot convert float infinity to integer"
  | noVolume => "cannot convert float NaN to integer"
  | notANumber quoted => "invalid literal for int() with base 10: " ++ quoted
  | tooManyDigits limit count =>
    "Exceeds the limit (" ++ dec limit ++ " digits) for integer string conversion: value has " ++
      dec count ++ " digits; use sys.set_int_max_str_digits() to increase the limit"
  | notAColour => "invalid color argument"
  | noColour => "function takes at least 1 argument (0 given)"
  | colourTooLong count => "function takes at most 4 arguments (" ++ dec count ++ " given)"
  | surfaceSize => "size needs to be (number width, number height)"
  | negativeSurface => "Invalid resolution for Surface"
  | surfaceTooLarge => "Out of memory"
  | notARectangle => "rect argument is invalid"
  | windowSize => "size must be two numbers"
  | negativeWindow => "Cannot set negative sized display mode"
  | windowTooLarge => "Window is too large."
  | zeroCharacter => "embedded null byte"
  | noPath => "expected str, bytes or os.PathLike object, not list"
  | noSpeed => "unsupported operand type(s) for //: 'list' and 'int'"

end ArgumentError

end ChipEight

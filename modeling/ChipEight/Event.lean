import ChipEight.Instruction.Listing
import ChipEight.Fault
import ChipEight.Timers

/-!
What happens while the machine runs, in the order in which it happens. A listener hears the edges of the
tone; a log has one line for each event, with a level and the channel it belongs to.
-/

namespace ChipEight

open Text

inductive Level where
  | debug
  | info
  | warning
  | error
  deriving DecidableEq, Repr

namespace Level

def rank : Level → Nat
  | debug => 0
  | info => 1
  | warning => 2
  | error => 3

def name : Level → String
  | debug => "DEBUG"
  | info => "INFO"
  | warning => "WARNING"
  | error => "ERROR"

end Level

inductive Channel where
  | cpu
  | memory
  | timers
  | sound
  | session
  deriving DecidableEq, Repr

namespace Channel

def name : Channel → String
  | cpu => "chip8.cpu"
  | memory => "chip8.memory"
  | timers => "chip8.timers"
  | sound => "chip8.drivers"
  | session => "chip8.emulator"

end Channel

structure LogLine where
  level : Level
  channel : Channel
  text : String
  deriving DecidableEq, Repr

namespace LogLine

def render (l : LogLine) : String :=
  "[" ++ l.level.name ++ "] " ++ l.channel.name ++ ": " ++ l.text

def atLeast (least : Level) (ls : List LogLine) : List LogLine :=
  ls.filter fun l => least.rank ≤ l.level.rank

end LogLine

inductive Event where
  | sound (edge : SoundEdge)
  | executed (address : Int) (i : Instruction)
  /-- An unknown opcode was met for the first time at its address. -/
  | unknown (u : UnknownOpcode)
  | halted (f : Fault)
  | loaded (size : Nat) (offset : Int)
  deriving DecidableEq, Repr

namespace Event

def edge? : Event → Option SoundEdge
  | sound edge => some edge
  | _ => none

/-- Running off the program area ends a program and is no error; any other fault is. -/
def haltLevel : Fault → Level
  | .programCounter _ => .info
  | _ => .error

def line : Event → LogLine
  | sound edge => ⟨.debug, .timers, "sound " ++ edge.name⟩
  | executed address i =>
    ⟨.debug, .cpu, "mem_addr: 0x" ++ hex 4 address ++ "    instruction: " ++ i.listing⟩
  | unknown u => ⟨.warning, .cpu, u.message⟩
  | halted f => ⟨haltLevel f, .cpu, "machine halted: " ++ f.message⟩
  | loaded size offset =>
    ⟨.info, .memory, "loaded " ++ dec size ++ " bytes ROM at 0x" ++ hex 4 offset⟩

end Event

def edges (es : List Event) : List SoundEdge :=
  es.filterMap Event.edge?

def logOf (least : Level) (es : List Event) : List LogLine :=
  LogLine.atLeast least (es.map Event.line)

end ChipEight

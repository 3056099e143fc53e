/-!
The numbers of the machine and of its front end: sizes, addresses, colours, rates.
-/

namespace ChipEight.Parameters

def memorySize : Nat := 4096

def programStart : Nat := 0x200

/-- The last address that holds a whole opcode. -/
def lastInstruction : Nat := memorySize - 2

def stackDepth : Nat := 16

def registerCount : Nat := 16

abbrev keyCount : Nat := 16

def screenWidth : Nat := 64

def screenHeight : Nat := 32

def scale : Nat := 15

/-- Ticks of the timers, and frames, in a second. -/
def timerRate : Nat := 60

def speed : Nat := 600

def toneFrequency : Nat := 440

def sampleRate : Nat := 44100

end ChipEight.Parameters

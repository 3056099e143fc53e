import ChipEight.CallStack
import ChipEight.Display
import ChipEight.Event
import ChipEight.Keypad
import ChipEight.Memory
import ChipEight.RandomBytes
import ChipEight.Registers
import ChipEight.UnknownTally

/-!
The state of the machine, what an operation on it leaves behind, and the operations that do not execute an
opcode. An outcome holds the machine also when the operation failed, because a failed operation may have
changed it; operations are put one after the other until the first that fails.
-/

namespace ChipEight

open Parameters

structure Machine where
  memory : Memory
  stack : CallStack
  registers : Registers
  timers : Timers
  display : Display
  keypad : Keypad
  /-- The keypad as it was at the start of the last cycle, which is what instructions see of it. -/
  latched : Keypad
  random : RandomBytes
  halted : Bool
  fault : Option Fault
  unknown : UnknownTally
  cycles : Nat
  deriving DecidableEq, Repr

/-- What an operation leaves: the machine, the events on the way, and an answer or a failure. -/
structure Outcome (ε α : Type) where
  machine : Machine
  events : List Event
  answer : Except ε α

namespace Outcome

def ok (m : Machine) (answer : α) (events : List Event) : Outcome ε α :=
  ⟨m, events, .ok answer⟩

def done (m : Machine) (events : List Event) : Outcome ε Unit :=
  ⟨m, events, .ok ()⟩

def fail (m : Machine) (e : ε) : Outcome ε α :=
  ⟨m, [], .error e⟩

def andThen (o : Outcome ε α) (next : Machine → Outcome ε β) : Outcome ε β :=
  match o.answer with
  | .error e => ⟨o.machine, o.events, .error e⟩
  | .ok _ =>
    let o' := next o.machine
    ⟨o'.machine, o.events ++ o'.events, o'.answer⟩

def map (answer : α → β) (failure : ε → δ) (o : Outcome ε α) : Outcome δ β :=
  ⟨o.machine, o.events,
    match o.answer with
    | .ok a => .ok (answer a)
    | .error e => .error (failure e)⟩

end Outcome

inductive Failure where
  | fault (f : Fault)
  | halted (cause : Option Fault)
  | romTooLarge (r : RomTooLarge)
  | argument (e : ArgumentError)
  deriving DecidableEq, Repr

namespace Failure

def message : Failure → String
  | fault f => f.message
  | halted cause => haltedMessage (cause.map Fault.message)
  | romTooLarge r => r.message
  | argument e => e.message

end Failure

namespace Machine

def initial (random : RandomBytes) : Machine where
  memory := .ofSize memorySize
  stack := .ofDepth stackDepth
  registers := .initial
  timers := .initial
  display := .blank screenWidth screenHeight
  keypad := .released
  latched := .released
  random := random
  halted := false
  fault := none
  unknown := .empty
  cycles := 0

def setPc (m : Machine) (pc : Int) : Machine :=
  { m with registers.pc := pc }

def loadRom (rom : List UInt8) (offset : Int) (m : Machine) : Outcome Failure Unit :=
  match m.memory.load rom offset with
  | .error r => .fail m (.romTooLarge r)
  | .ok memory => .done ({ m with memory }.setPc offset) [.loaded rom.length offset]

def tick (m : Machine) : Outcome ε Unit :=
  let (timers, edge) := m.timers.tick
  .done { m with timers } (edge.toList.map .sound)

/-- Brings the machine back to where it was when it was switched on, except that the random source goes on
where it is and that the latched keys stay until the next cycle. -/
def reset (m : Machine) : Outcome ε Unit :=
  let (timers, edge) := m.timers.reset
  .done
    { m with
      memory := m.memory.clear
      stack := m.stack.clear
      registers := .initial
      timers
      display := m.display.clear.markClean
      keypad := .released
      halted := false
      fault := none
      unknown := .empty
      cycles := 0 }
    (edge.toList.map .sound)

def InProgram (pc : Int) : Prop :=
  (programStart : Int) ≤ pc ∧ pc ≤ lastInstruction

instance (pc : Int) : Decidable (InProgram pc) :=
  inferInstanceAs (Decidable (_ ∧ _))

def wordAt (m : Machine) (a : Int) : Nat :=
  256 * (m.memory.byteAt a).toNat + (m.memory.byteAt (a + 1)).toNat

def fetch (m : Machine) : Outcome Fault Nat :=
  if InProgram m.registers.pc then
    .ok { m with registers := m.registers.advance } (m.wordAt m.registers.pc) []
  else .fail m (.programCounter m.registers.pc)

def text (m : Machine) : String :=
  let flag (b : Bool) := if b then "True" else "False"
  "\n".intercalate [
    m.registers.text,
    "STACK:" ++ m.stack.text ++ " | SP:" ++ Text.dec m.stack.pointer,
    "TIMERS:" ++ m.timers.text,
    "HALTED:" ++ flag m.halted ++ " | DIRTY:" ++ flag m.display.dirty ++ " | KEYPAD:" ++
      m.keypad.text ++ " | DECODE_WARNINGS:" ++ Text.dec m.unknown.total]

end Machine

end ChipEight

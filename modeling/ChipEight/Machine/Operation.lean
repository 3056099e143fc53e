import ChipEight.Machine.Cycle

/-!
Everything that can be done to a machine from outside, as a data type, so that a history of the machine is
a list. Integers given from outside are cut to the size of the register or cell that they go to; the
program counter alone takes them whole.
-/

namespace ChipEight

inductive Operation where
  | load (rom : List UInt8) (offset : Int)
  | cycle
  | fetch
  | tick
  | frame (count : Int)
  | reset
  | press (key : Int)
  | release (key : Int)
  | releaseAll
  | markClean
  | toggle (x y : Int)
  | setV (x v : Int)
  | setIndex (v : Int)
  | setPc (v : Int)
  | setHalted (halted : Bool)
  | setDelay (v : Int)
  | setSound (v : Int)
  | poke (a v : Int)
  | peek (a length : Int)
  deriving DecidableEq, Repr

inductive Answer where
  | none
  | word (w : Nat)
  | flag (b : Bool)
  | bytes (bs : List UInt8)
  deriving DecidableEq, Repr

namespace Machine

open Outcome

private def quiet (o : Outcome Failure Unit) : Outcome Failure Answer :=
  o.map (fun _ => .none) id

def perform (m : Machine) : Operation → Outcome Failure Answer
  | .load rom offset => quiet (m.loadRom rom offset)
  | .cycle => quiet m.cycle
  | .fetch => m.fetch.map .word .fault
  | .tick => quiet m.tick
  | .frame count => quiet (m.frame count)
  | .reset => quiet m.reset
  | .press key => ok { m with keypad := m.keypad.press key } .none []
  | .release key => ok { m with keypad := m.keypad.release key } .none []
  | .releaseAll => ok { m with keypad := .released } .none []
  | .markClean => ok { m with display := m.display.markClean } .none []
  | .toggle x y =>
    match m.display.toggle? x y with
    | .error e => fail m (.argument e)
    | .ok (lit, display) => ok { m with display } (.flag lit) []
  | .setV x v =>
    match m.registers.set? x (lowByte v) with
    | .error e => fail m (.argument e)
    | .ok registers => ok { m with registers } .none []
  | .setIndex v => ok (m.setIndex v) .none []
  | .setPc v => ok (m.setPc v) .none []
  | .setHalted halted => ok { m with halted } .none []
  | .setDelay v => ok { m with timers := m.timers.setDelay (lowByte v) } .none []
  | .setSound v => quiet (m.setSound (lowByte v))
  | .poke a v =>
    match m.memory.set a (lowByte v) with
    | .error f => fail m (.fault f)
    | .ok memory => ok { m with memory } .none []
  | .peek a length =>
    match m.memory.readBlock a length with
    | .error f => fail m (.fault f)
    | .ok bs => ok m (.bytes bs) []

/-- The outcomes of a list of operations, each on the machine that the one before has left. -/
def run (m : Machine) : List Operation → List (Outcome Failure Answer)
  | [] => []
  | op :: rest =>
    let o := m.perform op
    o :: o.machine.run rest

def after (m : Machine) (ops : List Operation) : Machine :=
  ops.foldl (fun m op => (m.perform op).machine) m

end Machine

end ChipEight

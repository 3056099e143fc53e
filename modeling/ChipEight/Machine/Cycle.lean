import ChipEight.Machine.Execute

/-!
Cycles and frames. A cycle looks at the keypad, fetches an opcode and executes it. A fault halts the
machine, which then refuses every further cycle until it is reset. A frame is a number of cycles and one
tick of the timers; it ends at the first cycle that fails.
-/

namespace ChipEight.Machine

def latch (m : Machine) : Machine :=
  { m with latched := m.keypad }

def halt (m : Machine) (f : Fault) : Machine :=
  { m with halted := true, fault := some f }

/-- The event of an executed instruction; one without a meaning leaves none. -/
def trace (address : Int) (i : Instruction) : List Event :=
  if i.op = .unknown then [] else [.executed address i]

def fetchExecute (m : Machine) : Outcome Fault Unit :=
  match m.fetch with
  | ⟨m', events, .error f⟩ => ⟨m', events, .error f⟩
  | ⟨m', events, .ok word⟩ =>
    let i := decode word
    match execute i m' with
    | ⟨m'', events', .error f⟩ => ⟨m'', events ++ events', .error f⟩
    | ⟨m'', events', .ok ()⟩ => ⟨m'', events ++ events' ++ trace m.registers.pc i, .ok ()⟩

def cycle (m : Machine) : Outcome Failure Unit :=
  if m.halted then .fail m (.halted m.fault)
  else
    -- instructions see the keys as they are now, whatever happens to the keypad until the next cycle
    match m.latch.fetchExecute with
    | ⟨m', events, .error f⟩ => ⟨m'.halt f, events ++ [.halted f], .error (.fault f)⟩
    | ⟨m', events, .ok ()⟩ => .done { m' with cycles := m'.cycles + 1 } events

/-- An operation a number of times, until it fails. -/
def times (operation : Machine → Outcome ε Unit) : Nat → Machine → Outcome ε Unit
  | 0, m => .done m []
  | n + 1, m => (operation m).andThen (times operation n)

/-- A number of cycles and one tick; there is no cycle if the number is negative. -/
def frame (count : Int) (m : Machine) : Outcome Failure Unit :=
  (times cycle count.toNat m).andThen tick

end ChipEight.Machine

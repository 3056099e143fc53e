import ChipEight.Beeper
import ChipEight.Keyboard
import ChipEight.Machine.Cycle
import ChipEight.Screen

/-!
A session runs the machine frame by frame with a keyboard, a screen and a beeper. In every frame all waiting
events are applied, the machine runs its cycles and ticks, and the screen is painted anew if the display is
dirty. A wish to quit lets its frame finish; a fault ends the session in the middle of a frame.
-/

namespace ChipEight

structure Session where
  library : Library
  machine : Machine
  screen : Screen
  beeper : Beeper
  frames : Nat
  refreshes : Nat
  log : List LogLine
  calls : List DeviceCall

inductive Ending where
  | quit
  /-- The program ran off the program area. -/
  | programEnd (pc : Int)
  | crash (e : Failure)
  /-- The library would not paint. -/
  | refused (e : ArgumentError)
  deriving DecidableEq, Repr

namespace Ending

def ofFailure : Failure → Ending
  | .fault (.programCounter pc) => programEnd pc
  | e => crash e

def lines : Ending → List LogLine
  | programEnd pc => [⟨.info, .session, "program ended at 0x" ++ Text.hex 4 pc⟩]
  | _ => []

end Ending

namespace Session

def pace (speed : Int) : Int :=
  max 1 (speed / Parameters.timerRate)

def poll (s : Session) (events : List KeyEvent) : Session × Bool :=
  let (keypad, goOn) := Keyboard.poll Keyboard.defaultLayout s.machine.keypad events
  ({ s with machine.keypad := keypad }, goOn)

def absorb (s : Session) (o : Outcome Failure Unit) : Session :=
  let (beeper, calls) := s.beeper.hearAll (edges o.events)
  { s with
    machine := o.machine
    beeper
    log := s.log ++ o.events.map Event.line
    calls := s.calls ++ calls }

def refresh? (s : Session) : Except ArgumentError Session :=
  if s.machine.display.dirty then
    match s.screen.render? s.machine.display s.library with
    | .error e => .error e
    | .ok (screen, display) =>
      .ok { s with machine.display := display, screen, refreshes := s.refreshes + 1 }
  else .ok s

def frame (pace : Int) (s : Session) (events : List KeyEvent) : Session × Option Ending :=
  let (polled, goOn) := { s with frames := s.frames + 1 }.poll events
  let o := polled.machine.frame pace
  let s' := polled.absorb o
  -- a fault leaves the frame before anything is painted, also where somebody asked to quit
  match o.answer with
  | .error e => (s', some (.ofFailure e))
  | .ok () =>
    match s'.refresh? with
    | .error e => (s', some (.refused e))
    | .ok s'' => (s'', if goOn then none else some .quit)

/-- The beeper is silent at the end, whatever the end is. -/
def close (s : Session) (ending : Ending) : Session :=
  let (beeper, calls) := s.beeper.stop
  { s with beeper, log := s.log ++ ending.lines, calls := s.calls ++ calls }

/-- Frame after frame with the events given for each; when there are no more, the next frame is quit. -/
def run (pace : Int) (s : Session) : List (List KeyEvent) → Session × Ending
  | [] =>
    let (s', ending) := s.frame pace [.quit]
    (s', ending.getD .quit)
  | events :: rest =>
    match s.frame pace events with
    | (s', some ending) => (s', ending)
    | (s', none) => s'.run pace rest

end Session

end ChipEight

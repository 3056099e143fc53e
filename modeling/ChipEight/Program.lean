import ChipEight.CommandLine
import ChipEight.Folder
import ChipEight.Session

/-!
The whole program: from the words of a command line and the world that it runs in to a report of
everything that it does. First the ROM is read, then the window is opened, then the beeper is connected,
then the ROM is loaded and the frames begin. Each step may end the program.
-/

namespace ChipEight

structure World where
  read : String → Except ReadError (List UInt8)
  device : Option Mixer
  debug : Bool
  random : RandomBytes
  frames : List (List KeyEvent)
  /-- Whether the device is set up before the program starts. -/
  ready : Bool := device.isSome
  library : Library := .usual
  room : Room := .usual

/-- How the program ends: by returning, with a status and maybe a line on the error stream, with a text, or
because it was given an argument that it cannot take. -/
inductive Exit where
  | returned
  | status (code : Nat) (errorLine : String)
  | text (message : String)
  | refused (e : ArgumentError)
  deriving DecidableEq, Repr

structure Report where
  exit : Exit
  output : List String
  captions : List String
  /-- The sizes of the windows that were asked for, none where there was no scale. -/
  windows : List (Option (Int × Int))
  screen : Option Screen
  calls : List DeviceCall
  refreshes : Nat
  frames : Nat
  deriving DecidableEq, Repr

namespace Report

def early (exit : Exit) (output : List String) : Report where
  exit := exit
  output := output
  captions := []
  windows := []
  screen := none
  calls := []
  refreshes := 0
  frames := 0

def rates (r : Report) : List Nat :=
  if r.frames = 0 then [] else [Parameters.timerRate]

end Report

namespace Program

def caption (path : String) : String :=
  let slashes := path.toList.map fun c => if c = '\\' then '/' else c
  String.ofList (slashes.reverse.takeWhile (· ≠ '/')).reverse

def crashText (m : Machine) : String :=
  "********** THE EMULATOR CRASHED WITH THE FOLLOWING STATE\n" ++ m.text

def printed (debug : Bool) (log : List LogLine) : List String :=
  (LogLine.atLeast (if debug then .debug else .info) log).map LogLine.render

def opened? (w : World) (mute : Bool) (scale : Option Int) : Except ArgumentError Session :=
  match scale with
  | none => .error .windowSize
  | some scale =>
    match Screen.inWindow? w.library scale with
    | .error e => .error e
    | .ok screen =>
      match Beeper.connect Parameters.toneFrequency mute w.ready w.device w.library w.room with
      | .error e => .error e
      | .ok (beeper, calls, log) =>
        .ok {
          library := w.library
          machine := .initial w.random
          screen, beeper, frames := 0, refreshes := 0, log, calls }

/-- The report of a program that has asked for a window but not got into a session. -/
def unopened (path : String) (scale : Option Int) (e : ArgumentError) : Report :=
  { Report.early (.refused e) [] with
    captions := [caption path]
    windows := [scale.map Screen.windowSize] }

/-- What a session has come to, with the way in which the program ends. A program that cannot go on for an argument
leaves its window alone. -/
def reportOf (w : World) (path : String) (s : Session) (exit : Exit) : Report where
  exit := exit
  output := printed w.debug s.log
  captions := [caption path]
  windows := [some (Screen.windowSize s.screen.scale)]
  screen :=
    match exit with
    | .refused _ => none
    | _ => some s.screen
  calls := s.calls
  refreshes := s.refreshes
  frames := s.frames

def exitOf (m : Machine) : Ending → Exit
  | .quit | .programEnd _ => .returned
  | .crash _ => .text (crashText m)
  | .refused e => .refused e

def play (w : World) (path : String) (speed : Option Int) (rom : List UInt8) (s : Session) : Report :=
  let o := s.machine.loadRom rom Parameters.programStart
  match o.answer with
  | .error e => reportOf w path s (.text (path ++ ": " ++ e.message))
  | .ok () =>
    match speed with
    | none => reportOf w path (s.absorb o) (.refused .noSpeed)
    | some speed =>
      let (s', ending) := (s.absorb o).run (Session.pace speed) w.frames
      reportOf w path (s'.close ending) (exitOf s'.machine ending)

def start (w : World) (a : CommandLine.Arguments) : Report :=
  match a.file with
  | none => .early (.refused .noPath) []
  | some path =>
    if path.toList.contains '\x00' then .early (.refused .zeroCharacter) []
    else
      match w.read path with
      | .error e =>
        .early (.status 2 (CommandLine.errorLine ("cannot read " ++ path ++ ": " ++ e.message))) []
      | .ok rom =>
        match opened? w a.mute a.scale with
        | .error e => unopened path a.scale e
        | .ok s => play w path a.speed rom s

def run (words : List String) (w : World) : Report :=
  match CommandLine.read words with
  | .error e => .early (.status 2 (CommandLine.errorLine e.message)) []
  | .ok .help => .early (.status 0 "") CommandLine.helpLines
  | .ok (.run a) => start w a

end Program

end ChipEight

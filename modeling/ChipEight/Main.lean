import ChipEight.Program
import ChipEight.Settings

/-!
The command line program without a window: it reads the ROM, takes the events of each frame from a line of
standard input, and prints the log and at the end what the window would show. There is no sound device.
-/

namespace ChipEight.Terminal

def randomLimit : Nat := 1048576

def readError : IO.Error → ReadError
  | .inappropriateType .. => .isFolder
  | .invalidArgument .. => .nameTooLong
  | _ => .missing

def readRom (path : Option String) : IO (Except ReadError (List UInt8)) := do
  try
    let bytes ← IO.FS.readBinFile (path.getD "")
    return .ok bytes.toList
  catch e => return .error (readError e)

partial def readLines (input : IO.FS.Stream) (lines : Array String) : IO (List String) := do
  let line ← input.getLine
  if line.isEmpty then return lines.toList else readLines input (lines.push line)

def randomBytes (count : Nat) : IO (List UInt8) := do
  let mut bytes := #[]
  for _ in [0:min count randomLimit] do
    bytes := bytes.push (UInt8.ofNat (← IO.rand 0 255))
  return bytes.toList

def world (debug : Bool) (a : CommandLine.Arguments) : IO World := do
  let rom ← readRom a.file
  let lines ← if rom.isOk then readLines (← IO.getStdin) #[] else pure []
  let frames := lines.map KeyEvent.ofLine
  let random ← randomBytes ((frames.length + 1) * (Session.pace (a.speed.getD 0)).toNat)
  return {
    read := fun _ => rom
    device := none
    debug
    random := .ofList random
    frames }

def picture (s : Screen) : List String :=
  s.cells.map fun row => String.ofList (row.map fun lit => if lit then '#' else '.')

def tell (r : Report) : IO UInt32 := do
  for line in r.output do
    IO.println line
  for line in (r.screen.map picture).getD [] do
    IO.println line
  match r.exit with
  | .returned => return 0
  | .text message =>
    IO.eprintln message
    return 1
  | .refused e =>
    IO.eprintln e.message
    return 1
  | .status code errorLine =>
    unless errorLine.isEmpty do
      IO.eprintln errorLine
    return UInt32.ofNat code

end ChipEight.Terminal

open ChipEight in
def main (words : List String) : IO UInt32 := do
  match Settings.debug? (← IO.getEnv "DEBUG") with
  | .error e =>
    IO.eprintln e.message
    return 1
  | .ok debug =>
    let outside ←
      match CommandLine.read words with
      | .ok (.run a) => Terminal.world debug a
      | _ =>
        pure {
          read := fun _ => .error .missing
          device := none
          debug
          random := .ofList []
          frames := [] }
    Terminal.tell (Program.run words outside)

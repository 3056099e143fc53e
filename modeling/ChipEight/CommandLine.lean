import ChipEight.Parameters
import ChipEight.Text.Integer
import ChipEight.Text.Quoted

/-!
The command line. Every word is first sorted: an option in full, a long option cut short without doubt, an
option with its value attached, an argument, or an option that there is not. Then the words are taken from
left to right. A word that nothing takes is left over, and left over words are refused at the end.
-/

namespace ChipEight

open Text

namespace CommandLine

inductive Switch where
  | help
  | file
  | speed
  | scale
  | mute
  deriving DecidableEq, Repr

namespace Switch

def spellings : List (String × Switch) :=
  [("-h", help), ("--help", help), ("-f", file), ("--file", file), ("-s", speed),
    ("--speed", speed), ("--scale", scale), ("--mute", mute)]

def ofSpelling? (s : String) : Option Switch :=
  spellings.lookup s

def title (o : Switch) : String :=
  "/".intercalate ((spellings.filter (·.2 == o)).map (·.1))

def takesValue : Switch → Bool
  | help | mute => false
  | file | speed | scale => true

end Switch

inductive UsageError where
  | ambiguous (word : String) (candidates : List String)
  | noValue (o : Switch)
  | notAnInteger (o : Switch) (value : String)
  | unwantedValue (o : Switch) (value : String)
  | noFile
  | leftOver (words : List String)
  deriving DecidableEq, Repr

namespace UsageError

def message : UsageError → String
  | ambiguous word candidates =>
    "ambiguous option: " ++ word ++ " could match " ++ ", ".intercalate candidates
  | noValue o => "argument " ++ o.title ++ ": expected one argument"
  | notAnInteger o value => "argument " ++ o.title ++ ": invalid int value: " ++ quoted value
  | unwantedValue o value =>
    "argument " ++ o.title ++ ": ignored explicit argument " ++ quoted value
  | noFile => "the following arguments are required: " ++ Switch.file.title
  | leftOver words => "unrecognized arguments: " ++ " ".intercalate words

end UsageError

inductive Kind where
  | argument
  /-- The two dashes that make every later word an argument. -/
  | dashes
  | switch (o : Switch) (spelling : String) (attached : Option (List Char))
  | noSwitch
  deriving DecidableEq, Repr

def splitEquals (cs : List Char) : List Char × Option (List Char) :=
  match cs.dropWhile (· ≠ '=') with
  | [] => (cs, none)
  | _ :: value => (cs.takeWhile (· ≠ '='), some value)

/-- A minus sign and a number, with or without a decimal point; a line break may follow. -/
def isNegativeNumber (cs : List Char) : Bool :=
  match cs with
  | '-' :: rest =>
    let rest := if rest.getLast? = some '\n' then rest.dropLast else rest
    let whole := rest.takeWhile isDecimal
    match rest.dropWhile isDecimal with
    | [] => !whole.isEmpty
    | '.' :: digits => !digits.isEmpty && digits.all isDecimal
    | _ => false
  | _ => false

/-- The readings of a word as a switch that is cut short or has its value attached. -/
def readings (cs : List Char) : List (Switch × String × Option (List Char)) :=
  match cs with
  | '-' :: '-' :: _ =>
    let (start, value) := splitEquals cs
    (Switch.spellings.filter fun (s, _) => start.isPrefixOf s.toList).map fun (s, o) =>
      (o, s, value)
  | _ =>
    -- everything behind the letter is the value, an equals sign too
    (Switch.spellings.filter fun (s, _) => s.toList = cs.take 2).map fun (s, o) =>
      (o, s, some (cs.drop 2))

def kindOf (word : String) : Except UsageError Kind :=
  let cs := word.toList
  let attachedByEquals : Option Kind :=
    match splitEquals cs with
    | (start, some value) =>
      let spelling := String.ofList start
      (Switch.ofSpelling? spelling).map fun o => .switch o spelling (some value)
    | (_, none) => none
  if cs.head? ≠ some '-' then .ok .argument
  else
    match Switch.ofSpelling? word with
    | some o => .ok (.switch o word none)
    | none =>
      if cs.length = 1 then .ok .argument
      else
        match attachedByEquals with
        | some kind => .ok kind
        | none =>
          match readings cs with
          | [(o, spelling, attached)] => .ok (.switch o spelling attached)
          | [] => .ok (if isNegativeNumber cs || cs.contains ' ' then .argument else .noSwitch)
          | several => .error (.ambiguous word (several.map fun (_, spelling, _) => spelling))

def sortWords : List String → Except UsageError (List (String × Kind))
  | [] => .ok []
  | "--" :: rest => .ok (("--", .dashes) :: rest.map fun word => (word, .argument))
  | word :: rest => do
    let kind ← kindOf word
    let sorted ← sortWords rest
    pure ((word, kind) :: sorted)

/-- What is known from a command line that was accepted. A switch whose value was two dashes, attached to
it, has been given without a value. -/
structure Arguments where
  file : Option String
  speed : Option Int
  scale : Option Int
  mute : Bool
  deriving DecidableEq, Repr

structure Progress where
  file : Option (Option String)
  speed : Option Int
  scale : Option Int
  mute : Bool
  leftOver : List String
  deriving DecidableEq, Repr

namespace Progress

def start : Progress :=
  ⟨none, some Parameters.speed, some Parameters.scale, false, []⟩

def leave (p : Progress) (word : String) : Progress :=
  { p with leftOver := p.leftOver ++ [word] }

def take (p : Progress) (o : Switch) (value : Option String) : Except UsageError Progress :=
  let integer (use : Option Int → Progress) : Except UsageError Progress :=
    match value with
    | none => .ok (use none)
    | some text =>
      match readInt text with
      | .ok n => .ok (use (some n))
      | .error _ => .error (.notAnInteger o text)
  match o with
  | .help => .ok p
  | .mute => .ok { p with mute := true }
  | .file => .ok { p with file := some value }
  | .speed => integer fun n => { p with speed := n }
  | .scale => integer fun n => { p with scale := n }

def finish (p : Progress) : Except UsageError Arguments :=
  match p.file with
  | none => .error .noFile
  | some file =>
    if p.leftOver.isEmpty then .ok ⟨file, p.speed, p.scale, p.mute⟩ else .error (.leftOver p.leftOver)

end Progress

inductive Request where
  | help
  | run (arguments : Arguments)
  deriving DecidableEq, Repr

def nextArgument? : List (String × Kind) → Option (String × List (String × Kind))
  | (word, .argument) :: rest => some (word, rest)
  | _ => none

/-- What is wrong with the letters behind a short switch that takes no value. They are further short
switches, of which the first that takes a value ends the word. -/
def groupError? (o : Switch) (rest : List (String × Kind)) : List Char → Option UsageError
  | [] => none
  | letter :: letters =>
    match Switch.ofSpelling? (String.ofList ['-', letter]) with
    | none => some (.unwantedValue o (String.ofList (letter :: letters)))
    | some o' =>
      if o'.takesValue then
        if letters.isEmpty && (nextArgument? rest).isNone then some (.noValue o') else none
      else groupError? o' rest letters

def flagError? (o : Switch) (spelling : String) (rest : List (String × Kind)) :
    Option (List Char) → Option UsageError
  | none => none
  | some value =>
    if spelling.startsWith "--" || value.isEmpty then
      some (.unwantedValue o (String.ofList value))
    else groupError? o rest value

/-- The value that is attached to a switch; two dashes are none. -/
def attachedValue? (cs : List Char) : Option String :=
  if cs = ['-', '-'] then none else some (String.ofList cs)

def takeWords (p : Progress) : List (String × Kind) → Except UsageError Request
  | [] => p.finish.map .run
  | (word, .argument) :: rest => takeWords (p.leave word) rest
  | (word, .dashes) :: rest => takeWords (p.leave word) rest
  | (word, .noSwitch) :: rest => takeWords (p.leave word) rest
  | (_, .switch o spelling attached) :: rest =>
    if o.takesValue then
      match attached, rest with
      | some cs, rest =>
        match p.take o (attachedValue? cs) with
        | .error e => .error e
        | .ok p' => takeWords p' rest
      | none, (value, .argument) :: rest =>
        match p.take o (some value) with
        | .error e => .error e
        | .ok p' => takeWords p' rest
      | none, _ => .error (.noValue o)
    else
      match flagError? o spelling rest attached with
      | some e => .error e
      | none =>
        if o = .help then .ok .help
        else
          match p.take o none with
          | .error e => .error e
          | .ok p' => takeWords p' rest

def read (words : List String) : Except UsageError Request := do
  takeWords .start (← sortWords words)

def helpLines : List String :=
  ["usage: chip8 [-h] -f FILE [-s SPEED] [--scale SCALE] [--mute]",
    "",
    "CHIP-8 interpreter",
    "",
    "options:",
    "  -h, --help            show this help message and exit",
    "  -f FILE, --file FILE  input rom file",
    "  -s SPEED, --speed SPEED",
    "                        instructions executed per second",
    "  --scale SCALE         size in screen pixels of a CHIP-8 pixel",
    "  --mute                disable the sound"]

def errorLine (text : String) : String :=
  "chip8: error: " ++ text

end CommandLine

end ChipEight

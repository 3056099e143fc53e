import ChipEight.Keypad

/-!
Keys of a keyboard stand for keys of the keypad. A key may have several names, of which one is its own.
Events are applied one after the other, all of them, also those behind a wish to quit.
-/

namespace ChipEight

structure Key where
  name : String
  deriving DecidableEq, Repr

namespace Key

/-- Further names of keys, each with the name of its own. -/
def otherNames : List (String × String) :=
  [("KP0", "KP_0"), ("KP1", "KP_1"), ("KP2", "KP_2"), ("KP3", "KP_3"), ("KP4", "KP_4"),
    ("KP5", "KP_5"), ("KP6", "KP_6"), ("KP7", "KP_7"), ("KP8", "KP_8"), ("KP9", "KP_9"),
    ("LMETA", "LGUI"), ("LSUPER", "LGUI"), ("RMETA", "RGUI"), ("RSUPER", "RGUI"),
    ("BREAK", "PAUSE"), ("PRINT", "PRINTSCREEN"), ("SCROLLOCK", "SCROLLLOCK"),
    ("NUMLOCK", "NUMLOCKCLEAR"), ("EURO", "CURRENCYUNIT")]

def ofName (name : String) : Key :=
  ⟨(otherNames.lookup name).getD name⟩

end Key

inductive KeyEvent where
  | quit
  | other
  | down (key : Key)
  | up (key : Key)
  deriving DecidableEq, Repr

namespace KeyEvent

/-- An event by a word: a plus sign and a key that goes down, a minus sign and a key that goes up, or the
wish to quit. -/
def ofWord (word : String) : KeyEvent :=
  match word.toList with
  | '+' :: name => down (.ofName (String.ofList name))
  | '-' :: name => up (.ofName (String.ofList name))
  | _ => if word = "quit" then quit else other

def ofLine (line : String) : List KeyEvent :=
  let words := (String.ofList (line.toList.map fun c => if c = '\n' then ' ' else c)).splitOn " "
  (words.filter (· ≠ "")).map ofWord

end KeyEvent

abbrev KeyLayout := List (Key × Int)

/-- The layout with the given names of keys. Of two names of one key the later one counts. -/
def KeyLayout.ofNames (names : List (String × Int)) : KeyLayout :=
  names.reverse.map fun (name, target) => (.ofName name, target)

namespace Keyboard

def defaultLayout : KeyLayout :=
  .ofNames
    [("1", 0x1), ("2", 0x2), ("3", 0x3), ("4", 0xC),
      ("q", 0x4), ("w", 0x5), ("e", 0x6), ("r", 0xD),
      ("a", 0x7), ("s", 0x8), ("d", 0x9), ("f", 0xE),
      ("z", 0xA), ("x", 0x0), ("c", 0xB), ("v", 0xF)]

/-- The key that quits when it goes down, mapped or not. -/
def quitKey : Key := ⟨"ESCAPE"⟩

def handle (layout : KeyLayout) (pad : Keypad) : KeyEvent → Keypad × Bool
  | .quit => (pad, false)
  | .other => (pad, true)
  | .down key =>
    if key = quitKey then (pad, false)
    else
      match layout.lookup key with
      | some target => (pad.press target, true)
      | none => (pad, true)
  | .up key =>
    match layout.lookup key with
    | some target => (pad.release target, true)
    | none => (pad, true)

def poll (layout : KeyLayout) (pad : Keypad) : List KeyEvent → Keypad × Bool
  | [] => (pad, true)
  | e :: rest =>
    let (pad', goOn) := handle layout pad e
    let (pad'', goOn') := poll layout pad' rest
    (pad'', goOn && goOn')

end Keyboard

end ChipEight

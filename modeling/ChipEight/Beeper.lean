import ChipEight.Event
import ChipEight.Library
import ChipEight.Parameters
import ChipEight.Tone

/-!
The beeper plays the tone on a sound device between a start and a stop. What it asks of the device is a
list of calls. Without a sound, because it is muted or there is no device, it asks for nothing but still
remembers whether it was started.
-/

namespace ChipEight

open Text

structure Mixer where
  rate : Int
  size : Int
  channels : Int
  deriving DecidableEq, Repr

inductive DeviceCall where
  | setUp (mixer : Mixer)
  | sound (buffer : List UInt8)
  | play
  | stop
  deriving DecidableEq, Repr

namespace DeviceCall

/-- A call as text. The tone is played without end, for which minus one loops stand. -/
def text : DeviceCall → String
  | setUp mixer =>
    "init " ++ dec mixer.rate ++ " " ++ dec mixer.size ++ " " ++ dec mixer.channels
  | sound buffer => "sound " ++ dec buffer.length
  | play => "play -1"
  | stop => "stop"

end DeviceCall

structure Beeper where
  hasSound : Bool
  playing : Bool
  deriving DecidableEq, Repr

namespace Beeper

def silent : Beeper :=
  ⟨false, false⟩

def wanted : Mixer :=
  ⟨Parameters.sampleRate, -16, 1⟩

def volume : Volume :=
  .real 0.25

def missing (reason : String) : LogLine :=
  ⟨.warning, .sound, "audio disabled: " ++ reason⟩

/-- A beeper on the device that there is, if any, with the calls and the lines on the way. A device that is
not ready is set up first. The wave has the rate and the channels that the device reports. -/
def connect (frequency : Int) (muted ready : Bool) (device : Option Mixer) (library : Library := .usual)
    (room : Room := .usual) : Except ArgumentError (Beeper × List DeviceCall × List LogLine) :=
  if muted then .ok (silent, [], [])
  else
    match device with
    | none => .ok (silent, [.setUp wanted], [missing library.noDevice])
    | some mixer =>
      match Tone.waveAt volume frequency mixer.rate mixer.channels room with
      | .error e => .error e
      | .ok wave =>
        .ok (⟨true, false⟩, (if ready then [] else [.setUp wanted]) ++ [.sound (Tone.bytes wave)], [])

def start (b : Beeper) : Beeper × List DeviceCall :=
  ({ b with playing := true }, if b.hasSound && !b.playing then [.play] else [])

def stop (b : Beeper) : Beeper × List DeviceCall :=
  ({ b with playing := false }, if b.hasSound && b.playing then [.stop] else [])

def hear (b : Beeper) : SoundEdge → Beeper × List DeviceCall
  | .start => b.start
  | .stop => b.stop

def hearAll (b : Beeper) : List SoundEdge → Beeper × List DeviceCall
  | [] => (b, [])
  | edge :: rest =>
    let (b', calls) := b.hear edge
    let (b'', calls') := b'.hearAll rest
    (b'', calls ++ calls')

end Beeper

end ChipEight

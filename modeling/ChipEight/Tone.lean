import ChipEight.Room

/-!
The tone: one period of a square wave in samples of sixteen bits with a sign, the channels interleaved.
The first half of the period has the amplitude and the second half its negative; a period is never shorter
than two samples, so that neither half is empty and both samples occur.
-/

namespace ChipEight

/-- The part of the full amplitude that a tone has: a whole multiple or any number. -/
inductive Volume where
  | whole (n : Int)
  | real (x : Float)

namespace Tone

def fullScale : Nat := 32767

/-- The integer part of a number, cut toward zero. -/
def integerPart (x : Float) : Except ArgumentError Int :=
  let bits := x.toBits.toNat
  let hidden : Nat := 1 <<< 52
  let fraction := bits % hidden
  let exponent := (bits >>> 52) % 2048
  if exponent = 2047 then .error (if fraction = 0 then .volumeTooGreat else .noVolume)
  else
    let magnitude : Nat :=
      if exponent = 0 then 0
      else if 1075 ≤ exponent then (hidden + fraction) <<< (exponent - 1075)
      else (hidden + fraction) >>> (1075 - exponent)
    .ok (if bits >>> 63 = 1 then -(magnitude : Int) else magnitude)

def amplitude : Volume → Except ArgumentError Int
  | .whole n => .ok (fullScale * n)
  | .real x => integerPart (fullScale.toFloat * x)

/-- The samples in one period for each channel. -/
def period (frequency sampleRate : Int) : Int :=
  max 2 (sampleRate.fdiv frequency)

def sampleAt (period amplitude i : Int) : Int :=
  if i < period / 2 then amplitude else -amplitude

/-- Why a sample cannot be stored. One that does not fit into 64 bits is not even compared
with the bounds. -/
def sampleError? (sample : Int) : Option ArgumentError :=
  if ¬ Fits64 sample then some .sampleTooWide
  else if sample < -32768 then some .sampleTooSmall
  else if 32767 < sample then some .sampleTooLarge
  else none

/-- A wave with one more sample for every channel. A list of these samples is made first, and then each of them is
looked at before there has to be room for it. -/
def extend (room : Room) (channels : Int) (wave : Array Int) (sample : Int) : Except ArgumentError (Array Int) :=
  match roomError? room.entries channels with
  | some e => .error e
  | none =>
    if channels ≤ 0 then .ok wave
    else
      match sampleError? sample with
      | some e => .error e
      | none =>
        if room.samples < wave.size + channels.toNat then .error .outOfRoom
        else .ok (wave ++ Array.replicate channels.toNat sample)

/-- A wave with more samples of a period, as many for one channel as are left, from a place in the period on. -/
def extendFrom (room : Room) (period channels amplitude : Int) (i : Nat) (wave : Array Int) :
    Nat → Except ArgumentError (Array Int)
  | 0 => .ok wave
  | left + 1 =>
    match extend room channels wave (sampleAt period amplitude i) with
    | .error e => .error e
    | .ok longer => extendFrom room period channels amplitude (i + 1) longer left

def squareWave (frequency sampleRate channels amplitude : Int) (room : Room := .usual) :
    Except ArgumentError (List Int) :=
  if frequency = 0 then .error .zeroFrequency
  else
    let p := period frequency sampleRate
    (extendFrom room p channels amplitude 0 #[] p.toNat).map Array.toList

/-- The samples as bytes, two to each of them, the lower one first. -/
def bytes (samples : List Int) : List UInt8 :=
  samples.flatMap fun s => [lowByte s, lowByte (s / 256)]

theorem length_bytes (samples : List Int) : (bytes samples).length = 2 * samples.length := by
  induction samples with
  | nil => rfl
  | cons s rest ih =>
    change (bytes rest).length + 1 + 1 = 2 * (rest.length + 1)
    omega

/-- There is room for a wave: for the samples of all channels in a list, and for all samples of a period. -/
def HasRoom (room : Room) (frequency sampleRate channels : Int) : Prop :=
  Fits64 channels ∧ channels ≤ room.entries ∧ period frequency sampleRate * channels ≤ room.samples

instance (room : Room) (frequency sampleRate channels : Int) :
    Decidable (HasRoom room frequency sampleRate channels) :=
  inferInstanceAs (Decidable (_ ∧ _ ∧ _))

def waveAt (volume : Volume) (frequency sampleRate channels : Int) (room : Room := .usual) :
    Except ArgumentError (List Int) :=
  if frequency = 0 then .error .zeroFrequency
  else
    match amplitude volume with
    | .error e => .error e
    | .ok a => squareWave frequency sampleRate channels a room

end Tone

end ChipEight

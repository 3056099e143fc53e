import ChipEight.Text.Numeral

/-!
The delay timer and the sound timer. Both count down to zero at every tick. The tone sounds as long as
the sound timer is not zero; a change between silence and sound is an edge, which whoever plays the tone
is told of.
-/

namespace ChipEight

open Text

inductive SoundEdge where
  | start
  | stop
  deriving DecidableEq, Repr

namespace SoundEdge

def name : SoundEdge → String
  | start => "start"
  | stop => "stop"

end SoundEdge

structure Timers where
  delay : UInt8
  sound : UInt8
  deriving DecidableEq, Repr

namespace Timers

def initial : Timers :=
  ⟨0, 0⟩

def sounding (t : Timers) : Bool :=
  t.sound != 0

def setDelay (t : Timers) (v : UInt8) : Timers :=
  { t with delay := v }

def setSound (t : Timers) (v : UInt8) : Timers × Option SoundEdge :=
  ({ t with sound := v },
    if t.sound = 0 ∧ v ≠ 0 then some .start
    else if t.sound ≠ 0 ∧ v = 0 then some .stop
    else none)

def countDown (b : UInt8) : UInt8 :=
  if b = 0 then 0 else b - 1

theorem toNat_countDown (b : UInt8) : (countDown b).toNat = b.toNat - 1 := by
  unfold countDown
  split
  next h => simp [h]
  next h =>
    have pos : b.toNat ≠ 0 := fun e => h (UInt8.toNat_inj.mp (by simpa using e))
    have one : (1 : UInt8).toNat = 1 := rfl
    have lt := b.toNat_lt
    rw [UInt8.toNat_sub, one]
    omega

def tick (t : Timers) : Timers × Option SoundEdge :=
  (⟨countDown t.delay, countDown t.sound⟩, if t.sound = 1 then some .stop else none)

/-- Both timers at zero; the tone stops if it sounds. -/
def reset (t : Timers) : Timers × Option SoundEdge :=
  (t.setDelay 0).setSound 0

def text (t : Timers) : String :=
  "DT:" ++ dec t.delay.toNat ++ " | ST:" ++ dec t.sound.toNat

inductive Action where
  | delay (v : UInt8)
  | sound (v : UInt8)
  | tick
  | reset
  deriving DecidableEq, Repr

def apply (t : Timers) : Action → Timers × Option SoundEdge
  | .delay v => (t.setDelay v, none)
  | .sound v => t.setSound v
  | .tick => t.tick
  | .reset => t.reset

def run (t : Timers) : List Action → Timers × List SoundEdge
  | [] => (t, [])
  | a :: rest =>
    let (t', edge) := t.apply a
    let (t'', edges) := t'.run rest
    (t'', edge.toList ++ edges)

end Timers

end ChipEight

import ChipEight.Proofs.WaveLoop
import Mathlib.Algebra.BigOperators.Group.List.Basic
import Mathlib.Algebra.Ring.Int.Defs

/-!
One period of the tone. It has the amplitude in its first half and the negative of it in its second, which is one
sample longer if the period is odd, and every sample is there once for each channel. It is stored where there is room
for it and both samples can be, and the beeper hands it to its device as bytes.
-/

namespace ChipEight

namespace Tone

/-- The shape of a wave: there are two halves, how many samples there are, what each of them is and what they
come to. -/
structure Square (p channels a : Int) (wave : List Int) : Prop where
  first : 0 < p / 2
  second : p / 2 < p
  length : (wave.length : Int) = p * channels
  sample : ∀ i j : Nat, i < p → j < channels →
    wave[i * channels.toNat + j]? = some (if i < p / 2 then a else -a)
  values : ∀ s ∈ wave, s = a ∨ s = -a
  sum : wave.sum = if p % 2 = 0 then 0 else -a * channels

theorem sum_halves {p channels : Int} (long : 2 ≤ p) (counted : 0 ≤ channels) (a : Int) :
    (halves p channels a).sum = if p % 2 = 0 then 0 else -a * channels := by
  obtain ⟨c, rfl⟩ := Int.eq_ofNat_of_zero_le counted
  have first : ((p / 2).toNat : Int) = p / 2 := Int.toNat_of_nonneg (by omega)
  have second : ((p - p / 2).toNat : Int) = p / 2 + p % 2 := by omega
  rw [halves, List.sum_append, List.sum_replicate, List.sum_replicate, Int.nsmul_eq_mul, Int.nsmul_eq_mul,
    Int.toNat_natCast, Int.natCast_mul, Int.natCast_mul, first, second, Int.mul_neg, Int.add_mul, Int.add_mul, Int.neg_add,
    ← Int.add_assoc, Int.add_right_neg, Int.zero_add]
  split
  next even => rw [even, Int.zero_mul, Int.zero_mul, Int.neg_zero]
  next odd => rw [show p % 2 = 1 by omega, Int.one_mul, Int.mul_comm, Int.neg_mul]

theorem square_of_halves {p channels : Int} (long : 2 ≤ p) (counted : 0 ≤ channels) (a : Int) :
    Square p channels a (halves p channels a) where
  first := by omega
  second := by omega
  length := by
    obtain ⟨c, rfl⟩ := Int.eq_ofNat_of_zero_le counted
    rw [halves, List.length_append, List.length_replicate, List.length_replicate, ← Nat.add_mul, Int.toNat_natCast,
      show (p / 2).toNat + (p - p / 2).toNat = p.toNat by omega, Int.natCast_mul, Int.toNat_of_nonneg (by omega)]
  sample i j hi hj := by
    have column : j < channels.toNat := by omega
    rw [halves, List.getElem?_append, List.length_replicate, List.getElem?_replicate, List.getElem?_replicate]
    by_cases first : i < (p / 2).toNat
    · have inside : (i + 1) * channels.toNat ≤ (p / 2).toNat * channels.toNat := Nat.mul_le_mul_right _ first
      rw [Nat.succ_mul] at inside
      rw [if_pos (by omega), if_pos (by omega), if_pos (by omega)]
    · have behind : (p / 2).toNat * channels.toNat ≤ i * channels.toNat :=
        Nat.mul_le_mul_right _ (Nat.le_of_not_lt first)
      have inside : (i + 1) * channels.toNat ≤ ((p / 2).toNat + (p - p / 2).toNat) * channels.toNat :=
        Nat.mul_le_mul_right _ (by omega)
      rw [Nat.succ_mul, Nat.add_mul] at inside
      rw [if_neg (by omega), if_pos (by omega), if_neg (by omega)]
  values s mem := (List.mem_append.mp mem).imp List.eq_of_mem_replicate List.eq_of_mem_replicate
  sum := sum_halves long counted a

/-! ### What the device gets -/

def samplesOf : List UInt8 → List Int
  | low :: high :: rest => ((low.toNat + 256 * high.toNat : Nat) : Int).bmod 65536 :: samplesOf rest
  | _ => []

theorem samplesOf_bytes {samples : List Int} (stored : ∀ s ∈ samples, -32768 ≤ s ∧ s ≤ 32767) :
    samplesOf (bytes samples) = samples := by
  induction samples with
  | nil => rfl
  | cons s rest ih =>
    have bound := stored s List.mem_cons_self
    have value : (((lowByte s).toNat + 256 * (lowByte (s / 256)).toNat : Nat) : Int).bmod 65536 = s := by
      rw [toNat_lowByte, toNat_lowByte, Int.bmod]
      omega
    change _ :: samplesOf (bytes rest) = _
    rw [value, ih fun t ht => stored t (List.mem_cons_of_mem s ht)]

end Tone

namespace Beeper

theorem connect_of_device {frequency : Int} {mixer : Mixer} {room : Room} {wave : List Int}
    (h : Tone.waveAt volume frequency mixer.rate mixer.channels room = .ok wave) (ready : Bool) (library : Library) :
    connect frequency false ready (some mixer) library room =
      .ok (⟨true, false⟩, (if ready then [] else [.setUp wanted]) ++ [.sound (Tone.bytes wave)], []) := by
  simp only [connect, h, Bool.false_eq_true, if_false]

end Beeper

namespace Tone

variable {frequency : Int} {room : Room} {channels : Int}

section Room

variable (turns : frequency ≠ 0) (listed : roomError? room.entries channels = none) (audible : 1 ≤ channels)
include turns listed audible

theorem squareWave_of_first {a : Int} {e : ArgumentError} (refused : sampleError? a = some e) (rate : Int) :
    squareWave frequency rate channels a room = .error e := by
  simp only [squareWave_of_audible turns listed audible, refused]

theorem squareWave_of_crowded {a rate : Int} (least : -32767 ≤ a) (greatest : a ≤ 32767)
    (crowded : room.samples < period frequency rate * channels) :
    squareWave frequency rate channels a room = .error .outOfRoom := by
  simp only [squareWave_of_audible turns listed audible, sampleError?_eq_none (s := a) (by omega) greatest,
    sampleError?_eq_none (s := -a) (by omega) (by omega), if_pos crowded, ite_self]

theorem squareWave_of_least (rate : Int) :
    squareWave frequency rate channels (-32768) room =
      if room.samples < period frequency rate / 2 * channels then .error .outOfRoom
      else .error .sampleTooLarge :=
  squareWave_of_audible turns listed audible rate (-32768)

end Room

/-- What a frequency other than zero sounds like. Without channels the wave is empty. With channels it has two halves
where there is room for a sample of each channel in a list and for the whole wave, unless one of its samples needs more
than sixteen bits: then it is refused for the first such sample, and a sample beyond 64 bits for its width alone. A
number of channels beyond 64 bits is refused even if it is negative. The beeper hands its device this wave at the rate
and for the channels that the device reports. The frequency zero is refused whatever the volume, the rate and the
channels are. -/
theorem wave_of_two_halves (turns : frequency ≠ 0) (room : Room) (rate channels a : Int) :
    (∀ volume : Volume, waveAt volume 0 rate channels room = .error .zeroFrequency) ∧
    (∀ volume : Volume, amplitude volume = .ok a →
      waveAt volume frequency rate channels room = squareWave frequency rate channels a room) ∧
    (Fits64 channels → channels ≤ 0 → squareWave frequency rate channels a room = .ok []) ∧
    (1 ≤ channels → Fits64 channels → channels ≤ room.entries →
      (-32767 ≤ a → a ≤ 32767 → max 2 (rate.fdiv frequency) * channels ≤ room.samples →
        ∃ wave, squareWave frequency rate channels a room = .ok wave ∧
          Square (max 2 (rate.fdiv frequency)) channels a wave) ∧
      (-32767 ≤ a → a ≤ 32767 → room.samples < max 2 (rate.fdiv frequency) * channels →
        squareWave frequency rate channels a room = .error .outOfRoom) ∧
      (Fits64 a → 32767 < a → squareWave frequency rate channels a room = .error .sampleTooLarge) ∧
      (a = -32768 → max 2 (rate.fdiv frequency) / 2 * channels ≤ room.samples →
        squareWave frequency rate channels a room = .error .sampleTooLarge) ∧
      (a = -32768 → room.samples < max 2 (rate.fdiv frequency) / 2 * channels →
        squareWave frequency rate channels a room = .error .outOfRoom) ∧
      (Fits64 a → a < -32768 → squareWave frequency rate channels a room = .error .sampleTooSmall) ∧
      (¬ Fits64 a → squareWave frequency rate channels a room = .error .sampleTooWide)) ∧
    (Fits64 channels → room.entries < channels →
      squareWave frequency rate channels a room = .error .outOfRoom) ∧
    (¬ Fits64 channels → squareWave frequency rate channels a room = .error .countTooWide) ∧
    (∀ (ready : Bool) (mixer : Mixer) (library : Library), HasRoom room frequency mixer.rate mixer.channels →
      ∃ wave, waveAt Beeper.volume frequency mixer.rate mixer.channels room = .ok wave ∧
        Beeper.connect frequency false ready (some mixer) library room =
          .ok (⟨true, false⟩, (if ready then [] else [.setUp Beeper.wanted]) ++ [.sound (bytes wave)], []) ∧
        samplesOf (bytes wave) = wave ∧
        (mixer.channels ≤ 0 → wave = []) ∧
        (1 ≤ mixer.channels → Square (max 2 (mixer.rate.fdiv frequency)) mixer.channels 8191 wave ∧
          ((bytes wave).length : Int) = 2 * (max 2 (mixer.rate.fdiv frequency) * mixer.channels))) := by
  refine ⟨fun volume => if_pos rfl, fun volume given => waveAt_of_amplitude given frequency rate channels room,
    fun fits silent => squareWave_of_silent turns (roomError?_eq_none_iff.mpr ⟨fits, ?few⟩) silent rate a,
    fun audible fits entries => ?audible,
    fun fits crowded => squareWave_of_refused turns ?crowded rate a,
    fun wide => squareWave_of_refused turns (if_pos wide) rate a, fun ready mixer library hasRoom => ?beeper⟩
  case few => omega
  case crowded => rw [roomError?, if_neg (not_not_intro fits), if_pos crowded]
  case audible =>
    have listed := roomError?_eq_none_iff.mpr ⟨fits, entries⟩
    refine ⟨fun least greatest whole =>
        ⟨_, squareWave_of_hasRoom turns ⟨fits, entries, whole⟩ audible least greatest,
          square_of_halves (two_le_period frequency rate) (by omega) a⟩,
      fun least greatest crowded => squareWave_of_crowded turns listed audible least greatest crowded,
      fun fits great => squareWave_of_first turns listed audible (sampleError?_of_great fits great) rate,
      ?_, ?_,
      fun fits small => squareWave_of_first turns listed audible (sampleError?_of_small fits small) rate,
      fun wide => squareWave_of_first turns listed audible (sampleError?_of_wide wide) rate⟩
    · rintro rfl half
      rw [squareWave_of_least turns listed audible]
      exact if_neg (Int.not_lt.mpr half)
    · rintro rfl crowded
      rw [squareWave_of_least turns listed audible]
      exact if_pos crowded
  case beeper =>
    have sounds := waveAt_of_amplitude amplitude_volume frequency mixer.rate mixer.channels room
    by_cases silent : mixer.channels ≤ 0
    · rw [squareWave_of_silent turns hasRoom.listed silent] at sounds
      exact ⟨[], sounds, Beeper.connect_of_device sounds ready library, rfl, fun _ => rfl, fun audible => by omega⟩
    · have audible : 1 ≤ mixer.channels := by omega
      rw [squareWave_of_hasRoom turns hasRoom audible (by decide) (by decide)] at sounds
      have square := square_of_halves (two_le_period frequency mixer.rate) (Int.le_of_lt audible) 8191
      refine ⟨_, sounds, Beeper.connect_of_device sounds ready library, samplesOf_bytes fun s mem => ?_,
        fun silent => by omega, fun _ => ⟨square, ?_⟩⟩
      · have value := square.values s mem
        omega
      · rw [length_bytes, Int.natCast_mul, square.length]
        rfl

theorem wave_of_two_halves_odd :
    (∃ wave, squareWave 1 3 2 5 ⟨2, 0, 6⟩ = .ok wave ∧ Square 3 2 5 wave) ∧
      squareWave 1 3 2 5 ⟨2, 0, 5⟩ = .error .outOfRoom ∧
      squareWave 1 3 (-2) 5 ⟨2, 0, 6⟩ = .ok [] ∧
      squareWave 1 3 2 (-32768) ⟨2, 0, 2⟩ = .error .sampleTooLarge ∧
      squareWave 1 3 2 (-32768) ⟨2, 0, 1⟩ = .error .outOfRoom ∧
      squareWave 1 3 2 (-32769) ⟨2, 0, 0⟩ = .error .sampleTooSmall ∧
      squareWave 1 3 2 9223372036854775808 ⟨2, 0, 0⟩ = .error .sampleTooWide ∧
      squareWave 1 4611686018427387904 1 8191 = .error .outOfRoom ∧
      squareWave 1 3 4611686018427387904 5 = .error .outOfRoom ∧
      squareWave 1 3 (-9223372036854775809) 5 = .error .countTooWide ∧
      waveAt Beeper.volume 1 3 2 = squareWave 1 3 2 8191 ∧
      ∃ wave, Beeper.connect 440 false true (some ⟨44100, -16, 2⟩) =
          .ok (⟨true, false⟩, [.sound (bytes wave)], []) ∧
        samplesOf (bytes wave) = wave ∧ Square 100 2 8191 wave ∧ ((bytes wave).length : Int) = 400 := by
  have one : (1 : Int) ≠ 0 := by decide
  obtain ⟨-, -, -, audible, -⟩ := wave_of_two_halves one ⟨2, 0, 6⟩ 3 2 5
  obtain ⟨-, -, -, narrow, -⟩ := wave_of_two_halves one ⟨2, 0, 5⟩ 3 2 5
  obtain ⟨-, -, silent, -⟩ := wave_of_two_halves one ⟨2, 0, 6⟩ 3 (-2) 5
  obtain ⟨-, -, -, least, -⟩ := wave_of_two_halves one ⟨2, 0, 2⟩ 3 2 (-32768)
  obtain ⟨-, -, -, least', -⟩ := wave_of_two_halves one ⟨2, 0, 1⟩ 3 2 (-32768)
  obtain ⟨-, -, -, small, -⟩ := wave_of_two_halves one ⟨2, 0, 0⟩ 3 2 (-32769)
  obtain ⟨-, -, -, wide, -⟩ := wave_of_two_halves one ⟨2, 0, 0⟩ 3 2 9223372036854775808
  obtain ⟨-, -, -, long, -⟩ := wave_of_two_halves one .usual 4611686018427387904 1 8191
  obtain ⟨-, -, -, -, crowded, -⟩ := wave_of_two_halves one .usual 3 4611686018427387904 5
  obtain ⟨-, -, -, -, -, countless, -⟩ := wave_of_two_halves one .usual 3 (-9223372036854775809) 5
  obtain ⟨-, given, -⟩ := wave_of_two_halves one .usual 3 2 8191
  obtain ⟨-, -, -, -, -, -, beeper⟩ := wave_of_two_halves (by decide : (440 : Int) ≠ 0) .usual 3 2 5
  obtain ⟨wave, -, connected, read, -, square⟩ := beeper true ⟨44100, -16, 2⟩ .usual (by decide)
  obtain ⟨shape, size⟩ := square (by decide)
  exact ⟨(audible (by decide) (by decide) (by decide)).1 (by decide) (by decide) (by decide),
    (narrow (by decide) (by decide) (by decide)).2.1 (by decide) (by decide) (by decide),
    silent (by decide) (by decide),
    (least (by decide) (by decide) (by decide)).2.2.2.1 rfl (by decide),
    (least' (by decide) (by decide) (by decide)).2.2.2.2.1 rfl (by decide),
    (small (by decide) (by decide) (by decide)).2.2.2.2.2.1 (by decide) (by decide),
    (wide (by decide) (by decide) (by decide)).2.2.2.2.2.2 (by decide),
    (long (by decide) (by decide) (by decide)).2.1 (by decide) (by decide) (by decide),
    crowded (by decide) (by decide), countless (by decide),
    given Beeper.volume amplitude_volume, wave, connected, read, shape, size⟩

/-- Samples and numbers of channels beyond 64 bits are refused for their width: samples that are too large are not
refused as such, and neither does a negative number of channels always make an empty wave. Nor is there a wave for
every number of channels that fits, or for every rate. -/
theorem wave_refused_for_width :
    amplitude (.whole 1000000000000000) = .ok 32767000000000000000 ∧
      waveAt (.whole 1000000000000000) 440 44100 1 = .error .sampleTooWide ∧
      waveAt (.whole 1000000000000000) 440 44100 1 ≠ .error .sampleTooLarge ∧
      squareWave 440 44100 (-100000000000000000000) 8191 = .error .countTooWide ∧
      squareWave 440 44100 (-100000000000000000000) 8191 ≠ .ok [] ∧
      squareWave 440 44100 4611686018427387904 8191 = .error .outOfRoom ∧
      (∀ wave, squareWave 440 44100 4611686018427387904 8191 ≠ .ok wave) ∧
      squareWave 1 4611686018427387904 1 8191 = .error .outOfRoom ∧
      ∀ wave, squareWave 1 4611686018427387904 1 8191 ≠ .ok wave := by
  have turns : (440 : Int) ≠ 0 := by decide
  have listed : roomError? Room.usual.entries 1 = none := rfl
  have amplitude_whole : amplitude (.whole 1000000000000000) = .ok 32767000000000000000 := rfl
  have wave : waveAt (.whole 1000000000000000) 440 44100 1 = .error .sampleTooWide :=
    (waveAt_of_amplitude amplitude_whole 440 44100 1 .usual).trans
      (squareWave_of_first turns listed (by decide) (sampleError?_of_wide (by decide)) 44100)
  have channels : squareWave 440 44100 (-100000000000000000000) 8191 = .error .countTooWide :=
    squareWave_of_refused turns (by decide) 44100 8191
  have crowd : squareWave 440 44100 4611686018427387904 8191 = .error .outOfRoom :=
    squareWave_of_refused turns (by decide) 44100 8191
  have long : squareWave 1 4611686018427387904 1 8191 = .error .outOfRoom :=
    squareWave_of_crowded (by decide) listed (by decide) (by decide) (by decide) (by decide)
  refine ⟨amplitude_whole, wave, ?_, channels, ?_, crowd, fun wave => ?_, long, fun wave => ?_⟩
  · rw [wave]
    simp
  · rw [channels]
    simp
  · rw [crowd]
    simp
  · rw [long]
    simp

end Tone

end ChipEight

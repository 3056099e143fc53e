import ChipEight.Beeper

/-!
How a wave comes about, sample after sample. A stretch of equal samples is stored as a whole or refused as a whole, for
the sample first and then for want of room; a period is two such stretches, one after the other.
-/

namespace ChipEight

namespace Tone

theorem sampleError?_eq_none {s : Int} (least : -32768 ≤ s) (greatest : s ≤ 32767) : sampleError? s = none := by
  have fits : Fits64 s := ⟨by omega, by omega⟩
  rw [sampleError?, if_neg (not_not_intro fits), if_neg (by omega), if_neg (by omega)]

theorem sampleError?_of_great {s : Int} (fits : Fits64 s) (great : 32767 < s) :
    sampleError? s = some .sampleTooLarge := by
  rw [sampleError?, if_neg (not_not_intro fits), if_neg (by omega), if_pos great]

theorem sampleError?_of_small {s : Int} (fits : Fits64 s) (small : s < -32768) :
    sampleError? s = some .sampleTooSmall := by
  rw [sampleError?, if_neg (not_not_intro fits), if_pos small]

theorem sampleError?_of_wide {s : Int} (wide : ¬ Fits64 s) : sampleError? s = some .sampleTooWide :=
  if_pos wide

theorem two_le_period (frequency rate : Int) : 2 ≤ period frequency rate :=
  Int.le_max_left 2 _

variable {room : Room} {channels : Int}

theorem extend_of_refused {e : ArgumentError} (refused : roomError? room.entries channels = some e)
    (wave : Array Int) (s : Int) : extend room channels wave s = .error e := by
  simp only [extend, refused]

theorem extend_of_silent (listed : roomError? room.entries channels = none) (silent : channels ≤ 0)
    (wave : Array Int) (s : Int) : extend room channels wave s = .ok wave := by
  simp only [extend, listed, if_pos silent]

theorem extend_of_audible (listed : roomError? room.entries channels = none) (audible : 1 ≤ channels)
    (wave : Array Int) (s : Int) :
    extend room channels wave s =
      match sampleError? s with
      | some e => .error e
      | none =>
        if room.samples < wave.size + channels.toNat then .error .outOfRoom
        else .ok (wave ++ Array.replicate channels.toNat s) := by
  have heard : ¬ channels ≤ 0 := by omega
  rw [extend, listed]
  exact if_neg heard

section Loop

variable (p a : Int)

theorem extendFrom_of_silent (listed : roomError? room.entries channels = none) (silent : channels ≤ 0)
    (i : Nat) (wave : Array Int) (n : Nat) : extendFrom room p channels a i wave n = .ok wave := by
  induction n generalizing i with
  | zero => rfl
  | succ n ih =>
    rw [extendFrom, extend_of_silent listed silent]
    exact ih (i + 1)

theorem extendFrom_add (i : Nat) (wave : Array Int) (m n : Nat) :
    extendFrom room p channels a i wave (m + n) =
      match extendFrom room p channels a i wave m with
      | .error e => .error e
      | .ok longer => extendFrom room p channels a (i + m) longer n := by
  induction m generalizing i wave with
  | zero => rw [Nat.zero_add]; rfl
  | succ m ih =>
    rw [Nat.succ_add, extendFrom, extendFrom]
    cases extend room channels wave (sampleAt p a i) with
    | error e => rfl
    | ok longer =>
      simp only [ih]
      rw [Nat.add_assoc i 1 m, Nat.add_comm 1 m]

theorem extendFrom_of_const (listed : roomError? room.entries channels = none) (audible : 1 ≤ channels)
    {s : Int} {n : Nat} (i : Nat) (const : ∀ k < n, sampleAt p a ((i + k : Nat) : Int) = s) (wave : Array Int)
    (nonempty : n ≠ 0) :
    extendFrom room p channels a i wave n =
      match sampleError? s with
      | some e => .error e
      | none =>
        if room.samples < wave.size + n * channels.toNat then .error .outOfRoom
        else .ok (wave ++ Array.replicate (n * channels.toNat) s) := by
  -- want of room for the next samples is want of room for all that are left
  induction n generalizing i wave with
  | zero => exact absurd rfl nonempty
  | succ n ih =>
    have rest (longer : Array Int) := ih (i + 1) (fun k hk => by
      have later := const (k + 1) (Nat.succ_lt_succ hk)
      rwa [Nat.add_comm k 1, ← Nat.add_assoc] at later) longer
    have now : sampleAt p a (i : Int) = s := const 0 (Nat.succ_pos n)
    rw [extendFrom, now, extend_of_audible listed audible]
    cases refused : sampleError? s with
    | some e => rfl
    | none =>
      by_cases crowded : room.samples < wave.size + channels.toNat
      · have more : room.samples < wave.size + (n + 1) * channels.toNat := by
          rw [Nat.succ_mul]
          omega
        simp only [if_pos crowded, if_pos more]
      · simp only [if_neg crowded]
        by_cases last : n = 0
        · subst last
          simp only [Nat.zero_add, Nat.one_mul, if_neg crowded]
          rfl
        · rw [rest _ last, refused]
          simp only [Array.size_append, Array.size_replicate, Array.append_assoc, Array.replicate_append_replicate,
            Nat.succ_mul, Nat.add_assoc, Nat.add_comm channels.toNat]

end Loop

def halves (p channels a : Int) : List Int :=
  List.replicate ((p / 2).toNat * channels.toNat) a ++ List.replicate ((p - p / 2).toNat * channels.toNat) (-a)

section SquareWave

variable {frequency : Int} (turns : frequency ≠ 0)
include turns

theorem squareWave_of_refused {e : ArgumentError} (refused : roomError? room.entries channels = some e)
    (rate a : Int) : squareWave frequency rate channels a room = .error e := by
  have long := two_le_period frequency rate
  have more : (period frequency rate).toNat = ((period frequency rate).toNat - 1) + 1 := by omega
  simp only [squareWave, if_neg turns]
  rw [more, extendFrom, extend_of_refused refused]
  rfl

theorem squareWave_of_silent (listed : roomError? room.entries channels = none) (silent : channels ≤ 0)
    (rate a : Int) : squareWave frequency rate channels a room = .ok [] := by
  simp only [squareWave, if_neg turns, extendFrom_of_silent _ _ listed silent]
  rfl

theorem squareWave_of_audible (listed : roomError? room.entries channels = none) (audible : 1 ≤ channels)
    (rate a : Int) :
    squareWave frequency rate channels a room =
      match sampleError? a with
      | some e => .error e
      | none =>
        if room.samples < period frequency rate / 2 * channels then .error .outOfRoom
        else
          match sampleError? (-a) with
          | some e => .error e
          | none =>
            if room.samples < period frequency rate * channels then .error .outOfRoom
            else .ok (halves (period frequency rate) channels a) := by
  simp only [squareWave, if_neg turns]
  have long := two_le_period frequency rate
  generalize period frequency rate = p at long
  have count {x : Int} (nonneg : 0 ≤ x) : room.samples < x.toNat * channels.toNat ↔ room.samples < x * channels := by
    rw [← Int.ofNat_lt, Int.natCast_mul, Int.toNat_of_nonneg nonneg, Int.toNat_of_nonneg (by omega)]
  simp only [← count (show 0 ≤ p / 2 by omega), ← count (show 0 ≤ p by omega)]
  -- the samples of the first half are stored before those of the second are looked at
  have split : p.toNat = (p / 2).toNat + (p - p / 2).toNat := by omega
  have first := extendFrom_of_const (s := a) p a listed audible (n := (p / 2).toNat) 0
    (fun k hk => by rw [sampleAt, if_pos (by omega)]) #[] (by omega)
  have second (wave : Array Int) := extendFrom_of_const (s := -a) p a listed audible (n := (p - p / 2).toNat)
    (p / 2).toNat (fun k _ => by rw [sampleAt, if_neg (by omega)]) wave (by omega)
  rw [split, extendFrom_add, first, Nat.zero_add]
  cases sampleError? a with
  | some e => rfl
  | none =>
    by_cases crowded : room.samples < (p / 2).toNat * channels.toNat
    · simp [crowded, Except.map]
    · simp only [Array.size_empty, Nat.zero_add, if_neg crowded, second]
      cases sampleError? (-a) with
      | some e => rfl
      | none =>
        simp only [Array.empty_append, Array.size_replicate, ← Nat.add_mul]
        split
        · rfl
        · simp [halves, Except.map]

end SquareWave

theorem waveAt_of_amplitude {volume : Volume} {a : Int} (given : amplitude volume = .ok a)
    (frequency rate channels : Int) (room : Room) :
    waveAt volume frequency rate channels room = squareWave frequency rate channels a room := by
  by_cases still : frequency = 0
  · rw [waveAt, squareWave, if_pos still, if_pos still]
  · rw [waveAt, if_neg still, given]

theorem amplitude_volume : amplitude Beeper.volume = .ok 8191 := rfl

theorem HasRoom.listed {frequency rate : Int} (hasRoom : HasRoom room frequency rate channels) :
    roomError? room.entries channels = none :=
  roomError?_eq_none_iff.mpr ⟨hasRoom.1, hasRoom.2.1⟩

theorem HasRoom.half {frequency rate : Int} (hasRoom : HasRoom room frequency rate channels)
    (audible : 1 ≤ channels) : period frequency rate / 2 * channels ≤ room.samples := by
  have long := two_le_period frequency rate
  calc
    period frequency rate / 2 * channels ≤ period frequency rate * channels :=
      Int.mul_le_mul_of_nonneg_right (by omega) (by omega)
    _ ≤ room.samples := hasRoom.2.2

theorem squareWave_of_hasRoom {frequency rate a : Int} (turns : frequency ≠ 0)
    (hasRoom : HasRoom room frequency rate channels) (audible : 1 ≤ channels) (least : -32767 ≤ a)
    (greatest : a ≤ 32767) :
    squareWave frequency rate channels a room = .ok (halves (period frequency rate) channels a) := by
  rw [squareWave_of_audible turns hasRoom.listed audible, sampleError?_eq_none (by omega) greatest]
  simp only [if_neg (Int.not_lt.mpr (hasRoom.half audible)), if_neg (Int.not_lt.mpr hasRoom.2.2),
    sampleError?_eq_none (s := -a) (by omega) (by omega)]

/-- The tone of the beeper can be stored wherever there is room for it. -/
theorem exists_wave {frequency rate : Int} (turns : frequency ≠ 0)
    (hasRoom : HasRoom room frequency rate channels) :
    ∃ wave, waveAt Beeper.volume frequency rate channels room = .ok wave := by
  rw [waveAt_of_amplitude amplitude_volume]
  by_cases silent : channels ≤ 0
  · exact ⟨[], squareWave_of_silent turns hasRoom.listed silent rate 8191⟩
  · exact ⟨_, squareWave_of_hasRoom turns hasRoom (by omega) (by decide) (by decide)⟩

end Tone

end ChipEight

import ChipEight.Proofs.Loading
import ChipEight.Proofs.Representation

/-!
The first fetch after a load. A ROM can be put anywhere behind the font, but opcodes are fetched from the
program area alone, which starts later.
-/

namespace ChipEight.Machine

open Parameters

theorem wordAt_start {m : Machine} {rom : List UInt8} {offset : Nat} (word : 2 ≤ rom.length)
    (fits : offset + rom.length ≤ m.memory.size) :
    (m.withRom rom offset).wordAt offset = 256 * (rom.getD 0 0).toNat + (rom.getD 1 0).toNat :=
  wordAt_withRom fits (k := 0) word

theorem fetch_answer (m : Machine) :
    m.fetch.answer =
      if InProgram m.registers.pc then .ok (m.wordAt m.registers.pc)
      else .error (.programCounter m.registers.pc) := by
  rw [fetch]
  split <;> rfl

theorem fits_of_loadRom {m : Machine} {rom : List UInt8} {offset : Int}
    (loads : (m.loadRom rom offset).answer = .ok ()) :
    Font.size ≤ offset ∧ offset + rom.length ≤ m.memory.size :=
  loadRom_ok_iff.mp loads

/-- After a load of at least one word the next fetch gives this word if the ROM was put into the program
area. Behind the font there is room before that area, where a load succeeds and the fetch fails. -/
theorem fetch_after_load {m : Machine} (reachable : m.Reachable) {rom : List UInt8} {offset : Int}
    (word : 2 ≤ rom.length) (loads : (m.loadRom rom offset).answer = .ok ()) :
    (0x50 ≤ offset ∧ offset ≤ 0xFFE) ∧
      (m.loadRom rom offset).machine.fetch.answer =
        if 0x200 ≤ offset then .ok (256 * (rom.getD 0 0).toNat + (rom.getD 1 0).toNat)
        else .error (.programCounter offset) := by
  obtain ⟨behind, fits⟩ := fits_of_loadRom loads
  have size : m.memory.size = 4096 := reachable.wellFormed.size
  have range : 0x50 ≤ offset ∧ offset ≤ 0xFFE := by
    simp only [Font.size] at behind
    omega
  refine ⟨range, ?_⟩
  obtain ⟨start, rfl⟩ := Int.eq_ofNat_of_zero_le (show 0 ≤ offset by omega)
  have inside : InProgram start ↔ (0x200 : Int) ≤ start := by
    simp only [InProgram, programStart, lastInstruction, memorySize]
    omega
  have pc : (m.withRom rom start).registers.pc = start := rfl
  rw [m.loadRom_of_fits rom start (by omega) (by omega), Outcome.machine_done, fetch_answer, pc,
    wordAt_start word (by omega)]
  simp only [inside]

theorem fetch_after_load_last :
    ((initial (.ofList [])).loadRom [0x6A, 0x42] 0xFFE).machine.fetch.answer = .ok 0x6A42 := by
  have loads : ((initial (.ofList [])).loadRom [0x6A, 0x42] 0xFFE).answer = .ok () := by
    have fits := (initial (.ofList [])).loadRom_of_fits [0x6A, 0x42] 0xFFE (by decide)
      (by rw [size_initial]; decide)
    exact congrArg Outcome.answer fits
  exact (fetch_after_load ⟨_, [], rfl⟩ (by decide) loads).2

/-- A ROM between the font and the program area does not start. -/
theorem fetch_after_load_before_program :
    ¬ ∀ m : Machine, m.Reachable → m.halted = false → ∀ (rom : List UInt8) (offset : Int),
      2 ≤ rom.length → (m.loadRom rom offset).answer = .ok () →
        (m.loadRom rom offset).machine.fetch.answer =
          .ok (256 * (rom.getD 0 0).toNat + (rom.getD 1 0).toNat) := by
  intro starts
  have fits := (initial (.ofList [])).loadRom_of_fits [0x6A, 0x42] 0x100 (by decide)
    (by rw [size_initial]; decide)
  have loads : ((initial (.ofList [])).loadRom [0x6A, 0x42] 0x100).answer = .ok () :=
    congrArg Outcome.answer fits
  have fetched := starts (initial (.ofList [])) ⟨_, [], rfl⟩ rfl [0x6A, 0x42] 0x100 (by decide) loads
  rw [show (0x100 : Int) = (0x100 : Nat) from rfl, fits, Outcome.machine_done, fetch_answer] at fetched
  cases fetched

end ChipEight.Machine

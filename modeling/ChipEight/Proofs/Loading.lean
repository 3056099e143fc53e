import ChipEight.Proofs.MemoryAccess
import ChipEight.Proofs.Runs

/-!
A ROM in memory: what a load that fits leaves, and which words are then found in its place.
-/

namespace ChipEight

namespace Memory

theorem byteAt_splice (m : Memory) {start : Nat} {bs : List UInt8}
    (fits : start + bs.length ≤ m.size) (k : Nat) :
    (m.splice start bs).byteAt k =
      if start ≤ k ∧ k < start + bs.length then bs.getD (k - start) 0 else m.byteAt k := by
  have nonneg : ¬ (k : Int) < 0 := by omega
  simp only [byteAt, nonneg, if_false, Int.toNat_natCast, Array.getD_eq_getD_getElem?,
    getElem?_splice m fits, List.getD_eq_getElem?_getD]
  by_cases before : k < start
  · have outside : ¬ (start ≤ k ∧ k < start + bs.length) := by omega
    rw [if_pos before, if_neg outside]
  · by_cases within : k < start + bs.length
    · rw [if_neg before, if_pos within, if_pos ⟨by omega, within⟩]
    · have outside : ¬ (start ≤ k ∧ k < start + bs.length) := by omega
      rw [if_neg before, if_neg within, if_neg outside]

end Memory

namespace Machine

def withRom (m : Machine) (rom : List UInt8) (offset : Nat) : Machine :=
  { m with memory := m.memory.splice offset rom }.setPc offset

theorem loadRom_of_load {m : Machine} {rom : List UInt8} {offset : Int} {memory : Memory}
    (loaded : m.memory.load rom offset = .ok memory) :
    m.loadRom rom offset = .done ({ m with memory }.setPc offset) [.loaded rom.length offset] := by
  rw [loadRom, loaded]

theorem loadRom_of_fits (m : Machine) (rom : List UInt8) (offset : Nat)
    (behind : Font.size ≤ offset) (fits : offset + rom.length ≤ m.memory.size) :
    m.loadRom rom offset = .done (m.withRom rom offset) [.loaded rom.length offset] := by
  have loaded := (m.memory.load_eq_ok_iff _ rom offset).mpr ⟨by omega, by omega, rfl⟩
  exact loadRom_of_load loaded

theorem loadRom_of_refused {m : Machine} {rom : List UInt8} {offset : Int} {r : RomTooLarge}
    (refused : m.memory.load rom offset = .error r) :
    m.loadRom rom offset = .fail m (.romTooLarge r) := by
  simp only [loadRom, refused]

theorem loadRom_ok_iff {m : Machine} {rom : List UInt8} {offset : Int} :
    (m.loadRom rom offset).answer = .ok () ↔
      Font.size ≤ offset ∧ offset + rom.length ≤ m.memory.size := by
  rw [← m.memory.loads_iff]
  cases loads : m.memory.load rom offset with
  | error r => simp [loadRom_of_refused loads, Outcome.fail]
  | ok memory => simp [loadRom_of_load loads]

theorem loadRom_of_unfit {m : Machine} {rom : List UInt8} {offset : Int}
    (unfit : ¬ (Font.size ≤ offset ∧ offset + rom.length ≤ m.memory.size)) :
    m.loadRom rom offset = .fail m (.romTooLarge ⟨rom.length, offset, m.memory.size⟩) :=
  loadRom_of_refused ((m.memory.load_eq_error_iff rom offset _).mpr ⟨unfit, rfl⟩)

theorem size_initial (random : RandomBytes) : (initial random).memory.size = 4096 :=
  Memory.size_ofSize 4096

section ProgramArea

variable {m : Machine} (size : m.memory.size = 4096) {rom : List UInt8}
include size

theorem loadRom_programStart (fits : rom.length ≤ 3584) :
    m.loadRom rom Parameters.programStart =
      .done (m.withRom rom 0x200) [.loaded rom.length 0x200] :=
  loadRom_of_fits m rom 0x200 (by decide) (by omega)

theorem loadRom_too_large (tooLarge : 3584 < rom.length) :
    m.loadRom rom Parameters.programStart = .fail m (.romTooLarge ⟨rom.length, 0x200, 4096⟩) := by
  have unfit : ¬ (Font.size ≤ (Parameters.programStart : Int) ∧
      (Parameters.programStart : Int) + rom.length ≤ m.memory.size) := by
    simp only [Parameters.programStart]
    omega
  rw [loadRom_of_unfit unfit, size]
  rfl

end ProgramArea

theorem loadRom_halted (m : Machine) (rom : List UInt8) (offset : Int) :
    (m.loadRom rom offset).machine.halted = m.halted := by
  simp only [loadRom]
  split <;> rfl

theorem loadRom_display (m : Machine) (rom : List UInt8) (offset : Int) :
    (m.loadRom rom offset).machine.display = m.display := by
  simp only [loadRom]
  split <;> rfl

theorem loadRom_timers (m : Machine) (rom : List UInt8) (offset : Int) :
    (m.loadRom rom offset).machine.timers = m.timers := by
  simp only [loadRom]
  split <;> rfl

theorem wordAt_withRom {m : Machine} {rom : List UInt8} {offset : Nat}
    (fits : offset + rom.length ≤ m.memory.size) {k : Nat} (inside : k + 1 < rom.length) :
    (m.withRom rom offset).wordAt (offset + k : Nat) =
      256 * (rom.getD k 0).toNat + (rom.getD (k + 1) 0).toNat := by
  change 256 * ((m.memory.splice offset rom).byteAt (offset + k : Nat)).toNat +
    ((m.memory.splice offset rom).byteAt ((offset + k + 1 : Nat))).toNat = _
  rw [Memory.byteAt_splice _ fits, Memory.byteAt_splice _ fits, if_pos (by omega),
    if_pos (by omega), Nat.add_sub_cancel_left, Nat.add_assoc, Nat.add_sub_cancel_left]

theorem wordAt_of_memory {m m' : Machine} (memory : m.memory = m'.memory) (a : Int) :
    m.wordAt a = m'.wordAt a := by
  rw [wordAt, wordAt, memory]

theorem wordAt_setIndex (m : Machine) (v a : Int) : (m.setIndex v).wordAt a = m.wordAt a := rfl

def loaded (rom : List UInt8) : Machine :=
  (initial (.ofList [])).withRom rom 0x200

theorem machine_load_initial (random : RandomBytes) {rom : List UInt8} (fits : rom.length ≤ 3584) :
    ((initial random).perform (.load rom 0x200)).machine = { loaded rom with random } := by
  rw [show (0x200 : Int) = Parameters.programStart from rfl, perform_load_machine,
    loadRom_programStart (size_initial _) fits]
  rfl

theorem after_load (rom : List UInt8) (fits : rom.length ≤ 3584) (ops : List Operation) :
    (initial (.ofList [])).after (.load rom 0x200 :: ops) = (loaded rom).after ops := by
  rw [after_cons, machine_load_initial _ fits]
  rfl

theorem wordAt_loaded (rom : List UInt8) (fits : rom.length ≤ 3584) (k : Nat)
    (inside : k + 1 < rom.length) :
    (loaded rom).wordAt (0x200 + k : Nat) =
      256 * (rom.getD k 0).toNat + (rom.getD (k + 1) 0).toNat := by
  have size := size_initial (.ofList [])
  exact wordAt_withRom (by omega) inside

end Machine

end ChipEight

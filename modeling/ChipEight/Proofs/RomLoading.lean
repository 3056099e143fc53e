import ChipEight.Proofs.BlockAccess
import ChipEight.Proofs.Representation

/-!
Loading a ROM is all or nothing. A ROM that lies behind the font and fits replaces just its own bytes, and these
are the opcodes that are fetched from its place; any other is refused, and nothing is changed.
-/

namespace ChipEight

namespace Memory

variable {m : Memory} {rom : List UInt8} {offset : Int}

theorem replaced_of_load {m' : Memory} (loaded : m.load rom offset = .ok m') : m.Replaced m' offset rom := by
  obtain ⟨behind, fits, rfl⟩ := (m.load_eq_ok_iff m' rom offset).mp loaded
  obtain ⟨start, rfl⟩ := Int.eq_ofNat_of_zero_le (show 0 ≤ offset by omega)
  exact m.replaced_splice (by omega)

theorem Replaced.byteAt {m' : Memory} {start : Int} {bs : List UInt8} (replaced : m.Replaced m' start bs)
    (k : Nat) (h : k < bs.length) : m'.byteAt (start + k) = bs[k] :=
  ((m'.read_eq_ok_iff _ _).mp (replaced.inside k h)).2

end Memory

namespace Machine

open Parameters

section Load

variable {m : Machine} {rom : List UInt8} {offset : Int}

theorem left_of_loadRom (loads : (m.loadRom rom offset).answer = .ok ()) :
    m.memory.Replaced (m.loadRom rom offset).machine.memory offset rom ∧
      (m.loadRom rom offset).machine =
        { m with memory := (m.loadRom rom offset).machine.memory, registers.pc := offset } := by
  obtain ⟨memory, loaded⟩ := (m.memory.loads_iff rom offset).mpr (loadRom_ok_iff.mp loads)
  rw [loadRom_of_load loaded]
  exact ⟨Memory.replaced_of_load loaded, rfl⟩

end Load

theorem fetch_of_inside {m : Machine} (inside : InProgram m.registers.pc) :
    m.fetch = .ok { m with registers := m.registers.advance } (m.wordAt m.registers.pc) [] :=
  if_pos inside

theorem wordAt_of_replaced {m : Machine} {before : Memory} {start : Int} {rom : List UInt8}
    (replaced : before.Replaced m.memory start rom) {k : Nat} (h : 2 * k + 1 < rom.length) :
    m.wordAt (start + (2 * k : Nat)) = 256 * rom[2 * k].toNat + rom[2 * k + 1].toNat := by
  have next : start + (2 * k : Nat) + 1 = start + (2 * k + 1 : Nat) := by omega
  rw [wordAt, next, replaced.byteAt (2 * k) (by omega), replaced.byteAt (2 * k + 1) h]

/-- A ROM is loaded exactly if it lies behind the font and fits. Then its bytes replace those in its place, and
the program counter goes to it; else nothing changes. Loaded at the start of the program area, its words are what
is fetched there as long as memory stays as it is. The same holds of memory of any size. -/
theorem load_all_or_nothing {m : Machine} (reachable : m.Reachable) (rom : List UInt8) (offset : Int) :
    let o := m.loadRom rom offset
    (o.answer = .ok () ↔ 0x50 ≤ offset ∧ offset + rom.length ≤ 0x1000) ∧
    (o.answer = .ok () →
      m.memory.Replaced o.machine.memory offset rom ∧
        o.machine = { m with memory := o.machine.memory, registers.pc := offset }) ∧
    (o.answer ≠ .ok () →
      o.answer = .error (.romTooLarge ⟨rom.length, offset, 0x1000⟩) ∧ o.machine = m ∧ o.events = []) ∧
    (o.answer = .ok () → offset = 0x200 → ∀ k (h : 2 * k + 1 < rom.length) (s : Machine),
      s.memory = o.machine.memory → s.registers.pc = 0x200 + 2 * k →
        s.fetch = .ok { s with registers.pc := s.registers.pc + 2 }
          (256 * rom[2 * k].toNat + rom[2 * k + 1].toNat) []) ∧
    ∀ memory : Memory,
      ((∃ memory', memory.load rom offset = .ok memory') ↔
        0x50 ≤ offset ∧ offset + rom.length ≤ memory.size) ∧
      (∀ memory', memory.load rom offset = .ok memory' → memory.Replaced memory' offset rom) ∧
      ∀ r, memory.load rom offset = .error r → r = ⟨rom.length, offset, memory.size⟩ := by
  intro o
  have size : m.memory.size = 0x1000 := reachable.wellFormed.size
  refine ⟨?succeeds, left_of_loadRom, ?refused, ?fetched, fun memory => ⟨?loads, ?replaced, ?error⟩⟩
  case succeeds =>
    have fits : o.answer = .ok () ↔ Font.size ≤ offset ∧ offset + rom.length ≤ m.memory.size :=
      loadRom_ok_iff
    rw [size] at fits
    exact fits
  case refused =>
    intro fails
    have unfit := mt loadRom_ok_iff.mpr fails
    have refused : o = .fail m _ := loadRom_of_unfit unfit
    rw [refused, size]
    exact ⟨rfl, rfl, rfl⟩
  case fetched =>
    intro loads start k h s memory pc
    obtain ⟨replaced, -⟩ := left_of_loadRom loads
    have fits := (loadRom_ok_iff.mp loads).2
    have inside : InProgram s.registers.pc := by
      simp only [InProgram, programStart, lastInstruction, memorySize]
      omega
    have place : s.registers.pc = 0x200 + (2 * k : Nat) := by omega
    rw [show (m.loadRom rom offset).machine.memory = s.memory from memory.symm, start] at replaced
    have word := wordAt_of_replaced replaced h
    rw [← place] at word
    exact (fetch_of_inside inside).trans (congrArg (Outcome.ok _ · []) word)
  case loads => exact memory.loads_iff rom offset
  case replaced => exact fun memory' => Memory.replaced_of_load
  case error => exact fun r fails => ((memory.load_eq_error_iff rom offset r).mp fails).2

theorem load_all_or_nothing_ends :
    let m := initial (.ofList [])
    m.Reachable ∧ (m.loadRom [0x6A, 0x42, 0x60, 0x07] 0x200).answer = .ok () ∧
      ((m.loadRom [0x6A, 0x42, 0x60, 0x07] 0x200).machine.setPc 0x202).fetch.answer = .ok 0x6007 ∧
      (m.loadRom [0x6A, 0x42] 0xFFE).answer = .ok () ∧ (m.loadRom [0x6A, 0x42] 0xFFF).machine = m := by
  intro m
  have reachable : m.Reachable := ⟨_, [], rfl⟩
  clear_value m
  have moved (s : Machine) : (s.setPc 0x202).memory = s.memory ∧
      (s.setPc 0x202).registers.pc = 0x200 + 2 * (1 : Nat) := ⟨rfl, rfl⟩
  obtain ⟨succeeds, -, -, fetched, -⟩ := load_all_or_nothing reachable [0x6A, 0x42, 0x60, 0x07] 0x200
  obtain ⟨last, -⟩ := load_all_or_nothing reachable [0x6A, 0x42] 0xFFE
  obtain ⟨behind, -, refused, -⟩ := load_all_or_nothing reachable [0x6A, 0x42] 0xFFF
  have loads := succeeds.mpr (by decide)
  obtain ⟨memory, pc⟩ := moved (m.loadRom [0x6A, 0x42, 0x60, 0x07] 0x200).machine
  have second := fetched loads rfl 1 (by decide) _ memory pc
  exact ⟨reachable, loads, congrArg Outcome.answer second, last.mpr (by decide),
    (refused (mt behind.mp (by decide))).2.1⟩

end Machine

end ChipEight

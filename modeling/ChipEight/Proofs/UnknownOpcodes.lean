import ChipEight.Proofs.CycleHistory

/-!
The opcodes without a meaning that the machine has met, as its tally and its warnings tell of them.
-/

namespace ChipEight.Machine

def Meets (c : Machine) (u : UnknownOpcode) : Prop :=
  c.opcode = u.opcode ∧ c.registers.pc = u.address ∧ (decode c.opcode).op = .unknown

instance (c : Machine) (u : UnknownOpcode) : Decidable (c.Meets u) :=
  inferInstanceAs (Decidable (_ ∧ _))

theorem sight?_eq_some_iff (c : Machine) (u : UnknownOpcode) : c.sight? = some u ↔ c.Meets u := by
  obtain ⟨opcode, address⟩ := u
  by_cases unknown : (decode c.opcode).op = .unknown <;> simp [sight?, instruction, Meets, unknown]

theorem count_sights (past : List Machine) (u : UnknownOpcode) :
    (past.filterMap sight?).count u = past.countP (·.Meets u) := by
  rw [List.count_filterMap]
  refine List.countP_congr fun c _ => ?_
  rw [beq_iff_eq, sight?_eq_some_iff, decide_eq_true_eq]

theorem mem_sights_iff (past : List Machine) (u : UnknownOpcode) :
    u ∈ past.filterMap sight? ↔ ∃ c ∈ past, c.Meets u := by
  simp only [List.mem_filterMap, sight?_eq_some_iff]

theorem Meets.range {c : Machine} {u : UnknownOpcode} (meets : c.Meets u)
    (inside : InProgram c.registers.pc) :
    (0 ≤ u.opcode ∧ u.opcode ≤ 0xFFFF) ∧ (decode u.opcode).op = .unknown ∧
      0x200 ≤ u.address ∧ u.address ≤ 0xFFE := by
  obtain ⟨opcode, address, unknown⟩ := meets
  have word := c.opcode_lt
  rw [← opcode, ← address]
  exact ⟨⟨by omega, by omega⟩, unknown, inside.1, inside.2⟩

theorem cycle_of_unknown {m : Machine} (running : m.halted = false) (inside : InProgram m.registers.pc)
    (unknown : m.instruction.op = .unknown) :
    m.cycle.machine =
      { m with
        latched := m.keypad
        registers.pc := m.registers.pc + 2
        unknown := m.unknown.record ⟨m.opcode, m.registers.pc⟩
        cycles := m.cycles + 1 } := by
  have executes : m.executed.answer = .ok () := by
    rw [executed_unknown unknown]
    rfl
  rw [cycle_of_success running inside executes, Outcome.machine_done, executed_of_unknown unknown]

/-- Since the machine was switched on or reset, each opcode without a meaning is counted as often as cycles
have met it at its address. Only such opcodes are counted, and the log warns of each of them once, in the
order in which they were first met. -/
theorem unknown_opcodes_accounted {m : Machine} (start : m.PoweredOn) {ops : List Operation}
    (unbroken : .reset ∉ ops) :
    let past := m.history ops
    let tally := (m.after ops).unknown
    (∀ u, tally.count u = past.countP (·.Meets u)) ∧
    (∀ u, u ∉ tally.keys ↔ tally.count u = 0) ∧
    (∀ u ∈ tally.keys, (0 ≤ u.opcode ∧ u.opcode ≤ 0xFFFF) ∧ (decode u.opcode).op = .unknown ∧
      0x200 ≤ u.address ∧ u.address ≤ 0xFFE) ∧
    (tally.keys.Nodup ∧ tally.keys = (past.filterMap sight?).eraseDups) ∧
    ∀ least : Level, least.rank ≤ Level.warning.rank →
      LogLine.ofProcessor .warning (logOf least (m.diary ops)) = tally.keys.map LogLine.warning := by
  intro past tally
  have tallies : tally.Tallies (past.filterMap sight?) := tallies_history start unbroken
  refine ⟨?_, ?_, ?_, ⟨tallies.nodup, tallies.keys⟩, ?_⟩
  · intro u
    rw [tallies.count, count_sights]
  · intro u
    rw [tallies.keys, tallies.count, List.mem_eraseDups, List.count_eq_zero]
  · intro u mem
    rw [tallies.keys, List.mem_eraseDups, mem_sights_iff] at mem
    obtain ⟨c, happened, meets⟩ := mem
    exact meets.range (of_mem_history happened).2
  · intro least shown
    rw [logOf_warnings shown, ← keys_eq_told start unbroken]

theorem unknown_opcodes_accounted_again :
    let m := initial (.ofList [])
    let ops : List Operation := [.load [0x01, 0x23] 0x200, .cycle, .setPc 0x200, .cycle]
    let u : UnknownOpcode := ⟨0x0123, 0x200⟩
    (m.history ops).countP (·.Meets u) = 2 ∧
      LogLine.ofProcessor .warning (logOf .warning (m.diary ops)) = [LogLine.warning u] := by
  intro m ops u
  have pass {s : Machine} (running : s.halted = false) (start : s.registers.pc = 0x200)
      (memory : s.memory = (loaded [0x01, 0x23]).memory) :
      s.cycle.machine.halted = false ∧ s.cycle.machine.memory = (loaded [0x01, 0x23]).memory ∧
        s.cycle.machine.unknown = s.unknown.record u := by
    have opcode : s.opcode = 0x0123 := by
      rw [Machine.opcode, start, wordAt_of_memory memory]
      exact wordAt_loaded [0x01, 0x23] (by decide) 0 (by decide)
    rw [cycle_of_unknown running (by rw [start]; decide) (by rw [instruction, opcode]; rfl), opcode, start]
    exact ⟨running, memory, rfl⟩
  have again {s : Machine} (running : s.halted = false)
      (memory : s.memory = (loaded [0x01, 0x23]).memory) :
      (s.after [.setPc 0x200, .cycle]).unknown = s.unknown.record u :=
    (pass (s := s.setPc 0x200) running rfl memory).2.2
  have tally : (m.after ops).unknown = (UnknownTally.empty.record u).record u := by
    obtain ⟨running, memory, once⟩ := pass (s := loaded [0x01, 0x23]) rfl rfl rfl
    rw [after_load _ (by decide), after_cons, perform_cycle_machine, again running memory, once]
    rfl
  obtain ⟨counted, -, -, -, warned⟩ :=
    unknown_opcodes_accounted (.new (.ofList [])) (show .reset ∉ ops by decide)
  refine ⟨?_, ?_⟩
  · rw [← counted, tally]
    rfl
  · rw [warned .warning (Nat.le_refl _), tally]
    rfl

end ChipEight.Machine

import ChipEight.Proofs.CycleFaults
import ChipEight.Proofs.DirtyFlag
import ChipEight.Proofs.Encoding

/-!
What every opcode leaves alone. Each part of the machine is changed by a few opcodes only, which are told by
their digits; a cycle that succeeds changes nothing else. An opcode without a meaning is noted and passed
over.
-/

namespace ChipEight

def EndsIn (w low : Nat) : Prop :=
  w / 0x1000 = 0xF ∧ w % 0x100 = low

def SetsRegister (w : Nat) : Prop :=
  w / 0x1000 ∈ [6, 7, 0xC] ∨ w / 0x1000 = 8 ∧ w % 0x10 ∈ [0, 1, 2, 3, 4, 5, 6, 7, 0xE] ∨
    EndsIn w 0x07

def SetsFlag (w : Nat) : Prop :=
  w / 0x1000 = 8 ∧ w % 0x10 ∈ [4, 5, 6, 7, 0xE] ∨ w / 0x1000 = 0xD

theorem decode_clearScreen_iff {w : Nat} (h : w < 65536) : (decode w).op = .clearScreen ↔ w = 0x00E0 :=
  decode_op_iff .clearScreen nofun h

namespace Machine

/-- What a cycle that executes the opcode leaves alone, said by the few opcodes that change each part. -/
structure Footprint (w : Nat) (m m' : Machine) : Prop where
  memory : ∀ k : Nat, m'.memory.bytes[k]? ≠ m.memory.bytes[k]? →
    m.registers.index.toNat ≤ k ∧
      (EndsIn w 0x33 ∧ k ≤ m.registers.index.toNat + 2 ∨
        EndsIn w 0x55 ∧ k ≤ m.registers.index.toNat + w / 0x100 % 0x10)
  display : m'.display ≠ m.display → w = 0x00E0 ∨ w / 0x1000 = 0xD
  drawn : w = 0x00E0 ∨ w / 0x1000 = 0xD → m'.display.dirty = true
  dirty : m.display.dirty = true → m'.display.dirty = true
  stack : m'.stack ≠ m.stack → w / 0x1000 = 2 ∨ w = 0x00EE
  delay : m'.timers.delay ≠ m.timers.delay → EndsIn w 0x15
  sound : m'.timers.sound ≠ m.timers.sound → EndsIn w 0x18
  random : m'.random ≠ m.random → w / 0x1000 = 0xC
  index : m'.registers.index ≠ m.registers.index →
    w / 0x1000 = 0xA ∨ EndsIn w 0x1E ∨ EndsIn w 0x29
  register : ∀ k : Fin 16, m'.registers.get k ≠ m.registers.get k →
    k.val = w / 0x100 % 0x10 ∧
        (SetsRegister w ∨ EndsIn w 0x0A ∧ ∃ key, m.keypad.isDown key = true) ∨
      k.val = 0xF ∧ SetsFlag w ∨
      k.val ≤ w / 0x100 % 0x10 ∧ EndsIn w 0x65
  unknown : m'.unknown ≠ m.unknown → ∀ op : Op, ¬ op.Matches w
  skipped : (∀ op : Op, ¬ op.Matches w) →
    m' = { m with
      latched := m.keypad
      registers.pc := m.registers.pc + 2
      unknown := m.unknown.record ⟨w, m.registers.pc⟩
      cycles := m.cycles + 1 }
  keypad : m'.keypad = m.keypad
  halted : m'.halted = m.halted
  fault : m'.fault = m.fault
  cycles : m'.cycles = m.cycles + 1

section Changed

variable {m : Machine}

theorem memory_changed {k : Nat}
    (changed : m.executed.machine.memory.bytes[k]? ≠ m.memory.bytes[k]?) :
    m.registers.index.toNat ≤ k ∧
      (EndsIn m.opcode 0x33 ∧ k ≤ m.registers.index.toNat + 2 ∨
        EndsIn m.opcode 0x55 ∧ k ≤ m.registers.index.toNat + m.opcode / 0x100 % 0x10) := by
  rw [executed, execute_memory] at changed
  split at changed
  next op =>
    obtain ⟨low, high⟩ := Memory.bytes_attempt_of_ne changed
    rw [length_decimalDigits] at high
    exact ⟨low, .inl ⟨hasDigits_opcode op, Nat.le_of_lt_succ high⟩⟩
  next op =>
    obtain ⟨low, high⟩ := Memory.bytes_attempt_of_ne changed
    rw [Registers.length_upTo, instruction, decode_x] at high
    exact ⟨low, .inr ⟨hasDigits_opcode op, Nat.le_of_lt_succ high⟩⟩
  · exact absurd rfl changed

theorem display_changed (changed : m.executed.machine.display ≠ m.display) :
    m.opcode = 0x00E0 ∨ m.opcode / 0x1000 = 0xD := by
  rw [executed, execute_display] at changed
  split at changed
  next op => exact .inl (hasDigits_opcode op)
  next op => exact .inr (hasDigits_opcode op)
  · exact absurd rfl changed

theorem stack_changed (changed : m.executed.machine.stack ≠ m.stack) :
    m.opcode / 0x1000 = 2 ∨ m.opcode = 0x00EE := by
  rw [executed, execute_stack] at changed
  split at changed
  next op => exact .inr (hasDigits_opcode op)
  next op => exact .inl (hasDigits_opcode op)
  · exact absurd rfl changed

theorem delay_changed (changed : m.executed.machine.timers.delay ≠ m.timers.delay) :
    EndsIn m.opcode 0x15 := by
  rw [executed, execute_timers] at changed
  split at changed
  next op => exact hasDigits_opcode op
  · exact absurd rfl changed
  · exact absurd rfl changed

theorem sound_changed (changed : m.executed.machine.timers.sound ≠ m.timers.sound) :
    EndsIn m.opcode 0x18 := by
  rw [executed, execute_timers] at changed
  split at changed
  · exact absurd rfl changed
  next op => exact hasDigits_opcode op
  · exact absurd rfl changed

theorem random_changed (changed : m.executed.machine.random ≠ m.random) :
    m.opcode / 0x1000 = 0xC := by
  rw [executed, execute_random] at changed
  split at changed
  next op => exact hasDigits_opcode op
  · exact absurd rfl changed

theorem index_changed (changed : m.executed.machine.registers.index ≠ m.registers.index) :
    m.opcode / 0x1000 = 0xA ∨ EndsIn m.opcode 0x1E ∨ EndsIn m.opcode 0x29 := by
  rw [executed, execute_index] at changed
  split at changed
  next op => exact .inl (hasDigits_opcode op)
  next op => exact .inr (.inl (hasDigits_opcode op))
  next op => exact .inr (.inr (hasDigits_opcode op))
  · exact absurd rfl changed

theorem register_changed {k : Fin 16}
    (changed : m.executed.machine.registers.get k ≠ m.registers.get k) :
    k.val = m.opcode / 0x100 % 0x10 ∧
        (SetsRegister m.opcode ∨ EndsIn m.opcode 0x0A ∧ ∃ key, m.keypad.isDown key = true) ∨
      k.val = 0xF ∧ SetsFlag m.opcode ∨
      k.val ≤ m.opcode / 0x100 % 0x10 ∧ EndsIn m.opcode 0x65 := by
  have mem : k ∈ written m.instruction m.fetched :=
    Classical.byContradiction fun unwritten => changed (get_execute_of_unwritten unwritten)
  have x : m.instruction.x.val = m.opcode / 0x100 % 0x10 := decode_x m.opcode
  cases op : m.instruction.op
  case setByte | addByte | copy | or | and | xor | random | readDelay =>
    have digits := hasDigits_opcode op
    simp only [written, op, List.mem_singleton] at mem
    simp only [Op.HasDigits, Op.pattern?, Op.form] at digits
    refine .inl ⟨mem ▸ x, .inl ?_⟩
    simp only [SetsRegister, EndsIn, List.mem_cons, List.not_mem_nil]
    omega
  case add | sub | subFrom | shiftRight | shiftLeft =>
    have digits := hasDigits_opcode op
    simp only [written, op, List.mem_cons, List.not_mem_nil, or_false] at mem
    simp only [Op.HasDigits, Op.pattern?, Op.form] at digits
    rcases mem with rfl | rfl
    · refine .inl ⟨x, .inl ?_⟩
      simp only [SetsRegister, EndsIn, List.mem_cons, List.not_mem_nil]
      omega
    · refine .inr (.inl ⟨rfl, ?_⟩)
      simp only [SetsFlag, List.mem_cons, List.not_mem_nil]
      omega
  case draw =>
    simp only [written, op, List.mem_singleton] at mem
    exact .inr (.inl ⟨congrArg Fin.val mem, .inr (hasDigits_opcode op)⟩)
  case waitKey =>
    by_cases untouched : m.keypad.first? = none
    · have latched : m.fetched.latched.first? = none := untouched
      simp [written, op, latched] at mem
    · have latched : ¬ m.fetched.latched.first? = none := untouched
      have pressed : ∃ key, m.keypad.isDown key = true := by
        simpa [Keypad.first?_eq_none_iff] using untouched
      simp only [written, op, if_neg latched, List.mem_singleton] at mem
      exact .inl ⟨mem ▸ x, .inr ⟨hasDigits_opcode op, pressed⟩⟩
  case load =>
    simp only [written, op, List.mem_filter, List.mem_finRange, true_and, decide_eq_true_eq] at mem
    exact .inr (.inr ⟨x ▸ mem, hasDigits_opcode op⟩)
  all_goals simp [written, op] at mem

theorem unknown_changed (changed : m.executed.machine.unknown ≠ m.unknown) :
    m.instruction.op = .unknown := by
  rw [executed, execute_unknown] at changed
  split at changed
  next op => exact op
  · exact absurd rfl changed

end Changed

theorem footprint_of_cycle {m : Machine} (succeeds : m.cycle.answer = .ok ()) :
    Footprint m.opcode m m.cycle.machine := by
  obtain ⟨executes, eq⟩ := machine_of_cycle_ok succeeds
  have unknown_iff : m.instruction.op = .unknown ↔ ∀ op : Op, ¬ op.Matches m.opcode :=
    decode_unknown_word_iff m.opcode_lt
  rw [eq]
  constructor
  case memory => exact fun _ => memory_changed
  case display => exact display_changed
  case drawn =>
    intro draws
    rw [← decode_draw_iff m.opcode_lt, ← decode_clearScreen_iff m.opcode_lt] at draws
    exact dirty_execute executes draws
  case dirty =>
    intro dirty
    rcases dirtyUnless_execute m.instruction m.fetched with set | same
    · exact set
    · exact (congrArg Display.dirty same).trans dirty
  case stack => exact stack_changed
  case delay => exact delay_changed
  case sound => exact sound_changed
  case random => exact random_changed
  case index => exact index_changed
  case register => exact fun _ => register_changed
  case unknown => exact fun changed => unknown_iff.mp (unknown_changed changed)
  case skipped =>
    intro none
    rw [executed_of_unknown (unknown_iff.mpr none)]
  case keypad => exact congrArg (·.1) (execute_aside m.instruction m.fetched)
  case halted => exact congrArg (·.2.2.1) (execute_aside m.instruction m.fetched)
  case fault => exact congrArg (·.2.2.2.1) (execute_aside m.instruction m.fetched)
  case cycles => exact congrArg (·.2.2.2.2 + 1) (execute_aside m.instruction m.fetched)

theorem footprint_of_cycle_carry :
    let m := ((loaded [0x8F, 0x14]).setV 15 200).setV 1 100
    m.cycle.answer = .ok () ∧
      ∀ k : Fin 16, k ≠ 15 → m.cycle.machine.registers.get k = m.registers.get k := by
  intro m
  have opcode : m.opcode = 0x8F14 := wordAt_loaded [0x8F, 0x14] (by decide) 0 (by decide)
  have succeeds : m.cycle.answer = .ok () := by
    rw [cycle_of_opcode rfl (by decide) opcode rfl, Outcome.answer_done]
  refine ⟨succeeds, fun k other => Classical.byContradiction fun changed => other (Fin.ext ?_)⟩
  rcases (footprint_of_cycle succeeds).register k changed with ⟨x, -⟩ | ⟨flag, -⟩ | ⟨-, load⟩
  · exact x.trans (by rw [opcode]; rfl)
  · exact flag
  · rw [opcode] at load
    exact absurd load.1 (by decide)

end Machine

end ChipEight

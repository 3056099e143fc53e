import ChipEight.Proofs.Loading
import ChipEight.Proofs.Opcodes
import ChipEight.Proofs.Representation

/-!
Exactly when a cycle of a running machine fails, with which fault, and what it leaves behind. The
conditions are read off the digits of the opcode, the index register and the stack pointer alone.
-/

namespace ChipEight

open Parameters

/-- How many bytes an opcode reads at the index register: those of a sprite, or one for each register. -/
def blockRead (w : Nat) : Nat :=
  if w / 0x1000 = 0xD then w % 0x10
  else if w / 0x1000 = 0xF ∧ w % 0x100 = 0x65 then w / 0x100 % 0x10 + 1
  else 0

/-- How many bytes an opcode writes at the index register: three digits, or one for each register. -/
def blockWritten (w : Nat) : Nat :=
  if w / 0x1000 = 0xF ∧ w % 0x100 = 0x33 then 3
  else if w / 0x1000 = 0xF ∧ w % 0x100 = 0x55 then w / 0x100 % 0x10 + 1
  else 0

/-- The address that the fault of a read names: the first of the block if it is outside of memory, and
else the last. -/
def readFaultAddress (first length : Int) : Int :=
  if 0xFFF < first then first else first + length - 1

theorem blockWritten_eq_zero {w : Nat} (reads : 0 < blockRead w) : blockWritten w = 0 := by
  simp only [blockRead, blockWritten] at *
  split at reads
  · rw [if_neg (by omega), if_neg (by omega)]
  · split at reads
    · rw [if_neg (by omega), if_neg (by omega)]
    · omega

section Digits

variable {w : Nat} (h : w < 65536)
include h

theorem decode_ret_iff : (decode w).op = .ret ↔ w = 0x00EE :=
  decode_op_iff .ret nofun h

theorem decode_call_iff : (decode w).op = .call ↔ w / 0x1000 = 2 :=
  decode_op_iff .call nofun h

theorem decode_draw_iff : (decode w).op = .draw ↔ w / 0x1000 = 0xD :=
  decode_op_iff .draw nofun h

theorem decode_load_iff : (decode w).op = .load ↔ w / 0x1000 = 0xF ∧ w % 0x100 = 0x65 :=
  decode_op_iff .load nofun h

theorem decode_decimal_iff : (decode w).op = .decimal ↔ w / 0x1000 = 0xF ∧ w % 0x100 = 0x33 :=
  decode_op_iff .decimal nofun h

theorem decode_store_iff : (decode w).op = .store ↔ w / 0x1000 = 0xF ∧ w % 0x100 = 0x55 :=
  decode_op_iff .store nofun h

theorem bytesRead_decode : (decode w).bytesRead = blockRead w := by
  simp only [blockRead, ← decode_draw_iff h, ← decode_load_iff h, Instruction.bytesRead]
  split <;> simp_all [decode_n, decode_x]

theorem bytesWritten_decode : (decode w).bytesWritten = blockWritten w := by
  simp only [blockWritten, ← decode_decimal_iff h, ← decode_store_iff h, Instruction.bytesWritten]
  split <;> simp_all [decode_x]

end Digits

namespace Machine

theorem opcode_of_loaded {m : Machine} {rom : List UInt8} (memory : m.memory = (loaded rom).memory)
    {k : Nat} (pc : m.registers.pc = (0x200 + k : Nat)) (fits : rom.length ≤ 3584)
    (inside : k + 1 < rom.length) :
    m.opcode = 256 * (rom.getD k 0).toNat + (rom.getD (k + 1) 0).toNat := by
  rw [opcode, pc, wordAt_of_memory memory, wordAt_loaded rom fits k inside]

theorem cycle_error_iff {m : Machine} (running : m.halted = false) (f : Fault) :
    m.cycle.answer = .error (.fault f) ↔
      ¬ InProgram m.registers.pc ∧ f = .programCounter m.registers.pc ∨
      InProgram m.registers.pc ∧ m.executed.answer = .error f := by
  cases m.cycle_cases with
  | halted halted => simp [running] at halted
  | outside _ outside eq => simp [eq, outside, eq_comm]
  | fault _ inside g fails eq => simp [eq, inside, fails]
  | success _ inside succeeds eq => simp [eq, inside, succeeds, Outcome.done]

theorem fault_of_cycle_error {m : Machine} (running : m.halted = false) {e : Failure}
    (h : m.cycle.answer = .error e) : ∃ f, e = .fault f := by
  cases m.cycle_cases with
  | halted halted => simp [running] at halted
  | outside _ _ eq =>
    simp only [eq, Except.error.injEq] at h
    exact ⟨_, h.symm⟩
  | fault _ _ f _ eq =>
    simp only [eq, Except.error.injEq] at h
    exact ⟨f, h.symm⟩
  | success _ _ _ eq => simp [eq, Outcome.done] at h

section Executed

variable {m : Machine} (h : m.WellFormed)
include h

theorem push_error_iff (a : Int) (f : Fault) :
    m.stack.push a = .error f ↔ m.stack.pointer = 16 ∧ f = .stackOverflow 16 := by
  have depth : m.stack.depth = 16 := h.stack.depth
  have pointer := h.stack.pointer
  rw [CallStack.push_eq_error_iff, depth]
  rw [depth] at pointer
  exact and_congr_left fun _ => by omega

theorem readBlock_error_iff (a length : Nat) (f : Fault) :
    0 < length ∧ m.memory.readBlock a length = .error f ↔
      0 < length ∧ 0x1000 < a + length ∧
        f = .memoryAccess (readFaultAddress a length) .outOfRange := by
  have size : m.memory.size = 0x1000 := h.size
  refine and_congr_right fun pos => ?_
  have beyond : ((0x1000 : Nat) : Int) < a + length ↔ 0x1000 < a + length := by omega
  have outside : ((0x1000 : Nat) : Int) ≤ a ↔ (0xFFF : Int) < a := by omega
  rw [m.memory.readBlock_eq_error_iff (by omega) (by omega), size]
  simp only [beyond, outside, readFaultAddress]

theorem executed_error_iff (f : Fault) :
    m.executed.answer = .error f ↔
      m.opcode = 0x00EE ∧ m.stack.pointer = 0 ∧ f = .stackUnderflow ∨
      m.opcode / 0x1000 = 2 ∧ m.stack.pointer = 16 ∧ f = .stackOverflow 16 ∨
      (0 < blockRead m.opcode ∧ 0x1000 < m.registers.index.toNat + blockRead m.opcode ∧
        f = .memoryAccess (readFaultAddress m.registers.index.toNat (blockRead m.opcode)) .outOfRange) ∨
      m.memory.blockFault? m.registers.index.toNat (blockWritten m.opcode) = some f := by
  have word := m.opcode_lt
  rw [executed, execute_error_iff, instruction, decode_ret_iff word, decode_call_iff word,
    bytesRead_decode word, bytesWritten_decode word, fetched_stack, fetched_memory, fetched_index,
    CallStack.pop_eq_error_iff, push_error_iff h, readBlock_error_iff h]

theorem blockFault?_written_iff (f : Fault) :
    m.memory.blockFault? m.registers.index.toNat (blockWritten m.opcode) = some f ↔
      ∃ b : Int, IsLeast {b : Int | m.registers.index.toNat ≤ b ∧
          b ≤ m.registers.index.toNat + blockWritten m.opcode - 1 ∧
          (b < 0x50 ∨ 0xFFF < b)} b ∧
        f = .memoryAccess b (if b < 0x50 then .fontReadOnly else .outOfRange) := by
  have size : m.memory.size = 0x1000 := h.size
  have unwritable (b : Int) : ¬ m.memory.Writable b ↔ b < 0x50 ∨ 0xFFF < b := by
    simp only [Memory.Writable, Font.size, size]
    omega
  rw [m.memory.blockFault?_eq_some_iff (by omega) _ f h.font.size_le]
  simp only [unwritable, Int.le_sub_one_iff]
  rfl

theorem blockFault?_written_isSome_iff :
    (∃ f, m.memory.blockFault? m.registers.index.toNat (blockWritten m.opcode) =
        some f) ↔
      0 < blockWritten m.opcode ∧ ((m.registers.index.toNat : Int) < 0x50 ∨
        0xFFF < (m.registers.index.toNat : Int) + blockWritten m.opcode - 1) := by
  have size : m.memory.size = 0x1000 := h.size
  rw [← Option.ne_none_iff_exists']
  rcases Nat.eq_zero_or_pos (blockWritten m.opcode) with none | pos
  · simp [none, Memory.blockFault?]
  · rw [Ne, m.memory.blockFault?_eq_none_iff_of_pos _ pos, size, Font.size]
    omega

theorem written_ne {f : Fault} (other : ∀ a r, f ≠ .memoryAccess a r) :
    m.memory.blockFault? m.registers.index.toNat (blockWritten m.opcode) ≠ some f := by
  intro fails
  obtain ⟨b, -, eq⟩ := (blockFault?_written_iff h f).mp fails
  exact other _ _ eq

theorem executed_programCounter (pc : Int) : m.executed.answer ≠ .error (.programCounter pc) := by
  rw [Ne, executed_error_iff h]
  simp [written_ne h]

theorem executed_stackUnderflow_iff :
    m.executed.answer = .error .stackUnderflow ↔ m.opcode = 0x00EE ∧ m.stack.pointer = 0 := by
  simp [executed_error_iff h, written_ne h]

theorem executed_stackOverflow_iff (depth : Int) :
    m.executed.answer = .error (.stackOverflow depth) ↔
      m.opcode / 0x1000 = 2 ∧ m.stack.pointer = 16 ∧ depth = 16 := by
  simp [executed_error_iff h, written_ne h]

theorem executed_memoryAccess_iff (a : Int) (r : AccessReason) :
    m.executed.answer = .error (.memoryAccess a r) ↔
      (0 < blockRead m.opcode ∧ 0x1000 < m.registers.index.toNat + blockRead m.opcode ∧
        a = readFaultAddress m.registers.index.toNat (blockRead m.opcode) ∧ r = .outOfRange) ∨
      m.memory.blockFault? m.registers.index.toNat (blockWritten m.opcode) =
        some (.memoryAccess a r) := by
  simp [executed_error_iff h]

theorem executed_memoryAccess_exists_iff :
    (∃ a r, m.executed.answer = .error (.memoryAccess a r)) ↔
      0 < blockRead m.opcode ∧
        0xFFF < (m.registers.index.toNat : Int) + blockRead m.opcode - 1 ∨
      0 < blockWritten m.opcode ∧ ((m.registers.index.toNat : Int) < 0x50 ∨
        0xFFF < (m.registers.index.toNat : Int) + blockWritten m.opcode - 1) := by
  rw [← blockFault?_written_isSome_iff h]
  simp only [executed_memoryAccess_iff h]
  constructor
  · rintro ⟨a, r, ⟨reads, beyond, -⟩ | written⟩
    · exact .inl ⟨reads, by omega⟩
    · exact .inr ⟨_, written⟩
  · rintro (⟨reads, beyond⟩ | ⟨f, written⟩)
    · exact ⟨_, _, .inl ⟨reads, by omega, rfl, rfl⟩⟩
    · obtain ⟨b, -, rfl⟩ := (blockFault?_written_iff h f).mp written
      exact ⟨b, _, .inr written⟩

theorem access_of_executed {a : Int} {r : AccessReason}
    (fails : m.executed.answer = .error (.memoryAccess a r)) :
    (0 < blockRead m.opcode →
      r = .outOfRange ∧ a = readFaultAddress m.registers.index.toNat (blockRead m.opcode)) ∧
    (0 < blockWritten m.opcode →
      IsLeast {b : Int | m.registers.index.toNat ≤ b ∧
        b ≤ m.registers.index.toNat + blockWritten m.opcode - 1 ∧ (b < 0x50 ∨ 0xFFF < b)} a ∧
      r = if a < 0x50 then .fontReadOnly else .outOfRange) := by
  -- no opcode both reads and writes a block
  rcases (executed_memoryAccess_iff h a r).mp fails with ⟨reads, -, address, reason⟩ | written
  · have none := blockWritten_eq_zero reads
    exact ⟨fun _ => ⟨reason, address⟩, fun writes => by omega⟩
  · obtain ⟨b, least, eq⟩ := (blockFault?_written_iff h _).mp written
    obtain ⟨rfl, rfl⟩ := Fault.memoryAccess.inj eq
    refine ⟨fun reads => ?_, fun _ => ⟨least, rfl⟩⟩
    obtain ⟨low, high, -⟩ := least.1
    have none := blockWritten_eq_zero reads
    omega

theorem cycle_ok_of_inside (running : m.halted = false) (inside : InProgram m.registers.pc)
    (noReturn : m.opcode ≠ 0x00EE) (noCall : m.opcode / 0x1000 ≠ 2) (writes : blockWritten m.opcode = 0)
    (room : blockRead m.opcode = 0 ∨ m.registers.index.toNat + blockRead m.opcode ≤ 0x1000) :
    m.cycle.answer = .ok () := by
  cases answer : m.executed.answer with
  | ok => rw [cycle_of_success running inside answer, Outcome.answer_done]
  | error f =>
    have fails := (executed_error_iff h f).mp answer
    rw [writes] at fails
    simp only [Memory.blockFault?, List.range_zero, List.findSome?_nil, reduceCtorEq, or_false] at fails
    omega

theorem cycle_ok_of_write (running : m.halted = false) (inside : InProgram m.registers.pc)
    (writes : 0 < blockWritten m.opcode) (behind : 0x50 ≤ m.registers.index.toNat)
    (room : m.registers.index.toNat + blockWritten m.opcode ≤ 0x1000) : m.cycle.answer = .ok () := by
  cases answer : m.executed.answer with
  | ok => rw [cycle_of_success running inside answer, Outcome.answer_done]
  | error f =>
    have silent : ¬ 0 < blockRead m.opcode := fun reads => by
      have none := blockWritten_eq_zero reads
      omega
    have op : ¬ (m.opcode = 0x00EE ∨ m.opcode / 0x1000 = 2) := by
      intro other
      rw [blockWritten, if_neg (by omega), if_neg (by omega)] at writes
      exact Nat.lt_irrefl 0 writes
    rcases (executed_error_iff h f).mp answer with ⟨ret, -⟩ | ⟨call, -⟩ | ⟨reads, -⟩ | refused
    · exact absurd (.inl ret) op
    · exact absurd (.inr call) op
    · exact absurd reads silent
    · have outside := ((blockFault?_written_isSome_iff h).mp ⟨f, refused⟩).2
      omega

end Executed

theorem machine_of_cycle_error {m : Machine} {f : Fault}
    (h : m.cycle.answer = .error (.fault f)) :
    m.cycle.machine =
      { m with
        latched := m.keypad
        registers.pc := if InProgram m.registers.pc then m.registers.pc + 2 else m.registers.pc
        halted := true
        fault := some f } := by
  cases m.cycle_cases with
  | halted _ eq => simp [eq, Outcome.fail] at h
  | outside _ outside eq =>
    simp only [eq, Except.error.injEq, Failure.fault.injEq] at h
    subst h
    simp [eq, outside, halt, latch]
  | fault _ inside g _ eq =>
    simp only [eq, Except.error.injEq, Failure.fault.injEq] at h
    subst h
    simp [eq, inside, halt, fetched, latch, Registers.advance]
  | success _ _ _ eq => simp [eq, Outcome.done] at h

/-- A cycle of a running machine fails exactly for these reasons. The fault of a read names the index
register if that is outside, and else the last address; the fault of a write names the lowest address that
cannot be written. A failed cycle changes nothing but the latched keys, the program counter and what it
records of the fault. -/
theorem cycle_faults_exactly {m : Machine} (reachable : m.Reachable) (running : m.halted = false) :
    let p := m.registers.pc
    let w := m.opcode
    let i : Int := m.registers.index.toNat
    let inside := 0x200 ≤ p ∧ p ≤ 0xFFE
    let raises (f : Fault) := m.cycle.answer = .error (.fault f)
    (raises (.programCounter p) ↔ ¬ inside) ∧
    (raises .stackUnderflow ↔ inside ∧ w = 0x00EE ∧ m.stack.pointer = 0) ∧
    (raises (.stackOverflow 16) ↔ inside ∧ w / 0x1000 = 2 ∧ m.stack.pointer = 16) ∧
    ((∃ a r, raises (.memoryAccess a r)) ↔ inside ∧
      (0 < blockRead w ∧ 0xFFF < i + blockRead w - 1 ∨
        0 < blockWritten w ∧ (i < 0x50 ∨ 0xFFF < i + blockWritten w - 1))) ∧
    (∀ a r, raises (.memoryAccess a r) →
      (0 < blockRead w → r = .outOfRange ∧ a = if 0xFFF < i then i else i + blockRead w - 1) ∧
      (0 < blockWritten w →
        IsLeast {b | i ≤ b ∧ b ≤ i + blockWritten w - 1 ∧ (b < 0x50 ∨ 0xFFF < b)} a ∧
        r = if a < 0x50 then .fontReadOnly else .outOfRange)) ∧
    (∀ e, m.cycle.answer = .error e → ∃ f, e = .fault f ∧
      (f = .programCounter p ∨ f = .stackUnderflow ∨ f = .stackOverflow 16 ∨
        ∃ a r, f = .memoryAccess a r) ∧
      m.cycle.machine =
        { m with
          latched := m.keypad
          registers.pc := if inside then p + 2 else p
          halted := true
          fault := some f }) := by
  intro p w i inside raises
  have h := reachable.wellFormed
  have raises_iff (f : Fault) : raises f ↔ ¬ inside ∧ f = .programCounter p ∨
      inside ∧ m.executed.answer = .error f := cycle_error_iff running f
  refine ⟨?_, ?_, ?_, ?_, ?_, ?_⟩
  · simp [raises_iff, executed_programCounter h]
  · simp [raises_iff, executed_stackUnderflow_iff h, w]
  · simp [raises_iff, executed_stackOverflow_iff h, w]
  · simp only [raises_iff, reduceCtorEq, and_false, false_or, exists_and_left,
      executed_memoryAccess_exists_iff h]
    rfl
  · intro a r fails
    have executed := ((raises_iff _).mp fails).resolve_left (by simp)
    exact access_of_executed h executed.2
  · intro e fails
    obtain ⟨f, rfl⟩ := fault_of_cycle_error running fails
    refine ⟨f, rfl, ?_, machine_of_cycle_error fails⟩
    rcases (raises_iff f).mp fails with ⟨-, rfl⟩ | ⟨-, executed⟩
    · exact .inl rfl
    · cases f with
      | programCounter pc => exact absurd executed (executed_programCounter h pc)
      | stackUnderflow => simp
      | stackOverflow depth =>
        obtain ⟨-, -, rfl⟩ := (executed_stackOverflow_iff h depth).mp executed
        simp
      | memoryAccess a r => simp

theorem cycle_faults_exactly_store :
    let m := (initial (.ofList [])).after [.load [0xF3, 0x55] 0x200, .setIndex 0xFFE]
    m.Reachable ∧ m.halted = false ∧ ∃ a r, m.cycle.answer = .error (.fault (.memoryAccess a r)) := by
  intro m
  have reachable : m.Reachable := ⟨_, _, rfl⟩
  have state : m = (loaded [0xF3, 0x55]).setIndex 0xFFE := after_load _ (by decide) _
  have running : m.halted = false := by rw [state]; rfl
  have opcode : m.opcode = 0xF355 := by
    have pc : ((loaded [0xF3, 0x55]).setIndex 0xFFE).registers.pc = (0x200 + 0 : Nat) := rfl
    rw [state, Machine.opcode, wordAt_setIndex, pc, wordAt_loaded _ (by decide) 0 (by decide)]
    rfl
  obtain ⟨-, -, -, access, -⟩ := cycle_faults_exactly reachable running
  refine ⟨reachable, running, access.mpr ?_⟩
  rw [opcode, state]
  decide

end Machine

end ChipEight

import ChipEight.Proofs.Execution
import ChipEight.Proofs.Runs

/-!
What a cycle takes in. Memory, the keys and the random source lie around the core of the machine. An
instruction looks at the core and at one of these at most: at a block of memory, at the latched keys, or at
the next random byte. Machines with the same core that take in the same answer and tell the same and have the
same core afterwards.
-/

namespace ChipEight

theorem Memory.writeBlock_of_size {m m' : Memory} (size : m.size = m'.size) (a : Int) (bs : List UInt8) :
    (∃ f, m.writeBlock a bs = .error f ∧ m'.writeBlock a bs = .error f) ∨
      ∃ s s', m.writeBlock a bs = .ok s ∧ m'.writeBlock a bs = .ok s' := by
  simp only [writeBlock, blockFault?_of_size size]
  cases m'.blockFault? a bs.length with
  | some f => exact .inl ⟨f, rfl, rfl⟩
  | none => exact .inr ⟨_, _, rfl, rfl⟩

namespace Machine

/-- The machine without its memory, its keys and its random source. -/
def core (m : Machine) : Machine :=
  { m with memory := ⟨#[]⟩, keypad := .released, latched := .released, random := .ofList [] }

theorem eq_of_core {m m' : Machine} (same : m.core = m'.core) :
    m' = { m with
      memory := m'.memory
      keypad := m'.keypad
      latched := m'.latched
      random := m'.random } := by
  cases m
  cases m'
  simp_all [core]

structure Intake (i : Instruction) (m m' : Machine) : Prop where
  size : m.memory.size = m'.memory.size
  block : 0 < i.bytesRead →
    m.memory.readBlock m.registers.index.toNat i.bytesRead =
      m'.memory.readBlock m.registers.index.toNat i.bytesRead
  keys : i.op ∈ [.skipIfKey, .skipUnlessKey, .waitKey] → m.latched = m'.latched
  byte : i.op = .random → m.random.byte = m'.random.byte

theorem sprite_of_intake {i : Instruction} {m m' : Machine} (same : m.core = m'.core)
    (intake : Intake i m m') (op : i.op = .draw) : m.sprite i.n = m'.sprite i.n := by
  have index : m.registers.index = m'.registers.index := congrArg (·.registers.index) same
  have bytes : i.bytesRead = i.n.val := by simp only [Instruction.bytesRead, op]
  by_cases empty : i.n = 0
  · rw [sprite, sprite, if_pos empty, if_pos empty]
  · have block := intake.block (bytes ▸ Fin.pos_iff_ne_zero.mpr empty)
    rw [sprite, sprite, if_neg empty, if_neg empty, ← index, ← bytes, block]

theorem execute_core {i : Instruction} {m m' : Machine} (same : m.core = m'.core)
    (intake : Intake i m m') : (execute i m).viewed core = (execute i m').viewed core := by
  have lines := sprite_of_intake same intake
  obtain ⟨memory, keypad, latched, random, rfl⟩ : ∃ memory keypad latched random,
      m' = { m with memory, keypad, latched, random } := ⟨_, _, _, _, eq_of_core same⟩
  have size : m.memory.size = memory.size := intake.size
  -- most instructions stay in the core; the others are those that take something in or store a block
  cases op : i.op
  case ret | call =>
    simp only [execute, op]
    split <;> rfl
  case draw =>
    simp only [execute, op, ← lines op]
    split <;> rfl
  case load =>
    have bytes : i.bytesRead = i.x.val + 1 := by simp only [Instruction.bytesRead, op]
    have read : m.memory.readBlock m.registers.index.toNat (i.x.val + 1) =
        memory.readBlock m.registers.index.toNat (i.x.val + 1) := by
      have read := intake.block (by omega)
      rwa [bytes] at read
    simp only [execute, op, ← read]
    split <;> rfl
  case decimal =>
    rcases Memory.writeBlock_of_size size m.registers.index.toNat (decimalDigits (m.registers.get i.x)) with
      ⟨f, first, second⟩ | ⟨s, s', first, second⟩
    · simp only [execute, op, first, second]
      rfl
    · simp only [execute, op, first, second]
      rfl
  case store =>
    rcases Memory.writeBlock_of_size size m.registers.index.toNat (m.registers.upTo i.x) with
      ⟨f, first, second⟩ | ⟨s, s', first, second⟩
    · simp only [execute, op, first, second]
      rfl
    · simp only [execute, op, first, second]
      rfl
  case skipIfKey | skipUnlessKey =>
    obtain rfl : m.latched = latched := intake.keys (by simp [op])
    simp only [execute, op]
    rfl
  case waitKey =>
    obtain rfl : m.latched = latched := intake.keys (by simp [op])
    simp only [execute, op]
    split <;> rfl
  case random =>
    have drawn : m.random.byte = random.byte := intake.byte op
    simp only [execute, op, RandomBytes.next, drawn]
    rfl
  all_goals
    simp only [execute, op]
    rfl

theorem fetched_core {m m' : Machine} (same : m.core = m'.core) : m.fetched.core = m'.fetched.core :=
  congrArg (fun s : Machine => { s with registers := s.registers.advance }) same

theorem cycle_core {m m' : Machine} (same : m.core = m'.core)
    (intake : m.halted = false → InProgram m.registers.pc →
      m.opcode = m'.opcode ∧ Intake m.instruction m.fetched m'.fetched) :
    m.cycle.viewed core = m'.cycle.viewed core := by
  have halted : m.halted = m'.halted := congrArg (·.halted) same
  have fault : m.fault = m'.fault := congrArg (·.fault) same
  have pc : m.registers.pc = m'.registers.pc := congrArg (·.registers.pc) same
  have executed (running : m.halted = false) (inside : InProgram m.registers.pc) :
      m.executed.viewed core = m'.executed.viewed core := by
    obtain ⟨opcode, takes⟩ := intake running inside
    have outcome := execute_core (fetched_core same) takes
    rwa [show m'.executed = execute m.instruction m'.fetched by
      rw [Machine.executed, instruction, instruction, opcode]]
  cases m.cycle_cases with
  | halted stopped eq =>
    rw [eq, cycle_of_halted (halted ▸ stopped), Outcome.viewed_eq_iff, fault]
    exact ⟨same, rfl, rfl⟩
  | outside running outside eq =>
    rw [eq, cycle_of_outside (halted ▸ running) (pc ▸ outside), Outcome.viewed_eq_iff, pc]
    exact ⟨congrArg (·.halt (.programCounter m'.registers.pc)) same, rfl, rfl⟩
  | fault running inside f fails eq =>
    obtain ⟨-, -, answer⟩ := Outcome.viewed_eq_iff.mp (executed running inside)
    rw [eq, cycle_of_fault (halted ▸ running) (pc ▸ inside) (answer ▸ fails), Outcome.viewed_eq_iff]
    exact ⟨congrArg (·.halt f) (fetched_core same), rfl, rfl⟩
  | success running inside succeeds eq =>
    obtain ⟨machine, events, answer⟩ := Outcome.viewed_eq_iff.mp (executed running inside)
    rw [eq, cycle_of_success (halted ▸ running) (pc ▸ inside) (answer ▸ succeeds),
      Outcome.viewed_eq_iff]
    refine ⟨congrArg (fun s : Machine => { s with cycles := s.cycles + 1 }) machine, ?_, rfl⟩
    rw [Outcome.events_done, Outcome.events_done, events, pc, instruction, instruction,
      (intake running inside).1]

section Around

variable (m : Machine)

def stored : List UInt8 :=
  match m.instruction.op with
  | .decimal => decimalDigits (m.registers.get m.instruction.x)
  | .store => m.registers.upTo m.instruction.x
  | _ => []

theorem length_stored : m.stored.length = m.instruction.bytesWritten := by
  cases op : m.instruction.op
  case decimal => simp only [stored, Instruction.bytesWritten, op, length_decimalDigits]
  case store => simp only [stored, Instruction.bytesWritten, op, Registers.length_upTo]
  all_goals simp only [stored, Instruction.bytesWritten, op, List.length_nil]

theorem cycle_keypad : m.cycle.machine.keypad = m.keypad := by
  cases m.cycle_cases with
  | halted _ eq | outside _ _ eq | fault _ _ _ _ eq => rw [eq]; rfl
  | success _ _ _ eq =>
    rw [eq]
    exact congrArg (·.1) (execute_aside m.instruction m.fetched)

theorem cycle_latched : m.cycle.machine.latched = if m.halted then m.latched else m.keypad := by
  cases m.cycle_cases with
  | halted halted eq =>
    rw [eq, halted]
    rfl
  | outside running _ eq | fault running _ _ _ eq =>
    rw [eq, running]
    rfl
  | success running _ _ eq =>
    rw [eq, running]
    exact congrArg (·.2.1) (execute_aside m.instruction m.fetched)

theorem cycle_memory :
    m.cycle.machine.memory =
      match m.cycle.answer with
      | .ok () => m.memory.attempt m.registers.index.toNat m.stored
      | .error _ => m.memory := by
  cases m.cycle_cases with
  | halted _ eq | outside _ _ eq | fault _ _ _ _ eq => rw [eq]; rfl
  | success _ _ _ eq =>
    rw [eq]
    refine (execute_memory m.instruction m.fetched).trans ?_
    cases op : m.instruction.op
    case decimal | store =>
      simp only [stored, op]
      rfl
    all_goals simp only [stored, op, fetched_memory, Outcome.answer_done, Memory.attempt_nil]

theorem writeBlock_stored_of_ok {m : Machine} (succeeds : m.cycle.answer = .ok ()) :
    ∃ s, m.memory.writeBlock m.registers.index.toNat m.stored = .ok s := by
  cases written : m.memory.writeBlock m.registers.index.toNat m.stored with
  | ok s => exact ⟨s, rfl⟩
  | error f =>
    have fault := (m.memory.writeBlock_eq_error_iff _ _ f).mp written
    rw [length_stored] at fault
    have fails := (execute_error_iff m.instruction m.fetched f).mpr (.inr (.inr (.inr fault)))
    rw [← executed, (machine_of_cycle_ok succeeds).1] at fails
    cases fails

theorem cycle_random :
    m.cycle.machine.random =
      match m.cycle.answer, m.instruction.op with
      | .ok (), .random => (m.random.next 0 255).2
      | _, _ => m.random := by
  cases m.cycle_cases with
  | halted _ eq | outside _ _ eq | fault _ _ _ _ eq => rw [eq]; rfl
  | success _ _ _ eq =>
    rw [eq]
    refine (execute_random m.instruction m.fetched).trans ?_
    cases m.instruction.op <;> rfl

end Around

end Machine

end ChipEight

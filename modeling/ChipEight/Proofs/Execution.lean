import ChipEight.Machine.Cycle
import ChipEight.Proofs.MemoryAccess

/-!
What one instruction and one cycle do to each part of the machine. Executing an instruction either fails
and changes nothing, or changes only the parts named here; a cycle is one of four things, of which only
the last executes an instruction to its end.
-/

namespace ChipEight

namespace Instruction

def bytesRead (i : Instruction) : Nat :=
  match i.op with
  | .draw => i.n.val
  | .load => i.x.val + 1
  | _ => 0

def bytesWritten (i : Instruction) : Nat :=
  match i.op with
  | .decimal => 3
  | .store => i.x.val + 1
  | _ => 0

end Instruction

namespace Registers

theorem length_upTo (r : Registers) (x : Fin 16) : (r.upTo x).length = x.val + 1 := by
  simp only [upTo, List.length_take, Vector.length_toList]
  omega

end Registers

namespace Machine

theorem execute_of_error {i : Instruction} {m : Machine} {f : Fault}
    (h : (execute i m).answer = .error f) : execute i m = .fail m f := by
  cases op : i.op
  case ret | call | draw | decimal | store | load =>
    simp only [execute, op] at h ⊢
    split at h
    · simp_all [Outcome.fail]
    · exact absurd h nofun
  case waitKey =>
    simp only [execute, op] at h
    split at h <;> exact absurd h nofun
  all_goals
    simp only [execute, op] at h
    exact absurd h nofun

theorem length_decimalDigits (b : UInt8) : (decimalDigits b).length = 3 := rfl

theorem sprite_eq_error_iff (m : Machine) (n : Fin 16) (f : Fault) :
    m.sprite n = .error f ↔
      0 < n.val ∧ m.memory.readBlock m.registers.index.toNat n.val = .error f := by
  by_cases empty : n = 0
  · simp [sprite, empty]
  · have lines : 0 < n.val := Fin.pos_iff_ne_zero.mpr empty
    simp [sprite, empty, lines]

theorem execute_error_iff (i : Instruction) (m : Machine) (f : Fault) :
    (execute i m).answer = .error f ↔
      i.op = .ret ∧ m.stack.pop = .error f ∨
      i.op = .call ∧ m.stack.push m.registers.pc = .error f ∨
      0 < i.bytesRead ∧ m.memory.readBlock m.registers.index.toNat i.bytesRead = .error f ∨
      m.memory.blockFault? m.registers.index.toNat i.bytesWritten = some f := by
  cases op : i.op
  case ret | call =>
    simp only [execute, op, Instruction.bytesRead, Instruction.bytesWritten]
    split <;> simp_all [Outcome.fail, Outcome.done, Memory.blockFault?]
  case draw =>
    have fails := m.sprite_eq_error_iff i.n f
    simp only [execute, op, Instruction.bytesRead, Instruction.bytesWritten]
    split <;> simp_all [Outcome.fail, Outcome.done, Memory.blockFault?]
  case load =>
    simp only [execute, op, Instruction.bytesRead, Instruction.bytesWritten]
    split <;> simp_all [Outcome.fail, Outcome.done, Memory.blockFault?]
  case decimal =>
    have fails := m.memory.writeBlock_eq_error_iff m.registers.index.toNat
      (decimalDigits (m.registers.get i.x)) f
    rw [length_decimalDigits] at fails
    simp only [execute, op, Instruction.bytesRead, Instruction.bytesWritten]
    split <;> simp_all [Outcome.fail, Outcome.done]
  case store =>
    have fails := m.memory.writeBlock_eq_error_iff m.registers.index.toNat
      (m.registers.upTo i.x) f
    rw [Registers.length_upTo] at fails
    simp only [execute, op, Instruction.bytesRead, Instruction.bytesWritten]
    split <;> simp_all [Outcome.fail, Outcome.done]
  case waitKey =>
    simp only [execute, op, Instruction.bytesRead, Instruction.bytesWritten]
    split <;> simp [Outcome.done, Memory.blockFault?]
  all_goals simp [execute, op, Instruction.bytesRead, Instruction.bytesWritten, Outcome.done,
    setSound, noteUnknown, Memory.blockFault?]

def fallible : List Op :=
  [.ret, .call, .draw, .decimal, .store, .load]

theorem execute_ok_of_infallible {i : Instruction} (op : i.op ∉ fallible) (m : Machine) :
    (execute i m).answer = .ok () := by
  cases answer : (execute i m).answer with
  | ok => rfl
  | error f =>
    have fails := (execute_error_iff i m f).mp answer
    cases name : i.op <;>
      simp_all [fallible, Instruction.bytesRead, Instruction.bytesWritten, Memory.blockFault?]

theorem execute_memory (i : Instruction) (m : Machine) :
    (execute i m).machine.memory =
      match i.op with
      | .decimal => m.memory.attempt m.registers.index.toNat (decimalDigits (m.registers.get i.x))
      | .store => m.memory.attempt m.registers.index.toNat (m.registers.upTo i.x)
      | _ => m.memory := by
  cases op : i.op
  case decimal | store =>
    simp only [execute, op, Memory.attempt]
    split <;> simp_all [Outcome.fail, Outcome.done]
  case ret | call | draw | load | waitKey =>
    simp only [execute, op]
    split <;> rfl
  all_goals
    simp only [execute, op]
    rfl

theorem execute_stack (i : Instruction) (m : Machine) :
    (execute i m).machine.stack =
      match i.op with
      | .ret => (m.stack.apply .pop).1
      | .call => (m.stack.apply (.push m.registers.pc)).1
      | _ => m.stack := by
  cases op : i.op
  case ret | call =>
    simp only [execute, op, CallStack.apply]
    split <;> simp_all [Outcome.fail, Outcome.done, setPc]
  case draw | decimal | store | load | waitKey =>
    simp only [execute, op]
    split <;> rfl
  all_goals
    simp only [execute, op]
    rfl

theorem execute_display (i : Instruction) (m : Machine) :
    (execute i m).machine.display =
      match i.op with
      | .clearScreen => m.display.clear
      | .draw =>
        match m.sprite i.n with
        | .error _ => m.display
        | .ok lines =>
          (m.display.draw (spritePoints (m.registers.get i.x).toNat (m.registers.get i.y).toNat
            lines)).1.markDirty
      | _ => m.display := by
  cases op : i.op
  case draw =>
    simp only [execute, op]
    split <;> simp_all [Outcome.fail, Outcome.done, setV]
  case ret | call | decimal | store | load | waitKey =>
    simp only [execute, op]
    split <;> rfl
  all_goals
    simp only [execute, op]
    rfl

theorem execute_timers (i : Instruction) (m : Machine) :
    (execute i m).machine.timers =
      match i.op with
      | .setDelay => m.timers.setDelay (m.registers.get i.x)
      | .setSound => (m.timers.setSound (m.registers.get i.x)).1
      | _ => m.timers := by
  cases op : i.op
  case ret | call | draw | decimal | store | load | waitKey =>
    simp only [execute, op]
    split <;> rfl
  all_goals
    simp only [execute, op]
    rfl

theorem execute_events (i : Instruction) (m : Machine) :
    (execute i m).events =
      match i.op with
      | .setSound => (m.timers.setSound (m.registers.get i.x)).2.toList.map .sound
      | .unknown =>
        if m.unknown.contains ⟨i.opcode, m.registers.pc - 2⟩ then []
        else [.unknown ⟨i.opcode, m.registers.pc - 2⟩]
      | _ => [] := by
  cases op : i.op
  case ret | call | draw | decimal | store | load | waitKey =>
    simp only [execute, op]
    split <;> rfl
  all_goals
    simp only [execute, op]
    rfl

theorem execute_random (i : Instruction) (m : Machine) :
    (execute i m).machine.random =
      match i.op with
      | .random => (m.random.next 0 255).2
      | _ => m.random := by
  cases op : i.op
  case ret | call | draw | decimal | store | load | waitKey =>
    simp only [execute, op]
    split <;> rfl
  all_goals
    simp only [execute, op]
    rfl

theorem execute_index (i : Instruction) (m : Machine) :
    (execute i m).machine.registers.index =
      match i.op with
      | .setIndex => lowWord i.nnn.val
      | .addIndex => lowWord (m.registers.index.toNat + (m.registers.get i.x).toNat)
      | .glyph => lowWord (Font.glyphAddress (lowNibble (m.registers.get i.x)))
      | _ => m.registers.index := by
  cases op : i.op
  case ret | call | draw | decimal | store | load | waitKey =>
    simp only [execute, op]
    split <;> rfl
  case skipIfByte | skipUnlessByte | skipIfSame | skipUnlessSame | skipIfKey | skipUnlessKey =>
    simp only [execute, op, skipIf, Registers.skipIf, Outcome.done]
    split <;> rfl
  all_goals
    simp only [execute, op]
    rfl

theorem execute_unknown (i : Instruction) (m : Machine) :
    (execute i m).machine.unknown =
      match i.op with
      | .unknown => m.unknown.record ⟨i.opcode, m.registers.pc - 2⟩
      | _ => m.unknown := by
  cases op : i.op
  case ret | call | draw | decimal | store | load | waitKey =>
    simp only [execute, op]
    split <;> rfl
  all_goals
    simp only [execute, op]
    rfl

theorem execute_of_unknown {i : Instruction} (op : i.op = .unknown) (m : Machine) :
    execute i m = m.noteUnknown ⟨i.opcode, m.registers.pc - 2⟩ := by
  simp only [execute, op]

def written (i : Instruction) (m : Machine) : List (Fin 16) :=
  match i.op with
  | .setByte | .addByte | .copy | .or | .and | .xor | .random | .readDelay => [i.x]
  | .add | .sub | .subFrom | .shiftRight | .shiftLeft => [i.x, .last 15]
  | .draw => [.last 15]
  | .waitKey => if m.latched.first? = none then [] else [i.x]
  | .load => (List.finRange 16).filter (· ≤ i.x)
  | _ => []

theorem get_execute_of_unwritten {i : Instruction} {m : Machine} {k : Fin 16}
    (unwritten : k ∉ written i m) :
    (execute i m).machine.registers.get k = m.registers.get k := by
  cases op : i.op
  case ret | call | decimal | store =>
    simp only [execute, op]
    split <;> rfl
  case draw =>
    have other : 15 ≠ k := by simpa [written, op, eq_comm] using unwritten
    simp only [execute, op]
    split
    · rfl
    · exact (m.registers.get_set 15 k _).trans (if_neg other)
  case waitKey =>
    simp only [execute, op]
    split
    · rfl
    next key pressed =>
      have other : i.x ≠ k := by simpa [written, op, pressed, eq_comm] using unwritten
      exact (m.registers.get_set i.x k _).trans (if_neg other)
  case load =>
    simp only [written, op, List.mem_filter, List.mem_finRange, true_and, decide_eq_true_eq]
      at unwritten
    simp only [execute, op]
    split
    · rfl
    · exact (m.registers.get_setUpTo i.x k _).trans (if_neg unwritten)
  case skipIfByte | skipUnlessByte | skipIfSame | skipUnlessSame | skipIfKey | skipUnlessKey =>
    simp only [execute, op, skipIf, Registers.skipIf, Outcome.done]
    split <;> rfl
  case setByte | addByte | copy | or | and | xor | random | readDelay =>
    have other : i.x ≠ k := by simpa [written, op, eq_comm] using unwritten
    simp only [execute, op]
    exact (m.registers.get_set i.x k _).trans (if_neg other)
  case add | sub | subFrom | shiftRight | shiftLeft =>
    have other : i.x ≠ k ∧ 15 ≠ k := by simpa [written, op, eq_comm] using unwritten
    simp only [execute, op, Outcome.done, setVF, setV, Registers.get_set, if_neg other.1,
      if_neg other.2]
  all_goals
    simp only [execute, op]
    rfl

/-- The parts that no instruction touches. -/
def aside (m : Machine) : Keypad × Keypad × Bool × Option Fault × Nat :=
  (m.keypad, m.latched, m.halted, m.fault, m.cycles)

theorem execute_aside (i : Instruction) (m : Machine) : (execute i m).machine.aside = m.aside := by
  cases op : i.op
  case ret | call | draw | decimal | store | load | waitKey =>
    simp only [execute, op]
    split <;> rfl
  all_goals
    simp only [execute, op]
    rfl

theorem execute_halted (i : Instruction) (m : Machine) :
    (execute i m).machine.halted = m.halted :=
  congrArg (·.2.2.1) (execute_aside i m)

def skips (i : Instruction) (m : Machine) : Bool :=
  let a := m.registers.get i.x
  let b := m.registers.get i.y
  match i.op with
  | .skipIfByte => a == i.kk
  | .skipUnlessByte => a != i.kk
  | .skipIfSame => a == b
  | .skipUnlessSame => a != b
  | .skipIfKey => m.latched.isDown (lowNibble a)
  | .skipUnlessKey => !m.latched.isDown (lowNibble a)
  | _ => false

theorem execute_pc (i : Instruction) (m : Machine) :
    (execute i m).machine.registers.pc =
      match i.op with
      | .ret =>
        match m.stack.pop with
        | .error _ => m.registers.pc
        | .ok (address, _) => address
      | .call =>
        match m.stack.push m.registers.pc with
        | .error _ => m.registers.pc
        | .ok _ => i.nnn.val
      | .jump => i.nnn.val
      | .jumpFrom => i.nnn.val + (m.registers.get 0).toNat
      | .waitKey => if m.latched.first? = none then m.registers.pc - 2 else m.registers.pc
      | _ => if skips i m then m.registers.pc + 2 else m.registers.pc := by
  cases op : i.op
  case ret | call =>
    simp only [execute, op]
    split <;> simp_all [Outcome.fail, Outcome.done, setPc]
  case waitKey =>
    simp only [execute, op]
    split <;> simp_all [Outcome.done, setPc, setV, Registers.set]
  case draw | decimal | store | load =>
    simp only [execute, op, skips]
    split <;> rfl
  case skipIfByte | skipUnlessByte | skipIfSame | skipUnlessSame | skipIfKey | skipUnlessKey =>
    simp only [execute, op, skips, skipIf, Registers.skipIf, Outcome.done]
    split <;> rfl
  all_goals
    simp only [execute, op, skips]
    rfl

def opcode (m : Machine) : Nat :=
  m.wordAt m.registers.pc

def instruction (m : Machine) : Instruction :=
  decode m.opcode

/-- The machine when the instruction at the program counter has been fetched for a cycle. -/
def fetched (m : Machine) : Machine :=
  { m.latch with registers := m.registers.advance }

@[simp] theorem fetched_memory (m : Machine) : m.fetched.memory = m.memory := rfl

@[simp] theorem fetched_stack (m : Machine) : m.fetched.stack = m.stack := rfl

@[simp] theorem fetched_index (m : Machine) : m.fetched.registers.index = m.registers.index := rfl

@[simp] theorem fetched_pc (m : Machine) : m.fetched.registers.pc = m.registers.pc + 2 := rfl

def executed (m : Machine) : Outcome Fault Unit :=
  execute m.instruction m.fetched

theorem executed_unknown {m : Machine} (unknown : m.instruction.op = .unknown) :
    m.executed = m.fetched.noteUnknown ⟨m.opcode, m.registers.pc⟩ := by
  have address : m.registers.pc + 2 - 2 = m.registers.pc := by omega
  rw [executed, execute_of_unknown unknown, fetched_pc, address]
  rfl

theorem executed_of_unknown {m : Machine} (op : m.instruction.op = .unknown) :
    m.executed.machine =
      { m with
        latched := m.keypad
        registers.pc := m.registers.pc + 2
        unknown := m.unknown.record ⟨m.opcode, m.registers.pc⟩ } := by
  rw [executed_unknown op]
  rfl

section Cycle

variable {m : Machine}

theorem cycle_of_halted (halted : m.halted = true) : m.cycle = .fail m (.halted m.fault) := by
  simp [cycle, halted]

theorem cycle_of_outside (running : m.halted = false) (outside : ¬ InProgram m.registers.pc) :
    m.cycle =
      ⟨m.latch.halt (.programCounter m.registers.pc), [.halted (.programCounter m.registers.pc)],
        .error (.fault (.programCounter m.registers.pc))⟩ := by
  simp [cycle, running, fetchExecute, fetch, latch, outside, Outcome.fail]

theorem fetchExecute_of_inside (inside : InProgram m.registers.pc) :
    m.latch.fetchExecute =
      match m.executed with
      | ⟨m', events, .error f⟩ => ⟨m', events, .error f⟩
      | ⟨m', events, .ok ()⟩ => ⟨m', events ++ trace m.registers.pc m.instruction, .ok ()⟩ := by
  have fetch : m.latch.fetch = .ok m.fetched (m.wordAt m.registers.pc) [] := by
    simp only [Machine.fetch, latch, inside, if_true]
    rfl
  simp only [fetchExecute, fetch, Outcome.ok, List.nil_append]
  rfl

theorem cycle_of_fault (running : m.halted = false) (inside : InProgram m.registers.pc) {f : Fault}
    (fails : m.executed.answer = .error f) :
    m.cycle = ⟨m.fetched.halt f, [.halted f], .error (.fault f)⟩ := by
  rw [cycle, running, fetchExecute_of_inside inside, executed, execute_of_error fails]
  rfl

theorem cycle_of_success (running : m.halted = false) (inside : InProgram m.registers.pc)
    (succeeds : m.executed.answer = .ok ()) :
    m.cycle =
      .done { m.executed.machine with cycles := m.executed.machine.cycles + 1 }
        (m.executed.events ++ trace m.registers.pc m.instruction) := by
  rw [cycle, running, fetchExecute_of_inside inside]
  rcases result : m.executed with ⟨m', events, answer⟩
  rw [result] at succeeds
  subst succeeds
  rfl

theorem cycle_of_executed (running : m.halted = false) (inside : InProgram m.registers.pc) {s : Machine}
    {events : List Event} (executes : m.executed = .done s events) :
    m.cycle =
      .done { s with cycles := s.cycles + 1 } (events ++ trace m.registers.pc m.instruction) := by
  rw [cycle_of_success running inside (by rw [executes]; rfl), executes]
  rfl

theorem cycle_of_opcode (running : m.halted = false) (inside : InProgram m.registers.pc) {w : Nat}
    (opcode : m.opcode = w) (succeeds : (execute (decode w) m.fetched).answer = .ok ()) :
    m.cycle =
      .done { (execute (decode w) m.fetched).machine with
          cycles := (execute (decode w) m.fetched).machine.cycles + 1 }
        ((execute (decode w) m.fetched).events ++ trace m.registers.pc (decode w)) := by
  subst opcode
  exact cycle_of_success running inside succeeds

/-- A cycle is refused by a halted machine, or fails to fetch, or fails to execute, or succeeds. -/
inductive CycleCase (m : Machine) : Prop
  | halted (halted : m.halted = true) (eq : m.cycle = .fail m (.halted m.fault))
  | outside (running : m.halted = false) (outside : ¬ InProgram m.registers.pc)
      (eq : m.cycle =
        ⟨m.latch.halt (.programCounter m.registers.pc), [.halted (.programCounter m.registers.pc)],
          .error (.fault (.programCounter m.registers.pc))⟩)
  | fault (running : m.halted = false) (inside : InProgram m.registers.pc) (f : Fault)
      (fails : m.executed.answer = .error f)
      (eq : m.cycle = ⟨m.fetched.halt f, [.halted f], .error (.fault f)⟩)
  | success (running : m.halted = false) (inside : InProgram m.registers.pc)
      (succeeds : m.executed.answer = .ok ())
      (eq : m.cycle =
        .done { m.executed.machine with cycles := m.executed.machine.cycles + 1 }
          (m.executed.events ++ trace m.registers.pc m.instruction))

theorem cycle_cases (m : Machine) : CycleCase m := by
  cases halted : m.halted with
  | true => exact .halted halted (cycle_of_halted halted)
  | false =>
    by_cases inside : InProgram m.registers.pc
    · cases answer : m.executed.answer with
      | error f => exact .fault halted inside f answer (cycle_of_fault halted inside answer)
      | ok => exact .success halted inside answer (cycle_of_success halted inside answer)
    · exact .outside halted inside (cycle_of_outside halted inside)

theorem running_of_cycle_ok (succeeds : m.cycle.answer = .ok ()) :
    m.halted = false ∧ InProgram m.registers.pc := by
  cases m.cycle_cases with
  | halted _ eq => simp [eq, Outcome.fail] at succeeds
  | outside _ _ eq => simp [eq] at succeeds
  | fault _ _ _ _ eq => simp [eq] at succeeds
  | success running inside _ _ => exact ⟨running, inside⟩

theorem machine_of_cycle_ok (succeeds : m.cycle.answer = .ok ()) :
    m.executed.answer = .ok () ∧
      m.cycle.machine = { m.executed.machine with cycles := m.executed.machine.cycles + 1 } := by
  cases m.cycle_cases with
  | halted _ eq => simp [eq, Outcome.fail] at succeeds
  | outside _ _ eq => simp [eq] at succeeds
  | fault _ _ _ _ eq => simp [eq] at succeeds
  | success _ _ executes eq => exact ⟨executes, by rw [eq]; rfl⟩

end Cycle

end Machine

end ChipEight

import ChipEight.Proofs.ControlFlow
import ChipEight.Proofs.CycleHistory
import ChipEight.Proofs.Intake

/-!
The random source. One kind of opcode draws from it, one byte each time, and nothing else moves it; so the
bytes that were drawn are as many as the history has such opcodes, and each got the next one.
-/

namespace ChipEight

namespace RandomBytes

def skip (s : RandomBytes) (n : Nat) : RandomBytes :=
  ⟨s.rest.drop n, List.replicate n (0, 255) ++ s.asked⟩

@[simp] theorem skip_zero (s : RandomBytes) : s.skip 0 = s := rfl

theorem skip_skip (s : RandomBytes) (n k : Nat) : (s.skip n).skip k = s.skip (n + k) := by
  rw [skip, skip, skip, List.drop_drop, ← List.append_assoc, List.replicate_append_replicate, Nat.add_comm k n]

theorem next_eq (s : RandomBytes) : s.next 0 255 = (s.byte, s.skip 1) := by
  simp [next, skip]

theorem byte_skip (s : RandomBytes) (n : Nat) : (s.skip n).byte = s.rest.getD n 0 := by
  simp [byte, skip, List.headD_eq_head?_getD]

end RandomBytes

namespace Machine

def draws (c : Machine) : Bool :=
  c.opcode / 0x1000 = 0xC

theorem random_iff (m : Machine) : m.instruction.op = .random ↔ m.draws = true := by
  rw [draws, decide_eq_true_iff]
  exact decode_op_iff .random nofun m.opcode_lt

theorem random_of_cycle_draws {m : Machine} (succeeds : m.cycle.answer = .ok ()) (draws : m.draws = true) :
    m.cycle.machine.random = m.random.skip 1 ∧
      (m.cycle.machine.registers.get (registerX m.opcode)).toNat =
        m.random.byte.toNat &&& m.opcode % 0x100 := by
  have op := m.random_iff.mpr draws
  obtain ⟨x, -, kk, -⟩ := decode_operands m.opcode_lt
  constructor
  · rw [cycle_random, succeeds, op]
    exact congrArg (·.2) m.random.next_eq
  · have executes : m.executed =
        .done ({ m.fetched with random := (m.random.next 0 255).2 }.setV m.instruction.x
          (m.random.byte &&& m.instruction.kk)) [] := by
      simp only [executed, execute, op]
      rfl
    have stored : m.cycle.machine.registers.get (registerX m.opcode) =
        m.random.byte &&& m.instruction.kk := by
      rw [(machine_of_cycle_ok succeeds).2, executes]
      exact (m.fetched.registers.get_set _ _ _).trans (if_pos x)
    rw [stored, UInt8.toNat_and, instruction, kk]

theorem random_of_cycle_quiet {m : Machine} (quiet : m.draws = false) :
    m.cycle.machine.random = m.random := by
  have other : m.instruction.op ≠ .random := fun op => by simp [m.random_iff.mp op] at quiet
  rw [cycle_random]
  split
  next op => exact absurd op other
  · rfl

theorem random_perform (m : Machine) {op : Operation} (single : op.Single) :
    (m.perform op).machine.random = m.random.skip ((m.starts? op).toList.filter draws).length := by
  cases op with
  | frame count => exact single.elim
  | cycle =>
    rw [perform_cycle_machine]
    cases answer : m.cycle.answer with
    | error e =>
      rw [starts?_of_error answer, cycle_random, answer]
      rfl
    | ok =>
      rw [starts?_of_ok answer]
      cases drawing : m.draws with
      | true =>
        rw [(random_of_cycle_draws answer drawing).1]
        simp [drawing]
      | false =>
        rw [random_of_cycle_quiet drawing]
        simp [drawing]
  | load rom offset =>
    rw [perform_load_machine, loadRom]
    split <;> rfl
  | fetch =>
    change m.fetch.machine.random = m.random
    rw [fetch]
    split <;> rfl
  | toggle | setV | poke | peek =>
    simp only [perform]
    split <;> rfl
  | tick | reset | press | release | releaseAll | markClean | setIndex | setPc | setHalted | setDelay
  | setSound => rfl

theorem eq_of_mem_starts? {m c : Machine} {op : Operation} (mem : c ∈ (m.starts? op).toList) : c = m := by
  by_cases cycle : op = .cycle
  · rw [cycle] at mem
    cases answer : m.cycle.answer with
    | error e => simp [starts?_of_error answer] at mem
    | ok => simpa [starts?_of_ok answer] using mem
  · simp [starts?_of_ne cycle] at mem

theorem random_stepHistory {ops : List Operation} (single : ∀ op ∈ ops, op.Single) (m : Machine) :
    (m.after ops).random = m.random.skip ((m.stepHistory ops).filter draws).length ∧
      ∀ (k : Nat) (c : Machine), ((m.stepHistory ops).filter draws)[k]? = some c →
        c.random = m.random.skip k := by
  induction ops generalizing m with
  | nil => exact ⟨rfl, nofun⟩
  | cons op rest ih =>
    obtain ⟨first, others⟩ := List.forall_mem_cons.mp single
    obtain ⟨after, each⟩ := ih others (m.perform op).machine
    rw [m.random_perform first] at after each
    rw [stepHistory, List.filter_append, List.length_append, after_cons, after, RandomBytes.skip_skip]
    refine ⟨rfl, fun k c found => ?_⟩
    rw [List.getElem?_append] at found
    split at found
    next now =>
      have one : ((m.starts? op).toList.filter draws).length ≤ 1 :=
        Nat.le_trans (List.length_filter_le _ _) (by cases m.starts? op <;> simp)
      obtain rfl : k = 0 := by omega
      have mem := (List.mem_filter.mp (List.mem_of_getElem? found)).1
      rw [eq_of_mem_starts? mem, RandomBytes.skip_zero]
    next later =>
      rw [each _ c found, RandomBytes.skip_skip]
      congr 1
      omega

theorem random_history (m : Machine) (ops : List Operation) :
    (m.after ops).random = m.random.skip ((m.history ops).filter draws).length ∧
      ∀ (k : Nat) (c : Machine), ((m.history ops).filter draws)[k]? = some c →
        c.random = m.random.skip k := by
  rw [← after_unroll]
  exact random_stepHistory (fun op mem => (mem_unroll mem).1) m

theorem register_of_history_draws {m c : Machine} {ops : List Operation} {k : Nat}
    (found : ((m.history ops).filter draws)[k]? = some c) :
    (c.cycle.machine.registers.get (registerX c.opcode)).toNat =
      (m.random.rest.getD k 0).toNat &&& c.opcode % 0x100 := by
  obtain ⟨mem, drawing⟩ := List.mem_filter.mp (List.mem_of_getElem? found)
  rw [(random_of_cycle_draws (of_mem_history mem).1 drawing).2, (m.random_history ops).2 k c found,
    RandomBytes.byte_skip]

end Machine

end ChipEight

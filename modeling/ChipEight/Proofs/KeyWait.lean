import ChipEight.Proofs.ControlFlow
import ChipEight.Proofs.Intake

/-!
Waiting for a key. As long as no key is down when a cycle starts, the opcode that waits is fetched over and over,
and only the count of cycles and what goes on outside change anything. The first cycle that finds keys down takes
the lowest of them and goes on.
-/

namespace ChipEight

theorem Keypad.first?_eq_some_iff (p : Keypad) (key : Fin 16) :
    p.first? = some key ↔ p.isDown key = true ∧ ∀ k < key, p.isDown k = false := by
  rw [first?, pressed, List.head?_filter, List.find?_eq_some_iff_getElem]
  simp only [List.getElem_finRange]
  constructor
  · rintro ⟨down, i, h, rfl, before⟩
    refine ⟨down, fun k less => ?_⟩
    simpa using before k.val less
  · rintro ⟨down, before⟩
    refine ⟨down, key.val, by simp, rfl, fun j hj => ?_⟩
    simpa using before ⟨j, by omega⟩ hj

namespace Operation

/-- What can go on around a machine that waits for a key: time passes and keys are struck. -/
def Passing : Operation → Prop
  | .cycle | .tick | .press _ | .release _ | .releaseAll => True
  | _ => False

def strike (p : Keypad) : Operation → Keypad
  | .press key => p.press key
  | .release key => p.release key
  | .releaseAll => .released
  | _ => p

end Operation

namespace Machine

theorem keypad_after {m : Machine} {ops : List Operation} (passing : ∀ op ∈ ops, op.Passing) :
    (m.after ops).keypad = ops.foldl Operation.strike m.keypad := by
  induction ops generalizing m with
  | nil => rfl
  | cons op rest ih =>
    have step : (m.perform op).machine.keypad = Operation.strike m.keypad op := by
      have here := passing op List.mem_cons_self
      cases op with
      | cycle => exact m.cycle_keypad
      | tick | press key | release key | releaseAll => rfl
      | _ => exact here.elim
    rw [after_cons, ih fun op mem => passing op (List.mem_cons_of_mem _ mem), step, List.foldl_cons]

structure Waits (m : Machine) : Prop where
  running : m.halted = false
  inside : InProgram m.registers.pc
  opcode : EndsIn m.opcode 0x0A

/-- What is left after a number of cycles and of ticks that changed nothing else but the keys. -/
structure Waited (m s : Machine) (cycles ticks : Nat) : Prop where
  same : s = { m with
    keypad := s.keypad
    latched := s.latched
    timers := s.timers
    cycles := m.cycles + cycles }
  delay : s.timers.delay.toNat = m.timers.delay.toNat - ticks
  sound : s.timers.sound.toNat = m.timers.sound.toNat - ticks

section Waited

variable {m s s' : Machine} {c c' t t' : Nat}

theorem Waited.refl (m : Machine) : m.Waited m 0 0 :=
  ⟨rfl, rfl, rfl⟩

theorem Waited.trans (first : m.Waited s c t) (second : s.Waited s' c' t') :
    m.Waited s' (c + c') (t + t') where
  same := by
    rw [second.same, first.same]
    simp only [Nat.add_assoc]
  delay := by rw [second.delay, first.delay, Nat.sub_sub]
  sound := by rw [second.sound, first.sound, Nat.sub_sub]

theorem Waited.unchanged (waited : m.Waited s c t) :
    s.registers = m.registers ∧ s.opcode = m.opcode := by
  rw [waited.same]
  exact ⟨rfl, rfl⟩

theorem Waited.waits (waited : m.Waited s c t) (waits : m.Waits) : s.Waits := by
  rw [waited.same]
  exact ⟨waits.running, waits.inside, waits.opcode⟩

end Waited

section Waits

variable {m : Machine} (waits : m.Waits)
include waits

theorem Waits.op : m.instruction.op = .waitKey :=
  (decode_op_iff .waitKey (by decide) m.opcode_lt).mpr waits.opcode

theorem cycle_asleep (asleep : ∀ key, m.keypad.isDown key = false) :
    m.cycle.answer = .ok () ∧
      m.cycle.machine = { m with latched := m.keypad, cycles := m.cycles + 1 } := by
  have none : m.fetched.latched.first? = none := m.keypad.first?_eq_none_iff.mpr asleep
  have executes : m.executed = .done (m.fetched.setPc (m.registers.pc + 2 - 2)) [] := by
    simp only [executed, execute, waits.op, none, fetched_pc]
  have back : m.registers.pc + 2 - 2 = m.registers.pc := by omega
  rw [cycle_of_executed waits.running waits.inside executes, back]
  exact ⟨rfl, rfl⟩

theorem cycle_awake {key : Fin 16} (lowest : m.keypad.first? = some key) :
    m.cycle.answer = .ok () ∧
      m.cycle.machine =
        { m with
          latched := m.keypad
          registers := m.registers.advance.set (registerX m.opcode) (UInt8.ofNat key.val)
          cycles := m.cycles + 1 } := by
  obtain ⟨x, -⟩ := decode_operands m.opcode_lt
  have latched : m.fetched.latched.first? = some key := lowest
  have executes : m.executed = .done (m.fetched.setV (registerX m.opcode) (UInt8.ofNat key.val)) [] := by
    rw [← x]
    simp only [executed, execute, waits.op, latched]
    rfl
  rw [cycle_of_executed waits.running waits.inside executes]
  exact ⟨rfl, rfl⟩

theorem waited_perform {op : Operation} (passing : op.Passing)
    (asleep : op = .cycle → ∀ key, m.keypad.isDown key = false) :
    (∃ a, (m.perform op).answer = .ok a) ∧
      m.Waited (m.perform op).machine ([op].count .cycle) ([op].count .tick) := by
  cases op with
  | cycle =>
    obtain ⟨succeeds, left⟩ := cycle_asleep waits (asleep rfl)
    refine ⟨⟨.none, by rw [perform_cycle, Outcome.map, succeeds]⟩, ?_⟩
    rw [perform_cycle_machine, left]
    exact ⟨rfl, rfl, rfl⟩
  | tick => exact ⟨⟨.none, rfl⟩, rfl, Timers.toNat_countDown _, Timers.toNat_countDown _⟩
  | press key => exact ⟨⟨.none, rfl⟩, rfl, rfl, rfl⟩
  | release key => exact ⟨⟨.none, rfl⟩, rfl, rfl, rfl⟩
  | releaseAll => exact ⟨⟨.none, rfl⟩, rfl, rfl, rfl⟩
  | _ => exact passing.elim

theorem waited_after {ops : List Operation} (passing : ∀ op ∈ ops, op.Passing)
    (asleep : ∀ k, ops[k]? = some .cycle → ∀ key, (m.after (ops.take k)).keypad.isDown key = false) :
    (∀ o ∈ m.run ops, ∃ a, o.answer = .ok a) ∧
      m.Waited (m.after ops) (ops.count .cycle) (ops.count .tick) := by
  -- over the operations: what each of them leaves waits again, since the same opcode is still ahead
  induction ops generalizing m with
  | nil => exact ⟨by simp [run], .refl m⟩
  | cons op rest ih =>
    obtain ⟨succeeds, step⟩ := waited_perform waits (passing op List.mem_cons_self)
      (fun cycle => asleep 0 (by simp [cycle]))
    obtain ⟨succeed, run⟩ := ih (step.waits waits) (fun op mem => passing op (List.mem_cons_of_mem _ mem))
      (fun k now => asleep (k + 1) now)
    constructor
    · rw [Machine.run, List.forall_mem_cons]
      exact ⟨succeeds, succeed⟩
    · rw [after_cons, List.count_cons, List.count_cons]
      have both := step.trans run
      simp only [List.count_singleton] at both
      rwa [Nat.add_comm, Nat.add_comm (rest.count .tick)]

end Waits

/-- While no key is down when a cycle starts, a machine that waits for a key goes on waiting: no cycle fails, and
nothing but the keys, the timers and the count of cycles changes. The first cycle that finds keys down puts the
lowest of them into the register and goes on to the next opcode. -/
theorem wait_takes_lowest_key {m : Machine} (waits : m.Waits) {ops : List Operation}
    (passing : ∀ op ∈ ops, op.Passing)
    (asleep : ∀ k, ops[k]? = some .cycle → ∀ key, (m.after (ops.take k)).keypad.isDown key = false) :
    let s := m.after ops
    let x := registerX m.opcode
    (∀ o ∈ m.run ops, ∃ a, o.answer = .ok a) ∧
    m.Waited s (ops.count .cycle) (ops.count .tick) ∧
    ((∃ key, s.keypad.isDown key = true) → ∃ key, s.keypad.first? = some key ∧
      s.keypad.isDown key = true ∧ (∀ k < key, s.keypad.isDown k = false) ∧
      s.cycle.answer = .ok () ∧
      (s.cycle.machine.registers.get x).toNat = key.val ∧
      s.cycle.machine.registers.pc = m.registers.pc + 2 ∧
      (∀ k ≠ x, s.cycle.machine.registers.get k = m.registers.get k) ∧
      s.cycle.machine.registers.index = m.registers.index) := by
  intro s x
  obtain ⟨succeed, waited⟩ := waited_after waits passing asleep
  refine ⟨succeed, waited, ?_⟩
  rintro ⟨struck, down⟩
  cases lowest : s.keypad.first? with
  | none =>
    have up := s.keypad.first?_eq_none_iff.mp lowest struck
    rw [down] at up
    cases up
  | some key =>
    obtain ⟨isDown, above⟩ := (s.keypad.first?_eq_some_iff key).mp lowest
    obtain ⟨succeeds, left⟩ := cycle_awake (waited.waits waits) lowest
    obtain ⟨registers, opcode⟩ := waited.unchanged
    have taken : s.cycle.machine.registers = m.registers.advance.set x (UInt8.ofNat key.val) := by
      rw [left, registers, opcode]
    refine ⟨key, rfl, isDown, above, succeeds, ?_, ?_, fun k other => ?_, ?_⟩
    · rw [taken, Registers.get_set, if_pos rfl, UInt8.toNat_ofNat']
      omega
    · rw [taken]
      rfl
    · rw [taken, Registers.get_set, if_neg (Ne.symm other)]
      rfl
    · rw [taken]
      rfl

theorem wait_takes_lowest_key_struck :
    let m := loaded [0xFF, 0x0A]
    let ops : List Operation := [.cycle, .press 9, .release 9, .tick, .cycle, .press 7, .press 2]
    m.Waits ∧ (∀ op ∈ ops, op.Passing) ∧
      (∀ k, ops[k]? = some .cycle → ∀ key, (m.after (ops.take k)).keypad.isDown key = false) ∧
      (m.after ops).registers.pc = 0x200 ∧
      ((m.after ops).cycle.machine.registers.get 15).toNat = 2 ∧
      (m.after ops).cycle.machine.registers.pc = 0x202 := by
  intro m ops
  have opcode : m.opcode = 0xFF0A := wordAt_loaded [0xFF, 0x0A] (by decide) 0 (by decide)
  have pc : m.registers.pc = 0x200 := rfl
  have released : m.keypad = Keypad.released := rfl
  have waits : m.Waits := ⟨rfl, by decide, by rw [opcode]; exact ⟨by decide, by decide⟩⟩
  clear_value m
  have passing : ∀ op ∈ ops, op.Passing := by
    simp [ops, Operation.Passing]
  have keypad (k : Nat) : (m.after (ops.take k)).keypad = (ops.take k).foldl Operation.strike .released :=
    released ▸ keypad_after fun op mem => passing op (List.mem_of_mem_take mem)
  have asleep : ∀ k, ops[k]? = some .cycle → ∀ key, (m.after (ops.take k)).keypad.isDown key = false := by
    intro k now
    obtain ⟨h, -⟩ := List.getElem?_eq_some_iff.mp now
    rw [keypad]
    have quiet : ∀ k < 7, ops[k]? = some .cycle →
        ∀ key, ((ops.take k).foldl Operation.strike .released).isDown key = false := by decide
    exact quiet k h now
  have down : (m.after ops).keypad.isDown 2 = true := by
    rw [keypad_after passing, released]
    decide
  obtain ⟨-, waited, takes⟩ := wait_takes_lowest_key waits passing asleep
  obtain ⟨key, lowest, -, -, -, taken, goes, -⟩ := takes ⟨2, down⟩
  have stays : (m.after ops).registers.pc = 0x200 :=
    (congrArg Registers.pc waited.unchanged.1).trans pc
  have x : registerX 0xFF0A = 15 := by decide
  rw [opcode, x] at taken
  rw [pc] at goes
  have two : (ops.foldl Operation.strike .released).first? = some 2 := by decide
  rw [keypad_after passing, released, two] at lowest
  obtain rfl := Option.some.inj lowest
  exact ⟨waits, passing, asleep, stays, taken, goes⟩

end Machine

end ChipEight

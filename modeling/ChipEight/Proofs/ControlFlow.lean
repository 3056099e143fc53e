import ChipEight.Proofs.CallDiscipline
import ChipEight.Proofs.Footprint

/-!
Where a cycle that succeeds goes on. Jumps, calls and returns lead to an address of their own, waiting for a
key stays, and all other opcodes go on behind themselves or one opcode further. Whether an opcode passes
over the next one is a condition on the registers and the keys, and each such condition has an opcode for
it and one for its opposite.
-/

namespace ChipEight

def registerX (w : Nat) : Fin 16 :=
  ⟨w / 0x100 % 0x10, by omega⟩

def registerY (w : Nat) : Fin 16 :=
  ⟨w / 0x10 % 0x10, by omega⟩

theorem decode_operands {w : Nat} (h : w < 65536) :
    (decode w).x = registerX w ∧ (decode w).y = registerY w ∧ (decode w).kk.toNat = w % 0x100 ∧
      (decode w).nnn.val = w % 0x1000 := by
  have small : ((w : Int) % 65536).toNat = w := by omega
  obtain ⟨x, y, -, kk, nnn⟩ := Operands.ofOpcode_digits small
  exact ⟨Fin.ext x, Fin.ext y, kk, nnn⟩

/-- One opcode passes over the next one under a condition, and the other under the opposite condition on the
same operands. -/
def Complements (w w' : Nat) : Prop :=
  w / 0x1000 = 3 ∧ w' = w + 0x1000 ∨
    (w / 0x1000 = 5 ∧ w % 0x10 = 0) ∧ w' = w + 0x4000 ∨
    (w / 0x1000 = 0xE ∧ w % 0x100 = 0x9E) ∧ w' = w + 3

instance (w w' : Nat) : Decidable (Complements w w') :=
  inferInstanceAs (Decidable (_ ∨ _))

namespace Machine

/-- The opcode passes over the next one if it is executed by this machine. -/
def SkipsNext (m : Machine) (w : Nat) : Prop :=
  let vx := m.registers.get (registerX w)
  let vy := m.registers.get (registerY w)
  w / 0x1000 = 3 ∧ vx.toNat = w % 0x100 ∨
    w / 0x1000 = 4 ∧ vx.toNat ≠ w % 0x100 ∨
    (w / 0x1000 = 5 ∧ w % 0x10 = 0) ∧ vx = vy ∨
    (w / 0x1000 = 9 ∧ w % 0x10 = 0) ∧ vx ≠ vy ∨
    (w / 0x1000 = 0xE ∧ w % 0x100 = 0x9E) ∧ m.keypad.get vx.toNat = true ∨
    (w / 0x1000 = 0xE ∧ w % 0x100 = 0xA1) ∧ m.keypad.get vx.toNat = false

instance (m : Machine) (w : Nat) : Decidable (m.SkipsNext w) :=
  inferInstanceAs (Decidable (_ ∨ _))

theorem skipsNext_complement {w w' : Nat} (complement : Complements w w') (m : Machine) :
    m.SkipsNext w' ↔ ¬ m.SkipsNext w := by
  rcases complement with ⟨digit, rfl⟩ | ⟨⟨digit, last⟩, rfl⟩ | ⟨⟨digit, low⟩, rfl⟩
  · have digit' : (w + 0x1000) / 0x1000 = 4 := by omega
    have x : registerX (w + 0x1000) = registerX w := Fin.ext (by simp only [registerX]; omega)
    have kk : (w + 0x1000) % 0x100 = w % 0x100 := by omega
    simp [SkipsNext, digit, digit', x, kk]
  · have digit' : (w + 0x4000) / 0x1000 = 9 := by omega
    have last' : (w + 0x4000) % 0x10 = 0 := by omega
    have x : registerX (w + 0x4000) = registerX w := Fin.ext (by simp only [registerX]; omega)
    have y : registerY (w + 0x4000) = registerY w := Fin.ext (by simp only [registerY]; omega)
    simp [SkipsNext, digit, digit', last, last', x, y]
  · have digit' : (w + 3) / 0x1000 = 0xE := by omega
    have low' : (w + 3) % 0x100 = 0xA1 := by omega
    have x : registerX (w + 3) = registerX w := Fin.ext (by simp only [registerX]; omega)
    simp [SkipsNext, digit, digit', low, low', x]

theorem skipsNext_opcode_iff (m : Machine) :
    m.SkipsNext m.opcode ↔
      let i := m.instruction
      let a := m.registers.get i.x
      let b := m.registers.get i.y
      i.op = .skipIfByte ∧ a = i.kk ∨ i.op = .skipUnlessByte ∧ a ≠ i.kk ∨
        i.op = .skipIfSame ∧ a = b ∨ i.op = .skipUnlessSame ∧ a ≠ b ∨
        i.op = .skipIfKey ∧ m.keypad.isDown (lowNibble a) = true ∨
        i.op = .skipUnlessKey ∧ m.keypad.isDown (lowNibble a) = false := by
  have word := m.opcode_lt
  obtain ⟨x, y, kk, -⟩ := decode_operands word
  have digits (op : Op) (known : op ≠ .unknown) := decode_op_iff op known word
  simp only [instruction, digits .skipIfByte (by decide), digits .skipUnlessByte (by decide),
    digits .skipIfSame (by decide), digits .skipUnlessSame (by decide), digits .skipIfKey (by decide),
    digits .skipUnlessKey (by decide), x, y, ne_eq, ← UInt8.toNat_inj, kk]
  simp only [SkipsNext, ne_eq, ← UInt8.toNat_inj]
  rfl

theorem skips_iff (m : Machine) : skips m.instruction m.fetched = true ↔ m.SkipsNext m.opcode := by
  have registers (k : Fin 16) : m.fetched.registers.get k = m.registers.get k := rfl
  have latched : m.fetched.latched = m.keypad := rfl
  rw [skipsNext_opcode_iff]
  cases op : m.instruction.op <;> simp [skips, op, registers, latched]

def conditional : List Op :=
  [.skipIfByte, .skipUnlessByte, .skipIfSame, .skipUnlessSame, .skipIfKey, .skipUnlessKey]

theorem conditional_of_complements {w w' : Nat} (complement : Complements w w') (h : w' < 65536) :
    (decode w).op ∈ conditional ∧ (decode w').op ∈ conditional := by
  have has (op : Op) (known : op ≠ .unknown) {v : Nat} (hv : v < 65536) (digits : op.HasDigits v)
      (mem : op ∈ conditional) : (decode v).op ∈ conditional :=
    (decode_op_iff op known hv).mpr digits ▸ mem
  rcases complement with ⟨digit, rfl⟩ | ⟨digits, rfl⟩ | ⟨digits, rfl⟩
  · have opposite : (w + 0x1000) / 0x1000 = 4 := by omega
    exact ⟨has .skipIfByte nofun (by omega) digit (by decide),
      has .skipUnlessByte nofun h opposite (by decide)⟩
  · have opposite : (w + 0x4000) / 0x1000 = 9 ∧ (w + 0x4000) % 0x10 = 0 := by omega
    exact ⟨has .skipIfSame nofun (by omega) digits (by decide),
      has .skipUnlessSame nofun h opposite (by decide)⟩
  · have opposite : (w + 3) / 0x1000 = 0xE ∧ (w + 3) % 0x100 = 0xA1 := by omega
    exact ⟨has .skipIfKey nofun (by omega) digits (by decide),
      has .skipUnlessKey nofun h opposite (by decide)⟩

theorem executed_conditional {m : Machine} (op : m.instruction.op ∈ conditional) :
    m.executed.answer = .ok () := by
  refine execute_ok_of_infallible (fun fails => ?_) m.fetched
  simp only [conditional, List.mem_cons, List.not_mem_nil, or_false] at op
  rcases op with op | op | op | op | op | op <;> simp [op, fallible] at fails

section Executed

variable {m : Machine} (succeeds : m.executed.answer = .ok ())
include succeeds

theorem pc_of_call (op : m.instruction.op = .call) :
    m.executed.machine.registers.pc = m.instruction.nnn.val := by
  cases pushed : m.stack.push (m.registers.pc + 2) with
  | error f =>
    have fails := (execute_error_iff m.instruction m.fetched f).mpr (.inr (.inl ⟨op, pushed⟩))
    rw [← executed, succeeds] at fails
    cases fails
  | ok stack =>
    rw [executed, execute_pc, op]
    simp only [fetched_stack, fetched_pc, pushed]

theorem pc_of_executed (other : m.instruction.op ≠ .ret) :
    m.executed.machine.registers.pc =
      match m.instruction.op with
      | .jump | .call => m.instruction.nnn.val
      | .jumpFrom => m.instruction.nnn.val + (m.registers.get 0).toNat
      | .waitKey => if m.keypad.first? = none then m.registers.pc else m.registers.pc + 2
      | _ => if m.SkipsNext m.opcode then m.registers.pc + 4 else m.registers.pc + 2 := by
  have back : m.registers.pc + 2 - 2 = m.registers.pc := by omega
  have further : m.registers.pc + 2 + 2 = m.registers.pc + 4 := by omega
  have latched : m.fetched.latched = m.keypad := rfl
  have registers (k : Fin 16) : m.fetched.registers.get k = m.registers.get k := rfl
  cases op : m.instruction.op
  case call => exact pc_of_call succeeds op
  case ret => exact absurd op other
  all_goals
    simp only [executed, execute_pc, op, fetched_pc, back, further, latched, registers, skips_iff]

theorem pc_of_conditional (op : m.instruction.op ∈ conditional) :
    m.executed.machine.registers.pc =
      if m.SkipsNext m.opcode then m.registers.pc + 4 else m.registers.pc + 2 := by
  have other : m.instruction.op ≠ .ret := by
    rintro ret
    rw [ret] at op
    exact absurd op (by decide)
  rw [pc_of_executed succeeds other]
  simp only [conditional, List.mem_cons, List.not_mem_nil, or_false] at op
  rcases op with op | op | op | op | op | op <;> simp only [op]

end Executed

theorem conditional_of_skipsNext {m : Machine} (skips : m.SkipsNext m.opcode) :
    m.instruction.op ∈ conditional := by
  rcases (skipsNext_opcode_iff m).mp skips with h | h | h | h | h | h <;> simp [conditional, h.1]

theorem pc_of_complements {m : Machine} (running : m.halted = false) (inside : InProgram m.registers.pc)
    {memory : Memory} :
    let s := { m with memory }
    Complements m.opcode s.opcode ∨ Complements s.opcode m.opcode →
      m.cycle.answer = .ok () ∧ s.cycle.answer = .ok () ∧
        (m.cycle.machine.registers.pc = m.registers.pc + 4 ∧
            s.cycle.machine.registers.pc = m.registers.pc + 2 ∨
          m.cycle.machine.registers.pc = m.registers.pc + 2 ∧
            s.cycle.machine.registers.pc = m.registers.pc + 4) := by
  intro s opposite
  have goes {c : Machine} (running : c.halted = false) (inside : InProgram c.registers.pc)
      (op : c.instruction.op ∈ conditional) :
      c.cycle.answer = .ok () ∧ c.cycle.machine.registers.pc =
        if c.SkipsNext c.opcode then c.registers.pc + 4 else c.registers.pc + 2 := by
    have executes := executed_conditional op
    rw [cycle_of_success running inside executes]
    exact ⟨rfl, pc_of_conditional executes op⟩
  have ops : m.instruction.op ∈ conditional ∧ s.instruction.op ∈ conditional := by
    rcases opposite with complement | complement
    · exact conditional_of_complements complement s.opcode_lt
    · exact (conditional_of_complements complement m.opcode_lt).symm
  have skips : m.SkipsNext s.opcode ↔ ¬ m.SkipsNext m.opcode := by
    rcases opposite with complement | complement
    · exact m.skipsNext_complement complement
    · rw [m.skipsNext_complement complement, Classical.not_not]
  obtain ⟨succeeds, pc⟩ := goes running inside ops.1
  obtain ⟨succeeds', pc'⟩ := goes (c := s) running inside ops.2
  refine ⟨succeeds, succeeds', ?_⟩
  rw [pc, pc']
  have same : s.SkipsNext s.opcode ↔ m.SkipsNext s.opcode := Iff.rfl
  by_cases first : m.SkipsNext m.opcode
  · have second : ¬ s.SkipsNext s.opcode := by rwa [same, skips, Classical.not_not]
    exact .inl ⟨if_pos first, if_neg second⟩
  · have second : s.SkipsNext s.opcode := by rwa [same, skips]
    exact .inr ⟨if_neg first, if_pos second⟩

/-- Where a cycle that succeeds goes on, said of the machine before it. Of two opcodes for opposite
conditions exactly one passes over the next opcode. -/
theorem pc_after_cycle {m : Machine} (reachable : m.Reachable) (succeeds : m.cycle.answer = .ok ()) :
    let p := m.registers.pc
    let w := m.opcode
    let p' := m.cycle.machine.registers.pc
    (w / 0x1000 = 1 ∨ w / 0x1000 = 2 → p' = w % 0x1000) ∧
    (w / 0x1000 = 0xB → p' = w % 0x1000 + (m.registers.get 0).toNat) ∧
    (w = 0x00EE → m.stack.live.getLast? = some p') ∧
    (EndsIn w 0x0A → (∀ key, m.keypad.isDown key = false) → p' = p) ∧
    (m.SkipsNext w → p' = p + 4) ∧
    (w / 0x1000 ∉ [1, 2, 0xB] → w ≠ 0x00EE →
      ¬ (EndsIn w 0x0A ∧ ∀ key, m.keypad.isDown key = false) → ¬ m.SkipsNext w → p' = p + 2) ∧
    ((∀ op : Op, ¬ op.Matches w) → p' = p + 2) ∧
    ∀ memory : Memory,
      let s := { m with memory }
      Complements w s.opcode ∨ Complements s.opcode w →
        s.cycle.answer = .ok () ∧
          (p' = p + 4 ∧ s.cycle.machine.registers.pc = p + 2 ∨
            p' = p + 2 ∧ s.cycle.machine.registers.pc = p + 4) := by
  intro p w p'
  obtain ⟨executes, eq⟩ := machine_of_cycle_ok succeeds
  obtain ⟨running, inside⟩ := running_of_cycle_ok succeeds
  have word := m.opcode_lt
  obtain ⟨-, -, -, nnn⟩ := decode_operands word
  have address : (m.instruction.nnn.val : Int) = w % 0x1000 := by
    rw [show m.instruction.nnn.val = w % 0x1000 from nnn]
    rfl
  have pc : p' = m.executed.machine.registers.pc := congrArg (·.registers.pc) eq
  have decoded (op : Op) (known : op ≠ .unknown) := decode_op_iff op known word
  refine ⟨?_, ?_, ?_, ?_, ?_, ?_, ?_, ?_⟩
  · rintro (digit | digit)
    · have op : m.instruction.op = .jump := (decoded .jump nofun).mpr digit
      rw [pc, pc_of_executed executes (by rw [op]; decide), op, address]
    · have op : m.instruction.op = .call := (decoded .call nofun).mpr digit
      rw [pc, pc_of_call executes op, address]
  · intro digit
    have op : m.instruction.op = .jumpFrom := (decoded .jumpFrom nofun).mpr digit
    rw [pc, pc_of_executed executes (by rw [op]; decide), op, address]
  · intro ret
    have popped := popped_of_executed reachable.wellFormed executes ((decode_ret_iff word).mpr ret)
    rw [pc, popped.live, List.getLast?_concat]
  · intro digits untouched
    have op : m.instruction.op = .waitKey := (decoded .waitKey nofun).mpr digits
    rw [pc, pc_of_executed executes (by rw [op]; decide), op]
    exact if_pos (m.keypad.first?_eq_none_iff.mpr untouched)
  · intro skips
    rw [pc, pc_of_conditional executes (conditional_of_skipsNext skips), if_pos skips]
  · intro unaddressed noReturn awake falls
    have other : m.instruction.op ≠ .ret := fun op => noReturn ((decode_ret_iff word).mp op)
    rw [pc, pc_of_executed executes other]
    split
    next op =>
      have digit : w / 0x1000 = 1 := hasDigits_opcode op
      simp [digit] at unaddressed
    next op =>
      have digit : w / 0x1000 = 2 := hasDigits_opcode op
      simp [digit] at unaddressed
    next op =>
      have digit : w / 0x1000 = 0xB := hasDigits_opcode op
      simp [digit] at unaddressed
    next op =>
      refine if_neg fun untouched => awake ⟨hasDigits_opcode op, ?_⟩
      exact m.keypad.first?_eq_none_iff.mp untouched
    · exact if_neg falls
  · intro none
    exact congrArg (·.registers.pc) ((footprint_of_cycle succeeds).skipped none)
  · intro memory s opposite
    exact (pc_of_complements running inside opposite).2

theorem pc_after_cycle_key :
    let m := (initial (.ofList [])).after [.load [0xE1, 0x9E] 0x200, .setV 1 0x1F, .press 15]
    let s := { m with memory := (loaded [0xE1, 0xA1]).memory }
    m.Reachable ∧ m.cycle.answer = .ok () ∧ m.cycle.machine.registers.pc = 0x204 ∧
      s.cycle.machine.registers.pc = 0x202 := by
  intro m s
  have reachable : m.Reachable := ⟨_, _, rfl⟩
  have prepared (c : Machine) : c.after [.setV 1 0x1F, .press 15] =
      { c.setV 1 0x1F with keypad := c.keypad.press 15 } := rfl
  have state : m = { (loaded [0xE1, 0x9E]).setV 1 0x1F with keypad := Keypad.released.press 15 } :=
    (after_load _ (by decide) _).trans (prepared _)
  clear_value m
  have running : m.halted = false := by rw [state]; rfl
  have pc : m.registers.pc = (0x200 + 0 : Nat) := by rw [state]; rfl
  have inside : InProgram m.registers.pc := by rw [pc]; decide
  have kept (c : Machine) : { c.setV 1 0x1F with keypad := Keypad.released.press 15 }.memory = c.memory :=
    rfl
  have memory : m.memory = (loaded [0xE1, 0x9E]).memory :=
    (congrArg Machine.memory state).trans (kept _)
  have opcode : m.opcode = 0xE19E := opcode_of_loaded memory pc (by decide) (by decide)
  have changed : s.memory = (loaded [0xE1, 0xA1]).memory := rfl
  have opposite : s.opcode = 0xE1A1 := opcode_of_loaded changed pc (by decide) (by decide)
  have executes : m.executed.answer = .ok () :=
    executed_conditional (by rw [instruction, opcode]; decide)
  have succeeds : m.cycle.answer = .ok () := by
    rw [cycle_of_success running inside executes, Outcome.answer_done]
  have skips : m.SkipsNext m.opcode := by
    rw [opcode, state]
    decide
  have opposites : Complements m.opcode s.opcode := by
    rw [opcode, opposite]
    decide
  obtain ⟨-, -, -, -, passes, -, -, complement⟩ := pc_after_cycle reachable succeeds
  have goes := passes skips
  rw [pc] at goes complement
  refine ⟨reachable, succeeds, goes, ?_⟩
  rcases (complement (loaded [0xE1, 0xA1]).memory (.inl opposites)).2 with ⟨-, falls⟩ | ⟨falls, -⟩
  · exact falls
  · have twice := goes.symm.trans falls
    exact absurd twice (by decide)

end Machine

end ChipEight

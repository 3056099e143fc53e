import ChipEight.Proofs.ControlFlow

/-!
Arithmetic on registers. An addition, a subtraction or a shift puts its result into a register and then a flag
into the last one, so the flag stays there whatever registers the operands and the result were in. In any
other register the result stays as well, and then the two together are the exact value.
-/

namespace ChipEight

def Calculates (w : Nat) : Prop :=
  w / 0x1000 = 8 ∧ w % 0x10 ∈ [4, 5, 6, 7, 0xE] ∨ w / 0x1000 = 7 ∨ EndsIn w 0x1E

instance (w : Nat) : Decidable (Calculates w) :=
  inferInstanceAs (Decidable (_ ∨ _ ∨ _ ∧ _))

section Bytes

variable (a b : UInt8)

theorem toNat_add_carry :
    256 * (decide (255 < a.toNat + b.toNat)).toNat + (a + b).toNat = a.toNat + b.toNat := by
  have ha := a.toNat_lt
  have hb := b.toNat_lt
  rw [UInt8.toNat_add]
  by_cases carry : 255 < a.toNat + b.toNat
  · rw [decide_eq_true carry, Bool.toNat_true]
    omega
  · rw [decide_eq_false carry, Bool.toNat_false]
    omega

theorem toNat_sub_borrow :
    (a - b).toNat + b.toNat = a.toNat + 256 * (1 - (decide (b ≤ a)).toNat) := by
  have ha := a.toNat_lt
  have hb := b.toNat_lt
  rw [UInt8.toNat_sub]
  by_cases enough : b ≤ a
  · have le := UInt8.le_iff_toNat_le.mp enough
    rw [decide_eq_true enough, Bool.toNat_true]
    omega
  · have lt := UInt8.lt_iff_toNat_lt.mp (UInt8.not_le.mp enough)
    rw [decide_eq_false enough, Bool.toNat_false]
    omega

theorem toNat_lowestBit : (a % 2 == 1).toNat = a.toNat % 2 := by
  have odd_iff : a % 2 = 1 ↔ a.toNat % 2 = 1 := by
    rw [← UInt8.toNat_inj, UInt8.toNat_mod]
    rfl
  by_cases odd : a % 2 = 1
  · rw [beq_iff_eq.mpr odd, Bool.toNat_true, odd_iff.mp odd]
  · have even := mt odd_iff.mpr odd
    rw [beq_eq_false_iff_ne.mpr odd, Bool.toNat_false]
    omega

theorem toNat_highestBit : (decide (128 ≤ a)).toNat = a.toNat / 128 := by
  have ha := a.toNat_lt
  by_cases high : 128 ≤ a
  · have le : 128 ≤ a.toNat := UInt8.le_iff_toNat_le.mp high
    rw [decide_eq_true high, Bool.toNat_true]
    omega
  · have lt : a.toNat < 128 := UInt8.lt_iff_toNat_lt.mp (UInt8.not_le.mp high)
    rw [decide_eq_false high, Bool.toNat_false]
    omega

theorem toNat_shiftRight_one : (a >>> 1).toNat = a.toNat / 2 := by
  rw [UInt8.toNat_shiftRight]
  rfl

theorem toNat_shiftLeft_one : (a <<< 1).toNat = 2 * a.toNat % 256 := by
  rw [UInt8.toNat_shiftLeft, Nat.shiftLeft_eq, Nat.mul_comm]
  rfl

end Bytes

/-- What the operations with a flag make of two registers: the result and the flag. -/
def flagged? : Op → UInt8 → UInt8 → Option (UInt8 × Bool)
  | .add, a, b => some (a + b, 255 < a.toNat + b.toNat)
  | .sub, a, b => some (a - b, b ≤ a)
  | .subFrom, a, b => some (b - a, a ≤ b)
  | .shiftRight, a, _ => some (a >>> 1, a % 2 == 1)
  | .shiftLeft, a, _ => some (a <<< 1, 128 ≤ a)
  | _, _, _ => none

namespace Machine

theorem get_setV (m : Machine) (x k : Fin 16) (b : UInt8) :
    (m.setV x b).registers.get k = if x = k then b else m.registers.get k :=
  m.registers.get_set x k b

theorem get_setVF (m : Machine) (x k : Fin 16) (b : UInt8) (flag : Bool) :
    (m.setVF x b flag).registers.get k =
      if 15 = k then (if flag then 1 else 0)
      else if x = k then b
      else m.registers.get k := by
  rw [setVF, get_setV, get_setV]

def arithmetic : List Op :=
  [.add, .sub, .subFrom, .shiftRight, .shiftLeft, .addByte, .addIndex]

theorem arithmetic_of_calculates {m : Machine} (calculates : Calculates m.opcode) :
    m.instruction.op ∈ arithmetic := by
  have has (op : Op) (known : op ≠ .unknown) (digits : op.HasDigits m.opcode) (mem : op ∈ arithmetic) :
      m.instruction.op ∈ arithmetic :=
    (decode_op_iff op known m.opcode_lt).mpr digits ▸ mem
  simp only [Calculates, List.mem_cons, List.not_mem_nil, or_false] at calculates
  rcases calculates with ⟨first, last | last | last | last | last⟩ | first | digits
  · exact has .add nofun ⟨first, last⟩ (by decide)
  · exact has .sub nofun ⟨first, last⟩ (by decide)
  · exact has .shiftRight nofun ⟨first, last⟩ (by decide)
  · exact has .subFrom nofun ⟨first, last⟩ (by decide)
  · exact has .shiftLeft nofun ⟨first, last⟩ (by decide)
  · exact has .addByte nofun first (by decide)
  · exact has .addIndex nofun digits (by decide)

section Executed

variable {m : Machine}

theorem executed_arithmetic (op : m.instruction.op ∈ arithmetic) : m.executed.answer = .ok () := by
  refine execute_ok_of_infallible (fun fails => ?_) m.fetched
  simp only [arithmetic, List.mem_cons, List.not_mem_nil, or_false] at op
  rcases op with op | op | op | op | op | op | op <;> simp [op, fallible] at fails

theorem get_executed_arithmetic (op : m.instruction.op ∈ arithmetic) {k : Fin 16}
    (other : k ≠ m.instruction.x) (noFlag : k ≠ 15) :
    m.executed.machine.registers.get k = m.registers.get k := by
  refine get_execute_of_unwritten (m := m.fetched) fun writes => ?_
  simp only [arithmetic, List.mem_cons, List.not_mem_nil, or_false] at op
  rcases op with op | op | op | op | op | op | op <;> simp [written, op, other, noFlag] at writes

theorem executed_of_flagged {op : Op} (decoded : m.instruction.op = op) {result : UInt8} {flag : Bool}
    (makes : flagged? op (m.registers.get (registerX m.opcode)) (m.registers.get (registerY m.opcode)) =
      some (result, flag)) :
    m.executed = .done (m.fetched.setVF (registerX m.opcode) result flag) [] := by
  obtain ⟨x, y, -⟩ := decode_operands m.opcode_lt
  rw [← x, ← y] at makes
  rw [← x]
  cases op
  case add | sub | subFrom | shiftRight | shiftLeft =>
    simp only [flagged?, Option.some.injEq, Prod.mk.injEq] at makes
    obtain ⟨rfl, rfl⟩ := makes
    simp only [executed, execute, decoded]
    rfl
  all_goals simp [flagged?] at makes

theorem pc_executed_arithmetic (op : m.instruction.op ∈ arithmetic) :
    m.executed.machine.registers.pc = m.registers.pc + 2 := by
  rw [executed, execute_pc]
  simp only [arithmetic, List.mem_cons, List.not_mem_nil, or_false] at op
  rcases op with op | op | op | op | op | op | op <;> simp [op, skips]

theorem executed_addByte (op : m.instruction.op = .addByte) :
    m.executed =
      .done (m.fetched.setV (registerX m.opcode)
        (m.registers.get (registerX m.opcode) + m.instruction.kk)) [] := by
  obtain ⟨x, -⟩ := decode_operands m.opcode_lt
  rw [← x]
  simp only [executed, execute, op]
  rfl

theorem executed_addIndex (op : m.instruction.op = .addIndex) :
    m.executed =
      .done (m.fetched.setIndex
        (m.registers.index.toNat + (m.registers.get (registerX m.opcode)).toNat)) [] := by
  obtain ⟨x, -⟩ := decode_operands m.opcode_lt
  rw [← x]
  simp only [executed, execute, op]
  rfl

end Executed

section Cycle

variable {m : Machine} (running : m.halted = false) (inside : InProgram m.registers.pc)
include running inside

theorem registers_of_done {s : Machine} {events : List Event} (executes : m.executed = .done s events) :
    m.cycle.machine.registers = s.registers := by
  rw [cycle_of_executed running inside executes]
  rfl

theorem cycle_of_calculates (calculates : Calculates m.opcode) :
    m.cycle.answer = .ok () ∧ m.cycle.machine.registers.pc = m.registers.pc + 2 ∧
      (∀ k, k ≠ registerX m.opcode → k ≠ 15 → m.cycle.machine.registers.get k = m.registers.get k) ∧
      (¬ EndsIn m.opcode 0x1E → m.cycle.machine.registers.index = m.registers.index) := by
  obtain ⟨x, -⟩ := decode_operands m.opcode_lt
  have op := arithmetic_of_calculates calculates
  rw [cycle_of_success running inside (executed_arithmetic op)]
  refine ⟨rfl, pc_executed_arithmetic op, fun k other noFlag => ?_, fun noIndex => ?_⟩
  · exact get_executed_arithmetic op (x ▸ other) noFlag
  · refine Classical.byContradiction fun changed => ?_
    have sets := index_changed changed
    simp only [Calculates, EndsIn, List.mem_cons, List.not_mem_nil, or_false] at calculates noIndex sets
    omega

theorem get_cycle_flagged {op : Op} (decoded : m.instruction.op = op) {result : UInt8} {flag : Bool}
    (makes : flagged? op (m.registers.get (registerX m.opcode)) (m.registers.get (registerY m.opcode)) =
      some (result, flag)) :
    (m.cycle.machine.registers.get 15).toNat = flag.toNat ∧
      (registerX m.opcode ≠ 15 →
        (m.cycle.machine.registers.get (registerX m.opcode)).toNat = result.toNat) := by
  -- the flag is written last, so it is not lost where the result goes to the same register
  rw [registers_of_done running inside (executed_of_flagged decoded makes), get_setVF, get_setVF,
    if_pos rfl]
  constructor
  · cases flag <;> rfl
  · intro other
    rw [if_neg (Ne.symm other), if_pos rfl]

theorem get_cycle_addByte (op : m.instruction.op = .addByte) (k : Fin 16) :
    m.cycle.machine.registers.get k =
      if registerX m.opcode = k then m.registers.get (registerX m.opcode) + m.instruction.kk
      else m.registers.get k := by
  rw [registers_of_done running inside (executed_addByte op)]
  exact get_setV _ _ k _

theorem registers_cycle_addIndex (op : m.instruction.op = .addIndex) :
    m.cycle.machine.registers.index.toNat =
        (m.registers.index.toNat + (m.registers.get (registerX m.opcode)).toNat) % 65536 ∧
      ∀ k, m.cycle.machine.registers.get k = m.registers.get k := by
  rw [registers_of_done running inside (executed_addIndex op)]
  refine ⟨?_, fun k => rfl⟩
  refine (toNat_lowWord _).trans ?_
  omega

end Cycle

/-- Arithmetic on registers of which any may coincide. The flag is in the last register also where that was an
operand or takes the result; from any other register the result makes up the exact value with the flag. -/
theorem registers_after_arithmetic {m : Machine} (running : m.halted = false)
    (inside : InProgram m.registers.pc) :
    let w := m.opcode
    let x := registerX w
    let a := (m.registers.get x).toNat
    let b := (m.registers.get (registerY w)).toNat
    let r := m.cycle.machine.registers
    let vx := (r.get x).toNat
    let vf := (r.get 15).toNat
    (Calculates w → m.cycle.answer = .ok () ∧ r.pc = m.registers.pc + 2 ∧
      (∀ k, k ≠ x → k ≠ 15 → r.get k = m.registers.get k) ∧
      (¬ EndsIn w 0x1E → r.index = m.registers.index)) ∧
    (w / 0x1000 = 8 ∧ w % 0x10 = 4 →
      vf = (if 255 < a + b then 1 else 0) ∧ (x ≠ 15 → 256 * vf + vx = a + b)) ∧
    (w / 0x1000 = 8 ∧ w % 0x10 = 5 →
      vf = (if b ≤ a then 1 else 0) ∧ (x ≠ 15 → vx + b = a + 256 * (1 - vf))) ∧
    (w / 0x1000 = 8 ∧ w % 0x10 = 7 →
      vf = (if a ≤ b then 1 else 0) ∧ (x ≠ 15 → vx + a = b + 256 * (1 - vf))) ∧
    (w / 0x1000 = 8 ∧ w % 0x10 = 6 → vf = a % 2 ∧ (x ≠ 15 → 2 * vx + vf = a)) ∧
    (w / 0x1000 = 8 ∧ w % 0x10 = 0xE → vf = a / 128 ∧ (x ≠ 15 → 256 * vf + vx = 2 * a)) ∧
    (w / 0x1000 = 7 → vx = (a + w % 0x100) % 256 ∧ ∀ k, k ≠ x → r.get k = m.registers.get k) ∧
    (EndsIn w 0x1E → r.index.toNat = (m.registers.index.toNat + a) % 65536 ∧
      ∀ k, r.get k = m.registers.get k) := by
  intro w x a b r vx vf
  have word := m.opcode_lt
  obtain ⟨-, -, kk, -⟩ := decode_operands word
  have decoded (op : Op) (known : op ≠ .unknown) := decode_op_iff op known word
  have leaves {op : Op} (decoded : m.instruction.op = op) {result : UInt8} {flag : Bool}
      (makes : flagged? op (m.registers.get x) (m.registers.get (registerY w)) = some (result, flag)) :
      vf = flag.toNat ∧ (x ≠ 15 → vx = result.toNat) :=
    get_cycle_flagged running inside decoded makes
  refine ⟨?calculates, ?add, ?sub, ?subFrom, ?shiftRight, ?shiftLeft, ?addByte, ?addIndex⟩
  case calculates => exact cycle_of_calculates running inside
  case add =>
    intro digits
    obtain ⟨flag, result⟩ := leaves ((decoded .add (by decide)).mpr digits) rfl
    refine ⟨flag.trans (Bool.cond_decide _ 1 0), fun other => ?_⟩
    rw [flag, result other]
    exact toNat_add_carry _ _
  case sub =>
    intro digits
    obtain ⟨flag, result⟩ := leaves ((decoded .sub (by decide)).mpr digits) rfl
    refine ⟨flag.trans (Bool.cond_decide _ 1 0), fun other => ?_⟩
    rw [flag, result other]
    exact toNat_sub_borrow _ _
  case subFrom =>
    intro digits
    obtain ⟨flag, result⟩ := leaves ((decoded .subFrom (by decide)).mpr digits) rfl
    refine ⟨flag.trans (Bool.cond_decide _ 1 0), fun other => ?_⟩
    rw [flag, result other]
    exact toNat_sub_borrow _ _
  case shiftRight =>
    intro digits
    obtain ⟨flag, result⟩ := leaves ((decoded .shiftRight (by decide)).mpr digits) rfl
    rw [toNat_lowestBit] at flag
    refine ⟨flag, fun other => ?_⟩
    rw [flag, result other, toNat_shiftRight_one]
    omega
  case shiftLeft =>
    intro digits
    obtain ⟨flag, result⟩ := leaves ((decoded .shiftLeft (by decide)).mpr digits) rfl
    rw [toNat_highestBit] at flag
    refine ⟨flag, fun other => ?_⟩
    rw [flag, result other, toNat_shiftLeft_one]
    omega
  case addByte =>
    intro digit
    have entry := get_cycle_addByte running inside ((decoded .addByte (by decide)).mpr digit)
    refine ⟨?_, fun k other => (entry k).trans (if_neg (Ne.symm other))⟩
    have byte : m.instruction.kk.toNat = w % 0x100 := kk
    have sum := UInt8.toNat_add (m.registers.get x) m.instruction.kk
    rw [byte] at sum
    exact (congrArg UInt8.toNat ((entry x).trans (if_pos rfl))).trans sum
  case addIndex =>
    intro digits
    exact registers_cycle_addIndex running inside ((decoded .addIndex (by decide)).mpr digits)

theorem registers_after_arithmetic_carry :
    let m := ((loaded [0x81, 0xF4]).setV 15 200).setV 1 100
    m.halted = false ∧ InProgram m.registers.pc ∧ m.cycle.answer = .ok () ∧
      (m.cycle.machine.registers.get 15).toNat = 1 ∧ (m.cycle.machine.registers.get 1).toNat = 44 := by
  intro m
  have opcode : m.opcode = 0x81F4 := wordAt_loaded [0x81, 0xF4] (by decide) 0 (by decide)
  have inside : InProgram m.registers.pc := by decide
  have v1 : (m.registers.get 1).toNat = 100 := by decide
  have vF : (m.registers.get 15).toNat = 200 := by decide
  obtain ⟨calculates, add, -⟩ := registers_after_arithmetic (m := m) rfl inside
  rw [opcode] at calculates add
  have x : registerX 0x81F4 = 1 := by decide
  have y : registerY 0x81F4 = 15 := by decide
  rw [x, y, v1, vF] at add
  obtain ⟨flag, sum⟩ := add (by decide)
  have carry : (m.cycle.machine.registers.get 15).toNat = 1 := flag
  refine ⟨rfl, inside, (calculates (by decide)).1, carry, ?_⟩
  have exact_sum := sum (by decide)
  omega

end Machine

end ChipEight

import ChipEight.Proofs.RomLoading
import ChipEight.Proofs.UnreadMemory

/-!
Registers and digits in memory. An opcode that stores puts its bytes at the index register and changes no others.
As long as they stay there, a load at the same place brings them back into the registers, whatever these held in
between.
-/

namespace ChipEight

theorem Registers.getElem_upTo (r : Registers) (x : Fin 16) {k : Nat} (h : k < (r.upTo x).length) :
    (r.upTo x)[k] = r.get ⟨k, by rw [r.length_upTo] at h; omega⟩ := by
  simp [upTo, get, HexTable.entry]

theorem Registers.index_setUpTo (r : Registers) (x : Fin 16) (bs : List UInt8) :
    (r.setUpTo x bs).index = r.index := by
  simp only [setUpTo]

theorem Registers.index_advance (r : Registers) : r.advance.index = r.index := rfl

theorem Machine.decimalDigits_value (b : UInt8) :
    ∃ hundreds tens ones, decimalDigits b = [hundreds, tens, ones] ∧
      (hundreds ≤ 9 ∧ tens ≤ 9 ∧ ones ≤ 9) ∧
      100 * hundreds.toNat + 10 * tens.toNat + ones.toNat = b.toNat := by
  have byte := b.toNat_lt
  have hundreds : (b / 100).toNat = b.toNat / 100 := UInt8.toNat_div b 100
  have tens : (b / 10 % 10).toNat = b.toNat / 10 % 10 := by
    rw [UInt8.toNat_mod, UInt8.toNat_div]
    rfl
  have ones : (b % 10).toNat = b.toNat % 10 := UInt8.toNat_mod b 10
  refine ⟨_, _, _, rfl, ⟨?_, ?_, ?_⟩, ?_⟩
  · rw [UInt8.le_iff_toNat_le, hundreds]
    change _ ≤ 9
    omega
  · rw [UInt8.le_iff_toNat_le, tens]
    change _ ≤ 9
    omega
  · rw [UInt8.le_iff_toNat_le, ones]
    change _ ≤ 9
    omega
  · omega

theorem Memory.byteAt_of_read {m m' : Memory} {a : Int} (valid : m.Valid a) (same : m'.read a = m.read a) :
    m'.byteAt a = m.byteAt a :=
  ((m'.read_eq_ok_iff a _).mp (same.trans ((m.read_eq_ok_iff a _).mpr ⟨valid, rfl⟩))).2

namespace Machine

structure Next (m : Machine) (w : Nat) : Prop where
  running : m.halted = false
  inside : InProgram m.registers.pc
  opcode : m.opcode = w

theorem replaced_of_cycle {m : Machine} (succeeds : m.cycle.answer = .ok ()) :
    m.memory.Replaced m.cycle.machine.memory m.registers.index.toNat m.stored := by
  obtain ⟨memory, written⟩ := writeBlock_stored_of_ok succeeds
  have left : m.cycle.machine.memory = memory := by
    rw [cycle_memory, succeeds]
    simp only [Memory.attempt, written]
  rw [left]
  exact Memory.replaced_of_writeBlock written

section Next

variable {m : Machine} {x : Fin 16}

theorem Next.block {w n : Nat} (next : m.Next w) (h : m.WellFormed) (block : blockWritten w = n) (pos : 0 < n)
    (behind : 0x50 ≤ m.registers.index.toNat) (room : m.registers.index.toNat + n ≤ 0x1000) :
    m.cycle.answer = .ok () ∧ m.memory.Replaced m.cycle.machine.memory m.registers.index.toNat m.stored := by
  rw [← block, ← next.opcode] at pos room
  have succeeds := cycle_ok_of_write h next.running next.inside pos behind room
  exact ⟨succeeds, replaced_of_cycle succeeds⟩

theorem blockWritten_of_register : ∀ x : Fin 16,
    blockWritten (0xF055 + 0x100 * x.val) = x.val + 1 ∧ blockWritten (0xF033 + 0x100 * x.val) = 3 := by
  decide

theorem stored_of_next (next : m.Next (0xF055 + 0x100 * x.val)) : m.stored = m.registers.upTo x := by
  have op : m.instruction.op = .store := (decode_store_iff m.opcode_lt).mpr (by rw [next.opcode]; omega)
  have register : m.instruction.x = x := Fin.ext (by rw [instruction, decode_x, next.opcode]; omega)
  simp only [stored, op, register]

theorem stored_of_next_decimal (next : m.Next (0xF033 + 0x100 * x.val)) :
    m.stored = decimalDigits (m.registers.get x) := by
  have op : m.instruction.op = .decimal := (decode_decimal_iff m.opcode_lt).mpr (by rw [next.opcode]; omega)
  have register : m.instruction.x = x := Fin.ext (by rw [instruction, decode_x, next.opcode]; omega)
  simp only [stored, op, register]

theorem cycle_load (next : m.Next (0xF065 + 0x100 * x.val)) {bs : List UInt8}
    (length : bs.length = x.val + 1)
    (found : ∀ k (h : k < bs.length), m.memory.read (m.registers.index.toNat + (k : Int)) = .ok bs[k]) :
    m.cycle.answer = .ok () ∧ m.cycle.machine.registers = m.registers.advance.setUpTo x bs := by
  have op : m.instruction.op = .load := (decode_load_iff m.opcode_lt).mpr (by rw [next.opcode]; omega)
  have register : m.instruction.x = x := Fin.ext (by rw [instruction, decode_x, next.opcode]; omega)
  have valid (k : Nat) (h : k < bs.length) : m.memory.Valid (m.registers.index.toNat + (k : Int)) :=
    ((m.memory.read_eq_ok_iff _ _).mp (found k h)).1
  have block : m.memory.readBlock m.registers.index.toNat (x.val + 1) = .ok bs := by
    -- a block is checked at both ends only, and the bytes found there lie in memory
    refine (m.memory.readBlock_eq_ok_iff _ _ bs).mpr ⟨?_, ?_, by omega, found⟩
    · exact valid 0 (by omega)
    · rw [Int.add_sub_assoc, Int.add_sub_cancel]
      exact valid x.val (by omega)
  have executes : m.executed = .done { m.fetched with registers := m.registers.advance.setUpTo x bs } [] := by
    simp only [executed, execute, op, register, fetched_memory, fetched_index, block]
    rfl
  rw [cycle_of_executed next.running next.inside executes]
  exact ⟨rfl, rfl⟩

theorem cycle_load_replaced {c : Machine} (next : c.Next (0xF065 + 0x100 * x.val)) {bs : List UInt8}
    (length : bs.length = x.val + 1) {before : Memory} {start : Int} (replaced : before.Replaced m.memory start bs)
    (place : c.registers.index.toNat = start)
    (same : ∀ k : Nat, k < bs.length → c.memory.read (start + k) = m.memory.read (start + k)) :
    c.cycle.answer = .ok () ∧ c.cycle.machine.registers = c.registers.advance.setUpTo x bs := by
  refine cycle_load next length fun k bound => ?_
  rw [place, same k bound]
  exact replaced.inside k bound

end Next

/-- An opcode that stores registers puts them at the index register and nothing elsewhere. Whatever happens then,
the opcode that loads as many brings them back, if the bytes and the index register are as they were left. So it is
with the digits of a register, which are found in the first three registers. -/
theorem load_restores_stored {m : Machine} (reachable : m.Reachable) (x : Fin 16) :
    let i : Int := m.registers.index.toNat
    let s := m.cycle.machine
    (m.Next (0xF055 + 0x100 * x.val) → 0x50 ≤ i → i + x.val ≤ 0xFFF →
      m.cycle.answer = .ok () ∧
      (∀ k ≤ x, s.memory.read (i + k.val) = .ok (m.registers.get k)) ∧
      (∀ a, a < i ∨ i + x.val < a → s.memory.read a = m.memory.read a) ∧
      ∀ later,
        let c := s.after later
        c.Next (0xF065 + 0x100 * x.val) → c.registers.index = m.registers.index →
        (∀ k ≤ x, c.memory.read (i + k.val) = s.memory.read (i + k.val)) →
          c.cycle.answer = .ok () ∧
          (∀ k, c.cycle.machine.registers.get k = if k ≤ x then m.registers.get k else c.registers.get k) ∧
          c.cycle.machine.registers.index = m.registers.index) ∧
    (m.Next (0xF033 + 0x100 * x.val) → 0x50 ≤ i → i ≤ 0xFFD →
      m.cycle.answer = .ok () ∧
      ∃ hundreds tens ones : UInt8, (hundreds ≤ 9 ∧ tens ≤ 9 ∧ ones ≤ 9) ∧
        100 * hundreds.toNat + 10 * tens.toNat + ones.toNat = (m.registers.get x).toNat ∧
        (s.memory.read i = .ok hundreds ∧ s.memory.read (i + 1) = .ok tens ∧
          s.memory.read (i + 2) = .ok ones) ∧
        (∀ a, a < i ∨ i + 2 < a → s.memory.read a = m.memory.read a) ∧
        ∀ later,
          let c := s.after later
          c.Next 0xF265 → c.registers.index = m.registers.index →
          (∀ k : Nat, k ≤ 2 → c.memory.read (i + k) = s.memory.read (i + k)) →
            c.cycle.answer = .ok () ∧
            c.cycle.machine.registers.get 0 = hundreds ∧ c.cycle.machine.registers.get 1 = tens ∧
            c.cycle.machine.registers.get 2 = ones) := by
  intro i s
  have h := reachable.wellFormed
  obtain ⟨registers, digits⟩ := blockWritten_of_register x
  constructor
  · intro next behind room
    have length : (m.registers.upTo x).length = x.val + 1 := m.registers.length_upTo x
    obtain ⟨succeeds, replaced⟩ := next.block h registers (Nat.succ_pos _) (by omega) (by omega)
    rw [stored_of_next next] at replaced
    refine ⟨succeeds, ?written, ?elsewhere, ?loaded⟩
    case written =>
      intro k upTo
      have bound : k.val < (m.registers.upTo x).length := by omega
      rw [← m.registers.getElem_upTo x bound]
      exact replaced.inside k.val bound
    case elsewhere =>
      intro a other
      exact replaced.outside a (by omega)
    case loaded =>
      intro later c reads index same
      obtain ⟨loads, state⟩ := cycle_load_replaced reads length replaced (by rw [index]) fun k bound =>
        have upTo : k ≤ x.val := by omega
        same ⟨k, by omega⟩ upTo
      refine ⟨loads, fun k => ?_, by rw [state, Registers.index_setUpTo, Registers.index_advance, index]⟩
      rw [state, Registers.get_setUpTo]
      by_cases upTo : k ≤ x
      · have bound : k.val < (m.registers.upTo x).length := by omega
        rw [if_pos upTo, if_pos upTo, List.getD_eq_getElem?_getD, List.getElem?_eq_getElem bound,
          Option.getD_some, m.registers.getElem_upTo x bound]
      · rw [if_neg upTo, if_neg upTo]
        rfl
  · intro next behind room
    obtain ⟨hundreds, tens, ones, split, small, sum⟩ := decimalDigits_value (m.registers.get x)
    obtain ⟨succeeds, replaced⟩ := next.block h digits (by decide) (by omega) (by omega)
    rw [stored_of_next_decimal next, split] at replaced
    refine ⟨succeeds, hundreds, tens, ones, small, sum, ?written, ?elsewhere, ?loaded⟩
    case written =>
      have first := replaced.inside 0 (by simp)
      rw [Int.natCast_zero, Int.add_zero] at first
      exact ⟨first, replaced.inside 1 (by simp), replaced.inside 2 (by simp)⟩
    case elsewhere =>
      intro a other
      exact replaced.outside a (by simp only [List.length_cons, List.length_nil]; omega)
    case loaded =>
      intro later c reads index same
      obtain ⟨loads, state⟩ := cycle_load_replaced (x := 2) reads rfl replaced (by rw [index]) fun k bound =>
        same k (Nat.lt_succ_iff.mp bound)
      refine ⟨loads, ?_, ?_, ?_⟩ <;> rw [state, Registers.get_setUpTo] <;> rfl

section Program

variable {m : Machine} {rom : List UInt8}

theorem next_of_loaded (running : m.halted = false) (memory : m.memory = (loaded rom).memory)
    (pc : m.registers.pc = (0x200 + 0 : Nat)) (fits : rom.length ≤ 3584) (word : 2 ≤ rom.length) :
    m.Next (256 * (rom.getD 0 0).toNat + (rom.getD 1 0).toNat) where
  running := running
  inside := by rw [pc]; decide
  opcode := opcode_of_loaded memory pc fits word

theorem next_of_written (reachable : m.Reachable) (memory : m.memory = (loaded rom).memory)
    (pc : m.registers.pc = (0x200 + 0 : Nat)) (fits : rom.length ≤ 3584) (words : 4 ≤ rom.length)
    (further : 0x204 ≤ m.registers.index.toNat)
    (op : m.instruction.op = .store ∨ m.instruction.op = .decimal) (succeeds : m.cycle.answer = .ok ()) :
    m.cycle.machine.Next (256 * (rom.getD 2 0).toNat + (rom.getD 3 0).toNat) ∧
      m.cycle.machine.registers.index = m.registers.index := by
  obtain ⟨-, state⟩ := machine_of_cycle_ok succeeds
  have registers : m.cycle.machine.registers = m.registers.advance := by
    rw [state]
    rcases op with op | op <;> simp only [executed, execute, op] <;> split <;> rfl
  have running : m.cycle.machine.halted = m.halted := by
    rw [state]
    exact execute_halted m.instruction m.fetched
  have pc' : m.cycle.machine.registers.pc = (0x200 + 2 : Nat) := by
    rw [registers, Registers.advance, pc]
    rfl
  have size : m.memory.size = 0x1000 := reachable.wellFormed.size
  -- both words of the program lie in front of what is written
  have kept (a : Int) (low : 0 ≤ a) (high : a < 0x204) :
      m.cycle.machine.memory.byteAt a = m.memory.byteAt a :=
    Memory.byteAt_of_read ⟨low, by omega⟩ ((replaced_of_cycle succeeds).outside a (.inl (by omega)))
  refine ⟨⟨running.trans (running_of_cycle_ok succeeds).1, by rw [pc']; decide, ?_⟩,
    by rw [registers, Registers.index_advance]⟩
  rw [opcode, wordAt, pc', kept _ (by decide) (by decide), kept _ (by decide) (by decide)]
  exact (wordAt_of_memory memory (0x200 + 2 : Nat)).trans (wordAt_loaded rom fits 2 words)

end Program

theorem load_restores_stored_ends :
    let m := (initial (.ofList [])).after
      [.load [0xF1, 0x55, 0xF1, 0x65] 0x200, .setIndex 0xFFE, .setV 0 7, .setV 1 9]
    let c := m.cycle.machine.after [.setV 0 1, .setV 1 2]
    let d := (initial (.ofList [])).after [.load [0xF0, 0x33, 0xF2, 0x65] 0x200, .setIndex 0xFFD, .setV 0 254]
    m.Reachable ∧ m.Next 0xF155 ∧ c.Next 0xF165 ∧
      c.cycle.machine.registers.get 0 = 7 ∧ c.cycle.machine.registers.get 1 = 9 ∧
      d.Reachable ∧ d.Next 0xF033 ∧ d.cycle.machine.Next 0xF265 ∧
      d.cycle.machine.cycle.machine.registers.get 0 = 2 ∧
      d.cycle.machine.cycle.machine.registers.get 1 = 5 ∧
      d.cycle.machine.cycle.machine.registers.get 2 = 4 := by
  intro m c d
  have reachable : m.Reachable := ⟨_, _, rfl⟩
  have reachable' : d.Reachable := ⟨_, _, rfl⟩
  have set (s : Machine) : (s.after [.setIndex 0xFFE, .setV 0 7, .setV 1 9]).memory = s.memory := rfl
  have set' (s : Machine) : (s.after [.setIndex 0xFFD, .setV 0 254]).memory = s.memory := rfl
  have overwritten (s : Machine) (w : Nat) (next : s.Next w) :
      let c := s.after [.setV 0 1, .setV 1 2]
      c.Next w ∧ c.memory = s.memory ∧ c.registers.index = s.registers.index :=
    ⟨⟨next.running, next.inside, next.opcode⟩, rfl, rfl⟩
  have state : m = (loaded [0xF1, 0x55, 0xF1, 0x65]).after _ := after_load _ (by decide) _
  have state' : d = (loaded [0xF0, 0x33, 0xF2, 0x65]).after _ := after_load _ (by decide) _
  have memory : m.memory = (loaded [0xF1, 0x55, 0xF1, 0x65]).memory := (congrArg _ state).trans (set _)
  have memory' : d.memory = (loaded [0xF0, 0x33, 0xF2, 0x65]).memory := (congrArg _ state').trans (set' _)
  clear_value m d
  have pc : m.registers.pc = (0x200 + 0 : Nat) := by rw [state]; rfl
  have pc' : d.registers.pc = (0x200 + 0 : Nat) := by rw [state']; rfl
  have index : m.registers.index.toNat = 0xFFE := by rw [state]; rfl
  have index' : d.registers.index.toNat = 0xFFD := by rw [state']; rfl
  have first : m.Next 0xF155 := next_of_loaded (by rw [state]; rfl) memory pc (by decide) (by decide)
  have first' : d.Next 0xF033 := next_of_loaded (by rw [state']; rfl) memory' pc' (by decide) (by decide)
  have op : m.instruction.op = .store := by rw [instruction, first.opcode]; decide
  have op' : d.instruction.op = .decimal := by rw [instruction, first'.opcode]; decide
  obtain ⟨registers, -⟩ := load_restores_stored reachable 1
  obtain ⟨-, digits⟩ := load_restores_stored reachable' 0
  obtain ⟨stores, -, -, restored⟩ := registers first (by omega) (by rw [index]; decide)
  obtain ⟨stores', hundreds, tens, ones, ⟨small, small', small''⟩, sum, -, -, loaded⟩ :=
    digits first' (by omega) (by omega)
  obtain ⟨second, same⟩ := next_of_written reachable memory pc (by decide) (by decide) (by omega) (.inl op) stores
  obtain ⟨second', same'⟩ :=
    next_of_written reachable' memory' pc' (by decide) (by decide) (by omega) (.inr op') stores'
  obtain ⟨next, kept, place⟩ := overwritten m.cycle.machine _ second
  obtain ⟨-, loads, -⟩ := restored [.setV 0 1, .setV 1 2] next (place.trans same) fun k _ => by rw [kept]
  have next' := loaded []
  rw [after_nil] at next'
  obtain ⟨-, left, left', left''⟩ := next' second' same' fun _ _ => rfl
  have value : (d.registers.get 0).toNat = 254 := by rw [state']; rfl
  rw [UInt8.le_iff_toNat_le, show (9 : UInt8).toNat = 9 from rfl] at small small' small''
  have split : hundreds.toNat = 2 ∧ tens.toNat = 5 ∧ ones.toNat = 4 := by omega
  have values : m.registers.get 0 = 7 ∧ m.registers.get 1 = 9 := by rw [state]; exact ⟨rfl, rfl⟩
  refine ⟨reachable, first, next, ?_, ?_, reachable', first', second', left.trans (UInt8.toNat.inj split.1),
    left'.trans (UInt8.toNat.inj split.2.1), left''.trans (UInt8.toNat.inj split.2.2)⟩
  · exact (loads 0).trans ((if_pos (by decide)).trans values.1)
  · exact (loads 1).trans ((if_pos (by decide)).trans values.2)

end Machine

end ChipEight

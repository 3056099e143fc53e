import ChipEight.Proofs.Halting
import ChipEight.Proofs.Intake
import ChipEight.Proofs.ProgramStart
import Mathlib.Data.Set.Basic

/-!
Memory that is not read does not matter. A cycle reads its opcode and, for two kinds of opcodes, a block at
the index register; every other byte of memory may as well be another one. What differs between two memories
gets less as blocks are written over it, so machines that differ in bytes that are not read before they are
written go on alike.
-/

namespace ChipEight

namespace Memory

theorem byteAt_of_bytes {m m' : Memory} {a : Int}
    (same : ∀ k : Nat, (k : Int) = a → m'.bytes[k]? = m.bytes[k]?) : m'.byteAt a = m.byteAt a := by
  simp only [byteAt]
  split
  · rfl
  · rw [Array.getD_eq_getD_getElem?, Array.getD_eq_getD_getElem?, same _ (by omega)]

theorem readBlock_of_bytes {m m' : Memory} (size : m'.size = m.size) {a n : Nat} (pos : 0 < n)
    (same : a + n ≤ m.size → ∀ k, a ≤ k → k < a + n → m'.bytes[k]? = m.bytes[k]?) :
    m'.readBlock a n = m.readBlock a n := by
  by_cases fits : a + n ≤ m.size
  · rw [m.readBlock_of_inside pos fits, m'.readBlock_of_inside pos (size ▸ fits)]
    congr 1
    refine List.map_congr_left fun k hk => byteAt_of_bytes fun j hj => same fits j (by omega) ?_
    have below := List.mem_range.mp hk
    omega
  · have refused (s : Memory) (beyond : s.size < a + n) : s.readBlock a n =
        .error (.memoryAccess (if (s.size : Int) ≤ a then a else a + n - 1) .outOfRange) :=
      (s.readBlock_eq_error_iff (by omega) (by omega) _).mpr ⟨by omega, rfl⟩
    rw [refused m (by omega), refused m' (by omega), size]

theorem attempt_agree {m m' : Memory} (size : m'.size = m.size) {a k : Nat} {bs : List UInt8}
    (agree : m'.bytes[k]? = m.bytes[k]? ∨
      (∃ s, m.writeBlock a bs = .ok s) ∧ a ≤ k ∧ k < a + bs.length) :
    (m'.attempt a bs).bytes[k]? = (m.attempt a bs).bytes[k]? := by
  rcases writeBlock_of_size size a bs with ⟨f, fails', fails⟩ | ⟨s', s, written', written⟩
  · simp only [attempt, fails, fails']
    rcases agree with same | ⟨⟨s, written⟩, -⟩
    · exact same
    · rw [fails] at written
      cases written
  · simp only [attempt, written, written', getElem?_of_writeBlock written, getElem?_of_writeBlock written']
    split
    · rfl
    next outside => exact agree.resolve_right fun inside => outside inside.2

end Memory

namespace Machine

def Reads (m : Machine) (a : Nat) : Prop :=
  (m.halted = false ∧ InProgram m.registers.pc) ∧
    ((a : Int) = m.registers.pc ∨ (a : Int) = m.registers.pc + 1 ∨
      m.cycle.answer = .ok () ∧ m.registers.index.toNat ≤ a ∧
        a < m.registers.index.toNat + blockRead m.opcode)

def Writes (m : Machine) (a : Nat) : Prop :=
  m.cycle.answer = .ok () ∧ m.registers.index.toNat ≤ a ∧
    a < m.registers.index.toNat + blockWritten m.opcode

structure AgreesOff (A : Set Nat) (m m' : Machine) : Prop where
  rest : m' = { m with memory := m'.memory }
  bytes : ∀ a ∉ A, m'.memory.bytes[a]? = m.memory.bytes[a]?

theorem cycle_ok_of_read {m : Machine} (h : m.WellFormed) (running : m.halted = false)
    (inside : InProgram m.registers.pc) (reads : 0 < blockRead m.opcode)
    (room : m.registers.index.toNat + blockRead m.opcode ≤ 0x1000) : m.cycle.answer = .ok () := by
  have op : ¬ (m.opcode = 0x00EE ∨ m.opcode / 0x1000 = 2) := by
    intro other
    rw [blockRead, if_neg (by omega), if_neg (by omega)] at reads
    exact Nat.lt_irrefl 0 reads
  exact cycle_ok_of_inside h running inside (op ∘ .inl) (op ∘ .inr) (blockWritten_eq_zero reads)
    (.inr room)

section Step

variable {A : Set Nat} {m m' : Machine} (agree : AgreesOff A m m')
include agree

theorem AgreesOff.core : m.core = m'.core := by
  rw [agree.rest]
  rfl

theorem AgreesOff.read (unread : ∀ a ∈ A, ¬ m.Reads a) {a : Nat} (reads : m.Reads a) :
    m'.memory.bytes[a]? = m.memory.bytes[a]? :=
  agree.bytes a fun mem => unread a mem reads

section SameWay

variable (answer : m'.cycle.answer = m.cycle.answer)
  (instruction : m.cycle.answer = .ok () → m'.instruction = m.instruction)
include answer instruction

theorem AgreesOff.rest_cycle (core : m.cycle.machine.core = m'.cycle.machine.core) :
    m'.cycle.machine = { m.cycle.machine with memory := m'.cycle.machine.memory } := by
  have pressed : m'.keypad = m.keypad := congrArg (·.keypad) agree.rest
  have keypad : m'.cycle.machine.keypad = m.cycle.machine.keypad := by
    rw [cycle_keypad, cycle_keypad, pressed]
  have latched : m'.cycle.machine.latched = m.cycle.machine.latched := by
    have halted : m'.halted = m.halted := congrArg (·.halted) agree.rest
    have before : m'.latched = m.latched := congrArg (·.latched) agree.rest
    rw [cycle_latched, cycle_latched, halted, pressed, before]
  have random : m'.cycle.machine.random = m.cycle.machine.random := by
    have source : m'.random = m.random := congrArg (·.random) agree.rest
    rw [cycle_random, cycle_random, answer, source]
    cases succeeds : m.cycle.answer with
    | error e => rfl
    | ok => rw [instruction succeeds]
  exact (eq_of_core core).trans (by rw [keypad, latched, random])

theorem AgreesOff.bytes_cycle (size : m'.memory.size = m.memory.size) {a : Nat}
    (settled : a ∉ A ∨ m.Writes a) :
    m'.cycle.machine.memory.bytes[a]? = m.cycle.machine.memory.bytes[a]? := by
  rw [cycle_memory, cycle_memory, answer]
  cases succeeds : m.cycle.answer with
  | error e =>
    have unwritten : ¬ m.Writes a := fun writes => by
      rw [writes.1] at succeeds
      cases succeeds
    exact agree.bytes a (settled.resolve_right unwritten)
  | ok =>
    have registers : m'.registers = m.registers := congrArg (·.registers) agree.rest
    have stored : m'.stored = m.stored := by
      rw [Machine.stored, Machine.stored, instruction succeeds, registers]
    rw [stored, registers]
    apply Memory.attempt_agree size
    rcases settled with off | ⟨-, low, high⟩
    · exact .inl (agree.bytes a off)
    · rw [← bytesWritten_decode m.opcode_lt, ← Machine.instruction, ← length_stored] at high
      exact .inr ⟨writeBlock_stored_of_ok succeeds, low, high⟩

end SameWay

variable (h : m.WellFormed) (h' : m'.WellFormed) (unread : ∀ a ∈ A, ¬ m.Reads a)
include unread

theorem AgreesOff.opcode (running : m.halted = false) (inside : InProgram m.registers.pc) :
    m'.opcode = m.opcode := by
  have pc : m'.registers.pc = m.registers.pc := congrArg (·.registers.pc) agree.core.symm
  have first : m'.memory.byteAt m.registers.pc = m.memory.byteAt m.registers.pc :=
    Memory.byteAt_of_bytes fun k address => agree.read unread ⟨⟨running, inside⟩, .inl address⟩
  have second : m'.memory.byteAt (m.registers.pc + 1) = m.memory.byteAt (m.registers.pc + 1) :=
    Memory.byteAt_of_bytes fun k address => agree.read unread ⟨⟨running, inside⟩, .inr (.inl address)⟩
  rw [Machine.opcode, Machine.opcode, pc, wordAt, wordAt, first, second]

include h h'

theorem AgreesOff.intake (running : m.halted = false) (inside : InProgram m.registers.pc) :
    Intake m.instruction m.fetched m'.fetched where
  size := h.size.trans h'.size.symm
  block := by
    have bytes : m.instruction.bytesRead = blockRead m.opcode := bytesRead_decode m.opcode_lt
    rw [bytes]
    intro reads
    refine (Memory.readBlock_of_bytes (h'.size.trans h.size.symm) reads fun fits k low high => ?_).symm
    have size : m.memory.size = 0x1000 := h.size
    have room : m.registers.index.toNat + blockRead m.opcode ≤ 0x1000 := size ▸ fits
    have succeeds := cycle_ok_of_read h running inside reads room
    exact agree.read unread ⟨⟨running, inside⟩, .inr (.inr ⟨succeeds, low, high⟩)⟩
  keys _ := congrArg (·.keypad) agree.rest.symm
  byte _ := congrArg (·.random.byte) agree.rest.symm

/-- A cycle that reads nothing of what differs goes the same way, and leaves a difference only where there
was one that it has not written over. -/
theorem AgreesOff.cycle :
    m'.cycle.answer = m.cycle.answer ∧ m'.cycle.events = m.cycle.events ∧
      AgreesOff {a | a ∈ A ∧ ¬ m.Writes a} m.cycle.machine m'.cycle.machine := by
  have opcode := agree.opcode unread
  obtain ⟨core, events, answer⟩ := Outcome.viewed_eq_iff.mp <|
    cycle_core agree.core fun running inside =>
      ⟨(opcode running inside).symm, agree.intake h h' unread running inside⟩
  have instruction (succeeds : m.cycle.answer = .ok ()) : m'.instruction = m.instruction := by
    obtain ⟨running, inside⟩ := running_of_cycle_ok succeeds
    rw [Machine.instruction, Machine.instruction, opcode running inside]
  refine ⟨answer.symm, events.symm, agree.rest_cycle answer.symm instruction core, fun a off => ?_⟩
  refine agree.bytes_cycle answer.symm instruction (h'.size.trans h.size.symm) ?_
  by_cases mem : a ∈ A
  · exact .inr (Classical.byContradiction fun unwritten => off ⟨mem, unwritten⟩)
  · exact .inl mem

end Step

def stale (A : Set Nat) (n : Nat) (m : Machine) : Set Nat :=
  {a | a ∈ A ∧ ∀ k < n, ¬ (m.afterCycles k).Writes a}

theorem stale_zero (A : Set Nat) (m : Machine) : m.stale A 0 = A := by
  simp [stale]

theorem stale_succ (A : Set Nat) (n : Nat) (m : Machine) :
    m.stale A (n + 1) = {a | a ∈ m.stale A n ∧ ¬ (m.afterCycles n).Writes a} := by
  ext a
  simp only [stale, Set.mem_ofPred_eq, Nat.forall_lt_succ_right, and_assoc]

/-- No cycle of the next few reads a byte at one of the addresses, unless it was written before. -/
def LeavesUnread (A : Set Nat) (n : Nat) (m : Machine) : Prop :=
  ∀ k < n, ∀ a ∈ m.stale A k, ¬ (m.afterCycles k).Reads a

/-- The next few cycles of two machines answer and tell the same, and the machines stay equal but for bytes at
those of the addresses that have not been written. -/
def GoesOnLike (A : Set Nat) (n : Nat) (m m' : Machine) : Prop :=
  (∀ k < n, (m'.afterCycles k).cycle.answer = (m.afterCycles k).cycle.answer ∧
    (m'.afterCycles k).cycle.events = (m.afterCycles k).cycle.events) ∧
  ∀ k ≤ n, AgreesOff (m.stale A k) (m.afterCycles k) (m'.afterCycles k)

theorem AgreesOff.goesOnLike {A : Set Nat} {m m' : Machine} (agree : AgreesOff A m m')
    (h : m.WellFormed) (h' : m'.WellFormed) {n : Nat} (unread : m.LeavesUnread A n) :
    m.GoesOnLike A n m' := by
  have later (k : Nat) (hk : k ≤ n) : AgreesOff (m.stale A k) (m.afterCycles k) (m'.afterCycles k) := by
    -- what may differ shrinks with every cycle, by the bytes that it writes
    induction k with
    | zero => rwa [stale_zero]
    | succ k ih =>
      have now := ih (Nat.le_of_succ_le hk)
      obtain ⟨-, -, next⟩ := now.cycle (wellFormed_after h _) (wellFormed_after h' _) (unread k hk)
      rwa [stale_succ, afterCycles_succ_last, afterCycles_succ_last]
  refine ⟨fun k hk => ?_, later⟩
  obtain ⟨answer, events, -⟩ :=
    (later k (Nat.le_of_lt hk)).cycle (wellFormed_after h _) (wellFormed_after h' _) (unread k hk)
  exact ⟨answer, events⟩

theorem AgreesOff.load {m m' : Machine} (agree : AgreesOff Set.univ m m') (h : m.WellFormed)
    (h' : m'.WellFormed) {rom : List UInt8} {offset : Int}
    (loads : (m.loadRom rom offset).answer = .ok ()) :
    (m'.loadRom rom offset).answer = .ok () ∧
      AgreesOff {a : Nat | 0x50 ≤ a ∧ ¬ (offset ≤ a ∧ a < offset + rom.length)}
        (m.loadRom rom offset).machine (m'.loadRom rom offset).machine := by
  obtain ⟨behind, fits⟩ := fits_of_loadRom loads
  have low : 0x50 ≤ offset := behind
  have size : m'.memory.size = m.memory.size := h'.size.trans h.size.symm
  obtain ⟨start, rfl⟩ := Int.eq_ofNat_of_zero_le (show 0 ≤ offset by omega)
  have inside : start + rom.length ≤ m.memory.size := by omega
  rw [m.loadRom_of_fits rom start (by omega) inside,
    m'.loadRom_of_fits rom start (by omega) (size ▸ inside)]
  refine ⟨rfl, ?_, ?_⟩
  · have same (c : Machine) (memory : Memory) : { c with memory }.withRom rom start =
      { c.withRom rom start with memory := ({ c with memory }.withRom rom start).memory } := rfl
    rw [agree.rest]
    exact same m m'.memory
  · intro a off
    change (m'.memory.splice start rom).bytes[a]? = (m.memory.splice start rom).bytes[a]?
    rw [Memory.getElem?_splice _ (size ▸ inside), Memory.getElem?_splice _ inside]
    by_cases font : a < 0x50
    · rw [if_pos (by omega), if_pos (by omega), h'.font a font, h.font a font]
    · have within : (start : Int) ≤ a ∧ (a : Int) < start + rom.length :=
        Classical.not_not.mp fun outside => off ⟨Nat.le_of_not_lt font, outside⟩
      have behindStart : ¬ a < start := by omega
      have beforeEnd : a < start + rom.length := by omega
      rw [if_neg behindStart, if_neg behindStart, if_pos beforeEnd, if_pos beforeEnd]

/-- Of two machines that are equal but for bytes of memory, and of which the one reads none of these bytes
before it writes it, the other goes on like the one. So what was in memory before a ROM was loaded does not
matter to a program that does not read it. -/
theorem goesOnLike_of_unread {m m' : Machine} (reachable : m.Reachable) (reachable' : m'.Reachable) :
    (∀ A n, AgreesOff A m m' → m.LeavesUnread A n → m.GoesOnLike A n m') ∧
    ∀ rom offset, AgreesOff Set.univ m m' → (m.loadRom rom offset).answer = .ok () →
      let s := (m.loadRom rom offset).machine
      let s' := (m'.loadRom rom offset).machine
      let A : Set Nat := {a | 0x50 ≤ a ∧ ¬ (offset ≤ a ∧ a < offset + rom.length)}
      (m'.loadRom rom offset).answer = .ok () ∧ ∀ n, s.LeavesUnread A n → s.GoesOnLike A n s' := by
  have h := reachable.wellFormed
  have h' := reachable'.wellFormed
  constructor
  · intro A n agree unread
    exact agree.goesOnLike h h' unread
  · intro rom offset agree loads s s' A
    obtain ⟨loads', differ⟩ := agree.load h h' loads
    have keeps (c : Machine) (wellFormed : c.WellFormed) : (c.loadRom rom offset).machine.WellFormed := by
      rw [← perform_load_machine]
      exact wellFormed_perform wellFormed trivial
    exact ⟨loads', fun n unread => differ.goesOnLike (keeps m h) (keeps m' h') unread⟩

theorem agreesOff_poke (m : Machine) (a v : Int) :
    AgreesOff {a.toNat} m (m.perform (.poke a v)).machine := by
  simp only [perform]
  split
  · exact ⟨rfl, fun _ _ => rfl⟩
  next memory written =>
    refine ⟨rfl, fun b other => ?_⟩
    simp only [Memory.set] at written
    split at written
    · cases written
    · obtain rfl := Except.ok.inj written
      exact Array.getElem?_setIfInBounds_ne fun same => other same.symm

section Storing

/-- A program that points to 0x300, stores V0 there and loads it back. -/
def storing : List UInt8 :=
  [0xA3, 0x00, 0xF0, 0x55, 0xF0, 0x65]

theorem cycle_points {m : Machine} (running : m.halted = false) (inside : InProgram m.registers.pc)
    (opcode : m.opcode = 0xA300) :
    m.cycle.machine = { m.fetched.setIndex 0x300 with cycles := m.cycles + 1 } := by
  rw [cycle_of_opcode running inside opcode rfl]
  rfl

theorem writes_of_stores {m : Machine} (h : m.WellFormed) (running : m.halted = false)
    (inside : InProgram m.registers.pc) (opcode : m.opcode = 0xF055) (index : m.registers.index = 0x300) :
    m.Writes 0x300 := by
  have block : blockWritten m.opcode = 1 := by
    rw [opcode]
    decide
  refine ⟨cycle_ok_of_write h running inside (by omega) ?_ ?_, ?_⟩ <;> rw [index]
  · decide
  · rw [block]
    decide
  · rw [block]
    decide

theorem leavesUnread_storing {m : Machine} (h : m.WellFormed) (running : m.halted = false)
    (pc : m.registers.pc = (0x200 + 0 : Nat)) (memory : m.memory = (loaded storing).memory) :
    m.LeavesUnread {0x300} 3 := by
  have inside : InProgram m.registers.pc := by rw [pc]; decide
  have opcode : m.opcode = 0xA300 := opcode_of_loaded memory pc (by decide) (by decide)
  have second : m.afterCycles 1 = { m.fetched.setIndex 0x300 with cycles := m.cycles + 1 } := by
    rw [afterCycles_succ_last, afterCycles_zero, cycle_points running inside opcode]
  have running' : (m.afterCycles 1).halted = false := by rw [second]; exact running
  have pc' : (m.afterCycles 1).registers.pc = (0x200 + 2 : Nat) := by
    rw [second]
    change m.registers.pc + 2 = _
    rw [pc]
    decide
  have opcode' : (m.afterCycles 1).opcode = 0xF055 := by
    have kept : (m.afterCycles 1).memory = (loaded storing).memory := by rw [second]; exact memory
    exact opcode_of_loaded kept pc' (by decide) (by decide)
  have index' : (m.afterCycles 1).registers.index = 0x300 := by rw [second]; rfl
  have stored : (m.afterCycles 1).Writes 0x300 :=
    writes_of_stores (wellFormed_after h _) running' (by rw [pc']; decide) opcode' index'
  intro k few a mem reads
  obtain rfl : a = 0x300 := mem.1
  -- the third cycle may read the byte, because the second has written it
  have before : k < 2 := Nat.lt_of_not_le fun late => mem.2 1 late stored
  have none : blockRead 0xA300 = 0 ∧ blockRead 0xF055 = 0 := by decide
  obtain ⟨-, reads⟩ := reads
  rcases Nat.lt_succ_iff_lt_or_eq.mp before with early | rfl
  · obtain rfl : k = 0 := Nat.lt_one_iff.mp early
    rw [afterCycles_zero, pc, opcode, none.1] at reads
    omega
  · rw [pc', opcode', none.2] at reads
    omega

end Storing

theorem goesOnLike_of_unread_storing :
    let m := (initial (.ofList [])).after [.load storing 0x200]
    let m' := (m.perform (.poke 0x300 7)).machine
    m.Reachable ∧ m'.Reachable ∧ AgreesOff {0x300} m m' ∧ m.LeavesUnread {0x300} 3 ∧
      m.GoesOnLike {0x300} 3 m' := by
  intro m m'
  have reachable : m.Reachable := ⟨_, _, rfl⟩
  have reachable' : m'.Reachable := reachable.perform (.poke 0x300 7)
  have agree : AgreesOff {0x300} m m' := m.agreesOff_poke 0x300 7
  have state : m = loaded storing := after_load _ (by decide) []
  have unread : m.LeavesUnread {0x300} 3 := by
    rw [state]
    exact leavesUnread_storing (state ▸ reachable.wellFormed) rfl rfl rfl
  exact ⟨reachable, reachable', agree, unread,
    (goesOnLike_of_unread reachable reachable').1 {0x300} 3 agree unread⟩

end Machine

end ChipEight

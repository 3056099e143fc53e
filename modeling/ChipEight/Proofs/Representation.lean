import ChipEight.Proofs.Execution
import ChipEight.Proofs.Runs
import ChipEight.Proofs.StackView

/-!
The invariant of the machine: sizes of memory, stack and display, the font, and what the slots of the
stack hold. Every single step keeps it, so it holds in every state that operations lead to. The program
counter stays small unless it is set from outside.
-/

namespace ChipEight

open Parameters

namespace CallStack

/-- The stack of the machine: live slots hold addresses behind a fetched opcode, the others zero. -/
structure WellFormed (s : CallStack) : Prop where
  depth : s.depth = stackDepth
  pointer : s.pointer ≤ s.depth
  live : ∀ a ∈ s.live, 0x202 ≤ a ∧ a ≤ 0x1000
  free : ∀ a ∈ s.free, a = 0

theorem wellFormed_empty : WellFormed ⟨List.replicate stackDepth 0, 0⟩ where
  depth := by simp [CallStack.depth]
  pointer := Nat.zero_le _
  live := by simp [CallStack.live]
  free := by simp [CallStack.free]

theorem WellFormed.clear {s : CallStack} (h : s.WellFormed) : s.clear.WellFormed := by
  rw [CallStack.clear, h.depth]
  exact wellFormed_empty

theorem WellFormed.push {s s' : CallStack} {a : Int} (h : s.WellFormed)
    (range : 0x202 ≤ a ∧ a ≤ 0x1000) (pushed : s.push a = .ok s') : s'.WellFormed := by
  have step := pushed_of_push pushed
  refine ⟨step.depth.trans h.depth, ?_, ?_, ?_⟩
  · rw [step.depth, step.pointer]
    exact step.room
  · intro b hb
    rw [step.live] at hb
    rcases List.mem_append.mp hb with old | new
    · exact h.live b old
    · rwa [List.mem_singleton.mp new]
  · intro b hb
    rw [step.free] at hb
    exact h.free b (List.mem_of_mem_tail hb)

theorem WellFormed.pop {s s' : CallStack} {a : Int} (h : s.WellFormed)
    (popped : s.pop = .ok (a, s')) : s'.WellFormed ∧ 0x202 ≤ a ∧ a ≤ 0x1000 := by
  have step := popped_of_pop h.pointer popped
  refine ⟨⟨step.depth.trans h.depth, ?_, ?_, ?_⟩, h.live a (by simp [step.live])⟩
  · have room := h.pointer
    rw [step.pointer] at room
    rw [step.depth]
    omega
  · intro b hb
    exact h.live b (by simp [step.live, hb])
  · intro b hb
    rw [step.free] at hb
    rcases List.mem_cons.mp hb with rfl | old
    · rfl
    · exact h.free b old

end CallStack

namespace Registers

theorem pc_of_set? {r r' : Registers} {x : Int} {b : UInt8} (h : r.set? x b = .ok r') :
    r'.pc = r.pc := by
  simp only [set?] at h
  split at h
  · cases h
  · split at h
    · cases h
      rfl
    · cases h

end Registers

namespace Display

structure WellFormed (d : Display) : Prop where
  width : d.width = screenWidth
  height : d.height = screenHeight
  cells : d.cells.size = screenHeight * screenWidth

theorem wellFormed_blank : (blank screenWidth screenHeight).WellFormed where
  width := rfl
  height := rfl
  cells := by simp [blank, dark]

theorem WellFormed.toggle {d : Display} (h : d.WellFormed) (x y : Int) : (d.toggle x y).WellFormed :=
  ⟨h.width, h.height, (d.size_toggle x y).trans h.cells⟩

theorem WellFormed.clear {d : Display} (h : d.WellFormed) : d.clear.WellFormed :=
  ⟨h.width, h.height, by simp [Display.clear, h.width, h.height, dark]⟩

theorem WellFormed.draw {d : Display} (h : d.WellFormed) (points : List (Int × Int)) :
    (d.draw points).1.WellFormed := by
  rw [Display.draw]
  generalize false = hit
  induction points generalizing d hit with
  | nil => exact h
  | cons point rest ih => exact ih (h.toggle point.1 point.2) _

end Display

namespace Machine

structure WellFormed (m : Machine) : Prop where
  size : m.memory.size = memorySize
  font : m.memory.HasFont
  stack : m.stack.WellFormed
  display : m.display.WellFormed

theorem wellFormed_initial (random : RandomBytes) : (initial random).WellFormed where
  size := Memory.size_ofSize memorySize
  font := Memory.hasFont_ofSize memorySize
  stack := CallStack.wellFormed_empty
  display := Display.wellFormed_blank

theorem WellFormed.of_kept {m m' : Machine} (h : m.WellFormed) (memory : m.memory.Kept m'.memory)
    (stack : m'.stack.WellFormed) (display : m'.display.WellFormed) : m'.WellFormed :=
  ⟨memory.size.trans h.size, memory.font h.font, stack, display⟩

theorem WellFormed.of_eq {m m' : Machine} (h : m.WellFormed) (memory : m'.memory = m.memory)
    (stack : m'.stack = m.stack) (display : m'.display = m.display) : m'.WellFormed :=
  ⟨memory ▸ h.size, memory ▸ h.font, stack ▸ h.stack, display ▸ h.display⟩

def Behind (pc : Int) : Prop :=
  0x202 ≤ pc ∧ pc ≤ 0x1000

theorem behind_of_inProgram {pc : Int} (h : InProgram pc) : Behind (pc + 2) := by
  simp only [InProgram, programStart, lastInstruction, memorySize] at h
  simp only [Behind]
  omega

theorem kept_execute (m : Machine) (i : Instruction) :
    m.memory.Kept (execute i m).machine.memory := by
  rw [execute_memory]
  split
  · exact m.memory.kept_attempt _ _
  · exact m.memory.kept_attempt _ _
  · exact .refl _

theorem wellFormed_execute_stack {m : Machine} (h : m.WellFormed) (i : Instruction)
    (behind : Behind m.registers.pc) : (execute i m).machine.stack.WellFormed := by
  rw [Machine.execute_stack]
  split
  · simp only [CallStack.apply]
    split
    next popped => exact (h.stack.pop popped).1
    · exact h.stack
  · simp only [CallStack.apply]
    split
    next pushed => exact h.stack.push behind pushed
    · exact h.stack
  · exact h.stack

theorem wellFormed_execute_display {m : Machine} (h : m.WellFormed) (i : Instruction) :
    (execute i m).machine.display.WellFormed := by
  rw [Machine.execute_display]
  split
  · exact h.display.clear
  · split
    · exact h.display
    next lines _ =>
      have drawn := h.display.draw (spritePoints (m.registers.get i.x).toNat
        (m.registers.get i.y).toNat lines)
      exact ⟨drawn.width, drawn.height, drawn.cells⟩
  · exact h.display

theorem wellFormed_execute {m : Machine} (h : m.WellFormed) (i : Instruction)
    (behind : Behind m.registers.pc) : (execute i m).machine.WellFormed :=
  h.of_kept (m.kept_execute i) (wellFormed_execute_stack h i behind) (wellFormed_execute_display h i)

theorem wellFormed_cycle {m : Machine} (h : m.WellFormed) : m.cycle.machine.WellFormed := by
  cases m.cycle_cases with
  | halted _ eq => rw [eq]; exact h
  | outside _ _ eq => rw [eq]; exact h.of_eq rfl rfl rfl
  | fault _ _ f _ eq => rw [eq]; exact h.of_eq rfl rfl rfl
  | success _ inside _ eq =>
    rw [eq]
    -- only a cycle that fetched executes, so a call pushes an address behind the program area's start
    have fetched : m.fetched.WellFormed := h.of_eq rfl rfl rfl
    exact (wellFormed_execute fetched m.instruction (behind_of_inProgram inside)).of_eq rfl rfl rfl

theorem wellFormed_perform {m : Machine} (h : m.WellFormed) {op : Operation} (single : op.Single) :
    (m.perform op).machine.WellFormed := by
  cases op with
  | frame count => exact single.elim
  | cycle => exact wellFormed_cycle h
  | load rom offset =>
    change (m.loadRom rom offset).machine.WellFormed
    simp only [loadRom]
    split
    · exact h
    next loaded => exact h.of_kept (Memory.kept_of_load loaded) h.stack h.display
  | fetch =>
    change m.fetch.machine.WellFormed
    simp only [fetch]
    split
    · exact h.of_eq rfl rfl rfl
    · exact h
  | reset =>
    have blank := h.display.clear
    exact h.of_kept m.memory.kept_clear h.stack.clear ⟨blank.width, blank.height, blank.cells⟩
  | toggle x y =>
    simp only [Machine.perform, Display.toggle?]
    cases m.display.accessError? x y with
    | some e => exact h
    | none => exact h.of_kept (.refl _) h.stack (h.display.toggle x y)
  | setV x v =>
    simp only [Machine.perform]
    split
    · exact h
    · exact h.of_eq rfl rfl rfl
  | poke a v =>
    simp only [Machine.perform]
    split
    · exact h
    next written => exact h.of_kept (Memory.kept_of_set written) h.stack h.display
  | peek a length =>
    simp only [Machine.perform]
    split <;> exact h
  | markClean => exact h.of_kept (.refl _) h.stack ⟨h.display.width, h.display.height, h.display.cells⟩
  | tick | press | release | releaseAll | setIndex | setPc | setHalted | setDelay | setSound =>
    exact h.of_eq rfl rfl rfl

theorem wellFormed_after {m : Machine} (h : m.WellFormed) (ops : List Operation) :
    (m.after ops).WellFormed :=
  unroll_invariant (fun _ _ single _ wellFormed => wellFormed_perform wellFormed single) h

theorem Reachable.wellFormed {m : Machine} (h : m.Reachable) : m.WellFormed := by
  obtain ⟨random, ops, rfl⟩ := h
  exact wellFormed_after (wellFormed_initial random) ops

/-- Where the program counter can be if it is never set from outside: a jump from V0 leads farthest. -/
def Near (pc : Int) : Prop :=
  0 ≤ pc ∧ pc ≤ 0x10FE

theorem near_execute {m : Machine} (h : m.WellFormed) (i : Instruction)
    (behind : Behind m.registers.pc) : Near (execute i m).machine.registers.pc := by
  have address := i.nnn.isLt
  have offset := (m.registers.get 0).toNat_lt
  simp only [Behind] at behind
  rw [execute_pc]
  split
  · split
    · simp only [Near]; omega
    next popped =>
      have range := (h.stack.pop popped).2
      simp only [Near]; omega
  · split <;> simp only [Near] <;> omega
  · simp only [Near]; omega
  · simp only [Near]; omega
  · split <;> simp only [Near] <;> omega
  · split <;> simp only [Near] <;> omega

theorem near_cycle {m : Machine} (h : m.WellFormed) (near : Near m.registers.pc) :
    Near m.cycle.machine.registers.pc := by
  cases m.cycle_cases with
  | halted _ eq => rw [eq]; exact near
  | outside _ _ eq => rw [eq]; exact near
  | fault _ inside f _ eq =>
    rw [eq]
    obtain ⟨low, high⟩ := behind_of_inProgram inside
    change Near (m.registers.pc + 2)
    simp only [Near]
    omega
  | success _ inside _ eq =>
    rw [eq]
    have fetched : m.fetched.WellFormed := h.of_eq rfl rfl rfl
    exact near_execute fetched m.instruction (behind_of_inProgram inside)

theorem near_perform {m : Machine} (h : m.WellFormed) (near : Near m.registers.pc)
    {op : Operation} (single : op.Single) (unset : ∀ pc, op ≠ .setPc pc) :
    Near (m.perform op).machine.registers.pc := by
  cases op with
  | frame count => exact single.elim
  | setPc pc => exact absurd rfl (unset pc)
  | cycle => exact near_cycle h near
  | load rom offset =>
    change Near (m.loadRom rom offset).machine.registers.pc
    simp only [loadRom]
    split
    · exact near
    next loaded =>
      obtain ⟨low, high, -⟩ := (m.memory.load_eq_ok_iff _ rom offset).mp loaded
      rw [h.size, memorySize] at high
      change Near offset
      simp only [Near]
      omega
  | fetch =>
    change Near m.fetch.machine.registers.pc
    simp only [fetch]
    split
    next inside =>
      obtain ⟨low, high⟩ := behind_of_inProgram inside
      change Near (m.registers.pc + 2)
      simp only [Near]
      omega
    · exact near
  | reset =>
    change Near programStart
    simp [Near, programStart]
  | toggle x y =>
    simp only [Machine.perform]
    split <;> exact near
  | setV x v =>
    simp only [Machine.perform]
    split
    · exact near
    next registers set =>
      change Near registers.pc
      rwa [Registers.pc_of_set? set]
  | poke a v =>
    simp only [Machine.perform]
    split <;> exact near
  | peek a length =>
    simp only [Machine.perform]
    split <;> exact near
  | markClean | tick | press | release | releaseAll | setIndex | setHalted | setDelay | setSound =>
    exact near

theorem near_after (random : RandomBytes) (ops : List Operation)
    (unset : ∀ pc, Operation.setPc pc ∉ ops) : Near ((initial random).after ops).registers.pc := by
  suffices bounded : ((initial random).after ops).WellFormed ∧
      Near ((initial random).after ops).registers.pc from bounded.2
  apply unroll_invariant (P := fun s => s.WellFormed ∧ Near s.registers.pc) _
    ⟨wellFormed_initial random, by simp [initial, Registers.initial, Near, programStart]⟩
  rintro s op single origin ⟨wellFormed, near⟩
  refine ⟨wellFormed_perform wellFormed single, near_perform wellFormed near single ?_⟩
  rintro pc rfl
  simp [unset pc] at origin

/-- In every state that operations lead to, every part of the machine has its size and its range; and the
program counter has one too, if it is never set from outside. -/
theorem representation_invariant (random : RandomBytes) (ops : List Operation) :
    let m := (initial random).after ops
    (m.registers.v.toList.length = 16 ∧ ∀ b ∈ m.registers.v.toList, b.toNat ≤ 255) ∧
    m.registers.index.toNat ≤ 0xFFFF ∧
    m.memory.bytes.size = 4096 ∧
    (m.stack.slots.length = 16 ∧ m.stack.pointer ≤ 16 ∧
      (∀ a ∈ m.stack.slots.take m.stack.pointer, 0x202 ≤ a ∧ a ≤ 0x1000) ∧
      ∀ a ∈ m.stack.slots.drop m.stack.pointer, a = 0) ∧
    (m.timers.delay.toNat ≤ 255 ∧ m.timers.sound.toNat ≤ 255) ∧
    m.display.cells.size = 2048 ∧
    m.keypad.down.toList.length = 16 ∧
    ((∀ pc, Operation.setPc pc ∉ ops) → 0 ≤ m.registers.pc ∧ m.registers.pc ≤ 0x10FE) := by
  intro m
  have wellFormed : m.WellFormed := wellFormed_after (wellFormed_initial random) ops
  have byteRange (b : UInt8) : b.toNat ≤ 255 := Nat.le_of_lt_succ b.toNat_lt
  have pointer := wellFormed.stack.pointer
  rw [wellFormed.stack.depth] at pointer
  refine ⟨⟨Vector.length_toList, fun b _ => byteRange b⟩, Nat.le_of_lt_succ (UInt16.toNat_lt _),
    wellFormed.size, ⟨wellFormed.stack.depth, pointer, wellFormed.stack.live, wellFormed.stack.free⟩,
    ⟨byteRange _, byteRange _⟩, wellFormed.display.cells, Vector.length_toList, ?_⟩
  exact near_after random ops

end Machine

end ChipEight

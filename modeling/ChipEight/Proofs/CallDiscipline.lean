import ChipEight.Proofs.CycleFaults

/-!
Calls and returns over whole runs. The stack as a list of live addresses changes by calls, which append,
and by returns, which take off the last. So the first return to the depth of a call is that of the call:
what lies below and the address of the return were never touched.
-/

namespace ChipEight.Machine

open Parameters

def Executes (m : Machine) (w : Nat) : Prop :=
  m.cycle.answer = .ok () ∧ m.opcode = w

inductive StackStep (m : Machine) : Prop
  | same (same : m.cycle.machine.stack = m.stack)
  | called (executes : m.Executes m.opcode) (call : m.opcode / 0x1000 = 2)
      (pushed : m.stack.Pushed (m.registers.pc + 2) m.cycle.machine.stack)
  | returned (executes : m.Executes 0x00EE)
      (popped : m.stack.Popped m.cycle.machine.registers.pc m.cycle.machine.stack)

section Cycle

variable {m : Machine} (h : m.WellFormed)
include h

theorem popped_of_executed (succeeds : m.executed.answer = .ok ()) (ret : m.instruction.op = .ret) :
    m.stack.Popped m.executed.machine.registers.pc m.executed.machine.stack := by
  cases popped : m.stack.pop with
  | error f =>
    have fails := (execute_error_iff m.instruction m.fetched f).mpr (.inl ⟨ret, popped⟩)
    rw [← executed, succeeds] at fails
    cases fails
  | ok result =>
    have stack : m.executed.machine.stack = result.2 := by
      rw [executed, execute_stack, ret]
      simp [CallStack.apply, popped]
    have pc : m.executed.machine.registers.pc = result.1 := by
      rw [executed, execute_pc, ret]
      simp [popped]
    rw [stack, pc]
    exact CallStack.popped_of_pop h.stack.pointer popped

omit h in
theorem pushed_of_executed (succeeds : m.executed.answer = .ok ()) (call : m.instruction.op = .call) :
    m.stack.Pushed (m.registers.pc + 2) m.executed.machine.stack := by
  cases pushed : m.stack.push (m.registers.pc + 2) with
  | error f =>
    have fails := (execute_error_iff m.instruction m.fetched f).mpr (.inr (.inl ⟨call, pushed⟩))
    rw [← executed, succeeds] at fails
    cases fails
  | ok s =>
    have stack : m.executed.machine.stack = s := by
      rw [executed, execute_stack, call]
      simp [CallStack.apply, pushed]
    rw [stack]
    exact CallStack.pushed_of_push pushed

theorem stackStep_cycle : StackStep m := by
  cases m.cycle_cases with
  | halted _ eq => exact .same (by rw [eq]; rfl)
  | outside _ _ eq => exact .same (by rw [eq]; rfl)
  | fault _ _ f _ eq => exact .same (by rw [eq]; rfl)
  | success _ _ succeeds eq =>
    have answer : m.cycle.answer = .ok () := by rw [eq]; rfl
    have stack : m.cycle.machine.stack = m.executed.machine.stack := by rw [eq]; rfl
    have pc : m.cycle.machine.registers.pc = m.executed.machine.registers.pc := by rw [eq]; rfl
    by_cases ret : m.instruction.op = .ret
    · have opcode := (decode_ret_iff m.opcode_lt).mp ret
      exact .returned ⟨answer, opcode⟩ (stack ▸ pc ▸ popped_of_executed h succeeds ret)
    · by_cases call : m.instruction.op = .call
      · have opcode := (decode_call_iff m.opcode_lt).mp call
        exact .called ⟨answer, rfl⟩ opcode (stack ▸ pushed_of_executed succeeds call)
      · refine .same (stack.trans ?_)
        rw [executed, execute_stack]
        split <;> simp_all

end Cycle

theorem perform_stack (m : Machine) {op : Operation} (single : op.Single) (other : op ≠ .cycle)
    (kept : op ≠ .reset) : (m.perform op).machine.stack = m.stack :=
  congrArg Prod.fst (m.inner_perform single other kept)

/-- While a call is open, its return address and all below it stay where they are, until a return takes
just that address. -/
theorem open_or_returned {m : Machine} (h : m.WellFormed) {op : Operation} (single : op.Single)
    (kept : op ≠ .reset) {below : List Int} {a : Int} (opened : below ++ [a] <+: m.stack.live) :
    below ++ [a] <+: (m.perform op).machine.stack.live ∨
      op = .cycle ∧ m.Executes 0x00EE ∧ m.cycle.machine.registers.pc = a ∧
        m.cycle.machine.stack.live = below := by
  by_cases cycle : op = .cycle
  · subst cycle
    rw [perform_cycle_machine]
    cases stackStep_cycle h with
    | same same => exact .inl (same ▸ opened)
    | called _ _ pushed =>
      left
      rw [pushed.live]
      exact opened.trans (List.prefix_append _ _)
    | returned executes popped =>
      -- the address taken is the last live one: it is that of the call, or of a call made later
      rw [popped.live, List.prefix_concat_iff] at opened
      rcases opened with top | deeper
      · obtain ⟨live, address⟩ := List.append_inj' top rfl
        exact .inr ⟨rfl, executes, (List.singleton_inj.mp address).symm, live.symm⟩
      · exact .inl deeper
  · exact .inl (perform_stack m single cycle kept ▸ opened)

theorem length_lt_pointer {m : Machine} (h : m.WellFormed) {below : List Int} {a : Int}
    (opened : below ++ [a] <+: m.stack.live) : below.length < m.stack.pointer := by
  have length := opened.length_le
  rw [CallStack.length_live h.stack.pointer, List.length_append, List.length_singleton] at length
  exact length

theorem open_after {m : Machine} (h : m.WellFormed) {below : List Int} {a : Int}
    (opened : below ++ [a] <+: m.stack.live) {ops : List Operation}
    (steps : ∀ op ∈ ops, op.Single ∧ op ≠ .reset)
    (above : ∀ early, early <+: ops → (m.after early).stack.pointer ≠ below.length) :
    below ++ [a] <+: (m.after ops).stack.live := by
  -- a return that takes the address brings the stack back to the depth, which is ruled out
  induction ops generalizing m with
  | nil => exact opened
  | cons op rest ih =>
    obtain ⟨single, kept⟩ := steps op List.mem_cons_self
    have next := wellFormed_perform h single
    rcases open_or_returned h single kept opened with still | ⟨rfl, -, -, live⟩
    · refine ih next still (fun op mem => steps op (List.mem_cons_of_mem _ mem)) ?_
      intro early prefixed
      exact above (op :: early) ((List.prefix_cons_inj op).mpr prefixed)
    · have depth := above [.cycle] ((List.prefix_cons_inj _).mpr List.nil_prefix)
      rw [← live] at depth
      exact absurd (CallStack.length_live next.stack.pointer).symm depth

theorem pushed_of_executes {m : Machine} {w : Nat} (executes : m.Executes w)
    (call : w / 0x1000 = 2) : m.stack.Pushed (m.registers.pc + 2) m.cycle.machine.stack := by
  obtain ⟨answer, rfl⟩ := executes
  cases m.cycle_cases with
  | halted _ eq => simp [eq, Outcome.fail] at answer
  | outside _ _ eq => simp [eq] at answer
  | fault _ _ f _ eq => simp [eq] at answer
  | success _ _ succeeds eq =>
    rw [eq]
    exact pushed_of_executed succeeds ((decode_call_iff m.opcode_lt).mpr call)

section NestedCalls

def nestedCalls : List UInt8 :=
  [0x22, 0x06, 0, 0, 0, 0, 0x22, 0x0A, 0x00, 0xEE, 0x00, 0xEE]

/-- A call at 0x200 of a subroutine at 0x206, which calls one at 0x20A; a machine on the way. -/
def nested (pc : Int) (live : List Int) (cycles : Nat) : Machine :=
  { (loaded nestedCalls) with
    registers.pc := pc
    stack := ⟨live ++ List.replicate (16 - live.length) 0, live.length⟩
    cycles := cycles }

theorem nested_pointer (pc : Int) (live : List Int) (cycles : Nat) :
    (nested pc live cycles).stack.pointer = live.length := rfl

theorem nested_tick (pc : Int) (live : List Int) (cycles : Nat) :
    ((nested pc live cycles).perform .tick).machine = nested pc live cycles := by
  have timers : (nested pc live cycles).timers.tick.1 = (nested pc live cycles).timers := rfl
  change { nested pc live cycles with timers := (nested pc live cycles).timers.tick.1 } = _
  rw [timers]

theorem opcode_nested (k : Nat) (live : List Int) (cycles : Nat) (inside : k + 1 < 12) :
    (nested (0x200 + k : Nat) live cycles).opcode =
      256 * (nestedCalls.getD k 0).toNat + (nestedCalls.getD (k + 1) 0).toNat :=
  wordAt_loaded nestedCalls (by decide) k inside

theorem nested_outer_call :
    (nested 0x200 [] 0).cycle =
      .done (nested 0x206 [0x202] 1) [.executed 0x200 (decode 0x2206)] :=
  (cycle_of_opcode rfl (by decide) (opcode_nested 0 [] 0 (by decide)) rfl).trans rfl

theorem nested_inner_call :
    (nested 0x206 [0x202] 1).cycle =
      .done (nested 0x20A [0x202, 0x208] 2) [.executed 0x206 (decode 0x220A)] :=
  (cycle_of_opcode rfl (by decide) (opcode_nested 6 [0x202] 1 (by decide)) rfl).trans rfl

theorem nested_inner_return :
    (nested 0x20A [0x202, 0x208] 2).cycle =
      .done (nested 0x208 [0x202] 3) [.executed 0x20A (decode 0x00EE)] :=
  (cycle_of_opcode rfl (by decide) (opcode_nested 10 [0x202, 0x208] 2 (by decide)) rfl).trans rfl

theorem nested_outer_return :
    (nested 0x208 [0x202] 3).cycle =
      .done (nested 0x202 [] 4) [.executed 0x208 (decode 0x00EE)] :=
  (cycle_of_opcode rfl (by decide) (opcode_nested 8 [0x202] 3 (by decide)) rfl).trans rfl

theorem nested_unroll :
    (nested 0x206 [0x202] 1).unroll [.frame 2, .cycle] =
      [.cycle, .cycle, .tick] ++ .cycle :: [] := by
  have frame : frameSteps (Int.toNat 2) (nested 0x206 [0x202] 1) = [.cycle, .cycle, .tick] := by
    rw [show Int.toNat 2 = 2 from rfl, frameSteps_cycle nested_inner_call,
      frameSteps_cycle nested_inner_return, frameSteps]
  simp only [unroll, steps, frame, List.append_nil]

theorem nested_above (before : List Operation) (prefixed : before <+: [.cycle, .cycle, .tick]) :
    ((nested 0x206 [0x202] 1).after before).stack.pointer ≠ (nested 0x200 [] 0).stack.pointer := by
  rw [nested_pointer]
  simp only [List.prefix_cons_iff, List.prefix_nil] at prefixed
  rcases prefixed with rfl | ⟨_, rfl, rfl | ⟨_, rfl, rfl | ⟨_, rfl, rfl⟩⟩⟩
  · rw [after_nil, nested_pointer]
    decide
  · rw [after_cycle nested_inner_call, after_nil, nested_pointer]
    decide
  · rw [after_cycle nested_inner_call, after_cycle nested_inner_return, after_nil, nested_pointer]
    decide
  · rw [after_cycle nested_inner_call, after_cycle nested_inner_return, after_cons, nested_tick,
      after_nil, nested_pointer]
    decide

theorem nested_back :
    ((nested 0x206 [0x202] 1).after ([.cycle, .cycle, .tick] ++ [.cycle])).stack.pointer =
      (nested 0x200 [] 0).stack.pointer := by
  simp only [List.cons_append, List.nil_append]
  rw [after_cycle nested_inner_call, after_cycle nested_inner_return, after_cons, nested_tick,
    after_cycle nested_outer_return, after_nil, nested_pointer, nested_pointer]

end NestedCalls

/-- A call that succeeds is answered by the first return to its depth, which is a cycle that executes a
return: it goes behind the call and leaves the live slots as the call found them. A cycle that fails, as a
call or a return does that the stack refuses, changes no slot and not the pointer. -/
theorem first_return_answers_call {m : Machine} (reachable : m.Reachable)
    {w : Nat} (executes : m.Executes w) (call : w / 0x1000 = 2)
    {ops early rest : List Operation} {op : Operation} (unbroken : .reset ∉ ops)
    (run : m.cycle.machine.unroll ops = early ++ op :: rest)
    (above : ∀ before, before <+: early →
      (m.cycle.machine.after before).stack.pointer ≠ m.stack.pointer)
    (back : (m.cycle.machine.after (early ++ [op])).stack.pointer = m.stack.pointer) :
    (op = .cycle ∧ (m.cycle.machine.after early).Executes 0x00EE ∧
      (m.cycle.machine.after (early ++ [op])).registers.pc = m.registers.pc + 2 ∧
      (m.cycle.machine.after (early ++ [op])).stack.slots.take m.stack.pointer =
        m.stack.slots.take m.stack.pointer) ∧
    ∀ (s : Machine) (f : Fault), s.cycle.answer = .error (.fault f) →
      s.cycle.machine.stack.pointer = s.stack.pointer ∧
        s.cycle.machine.stack.slots = s.stack.slots := by
  have h := reachable.wellFormed
  have depth : m.stack.live.length = m.stack.pointer := CallStack.length_live h.stack.pointer
  have opened : m.stack.live ++ [m.registers.pc + 2] <+: m.cycle.machine.stack.live :=
    ⟨[], by rw [List.append_nil, (pushed_of_executes executes call).live]⟩
  have steps : ∀ step ∈ early ++ op :: rest, step.Single ∧ step ≠ .reset := by
    intro step mem
    obtain ⟨single, origin⟩ := mem_unroll (run ▸ mem)
    refine ⟨single, ?_⟩
    rintro rfl
    simp [unbroken] at origin
  have before : (m.cycle.machine.after early).WellFormed := wellFormed_after (wellFormed_cycle h) early
  have still := open_after (wellFormed_cycle h) opened
    (fun step mem => steps step (List.mem_append_left _ mem)) (depth.symm ▸ above)
  obtain ⟨single, kept⟩ := steps op (by simp)
  rw [after_append, after_cons, after_nil] at back ⊢
  refine ⟨?_, fun s f refused => ?_⟩
  · rcases open_or_returned before single kept still with deeper | ⟨rfl, returns, address, live⟩
    · have deep := length_lt_pointer (wellFormed_perform before single) deeper
      omega
    · rw [perform_cycle_machine] at back ⊢
      refine ⟨rfl, returns, address, ?_⟩
      rw [← back]
      exact live.trans (by rw [back]; rfl)
  · rw [machine_of_cycle_error refused]
    exact ⟨rfl, rfl⟩

theorem first_return_answers_call_nested :
    (nested 0x200 [] 0).Reachable ∧ (nested 0x200 [] 0).Executes 0x2206 ∧
      (nested 0x200 [] 0).cycle.machine.unroll [.frame 2, .cycle] =
        [.cycle, .cycle, .tick] ++ .cycle :: [] ∧
      ((nested 0x200 [] 0).cycle.machine.after ([.cycle, .cycle, .tick] ++ [.cycle])).registers.pc =
        (nested 0x200 [] 0).registers.pc + 2 := by
  have reachable : (nested 0x200 [] 0).Reachable :=
    ⟨_, [.load nestedCalls 0x200], (after_load nestedCalls (by decide) []).symm⟩
  have called : (nested 0x200 [] 0).cycle.machine = nested 0x206 [0x202] 1 := by
    rw [nested_outer_call, Outcome.machine_done]
  have executes : (nested 0x200 [] 0).Executes 0x2206 :=
    ⟨by rw [nested_outer_call, Outcome.answer_done], opcode_nested 0 [] 0 (by decide)⟩
  have run := nested_unroll
  have above := nested_above
  have back := nested_back
  rw [← called] at run above back
  have answered := first_return_answers_call reachable executes (by decide) (by decide) run above
    back
  exact ⟨reachable, executes, run, answered.1.2.2.1⟩

end ChipEight.Machine

import ChipEight.Proofs.CycleFaults

/-!
What a machine shows, and that a reset machine shows what a new one does. Latched keys do not show, since
a cycle looks at the keypad before it executes; nor does the number of random bytes that were asked for,
since the source goes on from its rest. An operation on machines that show the same gives the same.
-/

namespace ChipEight

open Parameters

namespace Machine

/-- The machine with its random source as if no byte had been asked for. -/
def recounted (m : Machine) : Machine :=
  { m with random := .ofList m.random.rest }

/-- The machine without what does not show. -/
def observed (m : Machine) : Machine :=
  { m.recounted with latched := .released }

end Machine

namespace Outcome

def recounted (o : Outcome ε α) : Outcome ε α :=
  { o with machine := o.machine.recounted }

def observed (o : Outcome ε α) : Outcome ε α :=
  { o with machine := o.machine.observed }

theorem observed_eq_iff {o o' : Outcome ε α} :
    o.observed = o'.observed ↔
      o.machine.observed = o'.machine.observed ∧ o.events = o'.events ∧ o.answer = o'.answer :=
  viewed_eq_iff

theorem recounted_eq_iff {o o' : Outcome ε α} :
    o.recounted = o'.recounted ↔
      o.machine.recounted = o'.machine.recounted ∧ o.events = o'.events ∧ o.answer = o'.answer :=
  viewed_eq_iff

theorem observed_map (answer : α → β) (failure : ε → δ) (o : Outcome ε α) :
    (o.map answer failure).observed = o.observed.map answer failure := rfl

theorem observed_andThen {o o' : Outcome ε Unit} {next : Machine → Outcome ε Unit}
    (first : o.observed = o'.observed)
    (second : ∀ m : Machine, (next m.observed).observed = (next m).observed) :
    (o.andThen next).observed = (o'.andThen next).observed :=
  viewed_andThen first fun m m' shown =>
    show (next m).observed = (next m').observed by rw [← second m, shown, second m']

end Outcome

namespace Machine

theorem recounted_observed {m m' : Machine} (h : m.recounted = m'.recounted) :
    m.observed = m'.observed := by
  rw [observed, h, observed]

theorem execute_recounted (i : Instruction) (m : Machine) :
    (execute i m.recounted).recounted = (execute i m).recounted := by
  cases op : i.op
  case ret | call | draw | decimal | store | load | waitKey =>
    simp only [execute, op, recounted, sprite]
    split <;> rfl
  all_goals
    simp only [execute, op]
    rfl

theorem executed_observed (m : Machine) : m.observed.executed.recounted = m.executed.recounted :=
  execute_recounted m.instruction m.fetched

theorem cycle_observed (m : Machine) : m.observed.cycle.observed = m.cycle.observed := by
  -- the keys are latched before an instruction reads them, so both machines fetch the same state
  obtain ⟨machine, events, answer⟩ := Outcome.recounted_eq_iff.mp (executed_observed m)
  cases m.cycle_cases with
  | halted halted eq =>
    have shown : m.observed.halted = true := halted
    rw [eq, cycle_of_halted shown]
    rfl
  | outside running outside eq =>
    have shown : m.observed.halted = false := running
    rw [eq, cycle_of_outside shown outside]
    rfl
  | fault running inside f fails eq =>
    have shown : m.observed.halted = false := running
    rw [eq, cycle_of_fault shown inside (answer.trans fails)]
    rfl
  | success running inside succeeds eq =>
    have shown : m.observed.halted = false := running
    rw [eq, cycle_of_success shown inside (answer.trans succeeds), Outcome.observed_eq_iff]
    refine ⟨?_, ?_, rfl⟩
    · have count := congrArg (fun s : Machine => { s with cycles := s.cycles + 1 }) machine
      exact recounted_observed count
    · rw [Outcome.events_done, Outcome.events_done, events]
      rfl

theorem times_cycle_observed (n : Nat) (m : Machine) :
    (times cycle n m.observed).observed = (times cycle n m).observed := by
  induction n generalizing m with
  | zero => rfl
  | succ n ih => exact Outcome.observed_andThen (cycle_observed m) ih

theorem frame_observed (count : Int) (m : Machine) :
    (m.observed.frame count).observed = (m.frame count).observed :=
  Outcome.observed_andThen (times_cycle_observed count.toNat m) fun _ => rfl

theorem loadRom_observed (rom : List UInt8) (offset : Int) (m : Machine) :
    (m.observed.loadRom rom offset).observed = (m.loadRom rom offset).observed := by
  simp only [loadRom, observed, recounted]
  split <;> rfl

theorem fetch_observed (m : Machine) : m.observed.fetch.observed = m.fetch.observed := by
  by_cases inside : InProgram m.registers.pc
  · have shown : InProgram m.observed.registers.pc := inside
    rw [fetch, fetch, if_pos inside, if_pos shown]
    rfl
  · have shown : ¬ InProgram m.observed.registers.pc := inside
    rw [fetch, fetch, if_neg inside, if_neg shown]
    rfl

theorem perform_observed (m : Machine) (op : Operation) :
    (m.observed.perform op).observed = (m.perform op).observed := by
  cases op with
  | cycle =>
    rw [perform_cycle, perform_cycle, Outcome.observed_map, cycle_observed, Outcome.observed_map]
  | frame count =>
    rw [perform_frame, perform_frame, Outcome.observed_map, frame_observed, Outcome.observed_map]
  | load rom offset =>
    rw [perform_load, perform_load, Outcome.observed_map, loadRom_observed, Outcome.observed_map]
  | fetch =>
    rw [perform_fetch, perform_fetch, Outcome.observed_map, fetch_observed, Outcome.observed_map]
  | toggle | setV | poke | peek =>
    simp only [perform, observed, recounted]
    split <;> rfl
  | tick | reset | press | release | releaseAll | markClean | setIndex | setPc | setHalted | setDelay
  | setSound => rfl

/-- Machines that show the same behave the same under every list of operations. -/
theorem run_observed {m m' : Machine} (same : m.observed = m'.observed) (ops : List Operation) :
    (m.run ops).map Outcome.observed = (m'.run ops).map Outcome.observed := by
  -- what does not show after one operation does not show in the next
  induction ops generalizing m m' with
  | nil => rfl
  | cons op rest ih =>
    have outcome : (m.perform op).observed = (m'.perform op).observed := by
      rw [← perform_observed m, same, perform_observed]
    have machine := (Outcome.observed_eq_iff.mp outcome).1
    simp only [run, List.map_cons]
    rw [outcome, ih machine]

def fresh (memory : Memory) (stack : CallStack) (display : Display) (bytes : List UInt8) : Machine where
  memory := memory
  stack := stack
  registers := .initial
  timers := .initial
  display := display
  keypad := .released
  latched := .released
  random := .ofList bytes
  halted := false
  fault := none
  unknown := .empty
  cycles := 0

theorem reset_shown (m : Machine) :
    (m.perform .reset).machine.observed =
      fresh m.memory.clear m.stack.clear m.display.clear.markClean m.random.rest := rfl

theorem initial_shown (bytes : List UInt8) :
    (initial (.ofList bytes)).observed =
      fresh (.ofSize memorySize) (.ofDepth stackDepth) (.blank screenWidth screenHeight) bytes := rfl

theorem reset_observed {m : Machine} (h : m.WellFormed) :
    (m.perform .reset).machine.observed = (initial (.ofList m.random.rest)).observed := by
  have memory : m.memory.clear = .ofSize memorySize := by rw [h.font.clear_eq, h.size]
  have stack : m.stack.clear = .ofDepth stackDepth := by
    rw [CallStack.clear, h.stack.depth]
    rfl
  have display : m.display.clear.markClean = .blank screenWidth screenHeight := by
    rw [Display.clear, h.display.width, h.display.height]
    rfl
  rw [reset_shown, initial_shown, memory, stack, display]

theorem reset_events (m : Machine) :
    (m.perform .reset).events = if m.timers.sound = 0 then [] else [.sound .stop] := by
  change ((m.timers.setDelay 0).setSound 0).2.toList.map Event.sound = _
  by_cases silent : m.timers.sound = 0 <;> simp [Timers.setSound, Timers.setDelay, silent]

/-- After a reset, a machine shows what a new one with the rest of its random source shows, now and under
every list of operations. -/
theorem reset_like_initial {m : Machine} (reachable : m.Reachable) :
    let reset := m.perform .reset
    let new := initial (.ofList m.random.rest)
    reset.machine.observed = new.observed ∧
    (∀ ops, (reset.machine.run ops).map Outcome.observed = (new.run ops).map Outcome.observed) ∧
    reset.answer = .ok .none ∧
    reset.events = if m.timers.sound = 0 then [] else [.sound .stop] := by
  intro reset new
  have same : reset.machine.observed = new.observed := reset_observed reachable.wellFormed
  exact ⟨same, run_observed same, rfl, reset_events m⟩

def drawing : List UInt8 :=
  [0xC0, 0xFF]

def struck : Machine :=
  { loaded drawing with random := .ofList [7, 9], keypad := Keypad.released.press 3 }

theorem after_struck :
    (initial (.ofList [7, 9])).after [.load drawing 0x200, .press 3, .cycle] =
      { { struck.fetched with random := ⟨[9], [(0, 255)]⟩ }.setV 0 7 with cycles := 1 } := by
  have memory : struck.memory = (loaded drawing).memory := rfl
  have pc : struck.registers.pc = (0x200 + 0 : Nat) := rfl
  have opcode : struck.opcode = 0xC0FF := opcode_of_loaded memory pc (by decide) (by decide)
  rw [after_cons, machine_load_initial _ (by decide), after_cons, after_cons, after_nil, perform_cycle_machine]
  change struck.cycle.machine = _
  rw [cycle_of_opcode rfl (by decide) opcode rfl]
  rfl

theorem reset_like_initial_sounding :
    let m := (initial (.ofList [7, 9])).after
      ([.load drawing 0x200, .press 3, .cycle] ++ [.release 3, .setSound 5])
    m.Reachable ∧ m.latched ≠ m.keypad ∧ m.random.rest = [9] ∧ m.random.drawn = 1 ∧
      (m.perform .reset).events = [.sound .stop] ∧
      (m.perform .reset).machine.observed = (initial (.ofList [9])).observed ∧
      ((m.perform .reset).machine.run [.load drawing 0x200, .cycle]).map Outcome.observed =
        ((initial (.ofList [9])).run [.load drawing 0x200, .cycle]).map Outcome.observed := by
  intro m
  have reachable : m.Reachable := ⟨_, _, rfl⟩
  have state : m = ({ { struck.fetched with random := ⟨[9], [(0, 255)]⟩ }.setV 0 7 with cycles := 1 } : Machine).after
      [.release 3, .setSound 5] := by
    simp only [m]
    rw [after_append, after_struck]
  clear_value m
  subst state
  obtain ⟨same, runs, -, events⟩ := reset_like_initial reachable
  exact ⟨reachable, by decide, rfl, rfl, events, same, runs [.load drawing 0x200, .cycle]⟩

end Machine

end ChipEight

import ChipEight.Proofs.EventLog
import ChipEight.Proofs.Halting
import ChipEight.Proofs.Tally

/-!
The history of a run, which is the list of its cycles that succeed. Each is told by the machine that it
starts from, where the opcode and its address can be read. The events of a run tell this history, and since
the machine was switched on or reset its count of cycles is the length of it.
-/

namespace ChipEight.Machine

def starts? (m : Machine) : Operation → Option Machine
  | .cycle =>
    match m.cycle.answer with
    | .ok () => some m
    | .error _ => none
  | _ => none

def stepHistory (m : Machine) : List Operation → List Machine
  | [] => []
  | op :: rest => (m.starts? op).toList ++ (m.perform op).machine.stepHistory rest

/-- The cycles of a run that succeed, those of its frames among them, in the order in which they happen.
Each is told by the machine that it starts from. -/
def history (m : Machine) (ops : List Operation) : List Machine :=
  m.stepHistory (m.unroll ops)

theorem starts?_of_ok {m : Machine} (succeeds : m.cycle.answer = .ok ()) :
    m.starts? .cycle = some m := by
  simp only [starts?, succeeds]

theorem starts?_of_error {m : Machine} {e : Failure} (fails : m.cycle.answer = .error e) :
    m.starts? .cycle = none := by
  simp only [starts?, fails]

theorem starts?_of_ne {m : Machine} {op : Operation} (other : op ≠ .cycle) : m.starts? op = none := by
  cases op with
  | cycle => exact absurd rfl other
  | _ => rfl

theorem steps_of_single (m : Machine) {op : Operation} (single : op.Single) : m.steps op = [op] := by
  cases op with
  | frame count => exact single.elim
  | _ => rfl

theorem history_cons (m : Machine) (op : Operation) (single : op.Single) (ops : List Operation) :
    m.history (op :: ops) = (m.starts? op).toList ++ (m.perform op).machine.history ops := by
  rw [history, unroll, steps_of_single m single, List.singleton_append, stepHistory, history]

theorem stepHistory_append (m : Machine) (xs ys : List Operation) :
    m.stepHistory (xs ++ ys) = m.stepHistory xs ++ (m.after xs).stepHistory ys := by
  induction xs generalizing m with
  | nil => rfl
  | cons op rest ih => rw [List.cons_append, stepHistory, stepHistory, ih, after_cons, List.append_assoc]

theorem history_step (m : Machine) (op : Operation) (ops : List Operation) :
    m.history (op :: ops) = m.stepHistory (m.steps op) ++ (m.perform op).machine.history ops := by
  rw [history, unroll, stepHistory_append, after_steps, history]

theorem history_append (m : Machine) (xs ys : List Operation) :
    m.history (xs ++ ys) = m.history xs ++ (m.after xs).history ys := by
  induction xs generalizing m with
  | nil => rfl
  | cons op rest ih => rw [List.cons_append, history_step, history_step, ih, after_cons, List.append_assoc]

theorem cycle_ok_of_mem_stepHistory {m c : Machine} {ops : List Operation}
    (mem : c ∈ m.stepHistory ops) : c.cycle.answer = .ok () := by
  induction ops generalizing m with
  | nil => cases mem
  | cons op rest ih =>
    rcases List.mem_append.mp mem with now | later
    · cases op
      case cycle =>
        cases answer : m.cycle.answer with
        | ok =>
          rw [starts?_of_ok answer, Option.mem_toList, Option.some.injEq] at now
          exact now ▸ answer
        | error e => simp [starts?_of_error answer] at now
      all_goals cases now
    · exact ih later

theorem of_mem_history {m c : Machine} {ops : List Operation} (mem : c ∈ m.history ops) :
    c.cycle.answer = .ok () ∧ InProgram c.registers.pc :=
  have succeeds := cycle_ok_of_mem_stepHistory mem
  ⟨succeeds, (running_of_cycle_ok succeeds).2⟩

section Told

variable {α : Type} {told : Event → Option α} (sounds : ∀ edge, told (.sound edge) = none)
include sounds

theorem filterMap_sounds (edges : List SoundEdge) : (edges.map Event.sound).filterMap told = [] := by
  rw [List.filterMap_eq_nil_iff]
  intro e mem
  obtain ⟨edge, -, rfl⟩ := List.mem_map.mp mem
  exact sounds edge

theorem filterMap_perform (loads : ∀ size offset, told (.loaded size offset) = none) (m : Machine)
    {op : Operation} (single : op.Single) (other : op ≠ .cycle) :
    (m.perform op).events.filterMap told = [] := by
  cases op with
  | frame count => exact single.elim
  | cycle => exact absurd rfl other
  | tick | reset | setSound => exact filterMap_sounds sounds _
  | load rom offset =>
    rw [perform_load, loadRom]
    split
    · rfl
    · exact List.filterMap_eq_nil_iff.mpr (List.forall_mem_singleton.mpr (loads _ _))
  | fetch =>
    rw [perform_fetch, fetch]
    split <;> rfl
  | toggle | setV | poke | peek =>
    simp only [perform]
    split <;> rfl
  | press | release | releaseAll | markClean | setIndex | setPc | setHalted | setDelay => rfl

end Told

def traced? (c : Machine) : Option (Int × Instruction) :=
  if c.instruction.op = .unknown then none else some (c.registers.pc, c.instruction)

def sight? (c : Machine) : Option UnknownOpcode :=
  if c.instruction.op = .unknown then some ⟨c.opcode, c.registers.pc⟩ else none

theorem executed_told (m : Machine) : m.executed.events.filterMap Event.executed? = [] := by
  rw [executed, execute_events]
  split
  · exact filterMap_sounds (fun _ => rfl) _
  · split <;> rfl
  · rfl

theorem traced_cycle (m : Machine) :
    m.cycle.events.filterMap Event.executed? = (m.starts? .cycle).toList.filterMap traced? := by
  cases m.cycle_cases with
  | halted _ eq => rw [starts?_of_error (by rw [eq]; rfl), eq]; rfl
  | outside _ _ eq => rw [starts?_of_error (by rw [eq]), eq]; rfl
  | fault _ _ f _ eq => rw [starts?_of_error (by rw [eq]), eq]; rfl
  | success _ _ _ eq =>
    rw [starts?_of_ok (by rw [eq]; rfl), eq, Outcome.events_done, List.filterMap_append, executed_told,
      List.nil_append, trace]
    by_cases unknown : m.instruction.op = .unknown <;> simp [traced?, unknown, Event.executed?]

theorem traced_history (m : Machine) (ops : List Operation) :
    (m.diary ops).filterMap Event.executed? = (m.history ops).filterMap traced? := by
  have single : ∀ op ∈ m.unroll ops, op.Single := fun op mem => (mem_unroll mem).1
  rw [← diary_unroll, history]
  generalize m.unroll ops = steps at single
  -- over the single steps, since a frame alone tells of several cycles
  induction steps generalizing m with
  | nil => rfl
  | cons op rest ih =>
    have later := ih (m.perform op).machine fun op' mem => single op' (List.mem_cons_of_mem op mem)
    rw [diary_cons, stepHistory, List.filterMap_append, List.filterMap_append, later]
    congr 1
    by_cases cycle : op = .cycle
    · rw [cycle]
      exact traced_cycle m
    · rw [starts?_of_ne cycle]
      exact filterMap_perform (fun _ => rfl) (fun _ _ => rfl) m (single op List.mem_cons_self) cycle

/-- What is counted on the way from one machine to another, by a history and by the events told. -/
structure Account (m : Machine) (past : List Machine) (told : List Event) (m' : Machine) : Prop where
  tally : m'.unknown = (past.filterMap sight?).foldl UnknownTally.record m.unknown
  warned : m'.unknown.keys = m.unknown.keys ++ told.filterMap Event.unknown?
  cycles : m'.cycles = m.cycles + past.length

theorem Account.of_same {m m' : Machine} {told : List Event} (unknown : m'.unknown = m.unknown)
    (cycles : m'.cycles = m.cycles) (silent : told.filterMap Event.unknown? = []) :
    Account m [] told m' :=
  ⟨unknown, by rw [unknown, silent, List.append_nil], cycles⟩

theorem Account.append {a b c : Machine} {past past' : List Machine} {told told' : List Event}
    (first : Account a past told b) (second : Account b past' told' c) :
    Account a (past ++ past') (told ++ told') c where
  tally := by rw [second.tally, first.tally, List.filterMap_append, List.foldl_append]
  warned := by rw [second.warned, first.warned, List.filterMap_append, List.append_assoc]
  cycles := by rw [second.cycles, first.cycles, List.length_append, Nat.add_assoc]

theorem noteUnknown_told (m : Machine) (u : UnknownOpcode) :
    (m.noteUnknown u : Outcome Fault Unit).events.filterMap Event.unknown? =
      if m.unknown.contains u then [] else [u] := by
  rw [noteUnknown, Outcome.events_done]
  split <;> rfl

theorem executed_known {m : Machine} (known : m.instruction.op ≠ .unknown) :
    m.executed.machine.unknown = m.unknown ∧ m.executed.events.filterMap Event.unknown? = [] := by
  rw [executed, execute_unknown, execute_events]
  constructor
  · split
    next op => exact absurd op known
    · rfl
  · split
    · exact filterMap_sounds (fun _ => rfl) _
    next op => exact absurd op known
    · rfl

theorem account_executed (m : Machine) :
    Account m [m] (m.executed.events ++ trace m.registers.pc m.instruction)
      { m.executed.machine with cycles := m.executed.machine.cycles + 1 } := by
  have cycles : m.executed.machine.cycles + 1 = m.cycles + 1 :=
    congrArg (·.2.2.2.2 + 1) (execute_aside m.instruction m.fetched)
  have silent : (trace m.registers.pc m.instruction).filterMap Event.unknown? = [] := by
    rw [trace]
    split <;> rfl
  by_cases unknown : m.instruction.op = .unknown
  · have sight : [m].filterMap sight? = [⟨m.opcode, m.registers.pc⟩] := by simp [sight?, unknown]
    refine ⟨?_, ?_, cycles⟩
    · rw [sight, executed_unknown unknown]
      rfl
    · rw [List.filterMap_append, silent, List.append_nil, executed_unknown unknown, noteUnknown_told]
      exact m.unknown.keys_record _
  · have sight : [m].filterMap sight? = [] := by simp [sight?, unknown]
    obtain ⟨same, quiet⟩ := executed_known unknown
    refine ⟨?_, ?_, cycles⟩
    · rw [sight, same]
      rfl
    · rw [List.filterMap_append, silent, quiet, same]
      exact (List.append_nil _).symm

theorem account_cycle (m : Machine) :
    Account m (m.starts? .cycle).toList m.cycle.events m.cycle.machine := by
  cases m.cycle_cases with
  | halted _ eq => rw [starts?_of_error (by rw [eq]; rfl), eq]; exact .of_same rfl rfl rfl
  | outside _ _ eq => rw [starts?_of_error (by rw [eq]), eq]; exact .of_same rfl rfl rfl
  | fault _ _ f _ eq => rw [starts?_of_error (by rw [eq]), eq]; exact .of_same rfl rfl rfl
  | success _ _ _ eq => rw [starts?_of_ok (by rw [eq]; rfl), eq]; exact account_executed m

theorem account_perform (m : Machine) {op : Operation} (single : op.Single) (kept : op ≠ .reset) :
    Account m (m.starts? op).toList (m.perform op).events (m.perform op).machine := by
  by_cases cycle : op = .cycle
  · rw [cycle]
    exact account_cycle m
  · have same := m.inner_perform single cycle kept
    rw [starts?_of_ne cycle]
    exact .of_same (congrArg (·.2.2.1) same) (congrArg (·.2.2.2) same)
      (filterMap_perform (fun _ => rfl) (fun _ _ => rfl) m single cycle)

theorem account_steps {ops : List Operation} (steps : ∀ op ∈ ops, op.Single ∧ op ≠ .reset)
    (m : Machine) : Account m (m.stepHistory ops) (m.diary ops) (m.after ops) := by
  induction ops generalizing m with
  | nil => exact .of_same rfl rfl rfl
  | cons op rest ih =>
    obtain ⟨single, kept⟩ := steps op List.mem_cons_self
    have later := ih (fun op' mem => steps op' (List.mem_cons_of_mem op mem)) (m.perform op).machine
    exact (account_perform m single kept).append later

theorem account_history (m : Machine) {ops : List Operation} (unbroken : .reset ∉ ops) :
    Account m (m.history ops) (m.diary ops) (m.after ops) := by
  rw [← diary_unroll, ← after_unroll]
  refine account_steps (fun op mem => ?_) m
  obtain ⟨single, origin⟩ := mem_unroll mem
  refine ⟨single, ?_⟩
  rintro rfl
  simp [unbroken] at origin

/-- A machine that was switched on or reset, and has done nothing since. -/
inductive PoweredOn : Machine → Prop
  | new (random : RandomBytes) : PoweredOn (initial random)
  | reset (m : Machine) : PoweredOn (m.perform .reset).machine

theorem PoweredOn.counters {m : Machine} (h : m.PoweredOn) : m.unknown = .empty ∧ m.cycles = 0 := by
  cases h with
  | new | reset => exact ⟨rfl, rfl⟩

section SincePowerOn

variable {m : Machine} (start : m.PoweredOn) {ops : List Operation} (unbroken : .reset ∉ ops)
include start unbroken

theorem tallies_history : (m.after ops).unknown.Tallies ((m.history ops).filterMap sight?) := by
  rw [(account_history m unbroken).tally, start.counters.1]
  exact UnknownTally.tallies_empty.foldl _

theorem keys_eq_told : (m.after ops).unknown.keys = (m.diary ops).filterMap Event.unknown? := by
  rw [(account_history m unbroken).warned, start.counters.1]
  rfl

theorem cycles_eq_length : (m.after ops).cycles = (m.history ops).length := by
  rw [(account_history m unbroken).cycles, start.counters.2, Nat.zero_add]

end SincePowerOn

end ChipEight.Machine

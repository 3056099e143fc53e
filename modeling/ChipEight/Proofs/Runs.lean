import ChipEight.Machine.Operation

/-!
Runs of the machine step by step. A frame is unrolled into its cycles and its tick, so that every state
that a run goes through is the state after a list of single steps, and what single steps preserve is
preserved by every run.
-/

namespace ChipEight

namespace Operation

/-- Whether the operation is one step of the machine. A frame alone is several. -/
def Single : Operation → Prop
  | .frame _ => False
  | _ => True

end Operation

namespace Outcome

@[simp] theorem machine_done (m : Machine) (events : List Event) :
    (done m events : Outcome ε Unit).machine = m := rfl

@[simp] theorem events_done (m : Machine) (events : List Event) :
    (done m events : Outcome ε Unit).events = events := rfl

@[simp] theorem answer_done (m : Machine) (events : List Event) :
    (done m events : Outcome ε Unit).answer = .ok () := rfl

section AndThen

variable {ε α β : Type} {o : Outcome ε α} (next : Machine → Outcome ε β)

theorem andThen_of_ok {a : α} (h : o.answer = .ok a) :
    o.andThen next =
      ⟨(next o.machine).machine, o.events ++ (next o.machine).events, (next o.machine).answer⟩ := by
  rw [andThen, h]

theorem andThen_of_error {e : ε} (h : o.answer = .error e) :
    o.andThen next = ⟨o.machine, o.events, .error e⟩ := by
  rw [andThen, h]

end AndThen

def viewed (view : Machine → Machine) (o : Outcome ε α) : Outcome ε α :=
  { o with machine := view o.machine }

theorem viewed_eq_iff {view : Machine → Machine} {o o' : Outcome ε α} :
    o.viewed view = o'.viewed view ↔
      view o.machine = view o'.machine ∧ o.events = o'.events ∧ o.answer = o'.answer := by
  simp [viewed]

theorem viewed_map (view : Machine → Machine) (answer : α → β) (failure : ε → δ) (o : Outcome ε α) :
    (o.map answer failure).viewed view = (o.viewed view).map answer failure := rfl

theorem viewed_andThen {view : Machine → Machine} {o o' : Outcome ε Unit}
    {next : Machine → Outcome ε Unit} (first : o.viewed view = o'.viewed view)
    (second : ∀ m m' : Machine, view m = view m' → (next m).viewed view = (next m').viewed view) :
    (o.andThen next).viewed view = (o'.andThen next).viewed view := by
  obtain ⟨m, events, answer⟩ := o
  obtain ⟨m', events', answer'⟩ := o'
  obtain ⟨machine, rfl, rfl⟩ := viewed_eq_iff.mp first
  cases answer with
  | error e => simpa [andThen, viewed] using machine
  | ok =>
    obtain ⟨machine, events, answer⟩ := viewed_eq_iff.mp (second m m' machine)
    simp [andThen, viewed, machine, events, answer]

end Outcome

namespace Machine

/-- A machine as some list of operations leaves it, from where it was switched on. -/
def Reachable (m : Machine) : Prop :=
  ∃ random ops, m = (initial random).after ops

@[simp] theorem after_nil (m : Machine) : m.after [] = m := rfl

@[simp] theorem after_cons (m : Machine) (op : Operation) (ops : List Operation) :
    m.after (op :: ops) = (m.perform op).machine.after ops := rfl

theorem after_append (m : Machine) (xs ys : List Operation) :
    m.after (xs ++ ys) = (m.after xs).after ys :=
  List.foldl_append

theorem Reachable.perform {m : Machine} (h : m.Reachable) (op : Operation) :
    (m.perform op).machine.Reachable := by
  obtain ⟨random, ops, rfl⟩ := h
  exact ⟨random, ops ++ [op], by rw [after_append, after_cons, after_nil]⟩

theorem perform_cycle (m : Machine) : m.perform .cycle = m.cycle.map (fun _ => .none) id := rfl

theorem perform_frame (m : Machine) (count : Int) :
    m.perform (.frame count) = (m.frame count).map (fun _ => .none) id := rfl

theorem perform_load (m : Machine) (rom : List UInt8) (offset : Int) :
    m.perform (.load rom offset) = (m.loadRom rom offset).map (fun _ => .none) id := rfl

theorem perform_fetch (m : Machine) : m.perform .fetch = m.fetch.map .word .fault := rfl

theorem perform_cycle_machine (m : Machine) : (m.perform .cycle).machine = m.cycle.machine := rfl

theorem perform_load_machine (m : Machine) (rom : List UInt8) (offset : Int) :
    (m.perform (.load rom offset)).machine = (m.loadRom rom offset).machine := rfl

theorem perform_frame_machine (m : Machine) (count : Int) :
    (m.perform (.frame count)).machine = (m.frame count).machine := rfl

theorem after_cycle {m m' : Machine} {events : List Event} (h : m.cycle = .done m' events)
    (ops : List Operation) : m.after (.cycle :: ops) = m'.after ops := by
  rw [after_cons, perform_cycle_machine, h, Outcome.machine_done]

/-- The single steps of a number of cycles and a tick: the cycles up to the first that fails, and the tick
if none does. -/
def frameSteps : Nat → Machine → List Operation
  | 0, _ => [.tick]
  | n + 1, m =>
    match m.cycle.answer with
    | .error _ => [.cycle]
    | .ok _ => .cycle :: frameSteps n m.cycle.machine

theorem frameSteps_cycle {m m' : Machine} {events : List Event} (h : m.cycle = .done m' events)
    (n : Nat) : frameSteps (n + 1) m = .cycle :: frameSteps n m' := by
  simp only [frameSteps, h, Outcome.answer_done, Outcome.machine_done]

def steps (m : Machine) : Operation → List Operation
  | .frame count => frameSteps count.toNat m
  | op => [op]

def unroll (m : Machine) : List Operation → List Operation
  | [] => []
  | op :: rest => m.steps op ++ (m.perform op).machine.unroll rest

theorem after_frameSteps (n : Nat) (m : Machine) :
    m.after (frameSteps n m) = ((times cycle n m).andThen tick).machine := by
  induction n generalizing m with
  | zero => rfl
  | succ n ih =>
    cases answer : m.cycle.answer with
    | error e => simp [frameSteps, times, Outcome.andThen, answer, perform_cycle_machine]
    | ok =>
      simp only [frameSteps, answer, after_cons, perform_cycle_machine, ih, times, Outcome.andThen]
      cases (times cycle n m.cycle.machine).answer <;> rfl

theorem after_steps (m : Machine) (op : Operation) : m.after (m.steps op) = (m.perform op).machine := by
  cases op
  case frame count => exact after_frameSteps count.toNat m
  all_goals rfl

theorem after_unroll (m : Machine) (ops : List Operation) : m.after (m.unroll ops) = m.after ops := by
  induction ops generalizing m with
  | nil => rfl
  | cons op rest ih => rw [unroll, after_append, after_steps, ih, after_cons]

def diary (m : Machine) (ops : List Operation) : List Event :=
  (m.run ops).flatMap Outcome.events

@[simp] theorem diary_nil (m : Machine) : m.diary [] = [] := rfl

@[simp] theorem diary_cons (m : Machine) (op : Operation) (ops : List Operation) :
    m.diary (op :: ops) = (m.perform op).events ++ (m.perform op).machine.diary ops := rfl

theorem diary_append (m : Machine) (xs ys : List Operation) :
    m.diary (xs ++ ys) = m.diary xs ++ (m.after xs).diary ys := by
  induction xs generalizing m with
  | nil => rfl
  | cons op rest ih =>
    rw [List.cons_append, diary_cons, diary_cons, ih, after_cons, List.append_assoc]

theorem perform_cycle_events (m : Machine) : (m.perform .cycle).events = m.cycle.events := rfl

theorem diary_frameSteps (n : Nat) (m : Machine) :
    m.diary (frameSteps n m) = ((times cycle n m).andThen tick).events := by
  induction n generalizing m with
  | zero => exact List.append_nil _
  | succ n ih =>
    cases answer : m.cycle.answer with
    | error e => simp [frameSteps, times, Outcome.andThen, answer, perform_cycle_events]
    | ok =>
      simp only [frameSteps, answer, diary_cons, perform_cycle_machine, perform_cycle_events, ih,
        times, Outcome.andThen]
      cases (times cycle n m.cycle.machine).answer <;> simp

theorem diary_steps (m : Machine) (op : Operation) : m.diary (m.steps op) = (m.perform op).events := by
  cases op
  case frame count => exact diary_frameSteps count.toNat m
  all_goals exact List.append_nil _

theorem diary_unroll (m : Machine) (ops : List Operation) : m.diary (m.unroll ops) = m.diary ops := by
  induction ops generalizing m with
  | nil => rfl
  | cons op rest ih => rw [unroll, diary_append, diary_steps, after_steps, ih, diary_cons]

theorem mem_frameSteps {n : Nat} {m : Machine} {op : Operation} (h : op ∈ frameSteps n m) :
    op = .cycle ∨ op = .tick := by
  induction n generalizing m with
  | zero => simp_all [frameSteps]
  | succ n ih =>
    simp only [frameSteps] at h
    split at h
    · simp_all
    · rcases List.mem_cons.mp h with rfl | h
      · exact .inl rfl
      · exact ih h

theorem mem_unroll {m : Machine} {ops : List Operation} {op : Operation} (h : op ∈ m.unroll ops) :
    op.Single ∧ (op ∈ ops ∨ op = .cycle ∨ op = .tick) := by
  induction ops generalizing m with
  | nil => simp [unroll] at h
  | cons first rest ih =>
    rcases List.mem_append.mp h with now | later
    · cases first
      case frame count =>
        rcases mem_frameSteps now with rfl | rfl <;> simp [Operation.Single]
      all_goals
        obtain rfl := List.mem_singleton.mp now
        simp [Operation.Single]
    · obtain ⟨single, origin⟩ := ih later
      exact ⟨single, origin.imp_left (List.mem_cons_of_mem first)⟩

/-- The parts that only cycles and resets change. -/
def inner (m : Machine) : CallStack × Option Fault × UnknownTally × Nat :=
  (m.stack, m.fault, m.unknown, m.cycles)

theorem inner_perform (m : Machine) {op : Operation} (single : op.Single) (other : op ≠ .cycle)
    (kept : op ≠ .reset) : (m.perform op).machine.inner = m.inner := by
  cases op with
  | frame count => exact single.elim
  | cycle => exact absurd rfl other
  | reset => exact absurd rfl kept
  | load rom offset =>
    rw [perform_load_machine, loadRom]
    split <;> rfl
  | fetch =>
    change m.fetch.machine.inner = m.inner
    rw [fetch]
    split <;> rfl
  | toggle | setV | poke | peek =>
    simp only [perform]
    split <;> rfl
  | tick | press | release | releaseAll | markClean | setIndex | setPc | setHalted | setDelay
  | setSound => rfl

theorem after_invariant {P : Machine → Prop} {ops : List Operation} {m : Machine}
    (step : ∀ s, ∀ op ∈ ops, P s → P (s.perform op).machine) (start : P m) : P (m.after ops) := by
  induction ops generalizing m with
  | nil => exact start
  | cons op rest ih =>
    exact ih (fun s later mem => step s later (List.mem_cons_of_mem op mem))
      (step m op List.mem_cons_self start)

theorem unroll_invariant {P : Machine → Prop} {ops : List Operation} {m : Machine}
    (step : ∀ s op, op.Single → op ∈ ops ∨ op = .cycle ∨ op = .tick → P s → P (s.perform op).machine)
    (start : P m) : P (m.after ops) := by
  rw [← after_unroll]
  apply after_invariant _ start
  intro s op mem
  obtain ⟨single, origin⟩ := mem_unroll mem
  exact step s op single origin

end Machine

end ChipEight

import ChipEight.Proofs.CycleHistory
import ChipEight.Proofs.Footprint
import ChipEight.Proofs.SoundEdges

/-!
The timers as time passes. Ticks alone bring both timers down to zero, and the tone stops once, in the tick that brings
the sound timer there. Each timer goes its way whatever is written to the other. The machine leaves them alone but for
a few operations and two opcodes; without these its timers count the frames that complete, however many cycles a
frame has.
-/

namespace ChipEight

namespace Timers

theorem run_cons (t : Timers) (a : Action) (rest : List Action) :
    t.run (a :: rest) =
      (((t.apply a).1.run rest).1, (t.apply a).2.toList ++ ((t.apply a).1.run rest).2) := rfl

theorem run_append (t : Timers) (xs ys : List Action) :
    t.run (xs ++ ys) = (((t.run xs).1.run ys).1, (t.run xs).2 ++ ((t.run xs).1.run ys).2) := by
  induction xs generalizing t with
  | nil => rfl
  | cons a rest ih => rw [List.cons_append, run_cons, run_cons, ih, List.append_assoc]

section Ticks

def ticks (t : Timers) (n : Nat) : Timers × List SoundEdge :=
  t.run (List.replicate n .tick)

variable (t : Timers) (n : Nat)

theorem ticks_succ :
    t.ticks (n + 1) = ((t.ticks n).1.tick.1, (t.ticks n).2 ++ (t.ticks n).1.tick.2.toList) := by
  rw [ticks, List.replicate_succ', run_append, run_cons, ticks]
  exact congrArg (Prod.mk _) (congrArg ((t.ticks n).2 ++ ·) (List.append_nil _))

theorem delay_ticks : (t.ticks n).1.delay.toNat = t.delay.toNat - n := by
  induction n with
  | zero => rfl
  | succ n ih =>
    have step : (t.ticks n).1.tick.1.delay.toNat = (t.ticks n).1.delay.toNat - 1 := toNat_countDown _
    rw [ticks_succ, step, ih, Nat.sub_sub]

theorem sound_ticks : (t.ticks n).1.sound.toNat = t.sound.toNat - n := by
  induction n with
  | zero => rfl
  | succ n ih =>
    have step : (t.ticks n).1.tick.1.sound.toNat = (t.ticks n).1.sound.toNat - 1 := toNat_countDown _
    rw [ticks_succ, step, ih, Nat.sub_sub]

theorem edge_of_tick : (t.ticks n).1.tick.2 = if t.sound.toNat = n + 1 then some .stop else none := by
  have last : (t.ticks n).1.sound = 1 ↔ t.sound.toNat = n + 1 := by
    rw [← UInt8.toNat_inj, sound_ticks, UInt8.toNat_one]
    omega
  simp only [tick, last]

theorem edges_ticks :
    (t.ticks n).2 = if 1 ≤ t.sound.toNat ∧ t.sound.toNat ≤ n then [.stop] else [] := by
  induction n with
  | zero =>
    rw [if_neg (by omega)]
    rfl
  | succ n ih =>
    -- a stop so far, or one in this tick, but not both
    rw [ticks_succ, ih, edge_of_tick]
    rcases Nat.lt_trichotomy t.sound.toNat (n + 1) with before | now | later
    · simp [show t.sound.toNat ≠ n + 1 by omega, show t.sound.toNat ≤ n by omega,
        show t.sound.toNat ≤ n + 1 by omega]
    · simp [now]
    · simp [show t.sound.toNat ≠ n + 1 by omega, show ¬ t.sound.toNat ≤ n by omega,
        show ¬ t.sound.toNat ≤ n + 1 by omega]

end Ticks

def Action.writesDelay : Action → Bool
  | .delay _ => true
  | _ => false

def Action.writesSound : Action → Bool
  | .sound _ => true
  | _ => false

section Independent

variable {t t' : Timers}

theorem delay_apply (same : t.delay = t'.delay) (a : Action) :
    (t.apply a).1.delay = (t'.apply a).1.delay := by
  cases a with
  | delay | reset => rfl
  | sound => exact same
  | tick => exact congrArg countDown same

theorem delay_of_writesSound {a : Action} (writes : a.writesSound = true) : (t.apply a).1.delay = t.delay := by
  cases a with
  | sound => rfl
  | delay | tick | reset => cases writes

theorem sound_apply (same : t.sound = t'.sound) (a : Action) :
    (t.apply a).1.sound = (t'.apply a).1.sound ∧ (t.apply a).2 = (t'.apply a).2 := by
  cases a with
  | delay => exact ⟨same, rfl⟩
  | sound | reset => simp only [apply, reset, setSound, setDelay, same, and_self]
  | tick => simp only [apply, tick, same, and_self]

theorem sound_of_writesDelay {a : Action} (writes : a.writesDelay = true) :
    (t.apply a).1.sound = t.sound ∧ (t.apply a).2 = none := by
  cases a with
  | delay => exact ⟨rfl, rfl⟩
  | sound | tick | reset => cases writes

theorem delay_run_filter (same : t.delay = t'.delay) (actions : List Action) :
    (t.run (actions.filter fun a => !a.writesSound)).1.delay = (t'.run actions).1.delay := by
  -- over the actions: one that is left out writes the sound timer alone, and the delay timers still agree
  induction actions generalizing t t' with
  | nil => exact same
  | cons a rest ih =>
    cases writes : a.writesSound with
    | true =>
      rw [List.filter_cons_of_neg (by simp [writes]), run_cons]
      exact ih (same.trans (delay_of_writesSound writes).symm)
    | false =>
      rw [List.filter_cons_of_pos (by simp [writes]), run_cons, run_cons]
      exact ih (delay_apply same a)

theorem sound_run_filter (same : t.sound = t'.sound) (actions : List Action) :
    (t.run (actions.filter fun a => !a.writesDelay)).1.sound = (t'.run actions).1.sound ∧
      (t.run (actions.filter fun a => !a.writesDelay)).2 = (t'.run actions).2 := by
  induction actions generalizing t t' with
  | nil => exact ⟨same, rfl⟩
  | cons a rest ih =>
    cases writes : a.writesDelay with
    | true =>
      obtain ⟨kept, silent⟩ := sound_of_writesDelay (t := t') writes
      rw [List.filter_cons_of_neg (by simp [writes]), run_cons, silent]
      exact ih (same.trans kept.symm)
    | false =>
      obtain ⟨sound, edge⟩ := sound_apply same a
      obtain ⟨later, edges⟩ := ih sound
      rw [List.filter_cons_of_pos (by simp [writes]), run_cons, run_cons, edge, edges]
      exact ⟨later, rfl⟩

end Independent

end Timers

namespace Operation

/-- What an operation on the machine does to the timers, if it does something to them by itself. -/
def timing? : Operation → Option Timers.Action
  | .setDelay v => some (.delay (lowByte v))
  | .setSound v => some (.sound (lowByte v))
  | .tick => some .tick
  | .reset => some .reset
  | _ => none

def writesDelay : Operation → Bool
  | .setDelay _ => true
  | _ => false

def writesSound : Operation → Bool
  | .setSound _ => true
  | _ => false

theorem timing_filter {writes : Operation → Bool} {kind : Timers.Action → Bool}
    (same : ∀ op, writes op = op.timing?.any kind) (ops : List Operation) :
    (ops.filter fun op => !writes op).filterMap timing? =
      (ops.filterMap timing?).filter fun a => !kind a := by
  induction ops with
  | nil => rfl
  | cons op rest ih => grind

theorem writesDelay_eq (op : Operation) : op.writesDelay = op.timing?.any Timers.Action.writesDelay := by
  cases op <;> rfl

theorem writesSound_eq (op : Operation) : op.writesSound = op.timing?.any Timers.Action.writesSound := by
  cases op <;> rfl

theorem timing_of_unset {op : Operation}
    (unset : op ≠ .reset ∧ (∀ v, op ≠ .setDelay v) ∧ ∀ v, op ≠ .setSound v) :
    op.timing? = none ∨ op = .tick := by
  cases op with
  | tick => exact .inr rfl
  | reset => exact absurd rfl unset.1
  | setDelay v => exact absurd rfl (unset.2.1 v)
  | setSound v => exact absurd rfl (unset.2.2 v)
  | _ => exact .inl rfl

end Operation

namespace Machine

open SoundEdge

def ticksTimers (m : Machine) : Operation → Bool
  | .tick => true
  | .frame count => (m.frame count).answer.isOk
  | _ => false

/-- How many frames of a run complete, and ticks of their own beside them. -/
def framesTicked (m : Machine) : List Operation → Nat
  | [] => 0
  | op :: rest => (m.ticksTimers op).toNat + (m.perform op).machine.framesTicked rest

theorem timers_cycle {m : Machine}
    (quiet : m.cycle.answer = .ok () → ¬ EndsIn m.opcode 0x15 ∧ ¬ EndsIn m.opcode 0x18) :
    m.cycle.machine.timers = m.timers := by
  cases m.cycle_cases with
  | halted _ eq => rw [eq]; rfl
  | outside _ _ eq => rw [eq]; rfl
  | fault _ _ _ _ eq => rw [eq]; rfl
  | success _ _ _ eq =>
    obtain ⟨noDelay, noSound⟩ := quiet (by rw [eq]; rfl)
    have delay : m.executed.machine.timers.delay = m.timers.delay :=
      Classical.not_not.mp (mt delay_changed noDelay)
    have sound : m.executed.machine.timers.sound = m.timers.sound :=
      Classical.not_not.mp (mt sound_changed noSound)
    rw [eq, Outcome.machine_done]
    exact (Timers.mk.injEq ..).mpr ⟨delay, sound⟩

theorem timing_perform (m : Machine) {op : Operation} (single : op.Single) (other : op ≠ .cycle) :
    ((m.perform op).machine.timers, edges (m.perform op).events) = m.timers.run op.timing?.toList := by
  cases op with
  | frame count => exact single.elim
  | cycle => exact absurd rfl other
  | tick | reset | setSound =>
    refine congrArg (Prod.mk _) ?_
    exact (edges_sound _).trans (List.append_nil _).symm
  | load rom offset =>
    rw [perform_load, loadRom]
    split <;> rfl
  | fetch =>
    rw [perform_fetch, fetch]
    split <;> rfl
  | toggle | setV | poke | peek =>
    simp only [perform]
    split <;> rfl
  | press | release | releaseAll | markClean | setIndex | setPc | setHalted | setDelay => rfl

section Quiet

/-- No cycle among them executes an opcode that writes a timer. -/
def Untimed (cycles : List Machine) : Prop :=
  ∀ c ∈ cycles, ¬ EndsIn c.opcode 0x15 ∧ ¬ EndsIn c.opcode 0x18

theorem timing_step (m : Machine) {op : Operation} (single : op.Single)
    (quiet : Untimed (m.starts? op).toList) :
    ((m.perform op).machine.timers, edges (m.perform op).events) = m.timers.run op.timing?.toList := by
  by_cases cycle : op = .cycle
  · have same : (m.perform op).machine.timers = m.timers := by
      rw [cycle]
      refine timers_cycle fun succeeds => quiet m ?_
      rw [cycle, starts?_of_ok succeeds]
      exact List.mem_singleton_self m
    have silent : edges (m.perform op).events = [] := by
      rw [edges_perform m single, same, between_self]
    rw [same, silent, cycle]
    rfl
  · exact m.timing_perform single cycle

theorem timing_steps {ops : List Operation} (single : ∀ op ∈ ops, op.Single) (m : Machine)
    (quiet : Untimed (m.stepHistory ops)) :
    ((m.after ops).timers, edges (m.diary ops)) = m.timers.run (ops.filterMap Operation.timing?) := by
  induction ops generalizing m with
  | nil => rfl
  | cons op rest ih =>
    obtain ⟨first, others⟩ := List.forall_mem_cons.mp single
    obtain ⟨now, later⟩ := List.forall_mem_append.mp quiet
    have step := m.timing_step first now
    have run := ih others (m.perform op).machine later
    have split : (op :: rest).filterMap Operation.timing? =
        op.timing?.toList ++ rest.filterMap Operation.timing? := by
      rw [List.filterMap_cons]
      cases op.timing? <;> rfl
    rw [split, Timers.run_append, ← step, ← run, after_cons, diary_cons, edges_append]

theorem timing_after (m : Machine) {ops : List Operation} (quiet : Untimed (m.history ops)) :
    ((m.after ops).timers, edges (m.diary ops)) =
      m.timers.run ((m.unroll ops).filterMap Operation.timing?) := by
  rw [← after_unroll, ← diary_unroll]
  exact timing_steps (fun op mem => (mem_unroll mem).1) m quiet

end Quiet

theorem timing_frameSteps (n : Nat) (m : Machine) :
    (frameSteps n m).filterMap Operation.timing? =
      List.replicate ((times cycle n m).andThen tick).answer.isOk.toNat .tick := by
  -- a cycle that fails ends the frame, so that its tick is missing
  induction n generalizing m with
  | zero => rfl
  | succ n ih =>
    cases answer : m.cycle.answer with
    | error e =>
      rw [times, Outcome.andThen_of_error _ answer, Outcome.andThen_of_error _ rfl]
      simp only [frameSteps, answer]
      rfl
    | ok =>
      simp only [frameSteps, answer, List.filterMap_cons, Operation.timing?, ih, times, Outcome.andThen]
      cases (times cycle n m.cycle.machine).answer <;> rfl

theorem timing_unroll {ops : List Operation} (unset : ∀ op ∈ ops, op.timing? = none ∨ op = .tick)
    (m : Machine) :
    (m.unroll ops).filterMap Operation.timing? = List.replicate (m.framesTicked ops) .tick := by
  induction ops generalizing m with
  | nil => rfl
  | cons op rest ih =>
    obtain ⟨first, others⟩ := List.forall_mem_cons.mp unset
    have now : (m.steps op).filterMap Operation.timing? = List.replicate (m.ticksTimers op).toNat .tick := by
      cases op with
      | frame count => exact timing_frameSteps count.toNat m
      | reset | setDelay | setSound => simp [Operation.timing?] at first
      | _ => rfl
    rw [unroll, List.filterMap_append, now, ih others, List.replicate_append_replicate, framesTicked]

theorem stepHistory_of_noCycle {ops : List Operation} (noCycle : .cycle ∉ ops) (m : Machine) :
    m.stepHistory ops = [] := by
  induction ops generalizing m with
  | nil => rfl
  | cons op rest ih =>
    obtain ⟨first, others⟩ := not_or.mp (mt List.mem_cons.mpr noCycle)
    rw [stepHistory, starts?_of_ne (Ne.symm first), ih others]
    rfl

theorem timing_of_noCycle {ops : List Operation} (single : ∀ op ∈ ops, op.Single) (noCycle : .cycle ∉ ops)
    (m : Machine) :
    ((m.after ops).timers, edges (m.diary ops)) = m.timers.run (ops.filterMap Operation.timing?) := by
  refine timing_steps single m ?_
  rw [stepHistory_of_noCycle noCycle]
  exact List.forall_mem_nil _

theorem timing_of_filter {writes : Operation → Bool} {kind : Timers.Action → Bool}
    (same : ∀ op, writes op = op.timing?.any kind) {ops : List Operation} (single : ∀ op ∈ ops, op.Single)
    (noCycle : .cycle ∉ ops) (m : Machine) :
    ((m.after (ops.filter fun op => !writes op)).timers, edges (m.diary (ops.filter fun op => !writes op))) =
      m.timers.run ((ops.filterMap Operation.timing?).filter fun a => !kind a) := by
  rw [← Operation.timing_filter same]
  exact timing_of_noCycle (fun op mem => single op (List.mem_filter.mp mem).1)
    (fun mem => noCycle (List.mem_filter.mp mem).1) m

/-- Ticks count both timers down to zero, and the tone stops in the tick whose number the sound timer had, if there
is one. What is written to one timer makes no difference to the other, nor does a write to the delay timer make one
to the edges; this holds of the timers by themselves and of those of a machine, whose integers are cut to bytes. On a
machine that is not reset, whose timers are not written from outside and that executes neither FX15 nor FX18, the
timers are those after as many ticks as frames complete, ticks of their own included. -/
theorem timers_count_down :
    (∀ (t : Timers) (n : Nat),
      (t.ticks n).1.delay.toNat = t.delay.toNat - n ∧ (t.ticks n).1.sound.toNat = t.sound.toNat - n ∧
      (t.ticks n).2 = (if 1 ≤ t.sound.toNat ∧ t.sound.toNat ≤ n then [.stop] else []) ∧
      (t.ticks n).1.tick.2 = if t.sound.toNat = n + 1 then some .stop else none) ∧
    (∀ (t : Timers) (actions : List Timers.Action),
      (t.run (actions.filter fun a => !a.writesSound)).1.delay = (t.run actions).1.delay ∧
      (t.run (actions.filter fun a => !a.writesDelay)).1.sound = (t.run actions).1.sound ∧
      (t.run (actions.filter fun a => !a.writesDelay)).2 = (t.run actions).2) ∧
    (∀ (m : Machine) (v : Int),
      ((m.perform (.setDelay v)).machine.timers.delay.toNat : Int) = v % 256 ∧
      ((m.perform (.setSound v)).machine.timers.sound.toNat : Int) = v % 256) ∧
    (∀ (m : Machine) (ops : List Operation), (∀ op ∈ ops, op.Single) → .cycle ∉ ops →
      (m.after (ops.filter fun op => !op.writesSound)).timers.delay = (m.after ops).timers.delay ∧
      (m.after (ops.filter fun op => !op.writesDelay)).timers.sound = (m.after ops).timers.sound ∧
      edges (m.diary (ops.filter fun op => !op.writesDelay)) = edges (m.diary ops)) ∧
    ∀ (m : Machine) (ops : List Operation),
      (∀ op ∈ ops, op ≠ .reset ∧ (∀ v, op ≠ .setDelay v) ∧ ∀ v, op ≠ .setSound v) →
      (∀ c ∈ m.history ops, ¬ EndsIn c.opcode 0x15 ∧ ¬ EndsIn c.opcode 0x18) →
      (m.after ops).timers = (m.timers.ticks (m.framesTicked ops)).1 ∧
        edges (m.diary ops) = (m.timers.ticks (m.framesTicked ops)).2 := by
  refine ⟨fun t n => ⟨t.delay_ticks n, t.sound_ticks n, t.edges_ticks n, t.edge_of_tick n⟩,
    fun t actions => ⟨Timers.delay_run_filter rfl actions, Timers.sound_run_filter rfl actions⟩,
    fun m v => ?cut, fun m ops single noCycle => ?apart, fun m ops unset quiet => ?frames⟩
  case cut =>
    have cut : ((lowByte v).toNat : Int) = v % 256 := by
      rw [toNat_lowByte]
      omega
    exact ⟨cut, cut⟩
  case apart =>
    have all := timing_of_noCycle single noCycle m
    have noSound := timing_of_filter Operation.writesSound_eq single noCycle m
    have noDelay := timing_of_filter Operation.writesDelay_eq single noCycle m
    have delay := Timers.delay_run_filter (t := m.timers) rfl (ops.filterMap Operation.timing?)
    have sound := Timers.sound_run_filter (t := m.timers) rfl (ops.filterMap Operation.timing?)
    rw [← noSound, ← all] at delay
    rw [← noDelay, ← all] at sound
    exact ⟨delay, sound⟩
  case frames =>
    have ticking := timing_after m quiet
    rw [timing_unroll fun op mem => Operation.timing_of_unset (unset op mem)] at ticking
    exact Prod.mk.inj ticking

section Idle

structure Idle (m : Machine) : Prop where
  running : m.halted = false
  pc : m.registers.pc = 0x200
  opcode : m.opcode = 0x1200

variable {m : Machine}

theorem Idle.cycle (idle : m.Idle) : ∃ s events, m.cycle = .done s events ∧ s.Idle := by
  have inside : InProgram m.registers.pc := by
    rw [idle.pc]
    decide
  refine ⟨_, _, cycle_of_opcode idle.running inside idle.opcode rfl, idle.running, rfl, ?_⟩
  have opcode := idle.opcode
  rw [Machine.opcode, idle.pc] at opcode
  exact opcode

theorem Idle.frame (idle : m.Idle) (n : Nat) :
    (times Machine.cycle n m).answer = .ok () ∧ (times Machine.cycle n m).machine.Idle ∧
      ∀ c ∈ m.stepHistory (frameSteps n m), c.opcode = 0x1200 := by
  induction n generalizing m with
  | zero => exact ⟨rfl, idle, List.forall_mem_nil _⟩
  | succ n ih =>
    obtain ⟨s, events, cycle, next⟩ := idle.cycle
    obtain ⟨answer, machine, history⟩ := ih next
    have succeeds : m.cycle.answer = .ok () := by rw [cycle, Outcome.answer_done]
    rw [times, Outcome.andThen_of_ok _ succeeds, frameSteps_cycle cycle, stepHistory, starts?_of_ok succeeds,
      perform_cycle_machine, cycle, Outcome.machine_done]
    refine ⟨answer, machine, fun c mem => ?_⟩
    rcases List.mem_cons.mp mem with rfl | later
    · exact idle.opcode
    · exact history c later

theorem Idle.frames (idle : m.Idle) (counts : List Int) :
    m.framesTicked (counts.map .frame) = counts.length ∧
      ∀ c ∈ m.history (counts.map .frame), c.opcode = 0x1200 := by
  induction counts generalizing m with
  | nil => exact ⟨rfl, List.forall_mem_nil _⟩
  | cons count rest ih =>
    obtain ⟨answer, machine, history⟩ := idle.frame count.toNat
    have frame : m.frame count = _ := Outcome.andThen_of_ok _ answer
    have ticks : m.ticksTimers (.frame count) = true := by
      rw [ticksTimers, frame]
      rfl
    have next : (m.perform (.frame count)).machine.Idle := by
      rw [perform_frame_machine, frame]
      exact ⟨machine.running, machine.pc, machine.opcode⟩
    obtain ⟨ticked, later⟩ := ih next
    rw [List.map_cons, framesTicked, ticks, ticked, history_step, List.length_cons, Nat.add_comm]
    exact ⟨rfl, List.forall_mem_append.mpr ⟨history, later⟩⟩

end Idle

theorem timers_count_down_idle :
    let m : Machine := { loaded [0x12, 0x00] with timers := ⟨4, 2⟩ }
    let ops : List Operation := [2, 0, -3].map .frame
    (∀ op ∈ ops, op ≠ .reset ∧ (∀ v, op ≠ .setDelay v) ∧ ∀ v, op ≠ .setSound v) ∧
      (∀ c ∈ m.history ops, ¬ EndsIn c.opcode 0x15 ∧ ¬ EndsIn c.opcode 0x18) ∧
      (m.after ops).timers = ⟨1, 0⟩ ∧ edges (m.diary ops) = [.stop] := by
  intro m ops
  have opcode : m.opcode = 0x1200 :=
    (wordAt_of_memory rfl 0x200).trans (wordAt_loaded [0x12, 0x00] (by decide) 0 (by decide))
  have idle : m.Idle := ⟨rfl, rfl, opcode⟩
  obtain ⟨ticked, history⟩ := idle.frames [2, 0, -3]
  have unset : ∀ op ∈ ops, op ≠ .reset ∧ (∀ v, op ≠ .setDelay v) ∧ ∀ v, op ≠ .setSound v := by
    simp [ops]
  have quiet : ∀ c ∈ m.history ops, ¬ EndsIn c.opcode 0x15 ∧ ¬ EndsIn c.opcode 0x18 := by
    intro c mem
    rw [history c mem]
    exact ⟨fun h => absurd h.1 (by decide), fun h => absurd h.1 (by decide)⟩
  obtain ⟨-, -, -, -, counted⟩ := timers_count_down
  obtain ⟨timers, fired⟩ := counted m ops unset quiet
  have count : (⟨4, 2⟩ : Timers).ticks 3 = (⟨1, 0⟩, [.stop]) := by decide
  rw [ticked] at timers fired
  exact ⟨unset, quiet, timers.trans (congrArg Prod.fst count), fired.trans (congrArg Prod.snd count)⟩

end Machine

end ChipEight

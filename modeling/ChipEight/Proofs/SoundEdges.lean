import ChipEight.Proofs.EventLog
import ChipEight.Proofs.Execution
import ChipEight.Proofs.Runs

/-!
The edges of the tone over whole runs. A single step has the edge between the tone before it and the tone
after it, if they differ, and no other; so edges alternate, and which of the two there is after them can be
read off the sound timer.
-/

namespace ChipEight

namespace SoundEdge

/-- The edge between two moments, of which each has silence or sound. -/
def between : Bool → Bool → Option SoundEdge
  | false, true => some .start
  | true, false => some .stop
  | _, _ => none

theorem between_self (on : Bool) : (between on on).toList = [] := by
  cases on <;> rfl

/-- Edges that can follow one another, from silence or sound at first to what there is at last. -/
inductive Lead : Bool → List SoundEdge → Bool → Prop
  | nil (on : Bool) : Lead on [] on
  | start {rest : List SoundEdge} {last : Bool} (h : Lead true rest last) :
    Lead false (.start :: rest) last
  | stop {rest : List SoundEdge} {last : Bool} (h : Lead false rest last) :
    Lead true (.stop :: rest) last

theorem lead_between (on on' : Bool) : Lead on (between on on').toList on' := by
  cases on <;> cases on'
  · exact .nil false
  · exact .start (.nil true)
  · exact .stop (.nil false)
  · exact .nil true

theorem Lead.append {first middle last : Bool} {xs ys : List SoundEdge} (h : Lead first xs middle)
    (h' : Lead middle ys last) : Lead first (xs ++ ys) last := by
  induction h with
  | nil => exact h'
  | start _ ih => exact .start (ih h')
  | stop _ ih => exact .stop (ih h')

theorem Lead.count {first last : Bool} {es : List SoundEdge} (h : Lead first es last) :
    es.count .start + first.toNat = es.count .stop + last.toNat := by
  induction h with
  | nil => simp
  | start _ ih =>
    simp only [Bool.toNat_true] at ih
    simp [← ih]
  | stop _ ih =>
    simp only [Bool.toNat_false] at ih
    simp
    omega

theorem Lead.getElem {first last : Bool} {es : List SoundEdge} (h : Lead first es last) (k : Nat)
    (inside : k < es.length) :
    es[k] = if (k + first.toNat) % 2 = 0 then .start else .stop := by
  induction h generalizing k with
  | nil => simp at inside
  | start _ ih =>
    cases k with
    | zero => rfl
    | succ k =>
      have next := ih k (by simpa using inside)
      simpa using next
  | stop _ ih =>
    cases k with
    | zero => rfl
    | succ k =>
      have next := ih k (by simpa using inside)
      have parity : (k + 1 + 1) % 2 = k % 2 := by omega
      simpa [parity] using next

end SoundEdge

open SoundEdge

theorem edges_append (xs ys : List Event) : edges (xs ++ ys) = edges xs ++ edges ys :=
  List.filterMap_append

theorem edges_sound (es : List SoundEdge) : edges (es.map .sound) = es := by
  induction es with
  | nil => rfl
  | cons e rest ih =>
    change e :: edges (rest.map .sound) = e :: rest
    rw [ih]

theorem logOf_timers (es : List Event) :
    (logOf .debug es).filter (·.channel = .timers) =
      (edges es).map fun edge => ⟨.debug, .timers, "sound " ++ edge.name⟩ := by
  rw [edges, List.map_filterMap]
  apply filter_logOf
  · intro l _
    exact Nat.zero_le _
  · intro e
    cases e <;> rfl

namespace Timers

theorem toNat_sounding (t : Timers) : t.sounding.toNat = if t.sound = 0 then 0 else 1 := by
  by_cases silent : t.sound = 0 <;> simp [sounding, silent]

theorem setSound_edge (t : Timers) (v : UInt8) :
    (t.setSound v).2 = between t.sounding (t.setSound v).1.sounding := by
  have before : t.sounding = !decide (t.sound = 0) := rfl
  have after : (t.setSound v).1.sounding = !decide (v = 0) := rfl
  rw [before, after]
  by_cases silent : t.sound = 0 <;> by_cases off : v = 0 <;> simp [setSound, between, silent, off]

theorem reset_edge (t : Timers) : t.reset.2 = between t.sounding t.reset.1.sounding :=
  (t.setDelay 0).setSound_edge 0

theorem countDown_eq_zero_iff (b : UInt8) : countDown b = 0 ↔ b = 0 ∨ b = 1 := by
  have one : (1 : UInt8).toNat = 1 := rfl
  have zero : (0 : UInt8).toNat = 0 := rfl
  rw [← UInt8.toNat_inj, ← UInt8.toNat_inj, ← UInt8.toNat_inj, toNat_countDown, one, zero]
  omega

theorem tick_edge (t : Timers) : t.tick.2 = between t.sounding t.tick.1.sounding := by
  have before : t.sounding = !decide (t.sound = 0) := rfl
  have after : t.tick.1.sounding = !decide (t.sound = 0 ∨ t.sound = 1) := by
    simp only [← countDown_eq_zero_iff]
    rfl
  rw [before, after]
  by_cases silent : t.sound = 0
  · simp [tick, between, silent]
  · by_cases last : t.sound = 1 <;> simp [tick, between, silent, last]

end Timers

namespace Machine

theorem edges_execute (i : Instruction) (m : Machine) :
    edges (execute i m).events =
      (between m.timers.sounding (execute i m).machine.timers.sounding).toList := by
  rw [execute_events, execute_timers]
  cases i.op
  case setSound => rw [edges_sound, Timers.setSound_edge]
  case unknown =>
    simp only [between_self]
    split <;> rfl
  all_goals exact (between_self _).symm

theorem edges_trace (a : Int) (i : Instruction) : edges (trace a i) = [] := by
  simp only [trace]
  split <;> rfl

theorem edges_cycle (m : Machine) :
    edges m.cycle.events =
      (between m.timers.sounding m.cycle.machine.timers.sounding).toList := by
  cases m.cycle_cases with
  | halted _ eq => rw [eq]; exact (between_self _).symm
  | outside _ _ eq => rw [eq]; exact (between_self _).symm
  | fault _ _ f _ eq => rw [eq]; exact (between_self _).symm
  | success _ _ _ eq =>
    rw [eq, Outcome.events_done, edges_append, edges_trace, List.append_nil]
    exact edges_execute m.instruction m.fetched

theorem edges_perform (m : Machine) {op : Operation} (single : op.Single) :
    edges (m.perform op).events =
      (between m.timers.sounding (m.perform op).machine.timers.sounding).toList := by
  cases op with
  | frame count => exact single.elim
  | cycle => exact edges_cycle m
  | tick => exact (edges_sound _).trans (congrArg Option.toList m.timers.tick_edge)
  | reset => exact (edges_sound _).trans (congrArg Option.toList m.timers.reset_edge)
  | setSound v =>
    exact (edges_sound _).trans (congrArg Option.toList (m.timers.setSound_edge (lowByte v)))
  | load rom offset =>
    rw [perform_load, loadRom]
    split <;> exact (between_self _).symm
  | fetch =>
    rw [perform_fetch, fetch]
    split <;> exact (between_self _).symm
  | toggle | setV | poke | peek =>
    simp only [Machine.perform]
    split <;> exact (between_self _).symm
  | press | release | releaseAll | markClean | setIndex | setPc | setHalted | setDelay =>
    exact (between_self _).symm

theorem lead_after {ops : List Operation} (steps : ∀ op ∈ ops, op.Single) (m : Machine) :
    Lead m.timers.sounding (edges (m.diary ops)) (m.after ops).timers.sounding := by
  -- the edges of each step lead from the tone before it to the tone after it, so they can be joined
  induction ops generalizing m with
  | nil => exact .nil _
  | cons op rest ih =>
    have now := edges_perform m (steps op List.mem_cons_self)
    have later := ih (fun op' mem => steps op' (List.mem_cons_of_mem op mem)) (m.perform op).machine
    rw [diary_cons, edges_append, after_cons, now]
    exact (lead_between _ _).append later

/-- The edges of any operations lead from the tone before them to the tone after them. -/
theorem lead_diary (m : Machine) (ops : List Operation) :
    Lead m.timers.sounding (edges (m.diary ops)) (m.after ops).timers.sounding := by
  have single : ∀ op ∈ m.unroll ops, op.Single := fun op mem => (mem_unroll mem).1
  have steps := lead_after single m
  rw [diary_unroll, after_unroll] at steps
  exact steps

/-- From silence on, the edges of every run alternate and begin with a start, and there is one start more
than stops just where the sound timer is not zero. A single step has one edge at the most, a frame has
those of its steps, and the lines that the timers write to the log are the edges. -/
theorem sound_edges_alternate (random : RandomBytes) (ops : List Operation) :
    let new := initial random
    let fired := edges (new.diary ops)
    (∀ (k : Nat) (inside : k < fired.length),
      fired[k] = if k % 2 = 0 then .start else .stop) ∧
    (fired.count .start : Int) - fired.count .stop =
      (if (new.after ops).timers.sound = 0 then 0 else 1) ∧
    (∀ (m : Machine) (op : Operation), op.Single → (edges (m.perform op).events).length ≤ 1) ∧
    (new.diary (new.unroll ops) = new.diary ops ∧ ∀ op ∈ new.unroll ops, op.Single) ∧
    (logOf .debug (new.diary ops)).filter (·.channel = .timers) =
      fired.map fun edge => ⟨.debug, .timers, "sound " ++ edge.name⟩ := by
  intro new fired
  have single : ∀ op ∈ new.unroll ops, op.Single := fun op mem => (mem_unroll mem).1
  have lead : Lead false fired (new.after ops).timers.sounding := new.lead_diary ops
  refine ⟨fun k inside => ?_, ?_, fun m op elementary => ?_, ⟨diary_unroll new ops, single⟩,
    logOf_timers _⟩
  · simpa using lead.getElem k inside
  · have counts := lead.count
    rw [Timers.toNat_sounding, Bool.toNat_false] at counts
    by_cases silent : (new.after ops).timers.sound = 0
    · rw [if_pos silent] at counts ⊢
      omega
    · rw [if_neg silent] at counts ⊢
      omega
  · rw [edges_perform m elementary]
    exact Option.length_toList_le

theorem sound_edges_alternate_restarted :
    let m := initial (.ofList [])
    let ops : List Operation := [.setSound 2, .tick, .setSound 1, .tick, .tick, .setSound 3]
    let fired := edges (m.diary ops)
    fired.length = 3 ∧ fired[0]? = some .start ∧ fired[1]? = some .stop ∧
      (fired.count .start : Int) - fired.count .stop = 1 ∧
      (logOf .debug (m.diary ops)).filter (·.channel = .timers) =
        fired.map fun edge => ⟨.debug, .timers, "sound " ++ edge.name⟩ := by
  intro m ops fired
  have length : fired.length = 3 := by decide
  obtain ⟨alternate, counts, -, -, lines⟩ := sound_edges_alternate (.ofList []) ops
  have sounding : (m.after ops).timers.sound ≠ 0 := by decide
  refine ⟨length, ?_, ?_, counts.trans (if_neg sounding), lines⟩
  · rw [List.getElem?_eq_getElem (show 0 < fired.length by rw [length]; decide)]
    exact congrArg some (alternate 0 _)
  · rw [List.getElem?_eq_getElem (show 1 < fired.length by rw [length]; decide)]
    exact congrArg some (alternate 1 _)

end Machine

end ChipEight

import ChipEight.Proofs.Execution
import ChipEight.Proofs.Runs

/-!
The display is dirty whenever it may have changed. Only a reset and the mark itself make it clean, so that
between two marks a clean display is the one that was marked. A display that is drawn on and then restored
is dirty all the same.
-/

namespace ChipEight

def Display.DirtyUnless (d₀ d : Display) : Prop :=
  d.dirty = true ∨ d = d₀

namespace Machine

theorem dirtyUnless_execute (i : Instruction) (m : Machine) :
    m.display.DirtyUnless (execute i m).machine.display := by
  rw [execute_display]
  cases i.op with
  | clearScreen => exact .inl rfl
  | draw =>
    simp only
    split
    · exact .inr rfl
    · exact .inl rfl
  | _ => exact .inr rfl

theorem dirty_execute {i : Instruction} {m : Machine} (succeeds : (execute i m).answer = .ok ())
    (draws : i.op = .clearScreen ∨ i.op = .draw) : (execute i m).machine.display.dirty = true := by
  rw [execute_display]
  rcases draws with op | op
  · simp [op, Display.clear]
  · cases lines : m.sprite i.n with
    | error f => simp [execute, op, lines, Outcome.fail] at succeeds
    | ok lines => simp [op, Display.markDirty]

theorem dirtyUnless_cycle (m : Machine) : m.display.DirtyUnless m.cycle.machine.display := by
  cases m.cycle_cases with
  | halted _ eq => rw [eq]; exact .inr rfl
  | outside _ _ eq => rw [eq]; exact .inr rfl
  | fault _ _ _ _ eq => rw [eq]; exact .inr rfl
  | success _ _ _ eq => rw [eq]; exact dirtyUnless_execute m.instruction m.fetched

theorem dirtyUnless_perform (m : Machine) {op : Operation} (single : op.Single)
    (kept : op ≠ .reset) (unmarked : op ≠ .markClean) :
    m.display.DirtyUnless (m.perform op).machine.display := by
  cases op with
  | frame count => exact single.elim
  | reset => exact absurd rfl kept
  | markClean => exact absurd rfl unmarked
  | cycle => exact dirtyUnless_cycle m
  | toggle x y =>
    simp only [perform, Display.toggle?]
    cases m.display.accessError? x y with
    | some e => exact .inr rfl
    | none => exact .inl rfl
  | load rom offset =>
    rw [perform_load_machine, loadRom]
    split <;> exact .inr rfl
  | fetch =>
    change m.display.DirtyUnless m.fetch.machine.display
    rw [fetch]
    split <;> exact .inr rfl
  | setV x v | poke a v | peek a length =>
    simp only [perform]
    split <;> exact .inr rfl
  | tick | press | release | releaseAll | setIndex | setPc | setHalted | setDelay | setSound =>
    exact .inr rfl

theorem dirtyUnless_after {ops : List Operation} (kept : .reset ∉ ops) (unmarked : .markClean ∉ ops)
    (m : Machine) : m.display.DirtyUnless (m.after ops).display := by
  have step (s : Machine) (op : Operation) (single : op.Single)
      (origin : op ∈ ops ∨ op = .cycle ∨ op = .tick) (so_far : m.display.DirtyUnless s.display) :
      m.display.DirtyUnless (s.perform op).machine.display := by
    have op_kept : op ≠ .reset := by rintro rfl; simp [kept] at origin
    have op_unmarked : op ≠ .markClean := by rintro rfl; simp [unmarked] at origin
    rcases dirtyUnless_perform s single op_kept op_unmarked with dirty | same
    · exact .inl dirty
    · exact same ▸ so_far
  exact unroll_invariant step (.inr rfl)

theorem display_since_mark {later : List Operation} (kept : .reset ∉ later)
    (unmarked : .markClean ∉ later) (m : Machine) (earlier : List Operation)
    (clean : (m.after (earlier ++ .markClean :: later)).display.dirty = false) :
    (m.after (earlier ++ .markClean :: later)).display = (m.after earlier).display.markClean := by
  rw [after_append, after_cons] at clean ⊢
  rcases dirtyUnless_after kept unmarked ((m.after earlier).perform .markClean).machine with
    dirty | same
  · rw [clean] at dirty
    cases dirty
  · exact same

end Machine

end ChipEight

import ChipEight.Proofs.CycleFaults

/-!
How the machine stops. A fault is recorded together with the flag that says so, and from then on only a
reset, or the flag set from outside, lets the machine run again; every cycle in between is refused and does
nothing. A frame is its cycles up to the first that fails, and a tick if none does.
-/

namespace ChipEight.Machine

/-- What the machine records of its own running: whether it has stopped, why, and after how many cycles. -/
def record (m : Machine) : Bool × Option Fault × Nat :=
  (m.halted, m.fault, m.cycles)

theorem record_perform (m : Machine) {op : Operation} (single : op.Single) (other : op ≠ .cycle)
    (kept : op ≠ .reset) (unset : ∀ b, op ≠ .setHalted b) : (m.perform op).machine.record = m.record := by
  cases op with
  | frame count => exact single.elim
  | cycle => exact absurd rfl other
  | reset => exact absurd rfl kept
  | setHalted b => exact absurd rfl (unset b)
  | load rom offset =>
    rw [perform_load_machine, loadRom]
    split <;> rfl
  | fetch =>
    change m.fetch.machine.record = m.record
    rw [fetch]
    split <;> rfl
  | toggle | setV | poke | peek =>
    simp only [perform]
    split <;> rfl
  | tick | press | release | releaseAll | markClean | setIndex | setPc | setDelay | setSound => rfl

section Stopped

variable {m : Machine} {f : Fault} {n : Nat}

theorem record_cycle_of_fault (fails : m.cycle.answer = .error (.fault f)) :
    m.cycle.machine.record = (true, some f, m.cycles) := by
  rw [machine_of_cycle_error fails]
  rfl

theorem cycle_of_record (stopped : m.record = (true, some f, n)) :
    m.cycle = .fail m (.halted (some f)) := by
  have fault : m.fault = some f := congrArg (·.2.1) stopped
  rw [cycle_of_halted (congrArg Prod.fst stopped), fault]

theorem record_perform_of_stopped (stopped : m.record = (true, some f, n)) {op : Operation}
    (single : op.Single) (kept : op ≠ .reset) (unset : op ≠ .setHalted false) :
    (m.perform op).machine.record = (true, some f, n) := by
  -- a cycle is refused, and the flag can only be set once more; other steps do not touch the record
  by_cases cycle : op = .cycle
  · rw [cycle, perform_cycle_machine, cycle_of_record stopped]
    exact stopped
  · by_cases set : ∃ b, op = .setHalted b
    · obtain ⟨b, rfl⟩ := set
      have stays : b = true := by simpa using unset
      rw [stays]
      exact congrArg (fun r => (true, r.2)) stopped
    · exact (m.record_perform single cycle kept (by simpa using set)).trans stopped

theorem record_after_of_stopped (stopped : m.record = (true, some f, n)) {later : List Operation}
    (kept : .reset ∉ later) (unset : .setHalted false ∉ later) :
    (m.after later).record = (true, some f, n) := by
  refine unroll_invariant (P := fun s => s.record = (true, some f, n)) ?_ stopped
  intro s op single origin stopped
  have op_kept : op ≠ .reset := by rintro rfl; simp [kept] at origin
  have op_unset : op ≠ .setHalted false := by rintro rfl; simp [unset] at origin
  exact record_perform_of_stopped stopped single op_kept op_unset

end Stopped

theorem halted_eq_isSome_cycle {m : Machine} (h : m.halted = m.fault.isSome) :
    m.cycle.machine.halted = m.cycle.machine.fault.isSome := by
  cases m.cycle_cases with
  | halted _ eq => rw [eq]; exact h
  | outside _ _ eq => rw [eq]; rfl
  | fault _ _ _ _ eq => rw [eq]; rfl
  | success _ _ _ eq =>
    have same := execute_aside m.instruction m.fetched
    have halted : m.executed.machine.halted = m.halted := congrArg (·.2.2.1) same
    have fault : m.executed.machine.fault = m.fault := congrArg (·.2.2.2.1) same
    rw [eq, Outcome.machine_done, halted, fault, h]

theorem halted_eq_isSome_after (random : RandomBytes) {ops : List Operation}
    (unset : ∀ b, .setHalted b ∉ ops) :
    ((initial random).after ops).halted = ((initial random).after ops).fault.isSome := by
  refine unroll_invariant (P := fun s => s.halted = s.fault.isSome) ?_ rfl
  intro s op single origin h
  have op_unset (b : Bool) : op ≠ .setHalted b := by rintro rfl; simp [unset b] at origin
  by_cases cycle : op = .cycle
  · rw [cycle, perform_cycle_machine]
    exact halted_eq_isSome_cycle h
  · by_cases reset : op = .reset
    · rw [reset]
      rfl
    · have same := s.record_perform single cycle reset op_unset
      have halted : (s.perform op).machine.halted = s.halted := congrArg (·.1) same
      have fault : (s.perform op).machine.fault = s.fault := congrArg (·.2.1) same
      rw [halted, fault, h]

def afterCycles (k : Nat) (m : Machine) : Machine :=
  m.after (List.replicate k .cycle)

@[simp] theorem afterCycles_zero (m : Machine) : m.afterCycles 0 = m := rfl

theorem afterCycles_succ_last (k : Nat) (m : Machine) :
    m.afterCycles (k + 1) = (m.afterCycles k).cycle.machine := by
  rw [afterCycles, List.replicate_succ', after_append, after_cons, after_nil, perform_cycle_machine]
  rfl

theorem diary_cycles_succ (k : Nat) (m : Machine) :
    m.diary (List.replicate (k + 1) .cycle) =
      m.cycle.events ++ m.cycle.machine.diary (List.replicate k .cycle) := rfl

theorem times_cycle_of_ok {n : Nat} {m : Machine}
    (succeed : ∀ k < n, (m.afterCycles k).cycle.answer = .ok ()) :
    times cycle n m = .done (m.afterCycles n) (m.diary (List.replicate n .cycle)) := by
  -- a frame goes on only behind a cycle that succeeds
  induction n generalizing m with
  | zero => rfl
  | succ n ih =>
    have first : m.cycle.answer = .ok () := succeed 0 (Nat.succ_pos n)
    have rest := ih (m := m.cycle.machine) fun k hk => succeed (k + 1) (Nat.succ_lt_succ hk)
    rw [times, Outcome.andThen_of_ok _ first, rest]
    rfl

theorem times_cycle_of_error {n k : Nat} {m : Machine} {e : Failure} (hk : k < n)
    (succeed : ∀ j < k, (m.afterCycles j).cycle.answer = .ok ())
    (fails : (m.afterCycles k).cycle.answer = .error e) :
    times cycle n m =
      ⟨m.afterCycles (k + 1), m.diary (List.replicate (k + 1) .cycle), .error e⟩ := by
  induction n generalizing m k with
  | zero => exact absurd hk (Nat.not_lt_zero k)
  | succ n ih =>
    -- the first cycle fails, or it succeeds and one of the others fails
    cases k with
    | zero =>
      rw [afterCycles_zero] at fails
      rw [times, Outcome.andThen_of_error _ fails, diary_cycles_succ, List.replicate_zero, diary_nil,
        List.append_nil]
      rfl
    | succ k =>
      have first : m.cycle.answer = .ok () := succeed 0 (Nat.succ_pos k)
      have rest := ih (m := m.cycle.machine) (Nat.lt_of_succ_lt_succ hk)
        (fun j hj => succeed (j + 1) (Nat.succ_lt_succ hj)) fails
      rw [times, Outcome.andThen_of_ok _ first, rest]
      rfl

theorem cycles_cycle_of_ok {m : Machine} (succeeds : m.cycle.answer = .ok ()) :
    m.cycle.machine.cycles = m.cycles + 1 := by
  rw [(machine_of_cycle_ok succeeds).2]
  exact congrArg (·.2.2.2.2 + 1) (execute_aside m.instruction m.fetched)

theorem cycles_cycle_of_error {m : Machine} {e : Failure} (fails : m.cycle.answer = .error e) :
    m.cycle.machine.cycles = m.cycles := by
  cases m.cycle_cases with
  | halted _ eq => rw [eq]; rfl
  | outside _ _ eq => rw [eq]; rfl
  | fault _ _ _ _ eq => rw [eq]; rfl
  | success _ _ _ eq => simp [eq] at fails

theorem cycles_afterCycles {k : Nat} {m : Machine}
    (succeed : ∀ j < k, (m.afterCycles j).cycle.answer = .ok ()) :
    (m.afterCycles k).cycles = m.cycles + k := by
  induction k with
  | zero => rfl
  | succ k ih =>
    have earlier := ih fun j hj => succeed j (Nat.lt_succ_of_lt hj)
    rw [afterCycles_succ_last, cycles_cycle_of_ok (succeed k (Nat.lt_succ_self k)), earlier,
      Nat.add_assoc]

theorem frame_of_ok {n : Int} {m : Machine}
    (succeed : ∀ k < n.toNat, (m.afterCycles k).cycle.answer = .ok ()) :
    m.frame n =
      .done ((m.afterCycles n.toNat).perform .tick).machine
        (m.diary (List.replicate n.toNat .cycle ++ [.tick])) := by
  have cycles := times_cycle_of_ok succeed
  rw [frame, cycles, Outcome.andThen_of_ok _ (Outcome.answer_done _ _), diary_append, diary_cons,
    diary_nil, List.append_nil]
  rfl

theorem frame_of_error {n : Int} {k : Nat} {m : Machine} {e : Failure} (hk : k < n.toNat)
    (succeed : ∀ j < k, (m.afterCycles j).cycle.answer = .ok ())
    (fails : (m.afterCycles k).cycle.answer = .error e) :
    m.frame n = ⟨m.afterCycles (k + 1), m.diary (List.replicate (k + 1) .cycle), .error e⟩ := by
  rw [frame, times_cycle_of_error hk succeed fails, Outcome.andThen_of_error _ rfl]

theorem frame_of_nonpos {n : Int} (none : n ≤ 0) (m : Machine) : m.frame n = m.tick := by
  have empty : n.toNat = 0 := by omega
  rw [frame, empty]
  rfl

theorem frame_of_halted {n : Int} (some : 1 ≤ n) {m : Machine} (halted : m.halted = true) :
    m.frame n = .fail m (.halted m.fault) := by
  have refused := cycle_of_halted halted
  have first : (m.afterCycles 0).cycle.answer = .error (.halted m.fault) := by
    rw [afterCycles_zero, refused]
    rfl
  rw [frame_of_error (by omega) (fun j hj => absurd hj (Nat.not_lt_zero j)) first,
    afterCycles_succ_last, afterCycles_zero, diary_cycles_succ, refused]
  rfl

/-- The flag and the fault go together, and a fault stops the machine for good: unless it is reset or the
flag is taken away, every later cycle is refused with that fault, changes nothing and tells nothing. A frame
of cycles that succeed ends with one tick; a frame in which a cycle fails is the cycles up to that one. -/
theorem fault_stops_for_good :
    (∀ random ops, (∀ b, .setHalted b ∉ ops) →
      (((initial random).after ops).halted = true ↔ ((initial random).after ops).fault ≠ none)) ∧
    (∀ (m : Machine) (f : Fault), m.cycle.answer = .error (.fault f) →
      ∀ later, .reset ∉ later → .setHalted false ∉ later →
        let s := m.cycle.machine.after later
        s.cycle = ⟨s, [], .error (.halted (some f))⟩ ∧ s.fault = some f ∧ s.cycles = m.cycles) ∧
    (∀ (m : Machine) (n : Int), (∀ k < n.toNat, (m.afterCycles k).cycle.answer = .ok ()) →
      m.frame n =
        ⟨((m.afterCycles n.toNat).perform .tick).machine,
          m.diary (List.replicate n.toNat .cycle ++ [.tick]), .ok ()⟩) ∧
    (∀ (m : Machine) (n : Int) (k : Nat) (e : Failure), k < n.toNat →
      (∀ j < k, (m.afterCycles j).cycle.answer = .ok ()) →
      (m.afterCycles k).cycle.answer = .error e →
      m.frame n = ⟨m.afterCycles (k + 1), m.diary (List.replicate (k + 1) .cycle), .error e⟩ ∧
        (m.afterCycles (k + 1)).cycles = m.cycles + k) ∧
    ∀ (m : Machine) (n : Int), m.halted = true →
      (1 ≤ n → m.frame n = ⟨m, [], .error (.halted m.fault)⟩) ∧ (n ≤ 0 → m.frame n = m.tick) := by
  refine ⟨?_, ?_, ?_, ?_, ?_⟩
  · intro random ops unset
    rw [halted_eq_isSome_after random unset, Option.isSome_iff_ne_none]
  · intro m f fails later kept unset s
    have stopped : s.record = (true, some f, m.cycles) :=
      record_after_of_stopped (record_cycle_of_fault fails) kept unset
    exact ⟨cycle_of_record stopped, congrArg (·.2.1) stopped, congrArg (·.2.2) stopped⟩
  · intro m n succeed
    exact frame_of_ok succeed
  · intro m n k e hk succeed fails
    refine ⟨frame_of_error hk succeed fails, ?_⟩
    rw [afterCycles_succ_last, cycles_cycle_of_error fails, cycles_afterCycles succeed]
  · intro m n halted
    exact ⟨fun some => frame_of_halted some halted, fun none => frame_of_nonpos none m⟩

theorem fault_stops_for_good_underflow :
    let m := loaded [0x00, 0xEE]
    let s := m.cycle.machine.after [.load [0x12, 0x00] 0x200, .setPc 0x200, .press 3, .frame 2, .tick]
    m.cycle.answer = .error (.fault .stackUnderflow) ∧
      s.cycle = ⟨s, [], .error (.halted (some .stackUnderflow))⟩ ∧ s.fault = some .stackUnderflow ∧
      m.frame 3 = ⟨m.afterCycles 1, m.diary (List.replicate 1 .cycle), .error (.fault .stackUnderflow)⟩ := by
  intro m s
  have opcode : m.opcode = 0x00EE := wordAt_loaded [0x00, 0xEE] (by decide) 0 (by decide)
  have fails : m.cycle.answer = .error (.fault .stackUnderflow) := by
    rw [cycle_of_fault rfl (by decide) (f := .stackUnderflow)]
    rw [executed, instruction, opcode]
    rfl
  obtain ⟨-, stops, -, breaks, -⟩ := fault_stops_for_good
  obtain ⟨refused, fault, -⟩ := stops m .stackUnderflow fails
    [.load [0x12, 0x00] 0x200, .setPc 0x200, .press 3, .frame 2, .tick] (by decide) (by decide)
  obtain ⟨frame, -⟩ := breaks m 3 0 _ (by decide) (fun j hj => absurd hj (Nat.not_lt_zero j)) fails
  exact ⟨fails, refused, fault, frame⟩

end ChipEight.Machine

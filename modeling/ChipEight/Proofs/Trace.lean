import ChipEight.Proofs.Assembly
import ChipEight.Proofs.CycleHistory

/-!
The log of a run at the lowest level, which tells every executed instruction and why the machine stopped.
-/

namespace ChipEight.Machine

def traceLine (c : Machine) : LogLine :=
  LogLine.trace c.registers.pc (assembly c.opcode)

theorem traced_lines (past : List Machine) :
    (past.filterMap traced?).map (fun e => LogLine.trace e.1 e.2.listing) =
      (past.filter fun c => (decode c.opcode).op ≠ .unknown).map traceLine := by
  induction past with
  | nil => rfl
  | cons c rest ih =>
    by_cases unknown : (decode c.opcode).op = .unknown
    · simpa [traced?, instruction, unknown] using ih
    · simpa [traced?, instruction, unknown, traceLine, listing_decode c.opcode_lt] using ih

theorem logOf_history (m : Machine) (ops : List Operation) :
    LogLine.ofProcessor .debug (logOf .debug (m.diary ops)) =
      ((m.history ops).filter fun c => (decode c.opcode).op ≠ .unknown).map traceLine := by
  rw [logOf_trace, traced_history, traced_lines]

theorem events_of_cycle_fault {m : Machine} {f : Fault} (fails : m.cycle.answer = .error (.fault f)) :
    m.cycle.events = [.halted f] := by
  cases m.cycle_cases with
  | halted _ eq => simp [eq, Outcome.fail] at fails
  | outside _ _ eq =>
    rw [eq] at fails ⊢
    simpa using fails
  | fault _ _ _ _ eq =>
    rw [eq] at fails ⊢
    simpa using fails
  | success _ _ _ eq => simp [eq] at fails

theorem haltLevel_info_iff (f : Fault) : Event.haltLevel f = .info ↔ ∃ pc, f = .programCounter pc := by
  cases f <;> simp [Event.haltLevel]

theorem haltLevel_error_iff (f : Fault) :
    Event.haltLevel f = .error ↔ ∀ pc, f ≠ .programCounter pc := by
  cases f <;> simp [Event.haltLevel]

theorem length_history (past : List Machine) :
    past.length =
      (past.filter fun c => (decode c.opcode).op ≠ .unknown).length +
        (past.filterMap sight?).length := by
  induction past with
  | nil => rfl
  | cons c rest ih =>
    by_cases unknown : (decode c.opcode).op = .unknown
    · simp [sight?, instruction, unknown] at ih ⊢
      omega
    · simp [sight?, instruction, unknown] at ih ⊢
      omega

/-- The trace tells which instructions were executed: one line for each, with the address where its opcode
was and the assembly text of the opcode. A fault is told by one line of its own, and a halted machine tells
nothing. So the count of cycles is that of the lines of the trace and the counted unknown opcodes. -/
theorem trace_tells_history :
    (∀ (m : Machine) (ops : List Operation),
      LogLine.ofProcessor .debug (logOf .debug (m.diary ops)) =
        ((m.history ops).filter fun c => (decode c.opcode).op ≠ .unknown).map traceLine) ∧
    (∀ (m : Machine) (f : Fault), m.cycle.answer = .error (.fault f) →
      ∃ level : Level, logOf .debug m.cycle.events = [⟨level, .cpu, "machine halted: " ++ f.message⟩] ∧
        (level = .info ↔ ∃ pc, f = .programCounter pc) ∧
        (level = .error ↔ ∀ pc, f ≠ .programCounter pc)) ∧
    (∀ m : Machine, m.halted = true → logOf .debug m.cycle.events = []) ∧
    ∀ m : Machine, m.PoweredOn → ∀ ops : List Operation, .reset ∉ ops →
      (m.after ops).cycles =
        (LogLine.ofProcessor .debug (logOf .debug (m.diary ops))).length +
          (m.after ops).unknown.total := by
  refine ⟨logOf_history, ?_, ?_, ?_⟩
  · intro m f fails
    refine ⟨Event.haltLevel f, ?_, haltLevel_info_iff f, haltLevel_error_iff f⟩
    rw [logOf_debug, events_of_cycle_fault fails]
    rfl
  · intro m halted
    rw [cycle_of_halted halted]
    rfl
  · intro m start ops unbroken
    rw [cycles_eq_length start unbroken, (tallies_history start unbroken).total, logOf_history,
      List.length_map]
    exact length_history _

theorem trace_tells_history_set :
    let m := initial (.ofList [])
    let ops : List Operation := [.load [0x6A, 0x42] 0x200, .cycle]
    LogLine.ofProcessor .debug (logOf .debug (m.diary ops)) =
        [⟨.debug, .cpu, "mem_addr: 0x0200    instruction: LD VA, 66"⟩] ∧
      (m.after ops).cycles = 1 + (m.after ops).unknown.total := by
  intro m ops
  have opcode : (loaded [0x6A, 0x42]).opcode = 0x6A42 :=
    wordAt_loaded [0x6A, 0x42] (by decide) 0 (by decide)
  have cycle := cycle_of_opcode (m := loaded [0x6A, 0x42]) rfl (by decide) opcode rfl
  have succeeds : (loaded [0x6A, 0x42]).cycle.answer = .ok () := by rw [cycle, Outcome.answer_done]
  have load := after_load [0x6A, 0x42] (by decide) []
  rw [after_cons, after_nil, after_nil] at load
  have past : m.history ops = [loaded [0x6A, 0x42]] := by
    rw [history_cons _ (.load _ _) trivial, load, history_cons _ .cycle trivial,
      starts?_of_ok succeeds]
    rfl
  have line : (loaded [0x6A, 0x42]).traceLine =
      ⟨.debug, .cpu, "mem_addr: 0x0200    instruction: LD VA, 66"⟩ := by
    rw [traceLine, opcode]
    rfl
  have known : (decode (loaded [0x6A, 0x42]).opcode).op ≠ .unknown := by
    rw [opcode]
    decide
  obtain ⟨lines, -, -, cycles⟩ := trace_tells_history
  have told : LogLine.ofProcessor .debug (logOf .debug (m.diary ops)) =
      [⟨.debug, .cpu, "mem_addr: 0x0200    instruction: LD VA, 66"⟩] := by
    rw [lines, past, List.filter_cons, if_pos (decide_eq_true known), List.filter_nil, List.map_singleton,
      line]
  refine ⟨told, ?_⟩
  rw [cycles m (.new _) ops (by decide), told]
  rfl

end ChipEight.Machine

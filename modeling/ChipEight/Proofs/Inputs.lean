import ChipEight.Proofs.RandomSource

/-!
How keys and chance come in. A machine is looked at without its keys and its random source: two machines that
look the same go on looking the same, and answer and tell the same, whatever keys are pressed and whatever
bytes come, up to a cycle that asks for a key or draws a byte where these differ.
-/

namespace ChipEight

namespace Operation

def ofKeys : Operation → Bool
  | .press _ | .release _ | .releaseAll => true
  | _ => false

end Operation

def AsksKeys (w : Nat) : Prop :=
  w / 0x1000 = 0xE ∧ (w % 0x100 = 0x9E ∨ w % 0x100 = 0xA1) ∨ EndsIn w 0x0A

namespace Machine

/-- The machine without its keys and its random source. -/
def blind (m : Machine) : Machine :=
  { m with keypad := .released, latched := .released, random := .ofList [] }

theorem blind_eq_iff {m m' : Machine} : m.blind = m'.blind ↔ m.core = m'.core ∧ m.memory = m'.memory := by
  have split (c : Machine) : c.blind = { c.core with memory := c.memory } := rfl
  constructor
  · intro same
    exact ⟨congrArg (·.core) same, congrArg (·.memory) same⟩
  · rintro ⟨core, memory⟩
    rw [split, split, core, memory]

/-- The outcomes of the operations that are not about keys. -/
def responses (m : Machine) : List Operation → List (Outcome Failure Answer)
  | [] => []
  | op :: rest =>
    let o := m.perform op
    if op.ofKeys then o.machine.responses rest else o :: o.machine.responses rest

/-- What the cycle takes from the keys and from the random source is the same in both machines. -/
def SameInput (c c' : Machine) : Prop :=
  (AsksKeys c.opcode → c.keypad = c'.keypad) ∧
    (c.opcode / 0x1000 = 0xC → c.random.byte = c'.random.byte)

theorem execute_ok_of_input {i : Instruction}
    (op : i.op ∈ [.skipIfKey, .skipUnlessKey, .waitKey, .random]) (m : Machine) :
    (execute i m).answer = .ok () := by
  refine execute_ok_of_infallible (fun fails => ?_) m
  simp only [List.mem_cons, List.not_mem_nil, or_false] at op
  rcases op with op | op | op | op <;> simp [op, fallible] at fails

theorem asksKeys_of_op {m : Machine} (op : m.instruction.op ∈ [.skipIfKey, .skipUnlessKey, .waitKey]) :
    AsksKeys m.opcode := by
  simp only [List.mem_cons, List.not_mem_nil, or_false] at op
  rcases op with op | op | op
  · exact .inl ⟨(hasDigits_opcode op).1, .inl (hasDigits_opcode op).2⟩
  · exact .inl ⟨(hasDigits_opcode op).1, .inr (hasDigits_opcode op).2⟩
  · exact .inr (hasDigits_opcode op)

theorem cycle_blind {m m' : Machine} (same : m.blind = m'.blind)
    (input : m.cycle.answer = .ok () → m'.cycle.answer = .ok () → m.SameInput m') :
    m.cycle.viewed blind = m'.cycle.viewed blind := by
  obtain ⟨cores, memory⟩ := blind_eq_iff.mp same
  have opcode : m.opcode = m'.opcode := congrArg (·.opcode) same
  have instruction : m.instruction = m'.instruction := congrArg (·.instruction) same
  have registers : m.registers = m'.registers := congrArg (·.registers) same
  have halted : m.halted = m'.halted := congrArg (·.halted) same
  -- an instruction that takes an input in does not fail, so that its inputs are the same by assumption
  have taken (running : m.halted = false) (inside : InProgram m.registers.pc)
      (op : m.instruction.op ∈ [.skipIfKey, .skipUnlessKey, .waitKey, .random]) : m.SameInput m' := by
    apply input
    · rw [cycle_of_success running inside (execute_ok_of_input op _), Outcome.answer_done]
    · rw [cycle_of_success (halted ▸ running) (registers ▸ inside)
        (execute_ok_of_input (instruction ▸ op) _), Outcome.answer_done]
  obtain ⟨core, events, answer⟩ := Outcome.viewed_eq_iff.mp <|
    cycle_core cores fun running inside =>
      ⟨opcode, {
        size := congrArg Memory.size memory
        block := fun _ => by rw [fetched_memory, fetched_memory, memory]
        keys := fun op => (taken running inside (List.mem_append_left [Op.random] op)).1 (asksKeys_of_op op)
        byte := fun op => (taken running inside (by simp [op])).2 (hasDigits_opcode op) }⟩
  refine Outcome.viewed_eq_iff.mpr ⟨blind_eq_iff.mpr ⟨core, ?_⟩, events, answer⟩
  rw [cycle_memory, cycle_memory, answer, stored, stored, instruction, registers, memory]

theorem perform_blind_single {m m' : Machine} (same : m.blind = m'.blind) {op : Operation}
    (single : op.Single) (other : op ≠ .cycle) :
    (m.perform op).viewed blind = (m'.perform op).viewed blind := by
  have alone (c : Machine) : (c.blind.perform op).viewed blind = (c.perform op).viewed blind := by
    cases op with
    | frame count => exact single.elim
    | cycle => exact absurd rfl other
    | load rom offset =>
      rw [perform_load, perform_load]
      simp only [loadRom, blind]
      split <;> rfl
    | fetch =>
      rw [perform_fetch, perform_fetch, fetch, fetch]
      by_cases inside : InProgram c.registers.pc
      · have shown : InProgram c.blind.registers.pc := inside
        rw [if_pos inside, if_pos shown]
        rfl
      · have shown : ¬ InProgram c.blind.registers.pc := inside
        rw [if_neg inside, if_neg shown]
        rfl
    | toggle | setV | poke | peek =>
      simp only [perform, blind]
      split <;> rfl
    | tick | reset | press | release | releaseAll | markClean | setIndex | setPc | setHalted | setDelay
    | setSound => rfl
  rw [← alone m, same, alone]

theorem stepHistory_frameSteps_succ (n : Nat) (m : Machine) :
    m.stepHistory (frameSteps (n + 1) m) =
      match m.cycle.answer with
      | .ok () => m :: m.cycle.machine.stepHistory (frameSteps n m.cycle.machine)
      | .error _ => [] := by
  cases answer : m.cycle.answer with
  | error e =>
    rw [frameSteps, answer]
    simp only [stepHistory, starts?_of_error answer, Option.toList_none, List.append_nil]
  | ok =>
    rw [frameSteps, answer]
    simp only [stepHistory, starts?_of_ok answer, Option.toList_some, List.singleton_append]
    rfl

theorem times_cycle_blind (n : Nat) {m m' : Machine} (same : m.blind = m'.blind)
    (input : ∀ p ∈ (m.stepHistory (frameSteps n m)).zip (m'.stepHistory (frameSteps n m')),
      p.1.SameInput p.2) :
    (times cycle n m).viewed blind = (times cycle n m').viewed blind ∧
      (m.stepHistory (frameSteps n m)).length = (m'.stepHistory (frameSteps n m')).length := by
  -- both frames end at the same cycle, as long as the cycles before it answer the same
  induction n generalizing m m' with
  | zero => exact ⟨Outcome.viewed_eq_iff.mpr ⟨same, rfl, rfl⟩, rfl⟩
  | succ n ih =>
    rw [stepHistory_frameSteps_succ, stepHistory_frameSteps_succ] at input ⊢
    have outcome : m.cycle.viewed blind = m'.cycle.viewed blind := by
      apply cycle_blind same
      intro succeeds succeeds'
      rw [succeeds, succeeds'] at input
      exact input (m, m') List.mem_cons_self
    obtain ⟨machine, events, answer⟩ := Outcome.viewed_eq_iff.mp outcome
    rw [times, times]
    cases ends : m'.cycle.answer with
    | error e =>
      rw [ends] at answer
      rw [Outcome.andThen_of_error _ answer, Outcome.andThen_of_error _ ends, answer]
      exact ⟨Outcome.viewed_eq_iff.mpr ⟨machine, events, rfl⟩, rfl⟩
    | ok =>
      rw [ends] at answer
      rw [answer, ends] at input
      obtain ⟨later, length⟩ := ih machine fun p mem => input p (List.mem_cons_of_mem _ mem)
      obtain ⟨machine, events', answer'⟩ := Outcome.viewed_eq_iff.mp later
      rw [Outcome.andThen_of_ok _ answer, Outcome.andThen_of_ok _ ends, answer]
      refine ⟨Outcome.viewed_eq_iff.mpr ⟨machine, ?_, answer'⟩, congrArg (· + 1) length⟩
      rw [events, events']

theorem stepHistory_single (m : Machine) {op : Operation} (single : op.Single) :
    m.stepHistory (m.steps op) = (m.starts? op).toList := by
  rw [steps_of_single m single, stepHistory, stepHistory, List.append_nil]

theorem perform_blind {m m' : Machine} (same : m.blind = m'.blind) (op : Operation)
    (input : ∀ p ∈ (m.stepHistory (m.steps op)).zip (m'.stepHistory (m'.steps op)), p.1.SameInput p.2) :
    (m.perform op).viewed blind = (m'.perform op).viewed blind ∧
      (m.stepHistory (m.steps op)).length = (m'.stepHistory (m'.steps op)).length := by
  cases op with
  | frame count =>
    obtain ⟨cycles, length⟩ := times_cycle_blind count.toNat same input
    have framed : (m.frame count).viewed blind = (m'.frame count).viewed blind :=
      Outcome.viewed_andThen cycles fun c c' shown => by
        have ticked (s : Machine) : (tick s.blind : Outcome Failure Unit).viewed blind =
          (tick s).viewed blind := rfl
        rw [← ticked c, shown, ticked]
    refine ⟨?_, length⟩
    rw [perform_frame, perform_frame, Outcome.viewed_map, Outcome.viewed_map, framed]
  | cycle =>
    have single : Operation.cycle.Single := trivial
    rw [m.stepHistory_single single, m'.stepHistory_single single] at input ⊢
    have outcome : m.cycle.viewed blind = m'.cycle.viewed blind := by
      apply cycle_blind same
      intro succeeds succeeds'
      rw [starts?_of_ok succeeds, starts?_of_ok succeeds'] at input
      exact input (m, m') List.mem_cons_self
    obtain ⟨-, -, answer⟩ := Outcome.viewed_eq_iff.mp outcome
    refine ⟨by rw [perform_cycle, perform_cycle, Outcome.viewed_map, Outcome.viewed_map, outcome], ?_⟩
    cases ends : m'.cycle.answer with
    | error e => rw [starts?_of_error ends, starts?_of_error (answer.trans ends)]
    | ok => rw [starts?_of_ok ends, starts?_of_ok (answer.trans ends)]; rfl
  | _ =>
    exact ⟨perform_blind_single same trivial nofun, rfl⟩

section Keys

variable {m : Machine}

theorem perform_key {op : Operation} (key : op.ofKeys = true) :
    op.Single ∧ op ≠ .cycle ∧ (m.perform op).machine.blind = m.blind := by
  cases op with
  | press | release | releaseAll => exact ⟨trivial, nofun, rfl⟩
  | _ => cases key

theorem history_key {op : Operation} (key : op.ofKeys = true) (ops : List Operation) :
    m.history (op :: ops) = (m.perform op).machine.history ops := by
  obtain ⟨single, other, -⟩ := perform_key (m := m) key
  rw [history_cons m op single, starts?_of_ne other, Option.toList_none, List.nil_append]

theorem keys_append {keys : List Operation} (only : ∀ op ∈ keys, op.ofKeys = true)
    (rest : List Operation) :
    (m.after keys).blind = m.blind ∧ m.responses (keys ++ rest) = (m.after keys).responses rest ∧
      m.history (keys ++ rest) = (m.after keys).history rest := by
  induction keys generalizing m with
  | nil => exact ⟨rfl, rfl, rfl⟩
  | cons op later ih =>
    obtain ⟨key, only⟩ := List.forall_mem_cons.mp only
    obtain ⟨shown, responses, history⟩ := ih (m := (m.perform op).machine) only
    rw [List.cons_append, Machine.responses, if_pos key, history_key key, after_cons]
    exact ⟨shown.trans (perform_key key).2.2, responses, history⟩

end Keys

theorem mem_zip_append {α : Type} {xs xs' ys ys' : List α} {p : α × α} (mem : p ∈ xs.zip ys) :
    p ∈ (xs ++ xs').zip (ys ++ ys') := by
  induction xs generalizing ys with
  | nil => cases mem
  | cons x xs ih =>
    cases ys with
    | nil => cases mem
    | cons y ys =>
      rcases List.mem_cons.mp mem with rfl | later
      · exact List.mem_cons_self
      · exact List.mem_cons_of_mem _ (ih later)

/-- Runs with the same operations apart from keys respond the same as long as each cycle takes the same in. -/
theorem responses_blind {m m' : Machine} (same : m.blind = m'.blind) {ops ops' : List Operation}
    (alike : ops.filter (!·.ofKeys) = ops'.filter (!·.ofKeys))
    (input : ∀ p ∈ (m.history ops).zip (m'.history ops'), p.1.SameInput p.2) :
    (m.responses ops).map (Outcome.viewed blind) = (m'.responses ops').map (Outcome.viewed blind) ∧
      (m.after ops).blind = (m'.after ops').blind := by
  -- over the first run; keys of the second are passed over until its next other operation
  induction ops generalizing m m' ops' with
  | nil =>
    have only (op : Operation) (mem : op ∈ ops') : op.ofKeys = true := by
      simpa using List.filter_eq_nil_iff.mp alike.symm op mem
    obtain ⟨shown, responses, -⟩ := keys_append (m := m') only []
    rw [List.append_nil] at responses
    rw [responses, shown]
    exact ⟨rfl, same⟩
  | cons op rest ih =>
    by_cases key : op.ofKeys = true
    · rw [List.filter_cons_of_neg (by simp [key])] at alike
      rw [history_key key] at input
      rw [responses, if_pos key, after_cons]
      exact ih ((perform_key key).2.2.trans same) alike input
    · -- the other run may press keys before it comes to the same operation
      rw [List.filter_cons_of_pos (by simp [key])] at alike
      obtain ⟨keys, rest', rfl, only, -, alike⟩ := List.filter_eq_cons_iff.mp alike.symm
      obtain ⟨shown, responses', history'⟩ :=
        keys_append (m := m') (fun op' mem => by simpa using only op' mem) (op :: rest')
      rw [history', history_step, history_step] at input
      have start : m.blind = (m'.after keys).blind := same.trans shown.symm
      obtain ⟨outcome, length⟩ := perform_blind start op fun p mem => input p (mem_zip_append mem)
      rw [List.zip_append length] at input
      have next := (Outcome.viewed_eq_iff.mp outcome).1
      obtain ⟨later, last⟩ := ih next alike.symm fun p mem => input p (List.mem_append_right _ mem)
      rw [responses', responses, responses, if_neg key, if_neg key, List.map_cons, List.map_cons, outcome,
        later, after_append, after_cons, after_cons]
      exact ⟨rfl, last⟩

/-- The keys and the random source come in by four kinds of opcodes only. Two machines that look the same
without them respond the same to runs that differ in keys, up to a cycle with such an opcode that takes
something else in; a run without such opcodes is the same for all inputs. The random source is moved by one
kind of opcode alone, one byte each time, and each of these stores the byte that is next since the machine
was switched on. -/
theorem inputs_by_opcodes :
    (∀ m m' : Machine, m.blind = m'.blind → ∀ ops ops' : List Operation,
      ops.filter (!·.ofKeys) = ops'.filter (!·.ofKeys) →
      ((∀ p ∈ (m.history ops).zip (m'.history ops'), p.1.SameInput p.2) ∨
        ∀ c ∈ m.history ops, ¬ AsksKeys c.opcode ∧ c.opcode / 0x1000 ≠ 0xC) →
      (m.responses ops).map (Outcome.viewed blind) = (m'.responses ops').map (Outcome.viewed blind) ∧
        (m.after ops).blind = (m'.after ops').blind) ∧
    (∀ (bytes : List UInt8) (ops : List Operation),
      let m := initial (.ofList bytes)
      let drawings := (m.history ops).filter draws
      (∀ (k : Nat) (c : Machine), drawings[k]? = some c →
        (c.cycle.machine.registers.get (registerX c.opcode)).toNat =
          (bytes.getD k 0).toNat &&& c.opcode % 0x100) ∧
      (m.after ops).random.rest = bytes.drop drawings.length ∧
      (m.after ops).random.drawn = drawings.length ∧
      (m.after ops).random.bounds = List.replicate drawings.length (0, 255)) ∧
    ∀ (m : Machine) (op : Operation), op.Single →
      ((op = .cycle ∧ m.cycle.answer = .ok () ∧ m.opcode / 0x1000 = 0xC) →
        (m.perform op).machine.random = (m.random.next 0 255).2) ∧
      (¬ (op = .cycle ∧ m.cycle.answer = .ok () ∧ m.opcode / 0x1000 = 0xC) →
        (m.perform op).machine.random = m.random) := by
  refine ⟨?_, ?_, ?_⟩
  · intro m m' same ops ops' alike input
    apply responses_blind same alike
    rcases input with input | deaf
    · exact input
    · intro p mem
      obtain ⟨noKeys, noDrawing⟩ := deaf p.1 (List.of_mem_zip mem).1
      exact ⟨fun asks => absurd asks noKeys, fun draws => absurd draws noDrawing⟩
  · intro bytes ops m drawings
    have source : (m.after ops).random = m.random.skip drawings.length := (m.random_history ops).1
    refine ⟨fun k c found => register_of_history_draws found, congrArg (·.rest) source, ?_⟩
    rw [source]
    simp [RandomBytes.skip, RandomBytes.drawn, RandomBytes.bounds, m, initial, RandomBytes.ofList]
  · intro m op single
    constructor
    · rintro ⟨rfl, succeeds, digit⟩
      have drawing : m.draws = true := decide_eq_true digit
      rw [perform_cycle_machine, (random_of_cycle_draws succeeds drawing).1, RandomBytes.next_eq]
    · intro other
      by_cases cycle : op = .cycle
      · rw [cycle, perform_cycle_machine]
        cases answer : m.cycle.answer with
        | error e => rw [cycle_random, answer]
        | ok => exact random_of_cycle_quiet (decide_eq_false fun digit => other ⟨cycle, answer, digit⟩)
      · rw [m.random_perform single, starts?_of_ne cycle]
        rfl

section Chance

/-- A program that draws a byte into V0 and skips if the key in V0 is down. -/
def chance : List UInt8 :=
  [0xC0, 0x3C, 0xE0, 0x9E]

variable {m : Machine} (memory : m.memory = (loaded chance).memory) (running : m.halted = false)
include memory running

theorem cycle_chance_draws (pc : m.registers.pc = (0x200 + 0 : Nat)) :
    m.opcode = 0xC03C ∧ m.cycle.answer = .ok () ∧
      m.cycle.machine =
        { { m.fetched with random := (m.random.next 0 255).2 }.setV 0 (m.random.byte &&& 0x3C) with
          cycles := m.cycles + 1 } := by
  have opcode : m.opcode = 0xC03C := opcode_of_loaded memory pc (by decide) (by decide)
  rw [cycle_of_opcode running (by rw [pc]; decide) opcode rfl]
  exact ⟨opcode, rfl, rfl⟩

theorem cycle_chance_skips (pc : m.registers.pc = (0x200 + 2 : Nat)) :
    m.opcode = 0xE09E ∧ m.cycle.answer = .ok () := by
  have opcode : m.opcode = 0xE09E := opcode_of_loaded memory pc (by decide) (by decide)
  exact ⟨opcode, by rw [cycle_of_opcode running (by rw [pc]; decide) opcode rfl, Outcome.answer_done]⟩

theorem history_chance (keys keys' : List Operation) (only : ∀ op ∈ keys ++ keys', op.ofKeys = true)
    (pc : m.registers.pc = (0x200 + 0 : Nat)) :
    m.history (keys ++ .cycle :: (keys' ++ [.cycle])) =
        [m.after keys, (m.after keys).cycle.machine.after keys'] ∧
      (m.after keys).opcode = 0xC03C ∧ ((m.after keys).cycle.machine.after keys').opcode = 0xE09E := by
  obtain ⟨shown, -, history⟩ := keys_append (m := m) (fun op mem => only op (List.mem_append_left _ mem))
    (.cycle :: (keys' ++ [.cycle]))
  have memory' : (m.after keys).memory = (loaded chance).memory := (congrArg (·.memory) shown).trans memory
  have running' : (m.after keys).halted = false := (congrArg (·.halted) shown).trans running
  have pc' : (m.after keys).registers.pc = (0x200 + 0 : Nat) := (congrArg (·.registers.pc) shown).trans pc
  obtain ⟨draws, succeeds, moved⟩ := cycle_chance_draws memory' running' pc'
  obtain ⟨shown', -, history'⟩ := keys_append (m := (m.after keys).cycle.machine)
    (fun op mem => only op (List.mem_append_right _ mem)) [.cycle]
  rw [moved] at shown'
  obtain ⟨skips, succeeds'⟩ := cycle_chance_skips (m := (m.after keys).cycle.machine.after keys')
    (by rw [moved]; exact (congrArg (·.memory) shown').trans memory')
    (by rw [moved]; exact (congrArg (·.halted) shown').trans running')
    (by rw [moved]; exact (congrArg (·.registers.pc) shown').trans (congrArg (· + 2) pc'))
  have cycling : Operation.cycle.Single := trivial
  refine ⟨?_, draws, skips⟩
  rw [history, history_cons _ _ cycling, starts?_of_ok succeeds, perform_cycle_machine, history',
    history_cons _ _ cycling, starts?_of_ok succeeds']
  rfl

end Chance

theorem inputs_by_opcodes_drawn :
    let m := initial (.ofList [0x5A])
    let m' := initial (.ofList [0x5A, 7])
    let ops : List Operation := [.load chance 0x200, .press 3, .cycle, .release 3, .press 8, .cycle]
    let ops' : List Operation := [.load chance 0x200, .cycle, .press 8, .cycle]
    m.random ≠ m'.random ∧ m.blind = m'.blind ∧ ops.filter (!·.ofKeys) = ops'.filter (!·.ofKeys) ∧
      (m.history ops).map opcode = [0xC03C, 0xE09E] ∧
      (∀ p ∈ (m.history ops).zip (m'.history ops'), p.1.SameInput p.2) ∧
      (m.responses ops).map (Outcome.viewed blind) = (m'.responses ops').map (Outcome.viewed blind) ∧
      (∃ c, (m'.history ops').filter draws = [c] ∧ (c.cycle.machine.registers.get 0).toNat = 0x18) ∧
      (m'.after ops').random.rest = [7] ∧ (m'.after ops').random.bounds = [(0, 255)] := by
  intro m m' ops ops'
  have same : m.blind = m'.blind := rfl
  have alike : ops.filter (!·.ofKeys) = ops'.filter (!·.ofKeys) := rfl
  have loading : (Operation.load chance 0x200).Single := trivial
  have other : Operation.load chance 0x200 ≠ .cycle := nofun
  have start (bytes : List UInt8) (rest : List Operation) :
      (initial (.ofList bytes)).history (.load chance 0x200 :: rest) =
        ({ loaded chance with random := .ofList bytes } : Machine).history rest := by
    rw [history_cons _ _ loading, starts?_of_ne other, machine_load_initial _ (by decide)]
    rfl
  obtain ⟨history, first, second⟩ := history_chance (m := { loaded chance with random := .ofList [0x5A] })
    rfl rfl [.press 3] [.release 3, .press 8] (by decide) rfl
  obtain ⟨history', first', second'⟩ := history_chance (m := { loaded chance with random := .ofList [0x5A, 7] })
    rfl rfl [] [.press 8] (by decide) rfl
  rw [List.singleton_append, List.cons_append, List.singleton_append, ← start] at history
  rw [List.nil_append, List.singleton_append, ← start] at history'
  generalize began : ({ loaded chance with random := .ofList [0x5A] } : Machine).after [.press 3] = c at *
  generalize began' : ({ loaded chance with random := .ofList [0x5A, 7] } : Machine).after [] = c' at *
  have byte : c.random.byte = c'.random.byte := by rw [← began, ← began']; rfl
  have keypad : (c.cycle.machine.after [.release 3, .press 8]).keypad =
      (c'.cycle.machine.after [.press 8]).keypad := by
    change (c.cycle.machine.keypad.release 3).press 8 = c'.cycle.machine.keypad.press 8
    rw [cycle_keypad, cycle_keypad, ← began, ← began']
    change ((Keypad.released.press 3).release 3).press 8 = Keypad.released.press 8
    decide
  have input : ∀ p ∈ (m.history ops).zip (m'.history ops'), p.1.SameInput p.2 := by
    rw [history, history']
    simp only [List.zip_cons_cons, List.zip_nil_right, List.forall_mem_cons]
    refine ⟨⟨fun asks => absurd (first ▸ asks) ?_, fun _ => byte⟩, ⟨fun _ => keypad, fun digit => ?_⟩,
      List.forall_mem_nil _⟩
    · rw [AsksKeys, EndsIn]
      decide
    · exact absurd (second ▸ digit) (by decide)
  have drawings : (m'.history ops').filter draws = [c'] := by
    rw [history', List.filter_cons_of_pos (by rw [draws, first']; rfl),
      List.filter_cons_of_neg (by rw [draws, second']; decide)]
    rfl
  obtain ⟨responses, -⟩ := inputs_by_opcodes.1 m m' same ops ops' alike (.inl input)
  obtain ⟨stored, rest, -, bounds⟩ := inputs_by_opcodes.2.1 [0x5A, 7] ops'
  rw [drawings, List.length_singleton] at rest bounds
  simp only [List.drop_succ_cons, List.drop_zero] at rest
  have stored := stored 0 c' (by rw [drawings]; rfl)
  rw [first'] at stored
  refine ⟨by decide, same, alike, ?_, input, responses, ⟨c', drawings, stored.trans (by decide)⟩, ?_, bounds⟩
  · rw [history, List.map_cons, List.map_singleton, first, second]
  · subst m'
    exact rest

end Machine

end ChipEight

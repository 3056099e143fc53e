import ChipEight.Proofs.CycleHistory
import ChipEight.Proofs.Footprint
import ChipEight.Proofs.Torus

/-!
Draws one after the other. A draw flips the cells that its sprite covers, each of them once, so a run that changes
the display by draws alone flips a cell if an odd number of them covers it. Their order does not matter, and the same
draws once more bring every cell back.
-/

namespace ChipEight

structure Draw where
  x : UInt8
  y : UInt8
  lines : List UInt8
  deriving DecidableEq, Repr

namespace Draw

def Covers (d : Draw) (cx cy : Nat) : Prop :=
  ∃ r < d.lines.length, ∃ c < 8, (d.lines.getD r 0).toNat.testBit (7 - c) = true ∧
    cx = (d.x.toNat + c) % 64 ∧ cy = (d.y.toNat + r) % 32

instance (d : Draw) (cx cy : Nat) : Decidable (d.Covers cx cy) :=
  inferInstanceAs (Decidable (∃ r < d.lines.length, ∃ c < 8, _ ∧ _ ∧ _))

def flips (ds : List Draw) (cx cy : Nat) : Bool :=
  ds.countP (fun d => decide (d.Covers cx cy)) % 2 = 1

section Flips

variable (cx cy : Nat)

theorem flips_singleton (d : Draw) : flips [d] cx cy = decide (d.Covers cx cy) := by
  rw [flips, List.countP_singleton]
  split <;> simp_all

theorem flips_append (ds ds' : List Draw) : flips (ds ++ ds') cx cy = (flips ds cx cy ^^ flips ds' cx cy) := by
  rw [flips, List.countP_append]
  exact Display.parity_add _ _

theorem flips_of_perm {ds ds' : List Draw} (perm : ds.Perm ds') : flips ds cx cy = flips ds' cx cy := by
  rw [flips, flips, perm.countP_eq]

end Flips

end Draw

theorem Display.WellFormed.cells_eq {d d' : Display} (h : d.WellFormed) (h' : d'.WellFormed)
    (same : ∀ cx cy : Nat, cx < 64 → cy < 32 → d.read cx cy = d'.read cx cy) : d.cells = d'.cells := by
  apply Array.ext (h.cells.trans h'.cells.symm)
  intro k inside inside'
  have size : d.cells.size = 32 * 64 := h.cells
  have cell (s : Display) (ws : s.WellFormed) (bound : k < s.cells.size) :
      s.cells[k] = s.read (k % 64 : Nat) (k / 64 : Nat) := by
    have width : s.width = 64 := ws.width
    have height : s.height = 32 := ws.height
    have place : k / 64 * s.width.toNat + k % 64 = k := by
      rw [width]
      exact Nat.div_add_mod' k 64
    rw [s.read_inside (by omega) (by omega), place]
    simp [bound]
  rw [cell d h inside, cell d' h' inside']
  exact same _ _ (Nat.mod_lt k (by decide)) (by omega)

theorem Display.WellFormed.read_eq {d d' : Display} (h : d.WellFormed) (h' : d'.WellFormed)
    (same : d.cells = d'.cells) (x y : Int) : d.read x y = d'.read x y := by
  rw [read, read, offset, offset, same, h.width, h.height, h'.width, h'.height]

namespace Machine

def draw? (m : Machine) : Option Draw :=
  if m.opcode / 0x1000 = 0xD then
    some ⟨m.registers.get (registerX m.opcode), m.registers.get (registerY m.opcode),
      m.spriteLines (m.opcode % 0x10)⟩
  else none

def drawn (m : Machine) (ops : List Operation) : List Draw :=
  (m.history ops).filterMap draw?

/-- The run changes the display by drawing alone. -/
structure OnlyDraws (m : Machine) (ops : List Operation) : Prop where
  host : ∀ op ∈ ops, op ≠ .reset ∧ ∀ x y, op ≠ .toggle x y
  cycles : ∀ c ∈ m.history ops, c.opcode ≠ 0x00E0

section Cycle

variable {m : Machine}

theorem draw?_eq_some_iff (d : Draw) :
    m.draw? = some d ↔ m.opcode / 0x1000 = 0xD ∧
      d = ⟨m.registers.get (registerX m.opcode), m.registers.get (registerY m.opcode),
        m.spriteLines (m.opcode % 0x10)⟩ := by
  rw [draw?, Option.ite_none_right_eq_some, Option.some_inj, eq_comm (a := d)]

theorem spriteCovers_iff {d : Draw} (draws : m.draw? = some d) (cx cy : Nat) :
    m.SpriteCovers cx cy ↔ d.Covers cx cy := by
  obtain ⟨-, rfl⟩ := (draw?_eq_some_iff d).mp draws
  simp only [SpriteCovers, Draw.Covers, spriteLines, List.length_map, List.length_range]
  refine exists_congr fun r => and_congr_right fun bound => ?_
  rw [List.getD_eq_getElem?_getD, List.getElem?_map, List.getElem?_range bound, Option.map_some, Option.getD_some]

variable (h : m.WellFormed)
include h

theorem room_of_cycle (succeeds : m.cycle.answer = .ok ()) (draws : m.opcode / 0x1000 = 0xD) :
    m.opcode % 0x10 = 0 ∨ m.registers.index.toNat + m.opcode % 0x10 ≤ 0x1000 := by
  have reads : blockRead m.opcode = m.opcode % 0x10 := by rw [blockRead, if_pos draws]
  refine Classical.byContradiction fun outside => ?_
  have fails := (executed_error_iff h _).mpr (.inr (.inr (.inl ⟨by omega, by omega, rfl⟩)))
  rw [(machine_of_cycle_ok succeeds).1] at fails
  cases fails

section Drawn

variable {d : Draw} (succeeds : m.cycle.answer = .ok ()) (draws : m.draw? = some d)
include succeeds draws

theorem drawn_of_cycle :
    m.cycle.machine.display = (m.display.draw m.drawnPoints).1.markDirty ∧
      m.cycle.machine.registers.get 15 = if (m.display.draw m.drawnPoints).2 then 1 else 0 := by
  obtain ⟨op, -⟩ := (draw?_eq_some_iff d).mp draws
  obtain ⟨running, inside⟩ := running_of_cycle_ok succeeds
  have state := (cycle_draw h running inside op (room_of_cycle h succeeds op)).2
  refine ⟨congrArg (·.display) state, ?_⟩
  rw [state]
  exact (m.fetched.registers.get_set 15 15 _).trans (if_pos rfl)

theorem read_of_draw {cx cy : Nat} (column : cx < 64) (line : cy < 32) :
    m.cycle.machine.display.read cx cy = (m.display.read cx cy ^^ decide (d.Covers cx cy)) := by
  have flips := h.display.whole.flipped_iff (nodup_places_drawnPoints h) cx cy
  rw [covers_iff h column line, spriteCovers_iff draws] at flips
  rw [(drawn_of_cycle h succeeds draws).1, Display.read_markDirty]
  by_cases covered : d.Covers cx cy
  · rw [decide_eq_true covered, Bool.xor_true]
    exact Bool.eq_not.mpr (flips.mpr covered)
  · rw [decide_eq_false covered, Bool.xor_false]
    exact Classical.not_not.mp (mt flips.mp covered)

theorem flag_of_draw :
    m.cycle.machine.registers.get 15 = 1 ↔
      ∃ cx < 64, ∃ cy < 32, d.Covers cx cy ∧ m.display.read cx cy = true := by
  have hit := h.display.whole.draw_hit (nodup_places_drawnPoints h)
  simp only [hit_iff h, spriteCovers_iff draws] at hit
  rw [(drawn_of_cycle h succeeds draws).2, ← hit]
  cases (m.display.draw m.drawnPoints).2 <;> simp

end Drawn

end Cycle

theorem flag_of_draw_again {m c : Machine} (h : m.WellFormed) (h' : c.WellFormed) {d : Draw}
    (succeeds : m.cycle.answer = .ok ()) (draws : m.draw? = some d)
    (same : c.display.cells = m.cycle.machine.display.cells) (succeeds' : c.cycle.answer = .ok ())
    (draws' : c.draw? = some d) :
    c.cycle.machine.registers.get 15 = 1 ↔
      ∃ cx < 64, ∃ cy < 32, d.Covers cx cy ∧ m.display.read cx cy = false := by
  rw [flag_of_draw h' succeeds' draws']
  refine exists_congr fun cx => and_congr_right fun column => exists_congr fun cy => and_congr_right fun line => ?_
  refine and_congr_right fun covers => ?_
  -- a cell that the sprite covers was flipped in between
  rw [h'.display.read_eq (wellFormed_cycle h).display same, read_of_draw h succeeds draws column line,
    decide_eq_true covers]
  cases m.display.read cx cy <;> simp

section Step

variable {m : Machine} {cx cy : Nat}

theorem display_of_cycle (succeeds : m.cycle.answer = .ok ()) (silent : m.draw? = none)
    (kept : m.opcode ≠ 0x00E0) : m.cycle.machine.display = m.display := by
  have other : m.opcode / 0x1000 ≠ 0xD := fun op => by simp [draw?, op] at silent
  rw [(machine_of_cycle_ok succeeds).2]
  refine Classical.byContradiction fun changed => ?_
  rcases display_changed changed with clears | draws
  · exact kept clears
  · exact other draws

theorem read_cycle (h : m.WellFormed) (kept : ∀ c ∈ m.starts? .cycle, c.opcode ≠ 0x00E0) (column : cx < 64)
    (line : cy < 32) :
    m.cycle.machine.display.read cx cy =
      (m.display.read cx cy ^^ Draw.flips ((m.starts? .cycle).toList.filterMap draw?) cx cy) := by
  cases m.cycle_cases with
  | halted _ eq =>
    rw [starts?_of_error (by rw [eq]; rfl), eq]
    exact (Bool.xor_false _).symm
  | outside _ _ eq | fault _ _ _ _ eq =>
    rw [starts?_of_error (by rw [eq]), eq]
    exact (Bool.xor_false _).symm
  | success _ _ _ eq =>
    have succeeds : m.cycle.answer = .ok () := by rw [eq]; rfl
    rw [starts?_of_ok succeeds] at kept ⊢
    simp only [Option.toList_some, List.filterMap_cons, List.filterMap_nil]
    cases draws : m.draw? with
    | some d => exact (read_of_draw h succeeds draws column line).trans (by rw [Draw.flips_singleton])
    | none =>
      rw [display_of_cycle succeeds draws (kept m rfl)]
      exact (Bool.xor_false _).symm

theorem read_perform {op : Operation} (single : op.Single) (cycle : op ≠ .cycle) (reset : op ≠ .reset)
    (toggle : ∀ x y, op ≠ .toggle x y) (x y : Int) :
    (m.perform op).machine.display.read x y = m.display.read x y := by
  cases op with
  | frame count => exact single.elim
  | cycle => exact absurd rfl cycle
  | reset => exact absurd rfl reset
  | toggle a b => exact absurd rfl (toggle a b)
  | load rom offset => rw [perform_load_machine, loadRom_display]
  | fetch =>
    change m.fetch.machine.display.read x y = _
    rw [fetch]
    split <;> rfl
  | setV | poke | peek =>
    simp only [perform]
    split <;> rfl
  | tick | press | release | releaseAll | markClean | setIndex | setPc | setHalted | setDelay
  | setSound => rfl

end Step

theorem read_steps {ops : List Operation} {m : Machine} (h : m.WellFormed)
    (steps : ∀ op ∈ ops, op.Single ∧ op ≠ .reset ∧ ∀ x y, op ≠ .toggle x y)
    (kept : ∀ c ∈ m.stepHistory ops, c.opcode ≠ 0x00E0) {cx cy : Nat} (column : cx < 64) (line : cy < 32) :
    (m.after ops).display.read cx cy =
      (m.display.read cx cy ^^ Draw.flips ((m.stepHistory ops).filterMap draw?) cx cy) := by
  -- on the steps: what the first draws and what the others draw flip a cell one after the other
  induction ops generalizing m with
  | nil => exact (Bool.xor_false _).symm
  | cons op rest ih =>
    obtain ⟨single, reset, toggle⟩ := steps op List.mem_cons_self
    have now : (m.perform op).machine.display.read cx cy =
        (m.display.read cx cy ^^ Draw.flips ((m.starts? op).toList.filterMap draw?) cx cy) := by
      by_cases cycle : op = .cycle
      · subst cycle
        exact read_cycle h (fun c mem => kept c (List.mem_append_left _ (Option.mem_toList.mpr mem))) column line
      · rw [starts?_of_ne cycle, read_perform single cycle reset toggle]
        exact (Bool.xor_false _).symm
    rw [after_cons, ih (wellFormed_perform h single) (fun op' mem => steps op' (List.mem_cons_of_mem op mem))
      fun c mem => kept c (List.mem_append_right _ mem), now, stepHistory, List.filterMap_append,
      Draw.flips_append, Bool.xor_assoc]

theorem OnlyDraws.read {m : Machine} {ops : List Operation} (only : m.OnlyDraws ops) (h : m.WellFormed)
    {cx cy : Nat} (column : cx < 64) (line : cy < 32) :
    (m.after ops).display.read cx cy = (m.display.read cx cy ^^ Draw.flips (m.drawn ops) cx cy) := by
  rw [← after_unroll]
  refine read_steps h (fun op mem => ?_) only.cycles column line
  obtain ⟨single, origin⟩ := mem_unroll mem
  refine ⟨single, ?_⟩
  rcases origin with given | rfl | rfl
  · exact only.host op given
  · exact ⟨nofun, nofun⟩
  · exact ⟨nofun, nofun⟩

section Orders

variable {m m' : Machine} {ops ops' : List Operation} (only : m.OnlyDraws ops) (h : m.WellFormed)
include only h

theorem OnlyDraws.cells_of_perm (only' : m'.OnlyDraws ops') (h' : m'.WellFormed)
    (same : m.display.cells = m'.display.cells) (perm : (m.drawn ops).Perm (m'.drawn ops')) :
    (m.after ops).display.cells = (m'.after ops').display.cells := by
  apply (wellFormed_after h ops).display.cells_eq (wellFormed_after h' ops').display
  intro cx cy column line
  rw [only.read h column line, only'.read h' column line, Draw.flips_of_perm cx cy perm,
    h.display.read_eq h'.display same]

theorem OnlyDraws.cells_of_twice {first second : List Draw} (twice : m.drawn ops = first ++ second)
    (perm : second.Perm first) : (m.after ops).display.cells = m.display.cells := by
  apply (wellFormed_after h ops).display.cells_eq h.display
  intro cx cy column line
  rw [only.read h column line, twice, Draw.flips_append, Draw.flips_of_perm cx cy perm, Bool.xor_self,
    Bool.xor_false]

end Orders

end Machine

namespace Draw

def rom (d : Draw) : List UInt8 :=
  0xD0 :: UInt8.ofNat (0x10 + d.lines.length) :: d.lines

def setUp (d : Draw) : List Operation :=
  [.setHalted false, .load d.rom 0x200, .setV 0 d.x.toNat, .setV 1 d.y.toNat, .setIndex 0x202]

def ops (d : Draw) : List Operation :=
  d.setUp ++ [.cycle]

theorem length_rom (d : Draw) : d.rom.length = d.lines.length + 2 := rfl

end Draw

namespace Machine

theorem drawn_append (m : Machine) (xs ys : List Operation) :
    m.drawn (xs ++ ys) = m.drawn xs ++ (m.after xs).drawn ys := by
  rw [drawn, history_append, List.filterMap_append]
  rfl

theorem onlyDraws_nil (m : Machine) : m.OnlyDraws [] :=
  ⟨fun _ mem => absurd mem List.not_mem_nil, fun _ mem => absurd mem List.not_mem_nil⟩

theorem OnlyDraws.append {m : Machine} {xs ys : List Operation} (first : m.OnlyDraws xs)
    (second : (m.after xs).OnlyDraws ys) : m.OnlyDraws (xs ++ ys) where
  host op mem := (List.mem_append.mp mem).elim (first.host op) (second.host op)
  cycles := by
    intro c mem
    rw [history_append] at mem
    exact (List.mem_append.mp mem).elim (first.cycles c) (second.cycles c)

def ready (m : Machine) (d : Draw) : Machine :=
  ((({ m with halted := false }.withRom d.rom 0x200).setV ⟨0, by decide⟩ d.x).setV ⟨1, by decide⟩ d.y).setIndex 0x202

theorem display_ready (m : Machine) (d : Draw) : (m.ready d).display = m.display := rfl

section Ready

variable {m : Machine} (h : m.WellFormed) {d : Draw} (lines : d.lines.length ≤ 15)
include h lines

theorem fits_rom : 0x200 + d.rom.length ≤ m.memory.size := by
  have size : m.memory.size = 0x1000 := h.size
  rw [d.length_rom]
  omega

theorem after_setUp : m.after d.setUp = m.ready d := by
  have loads : ({ m with halted := false }.loadRom d.rom 0x200).machine = _ :=
    congrArg Outcome.machine ({ m with halted := false }.loadRom_of_fits d.rom 0x200 (by decide) (fits_rom h lines))
  have halts : (m.perform (.setHalted false)).machine = { m with halted := false } := rfl
  have sets (s : Machine) (v w : Int) : s.after [.setV 0 v, .setV 1 w, .setIndex 0x202] =
      ((s.setV 0 (lowByte v)).setV 1 (lowByte w)).setIndex 0x202 := rfl
  rw [Draw.setUp, after_cons, after_cons, halts, perform_load_machine, loads, sets, lowByte_toNat, lowByte_toNat]
  rfl

theorem opcode_ready : (m.ready d).opcode = 0xD010 + d.lines.length := by
  have fits : 0x200 + d.rom.length ≤ { m with halted := false }.memory.size := fits_rom h lines
  have word := wordAt_withRom fits (k := 0) (by rw [d.length_rom]; omega)
  have low : (UInt8.ofNat (0x10 + d.lines.length)).toNat = 0x10 + d.lines.length :=
    UInt8.toNat_ofNat_of_lt' (by change _ < 256; omega)
  refine word.trans ?_
  change 256 * 0xD0 + (UInt8.ofNat (0x10 + d.lines.length)).toNat = _
  omega

theorem spriteLines_ready : (m.ready d).spriteLines d.lines.length = d.lines := by
  have byte (r : Nat) : (m.ready d).memory.byteAt (0x202 + r : Nat) = _ :=
    m.memory.byteAt_splice (fits_rom h lines) (0x202 + r)
  apply List.ext_getElem
  · simp [spriteLines]
  · intro r inside bound
    have index : (m.ready d).registers.index.toNat = 0x202 := rfl
    have place : 0x202 + r - 0x200 = r + 2 := by omega
    simp only [spriteLines, List.getElem_map, List.getElem_range, index]
    rw [byte, if_pos (by rw [d.length_rom]; omega), place, Draw.rom, List.getD_cons_succ, List.getD_cons_succ,
      List.getD_eq_getElem?_getD, List.getElem?_eq_getElem bound, Option.getD_some]

theorem draw?_ready : (m.ready d).draw? = some d := by
  have opcode := opcode_ready h lines
  have rows : (m.ready d).opcode % 0x10 = d.lines.length := by omega
  have x : registerX (m.ready d).opcode = 0 := Fin.ext (by simp only [registerX]; omega)
  have y : registerY (m.ready d).opcode = 1 := Fin.ext (by simp only [registerY]; omega)
  have column : (m.ready d).registers.get 0 = d.x :=
    (Registers.get_set _ 1 0 d.y).trans ((Registers.get_set _ 0 0 d.x).trans (if_pos rfl))
  have line : (m.ready d).registers.get 1 = d.y := (Registers.get_set _ 1 1 d.y).trans (if_pos rfl)
  rw [draw?_eq_some_iff, rows, spriteLines_ready h lines, x, y, column, line]
  exact ⟨by omega, rfl⟩

theorem wellFormed_ready : (m.ready d).WellFormed :=
  after_setUp h lines ▸ wellFormed_after h d.setUp

theorem cycle_ready : (m.ready d).cycle.answer = .ok () := by
  have opcode := opcode_ready h lines
  have index : (m.ready d).registers.index.toNat = 0x202 := rfl
  have pc : (m.ready d).registers.pc = 0x200 := rfl
  exact cycle_draw_of_inside (wellFormed_ready h lines) rfl (by rw [pc]; decide) (by omega) (by omega)

theorem history_ops : m.history d.ops = [m.ready d] := by
  have quiet : m.history d.setUp = [] := rfl
  rw [Draw.ops, history_append, quiet, after_setUp h lines, history_cons _ .cycle trivial,
    starts?_of_ok (cycle_ready h lines)]
  rfl

theorem onlyDraws_ops : m.OnlyDraws d.ops where
  host op mem := by
    simp only [Draw.ops, Draw.setUp, List.mem_append, List.mem_cons, List.not_mem_nil, or_false] at mem
    rcases mem with (rfl | rfl | rfl | rfl | rfl) | rfl <;> exact ⟨nofun, nofun⟩
  cycles c mem := by
    rw [history_ops h lines, List.mem_singleton] at mem
    rw [mem, opcode_ready h lines]
    omega

theorem drawn_ops : m.drawn d.ops = [d] := by
  rw [drawn, history_ops h lines, List.filterMap_cons, draw?_ready h lines]
  rfl

end Ready

/-- Draws can be performed one after the other from any state. -/
theorem performs {m : Machine} (h : m.WellFormed) {ds : List Draw} (lines : ∀ d ∈ ds, d.lines.length ≤ 15) :
    m.OnlyDraws (ds.flatMap Draw.ops) ∧ m.drawn (ds.flatMap Draw.ops) = ds := by
  -- the machine that one draw leaves is ready for the next, whatever it is
  induction ds generalizing m with
  | nil => exact ⟨m.onlyDraws_nil, rfl⟩
  | cons d rest ih =>
    have first := lines d List.mem_cons_self
    obtain ⟨only, later⟩ := ih (wellFormed_after h d.ops) fun d' mem => lines d' (List.mem_cons_of_mem d mem)
    rw [List.flatMap_cons, drawn_append, drawn_ops h first, later]
    exact ⟨(onlyDraws_ops h first).append only, rfl⟩

/-- Runs that change the display by draws alone leave the same display if they perform the same draws in whatever
order, and the display as it was if they perform them twice. Any draws can be performed. The flag of a draw tells
whether its sprite covers a lit cell, and that of the same draw once more whether it covered a dark one. -/
theorem draws_in_any_order {m : Machine} (h : m.WellFormed) :
    (∀ (m' : Machine) ops ops', m'.WellFormed → m.OnlyDraws ops → m'.OnlyDraws ops' →
      m.display.cells = m'.display.cells → (m.drawn ops).Perm (m'.drawn ops') →
        (m.after ops).display.cells = (m'.after ops').display.cells) ∧
    (∀ ops first second, m.OnlyDraws ops → m.drawn ops = first ++ second → second.Perm first →
      (m.after ops).display.cells = m.display.cells) ∧
    (∀ ds : List Draw, (∀ d ∈ ds, d.lines.length ≤ 15) →
      m.OnlyDraws (ds.flatMap Draw.ops) ∧ m.drawn (ds.flatMap Draw.ops) = ds) ∧
    ∀ d, m.draw? = some d → m.cycle.answer = .ok () →
      (m.cycle.machine.registers.get 15 = 1 ↔
        ∃ cx < 64, ∃ cy < 32, d.Covers cx cy ∧ m.display.read cx cy = true) ∧
      ∀ c : Machine, c.WellFormed → c.display.cells = m.cycle.machine.display.cells → c.draw? = some d →
        c.cycle.answer = .ok () →
          (c.cycle.machine.registers.get 15 = 1 ↔
            ∃ cx < 64, ∃ cy < 32, d.Covers cx cy ∧ m.display.read cx cy = false) := by
  refine ⟨?order, ?twice, fun ds => performs h, fun d draws succeeds => ⟨flag_of_draw h succeeds draws, ?again⟩⟩
  case order =>
    intro m' ops ops' h' only only' same perm
    exact only.cells_of_perm h only' h' same perm
  case twice =>
    intro ops first second only twice perm
    exact only.cells_of_twice h twice perm
  case again =>
    intro c h' same draws' succeeds'
    exact flag_of_draw_again h h' succeeds draws same succeeds' draws'

theorem draws_in_any_order_wrapped :
    let m := initial (.ofList [])
    let a : Draw := ⟨62, 31, [0xF0, 0xF0]⟩
    let b : Draw := ⟨0, 0, [0xC0]⟩
    let s := (m.ready a).cycle.machine
    m.WellFormed ∧
      (m.after ([a, b].flatMap Draw.ops)).display.cells = (m.after ([b, a].flatMap Draw.ops)).display.cells ∧
      (m.after ([a, b, a, b].flatMap Draw.ops)).display.cells = m.display.cells ∧
      (m.ready a).draw? = some a ∧ s.registers.get 15 ≠ 1 ∧ (s.ready a).cycle.machine.registers.get 15 = 1 := by
  intro m a b s
  have h : m.WellFormed := wellFormed_initial _
  have dark (x y : Int) : m.display.read x y = false := Display.read_blank _ _ x y
  clear_value m
  have lines (ds : List Draw) (few : ∀ d ∈ ds, d = a ∨ d = b) (d : Draw) (mem : d ∈ ds) : d.lines.length ≤ 15 := by
    rcases few d mem with rfl | rfl <;> decide
  have small : a.lines.length ≤ 15 := by decide
  have again : s.WellFormed := wellFormed_cycle (wellFormed_ready h small)
  obtain ⟨order, twice, performs, -⟩ := draws_in_any_order h
  obtain ⟨-, -, -, flags⟩ := draws_in_any_order (wellFormed_ready h small)
  obtain ⟨only, drawn⟩ := performs [a, b] (lines _ (by simp))
  obtain ⟨only', drawn'⟩ := performs [b, a] (lines _ (by simp))
  obtain ⟨only'', drawn''⟩ := performs [a, b, a, b] (lines _ (by simp))
  obtain ⟨first, second⟩ := flags a (draw?_ready h small) (cycle_ready h small)
  simp only [display_ready, dark] at first second
  refine ⟨h, ?_, ?_, draw?_ready h small, fun hit => ?_, ?_⟩
  · exact order m _ _ h only only' rfl (by rw [drawn, drawn']; exact .swap b a [])
  · exact twice _ [a, b] [a, b] only'' drawn'' (.refl _)
  · obtain ⟨cx, -, cy, -, -, lit⟩ := first.mp hit
    cases lit
  · refine (second _ (wellFormed_ready again small) (by rw [display_ready]) (draw?_ready again small)
      (cycle_ready again small)).mpr ?_
    exact ⟨62, by decide, 31, by decide, by decide, trivial⟩

end Machine

end ChipEight

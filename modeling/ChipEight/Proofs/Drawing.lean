import ChipEight.Proofs.ControlFlow
import ChipEight.Proofs.FontArea
import ChipEight.Proofs.Rendering

/-!
What drawing does to every cell. A cell is named by its place in the grid, which wraps around at both edges;
points drawn one after the other flip a cell if an odd number of them lies at its place. The points of a
sprite lie at different places as long as it is not larger than the display, so none of its cells is flipped
back and each is found as it was before the sprite.
-/

namespace ChipEight

namespace Display

def places (d : Display) (points : List (Int × Int)) : List Nat :=
  points.map fun p => d.offset p.1 p.2

theorem offset_toggle (d : Display) (x y : Int) : (d.toggle x y).offset = d.offset := rfl

def drawPoint (s : Display × Bool) (p : Int × Int) : Display × Bool :=
  (s.1.toggle p.1 p.2, s.2 || s.1.read p.1 p.2)

theorem draw_eq_foldl (d : Display) (points : List (Int × Int)) :
    d.draw points = points.foldl drawPoint (d, false) := rfl

theorem foldl_drawPoint (points : List (Int × Int)) (d : Display) (hit : Bool) :
    points.foldl drawPoint (d, hit) = ((d.draw points).1, hit || (d.draw points).2) := by
  induction points generalizing d hit with
  | nil => simp [draw_eq_foldl]
  | cons p rest ih =>
    rw [draw_eq_foldl, List.foldl_cons, List.foldl_cons, drawPoint, drawPoint, ih, ih, Bool.false_or,
      Bool.or_assoc]

theorem draw_cons (d : Display) (p : Int × Int) (points : List (Int × Int)) :
    d.draw (p :: points) =
      (((d.toggle p.1 p.2).draw points).1,
        d.read p.1 p.2 || ((d.toggle p.1 p.2).draw points).2) := by
  rw [draw_eq_foldl, List.foldl_cons, drawPoint, foldl_drawPoint, Bool.false_or]

namespace Whole

variable {d : Display} (h : d.Whole)
include h

theorem offset_lt_size (x y : Int) : d.offset x y < d.cells.size := by
  have width := h.width
  have height := h.height
  have column := Int.emod_lt_of_pos x width
  have line := Int.emod_lt_of_pos y height
  exact h.offset_lt (by omega) (by omega)

theorem offset_eq_iff (x y x' y' : Int) :
    d.offset x y = d.offset x' y' ↔ x % d.width = x' % d.width ∧ y % d.height = y' % d.height := by
  have column := Int.emod_lt_of_pos x h.width
  have column' := Int.emod_lt_of_pos x' h.width
  have left := Int.emod_nonneg x (Int.ne_of_gt h.width)
  have left' := Int.emod_nonneg x' (Int.ne_of_gt h.width)
  have top := Int.emod_nonneg y (Int.ne_of_gt h.height)
  have top' := Int.emod_nonneg y' (Int.ne_of_gt h.height)
  constructor
  · intro same
    simp only [offset] at same
    have columns : (x % d.width).toNat = (x' % d.width).toNat := by
      have rests := congrArg (· % d.width.toNat) same
      simpa [Nat.add_mod, Nat.mod_eq_of_lt, show (x % d.width).toNat < d.width.toNat by omega,
        show (x' % d.width).toNat < d.width.toNat by omega] using rests
    rw [columns, Nat.add_right_cancel_iff] at same
    have lines := Nat.eq_of_mul_eq_mul_right (by omega) same
    omega
  · rintro ⟨columns, lines⟩
    rw [offset, offset, columns, lines]

theorem exists_cell (x y : Int) :
    ∃ cx cy : Nat, cx < d.width ∧ cy < d.height ∧ d.offset x y = d.offset cx cy := by
  have left := Int.emod_nonneg x (Int.ne_of_gt h.width)
  have top := Int.emod_nonneg y (Int.ne_of_gt h.height)
  obtain ⟨cx, column⟩ := Int.eq_ofNat_of_zero_le left
  obtain ⟨cy, line⟩ := Int.eq_ofNat_of_zero_le top
  refine ⟨cx, cy, column ▸ Int.emod_lt_of_pos x h.width, line ▸ Int.emod_lt_of_pos y h.height, ?_⟩
  rw [h.offset_eq_iff, ← column, ← line, Int.emod_emod, Int.emod_emod]
  exact ⟨rfl, rfl⟩

theorem toggle (x y : Int) : (d.toggle x y).Whole :=
  ⟨h.width, h.height, (d.size_toggle x y).trans h.cells⟩

theorem read_toggle (x y x' y' : Int) :
    (d.toggle x y).read x' y' =
      (d.read x' y' ^^ decide (d.offset x y = d.offset x' y')) := by
  have inside := h.offset_lt_size x' y'
  rw [read, read, offset_toggle, Display.toggle, Array.getD_eq_getD_getElem?, Array.getD_eq_getD_getElem?,
    Array.getElem?_modify, Array.getElem?_eq_getElem inside]
  by_cases same : d.offset x y = d.offset x' y' <;> simp [same]

theorem read_draw (points : List (Int × Int)) (x y : Int) :
    (d.draw points).1.read x y =
      (d.read x y ^^ decide ((d.places points).count (d.offset x y) % 2 = 1)) := by
  induction points generalizing d with
  | nil => simp [draw, places]
  | cons p rest ih =>
    have later := ih (h.toggle p.1 p.2)
    rw [h.read_toggle] at later
    rw [draw_cons, later, Bool.xor_assoc]
    congr 1
    change _ = decide (((d.offset p.1 p.2) :: d.places rest).count (d.offset x y) % 2 = 1)
    have places : (d.toggle p.1 p.2).places rest = d.places rest := rfl
    rw [places, offset_toggle, List.count_cons]
    by_cases same : d.offset p.1 p.2 = d.offset x y
    · simp only [same, beq_self_eq_true, if_true, decide_true, Bool.true_xor]
      rw [← decide_not, decide_eq_decide]
      omega
    · simp [same]

theorem draw_hit {points : List (Int × Int)} (distinct : (d.places points).Nodup) :
    (d.draw points).2 = true ↔ ∃ p ∈ points, d.read p.1 p.2 = true := by
  induction points generalizing d with
  | nil => simp [draw]
  | cons p rest ih =>
    obtain ⟨other, distinct⟩ := List.nodup_cons.mp distinct
    have untouched (q : Int × Int) (mem : q ∈ rest) :
        (d.toggle p.1 p.2).read q.1 q.2 = d.read q.1 q.2 := by
      have apart : d.offset p.1 p.2 ≠ d.offset q.1 q.2 := fun same =>
        other (List.mem_map.mpr ⟨q, mem, same.symm⟩)
      simp [h.read_toggle, apart]
    -- the first point lies at no other point's place, so the others find what was there before it
    have later := ih (h.toggle p.1 p.2) distinct
    simp only [draw_cons, Bool.or_eq_true, later, List.mem_cons, exists_eq_or_imp]
    refine or_congr_right ?_
    constructor
    · rintro ⟨q, mem, lit⟩
      exact ⟨q, mem, untouched q mem ▸ lit⟩
    · rintro ⟨q, mem, lit⟩
      exact ⟨q, mem, (untouched q mem).trans lit⟩

theorem flipped_iff {points : List (Int × Int)} (distinct : (d.places points).Nodup) (x y : Int) :
    (d.draw points).1.read x y ≠ d.read x y ↔ ∃ p ∈ points, d.offset p.1 p.2 = d.offset x y := by
  have member : d.offset x y ∈ d.places points ↔ ∃ p ∈ points, d.offset p.1 p.2 = d.offset x y :=
    List.mem_map
  rw [h.read_draw, ← member, List.Nodup.count distinct]
  by_cases covered : d.offset x y ∈ d.places points <;> simp [covered]

end Whole

end Display

theorem mem_spritePoints {x y : Int} {lines : List UInt8} {p : Int × Int} :
    p ∈ spritePoints x y lines ↔
      ∃ (r : Nat) (line : UInt8), lines[r]? = some line ∧
        ∃ c < 8, line.toNat.testBit (7 - c) = true ∧ p = (x + (c : Int), y + (r : Int)) := by
  simp only [spritePoints, List.mem_flatMap, List.mem_filterMap, List.mem_range, Prod.exists,
    List.mem_zipIdx_iff_getElem?, Option.ite_none_right_eq_some, Option.some.injEq]
  constructor
  · rintro ⟨line, r, found, c, hc, lit, rfl⟩
    exact ⟨r, line, found, c, hc, lit, rfl⟩
  · rintro ⟨r, line, found, c, hc, lit, rfl⟩
    exact ⟨line, r, found, c, hc, lit, rfl⟩

theorem emod_add_left_injective {side : Int} (x : Int) {a b : Nat} (ha : a < side) (hb : b < side)
    (same : (x + a) % side = (x + b) % side) : a = b := by
  rw [Int.emod_add_cancel_left, Int.emod_eq_of_lt (by omega) ha, Int.emod_eq_of_lt (by omega) hb] at same
  omega

theorem Display.Whole.nodup_places_spritePoints {d : Display} (h : d.Whole) (x y : Int)
    {lines : List UInt8} (wide : 8 ≤ d.width) (high : lines.length ≤ d.height) :
    (d.places (spritePoints x y lines)).Nodup := by
  rw [List.Nodup, Display.places, List.pairwise_map, spritePoints, List.pairwise_flatMap]
  constructor
  · -- two points of one line lie in different columns
    intro line _
    rw [List.pairwise_filterMap]
    refine List.pairwise_lt_range.imp_of_mem fun {c c'} hc hc' less p found q found' same => ?_
    rw [List.mem_range] at hc hc'
    obtain ⟨-, ⟨⟩⟩ := Option.ite_none_right_eq_some.mp found
    obtain ⟨-, ⟨⟩⟩ := Option.ite_none_right_eq_some.mp found'
    have columns := ((h.offset_eq_iff _ _ _ _).mp same).1
    have equal := emod_add_left_injective x (by omega) (by omega) columns
    omega
  · -- two points of different lines lie in different lines
    have ordered : lines.zipIdx.Pairwise fun first second => first.2 < second.2 := by
      rw [← List.pairwise_map, List.zipIdx_map_snd]
      exact List.pairwise_lt_range'
    refine ordered.imp_of_mem fun {first second} mem mem' less p found q found' same => ?_
    obtain ⟨-, bound, -⟩ := List.mem_zipIdx mem
    obtain ⟨-, bound', -⟩ := List.mem_zipIdx mem'
    obtain ⟨c, -, point⟩ := List.mem_filterMap.mp found
    obtain ⟨c', -, point'⟩ := List.mem_filterMap.mp found'
    obtain ⟨-, ⟨⟩⟩ := Option.ite_none_right_eq_some.mp point
    obtain ⟨-, ⟨⟩⟩ := Option.ite_none_right_eq_some.mp point'
    have rows := ((h.offset_eq_iff _ _ _ _).mp same).2
    have equal := emod_add_left_injective y (by omega) (by omega) rows
    omega

namespace Machine

def spriteLines (m : Machine) (n : Nat) : List UInt8 :=
  (List.range n).map fun r => m.memory.byteAt (m.registers.index.toNat + r : Nat)

/-- A bit of the sprite that the opcode draws falls on the cell. -/
def SpriteCovers (m : Machine) (cx cy : Nat) : Prop :=
  ∃ r < m.opcode % 0x10, ∃ c < 8,
    (m.memory.byteAt (m.registers.index.toNat + r : Nat)).toNat.testBit (7 - c) = true ∧
      cx = ((m.registers.get (registerX m.opcode)).toNat + c) % 64 ∧
      cy = ((m.registers.get (registerY m.opcode)).toNat + r) % 32

theorem sprite_of_inside {m : Machine} {n : Fin 16}
    (room : n.val = 0 ∨ m.registers.index.toNat + n.val ≤ m.memory.size) :
    m.sprite n = .ok (m.spriteLines n.val) := by
  by_cases empty : n = 0
  · rw [sprite, if_pos empty, empty]
    rfl
  · have lines : 0 < n.val := Fin.pos_iff_ne_zero.mpr empty
    rw [sprite, if_neg empty, m.memory.readBlock_of_inside lines (by omega)]
    rfl

def drawnPoints (m : Machine) : List (Int × Int) :=
  spritePoints (m.registers.get (registerX m.opcode)).toNat (m.registers.get (registerY m.opcode)).toNat
    (m.spriteLines (m.opcode % 0x10))

section Drawn

variable {m : Machine} (h : m.WellFormed)
include h

theorem nodup_places_drawnPoints : (m.display.places m.drawnPoints).Nodup := by
  have lines : (m.spriteLines (m.opcode % 0x10)).length = m.opcode % 0x10 := by simp [spriteLines]
  apply h.display.whole.nodup_places_spritePoints
  · rw [h.display.width]
    decide
  · rw [h.display.height, lines, Parameters.screenHeight]
    omega

theorem covers_iff {cx cy : Nat} (column : cx < 64) (line : cy < 32) :
    (∃ p ∈ m.drawnPoints, m.display.offset p.1 p.2 = m.display.offset cx cy) ↔
      m.SpriteCovers cx cy := by
  have width : m.display.width = 64 := h.display.width
  have height : m.display.height = 32 := h.display.height
  simp only [drawnPoints, mem_spritePoints, h.display.whole.offset_eq_iff, width, height, SpriteCovers]
  constructor
  · rintro ⟨p, ⟨r, _, found, c, hc, lit, rfl⟩, columns, rows⟩
    obtain ⟨hr, rfl⟩ := List.getElem?_eq_some_iff.mp found
    simp only [spriteLines, List.length_map, List.length_range, List.getElem_map,
      List.getElem_range] at hr lit
    exact ⟨r, hr, c, hc, lit, by omega, by omega⟩
  · rintro ⟨r, hr, c, hc, lit, rfl, rfl⟩
    refine ⟨_, ⟨r, _, ?_, c, hc, lit, rfl⟩, by omega, by omega⟩
    simp [spriteLines, hr]

theorem hit_iff :
    (∃ p ∈ m.drawnPoints, m.display.read p.1 p.2 = true) ↔
      ∃ cx < 64, ∃ cy < 32, m.SpriteCovers cx cy ∧ m.display.read cx cy = true := by
  have width : m.display.width = 64 := h.display.width
  have height : m.display.height = 32 := h.display.height
  constructor
  · rintro ⟨p, mem, lit⟩
    obtain ⟨cx, cy, column, line, same⟩ := h.display.whole.exists_cell p.1 p.2
    rw [width] at column
    rw [height] at line
    refine ⟨cx, by omega, cy, by omega, (covers_iff h (by omega) (by omega)).mp ⟨p, mem, same⟩, ?_⟩
    rwa [Display.read, ← same]
  · rintro ⟨cx, column, cy, line, covers, lit⟩
    obtain ⟨p, mem, same⟩ := (covers_iff h column line).mpr covers
    refine ⟨p, mem, ?_⟩
    rwa [Display.read, same]

theorem cycle_draw (running : m.halted = false) (inside : InProgram m.registers.pc)
    (draws : m.opcode / 0x1000 = 0xD)
    (room : m.opcode % 0x10 = 0 ∨ m.registers.index.toNat + m.opcode % 0x10 ≤ 0x1000) :
    m.cycle.answer = .ok () ∧
      m.cycle.machine =
        { ({ m.fetched with display := (m.display.draw m.drawnPoints).1.markDirty }.setV 15
            (if (m.display.draw m.drawnPoints).2 then 1 else 0)) with cycles := m.cycles + 1 } := by
  have op : m.instruction.op = .draw := (decode_draw_iff m.opcode_lt).mpr draws
  have x : m.instruction.x = registerX m.opcode := (decode_operands m.opcode_lt).1
  have y : m.instruction.y = registerY m.opcode := (decode_operands m.opcode_lt).2.1
  have n : m.instruction.n.val = m.opcode % 0x10 := decode_n m.opcode
  have size : m.memory.size = 0x1000 := h.size
  have lines : m.fetched.sprite m.instruction.n = .ok (m.spriteLines (m.opcode % 0x10)) := by
    rw [← n] at room ⊢
    exact sprite_of_inside (size ▸ room)
  have executes : m.executed =
      .done ({ m.fetched with display := (m.display.draw m.drawnPoints).1.markDirty }.setV 15
        (if (m.display.draw m.drawnPoints).2 then 1 else 0)) [] := by
    simp only [executed, execute, op, lines, x, y]
    rfl
  rw [cycle_of_executed running inside executes]
  exact ⟨rfl, rfl⟩

end Drawn

/-- A cell is flipped if and only if a bit of the sprite falls on it, and the flag tells whether a flipped
cell was lit. The registers are those before the cycle, also where the flag is written into one of them. -/
theorem drawn_after_cycle {m : Machine} (reachable : m.Reachable) (running : m.halted = false)
    (inside : InProgram m.registers.pc) (draws : m.opcode / 0x1000 = 0xD)
    (room : m.opcode % 0x10 = 0 ∨ m.registers.index.toNat + m.opcode % 0x10 ≤ 0x1000) :
    let m' := m.cycle.machine
    let flipped (cx cy : Nat) := m'.display.read cx cy ≠ m.display.read cx cy
    let hit := ∃ cx < 64, ∃ cy < 32, flipped cx cy ∧ m.display.read cx cy = true
    m.cycle.answer = .ok () ∧
    (∀ cx < 64, ∀ cy < 32, flipped cx cy ↔ m.SpriteCovers cx cy) ∧
    (hit → m'.registers.get 15 = 1) ∧ (¬ hit → m'.registers.get 15 = 0) ∧
    m'.display.dirty = true ∧ m'.memory = m.memory ∧ m'.registers.index = m.registers.index ∧
    ∀ k : Fin 16, k ≠ 15 → m'.registers.get k = m.registers.get k := by
  intro m' flipped hit
  have h := reachable.wellFormed
  have distinct := nodup_places_drawnPoints h
  obtain ⟨succeeds, state⟩ := cycle_draw h running inside draws room
  have display : m'.display = (m.display.draw m.drawnPoints).1.markDirty := congrArg (·.display) state
  have read (x y : Int) : m'.display.read x y = (m.display.draw m.drawnPoints).1.read x y := by
    rw [display]
    rfl
  have covered (cx : Nat) (column : cx < 64) (cy : Nat) (line : cy < 32) :
      flipped cx cy ↔ m.SpriteCovers cx cy := by
    rw [← covers_iff h column line, ← h.display.whole.flipped_iff distinct, ← read]
  have flag : m'.registers.get 15 = if (m.display.draw m.drawnPoints).2 then 1 else 0 := by
    rw [show m' = _ from state]
    exact (m.fetched.registers.get_set 15 15 _).trans (if_pos rfl)
  have hit_iff : (m.display.draw m.drawnPoints).2 = true ↔ hit := by
    rw [h.display.whole.draw_hit distinct, Machine.hit_iff h]
    constructor
    · rintro ⟨cx, column, cy, line, covers, lit⟩
      exact ⟨cx, column, cy, line, (covered cx column cy line).mpr covers, lit⟩
    · rintro ⟨cx, column, cy, line, flips, lit⟩
      exact ⟨cx, column, cy, line, (covered cx column cy line).mp flips, lit⟩
  refine ⟨succeeds, covered, ?_, ?_, ?_, ?_, ?_, ?_⟩
  · intro lit
    rw [flag, if_pos (hit_iff.mpr lit)]
  · intro dark
    rw [flag, if_neg (fun lit => dark (hit_iff.mp lit))]
  · rw [display]
    rfl
  · exact congrArg (·.memory) state
  · exact congrArg (·.registers.index) state
  · intro k other
    rw [show m' = _ from state]
    exact (m.registers.get_set 15 k _).trans (if_neg (Ne.symm other))

theorem drawn_after_cycle_wrapped :
    let m := (initial (.ofList [])).after [.load [0xDF, 0xF1] 0x200, .setV 15 62]
    m.Reachable ∧ m.halted = false ∧ InProgram m.registers.pc ∧ m.opcode = 0xDFF1 ∧
      m.registers.index = 0 ∧ m.cycle.machine.display.read 1 30 = true ∧
      m.cycle.machine.display.read 2 30 = false ∧ m.cycle.machine.registers.get 15 = 0 := by
  intro m
  have reachable : m.Reachable := ⟨_, _, rfl⟩
  have set (c : Machine) : c.after [.setV 15 62] = c.setV 15 62 := rfl
  have state : m = (loaded [0xDF, 0xF1]).setV 15 62 := (after_load _ (by decide) _).trans (set _)
  clear_value m
  have running : m.halted = false := by rw [state]; rfl
  have pc : m.registers.pc = (0x200 + 0 : Nat) := by rw [state]; rfl
  have inside : InProgram m.registers.pc := by rw [pc]; decide
  have index : m.registers.index = 0 := by rw [state]; rfl
  have origin : m.registers.get 15 = 62 := by rw [state]; rfl
  have kept (c : Machine) : (c.setV 15 62).memory = c.memory := rfl
  have memory : m.memory = (loaded [0xDF, 0xF1]).memory := (congrArg Machine.memory state).trans (kept _)
  have opcode : m.opcode = 0xDFF1 := opcode_of_loaded memory pc (by decide) (by decide)
  have dark (x y : Int) : m.display.read x y = false := by
    rw [state]
    exact Display.read_blank 64 32 x y
  have line : m.memory.byteAt 0 = 0xF0 := by
    have glyph := reachable.wellFormed.font 0 (by decide)
    simp [Memory.byteAt, glyph, Font.glyphs]
  have draws : m.opcode / 0x1000 = 0xD := by rw [opcode]
  have room : m.registers.index.toNat + m.opcode % 0x10 ≤ 0x1000 := by
    rw [index, opcode]
    decide
  obtain ⟨-, cells, -, flag, -⟩ := drawn_after_cycle reachable running inside draws (.inr room)
  have x : registerX 0xDFF1 = 15 := by decide
  have y : registerY 0xDFF1 = 15 := by decide
  have covers (cx : Nat) : m.SpriteCovers cx 30 ↔
      ∃ c < 8, (0xF0 : UInt8).toNat.testBit (7 - c) = true ∧ cx = (62 + c) % 64 := by
    simp only [SpriteCovers, opcode, x, y, origin, index]
    constructor
    · rintro ⟨r, first, c, hc, lit, column, -⟩
      obtain rfl : r = 0 := Nat.lt_one_iff.mp first
      exact ⟨c, hc, line ▸ lit, column⟩
    · rintro ⟨c, hc, lit, column⟩
      exact ⟨0, Nat.one_pos, c, hc, line.symm ▸ lit, column, rfl⟩
  have flips : m.cycle.machine.display.read 1 30 ≠ m.display.read 1 30 :=
    (cells 1 (by decide) 30 (by decide)).mpr ((covers 1).mpr (by decide))
  have stays : ¬ m.cycle.machine.display.read 2 30 ≠ m.display.read 2 30 :=
    mt (cells 2 (by decide) 30 (by decide)).mp (mt (covers 2).mp (by decide))
  rw [dark] at flips stays
  refine ⟨reachable, running, inside, opcode, index, ?_, ?_, ?_⟩
  · exact Bool.of_not_eq_false flips
  · exact Classical.not_not.mp stays
  · apply flag
    rintro ⟨cx, -, cy, -, -, lit⟩
    rw [dark] at lit
    cases lit

end Machine

end ChipEight

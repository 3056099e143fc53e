import ChipEight.Proofs.CycleFaults

/-!
The font cannot be overwritten and can always be drawn. Whatever is written, the bytes in front of the
program area stay those of the font, so an index register that was set to a glyph goes on pointing to it.
-/

namespace ChipEight

def Font.glyph (digit : Nat) : List UInt8 :=
  (glyphs.drop (glyphSize * digit)).take glyphSize

namespace Memory

inductive Write where
  | byte (a v : Int)
  | block (a : Int) (vs : List Int)
  | load (rom : List Int) (offset : Int)
  | clear

def write (m : Memory) : Write → Except Failure Memory
  | .byte a v =>
    match m.set a (lowByte v) with
    | .error f => .error (.fault f)
    | .ok m' => .ok m'
  | .block a vs =>
    match m.writeBlock a (vs.map lowByte) with
    | .error f => .error (.fault f)
    | .ok m' => .ok m'
  | .load rom offset =>
    match bytesOfInts? rom with
    | .error e => .error (.argument e)
    | .ok bs =>
      match m.load bs offset with
      | .error r => .error (.romTooLarge r)
      | .ok m' => .ok m'
  | .clear => .ok m.clear

/-- Memory after writes, of which those that are refused leave it as it was. -/
def writes (m : Memory) : List Write → Memory
  | [] => m
  | w :: rest =>
    match m.write w with
    | .error _ => m.writes rest
    | .ok m' => m'.writes rest

theorem kept_of_write {m m' : Memory} {w : Write} (h : m.write w = .ok m') : m.Kept m' := by
  cases w with
  | byte a v =>
    simp only [write] at h
    split at h
    · cases h
    next written => exact Except.ok.inj h ▸ kept_of_set written
  | block a vs =>
    simp only [write] at h
    split at h
    · cases h
    next written => exact Except.ok.inj h ▸ kept_of_writeBlock written
  | load rom offset =>
    simp only [write] at h
    split at h
    · cases h
    · split at h
      · cases h
      next loaded => exact Except.ok.inj h ▸ kept_of_load loaded
  | clear => exact Except.ok.inj h ▸ m.kept_clear

theorem kept_writes (m : Memory) (ws : List Write) : m.Kept (m.writes ws) := by
  induction ws generalizing m with
  | nil => exact .refl m
  | cons w rest ih =>
    rw [writes]
    split
    · exact ih m
    next m' written => exact (kept_of_write written).trans (ih m')

theorem HasFont.readBlock_glyph {m : Memory} (font : m.HasFont) {digit : Nat} (h : digit < 16) :
    m.readBlock (Font.glyphSize * digit : Nat) 5 = .ok (Font.glyph digit) := by
  have room : 80 ≤ m.size := font.size_le
  -- the glyph is a slice of the font, which is a slice of memory
  have glyphs : Font.glyphs = m.bytes.toList.take 80 := by
    have bytes := congrArg Array.toList font.extract_eq
    simpa [Font.size] using bytes.symm
  have first : m.Valid (Font.glyphSize * digit : Nat) := by
    simp only [Valid, Font.glyphSize]
    omega
  have last : m.Valid ((Font.glyphSize * digit : Nat) + 5 - 1) := by
    simp only [Valid, Font.glyphSize]
    omega
  have place : ((Font.glyphSize * digit : Nat) + 5 : Int).toNat = Font.glyphSize * digit + 5 := by omega
  have inside : 5 ≤ 80 - 5 * digit := by omega
  simp only [readBlock, readFault?, first, last, if_true, Int.toNat_natCast, place, Array.toList_extract,
    List.extract_eq_take_drop, Nat.add_sub_cancel_left]
  rw [Font.glyph, glyphs, List.drop_take, List.take_take, Font.glyphSize, Nat.min_eq_left inside]

end Memory

namespace Machine

theorem cycle_glyph {m : Machine} (running : m.halted = false) (inside : InProgram m.registers.pc)
    {x : Fin 16} (opcode : m.opcode = 0xF029 + 0x100 * x.val) :
    m.cycle.answer = .ok () ∧
      m.cycle.machine.registers.index.toNat =
        Font.glyphSize * ((m.registers.get x).toNat % 16) := by
  have op : m.instruction.op = .glyph := by
    refine (decode_op_iff .glyph nofun m.opcode_lt).mpr ?_
    change _ ∧ _
    omega
  have register : m.instruction.x = x := by
    apply Fin.ext
    rw [instruction, decode_x]
    omega
  have succeeds : m.executed.answer = .ok () := by
    simp only [executed, execute, op]
    rfl
  have index : m.executed.machine.registers.index =
      lowWord (Font.glyphAddress (lowNibble (m.registers.get x))) := by
    rw [executed, execute_index, op, register]
    rfl
  rw [cycle_of_success running inside succeeds]
  refine ⟨rfl, ?_⟩
  rw [Outcome.machine_done, index, toNat_lowWord]
  simp only [Font.glyphAddress, Font.glyphSize, lowNibble, val_nibble]
  omega

theorem cycle_draw_of_inside {m : Machine} (h : m.WellFormed) (running : m.halted = false)
    (inside : InProgram m.registers.pc) (opcode : m.opcode / 0x1000 = 0xD)
    (room : m.registers.index.toNat + m.opcode % 0x10 ≤ 0x1000) : m.cycle.answer = .ok () := by
  have reads : blockRead m.opcode = m.opcode % 0x10 := by rw [blockRead, if_pos opcode]
  have writes : blockWritten m.opcode = 0 := by
    rw [blockWritten, if_neg (by omega), if_neg (by omega)]
  exact cycle_ok_of_inside h running inside (by omega) (by omega) writes (.inr (reads ▸ room))

/-- The bytes of the font stay in front of everything, whatever is run or written, in memory of any size.
So an opcode that selects a digit leaves the index register at its glyph, and as long as the register is not
changed the glyph can be read there and drawn. -/
theorem font_kept_and_drawable :
    (∀ random ops, ((initial random).after ops).memory.bytes.extract 0 0x50 = Font.glyphs.toArray) ∧
    (∀ (size : Nat) (ws : List Memory.Write),
      let m := (Memory.ofSize size).writes ws
      m.size = max size 0x50 ∧ m.bytes.extract 0 0x50 = Font.glyphs.toArray) ∧
    ∀ m : Machine, m.Reachable → m.halted = false → InProgram m.registers.pc →
      ∀ x : Fin 16, m.opcode = 0xF029 + 0x100 * x.val →
        m.cycle.answer = .ok () ∧
        ∀ later,
          let s := m.cycle.machine.after later
          s.registers.index = m.cycle.machine.registers.index →
          s.memory.readBlock s.registers.index.toNat 5 =
              .ok (Font.glyph ((m.registers.get x).toNat % 16)) ∧
            (s.halted = false → InProgram s.registers.pc → s.opcode / 0x1000 = 0xD →
              s.opcode % 0x10 = 5 → s.cycle.answer = .ok ()) := by
  refine ⟨?_, ?_, ?_⟩
  · intro random ops
    exact (wellFormed_after (wellFormed_initial random) ops).font.extract_eq
  · intro size ws m
    have kept := (Memory.ofSize size).kept_writes ws
    exact ⟨kept.size.trans (Memory.size_ofSize size), (kept.font (Memory.hasFont_ofSize size)).extract_eq⟩
  · intro m reachable running inside x opcode
    obtain ⟨succeeds, selected⟩ := cycle_glyph running inside opcode
    refine ⟨succeeds, ?_⟩
    intro later s same
    have wellFormed : s.WellFormed := wellFormed_after (wellFormed_cycle reachable.wellFormed) later
    have digit : (m.registers.get x).toNat % 16 < 16 := Nat.mod_lt _ (by decide)
    have index : s.registers.index.toNat = Font.glyphSize * ((m.registers.get x).toNat % 16) := by
      rw [same, selected]
    refine ⟨by rw [index]; exact wellFormed.font.readBlock_glyph digit, ?_⟩
    intro s_running s_inside draws lines
    apply cycle_draw_of_inside wellFormed s_running s_inside draws
    rw [index, lines, Font.glyphSize]
    omega

theorem font_kept_and_drawable_zero :
    let m := loaded [0xF0, 0x29, 0xD0, 0x05]
    let s := m.cycle.machine
    m.Reachable ∧ s.memory.readBlock s.registers.index.toNat 5 = .ok [0xF0, 0x90, 0x90, 0x90, 0xF0] ∧
      s.opcode = 0xD005 ∧ s.cycle.answer = .ok () := by
  intro m s
  have reachable : m.Reachable :=
    ⟨_, [.load [0xF0, 0x29, 0xD0, 0x05] 0x200], (after_load _ (by decide) []).symm⟩
  have inside : InProgram m.registers.pc := by decide
  have opcode : m.opcode = 0xF029 :=
    wordAt_loaded [0xF0, 0x29, 0xD0, 0x05] (by decide) 0 (by decide)
  have digit : (m.registers.get 0).toNat % 16 = 0 := rfl
  have state : s = _ := congrArg Outcome.machine (cycle_of_opcode rfl inside opcode rfl)
  have s_running : s.halted = false := by
    rw [state]
    exact execute_halted _ _
  have s_inside : InProgram s.registers.pc := by
    rw [state]
    decide
  have s_opcode : s.opcode = 0xD005 := by
    rw [state]
    exact wordAt_loaded [0xF0, 0x29, 0xD0, 0x05] (by decide) 2 (by decide)
  obtain ⟨-, drawable⟩ := font_kept_and_drawable.2.2 m reachable rfl inside 0 opcode
  have nothing : m.cycle.machine.after [] = s := after_nil s
  obtain ⟨glyph, draws⟩ := drawable [] (by rw [nothing])
  rw [nothing, digit] at glyph
  rw [nothing, s_opcode] at draws
  exact ⟨reachable, glyph, s_opcode, draws s_running s_inside (by decide) (by decide)⟩

end Machine

end ChipEight

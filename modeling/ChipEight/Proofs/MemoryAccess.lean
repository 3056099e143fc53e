import ChipEight.Memory
import Mathlib.Order.Bounds.Defs

/-!
Exactly when accesses to memory fault and with which address, and what is left in memory where they do
not: every byte of a splice, the size, and the font.
-/

namespace ChipEight.Memory

def Writable (m : Memory) (a : Int) : Prop :=
  Font.size ≤ a ∧ a < m.size

theorem readBlock_eq_error_iff (m : Memory) {a length : Int} (nonneg : 0 ≤ a) (pos : 0 < length)
    (f : Fault) :
    m.readBlock a length = .error f ↔
      m.size < a + length ∧
        f = .memoryAccess (if m.size ≤ a then a else a + length - 1) .outOfRange := by
  have first : m.Valid a ↔ ¬ (m.size : Int) ≤ a := by simp only [Valid]; omega
  have last : m.Valid (a + length - 1) ↔ ¬ m.size < a + length := by simp only [Valid]; omega
  simp only [readBlock, readFault?, first, last]
  -- the first address is checked first, so where both ends are outside it is the one named
  by_cases outside : (m.size : Int) ≤ a
  · have beyond : m.size < a + length := by omega
    simp [outside, beyond, eq_comm]
  · by_cases beyond : m.size < a + length <;> simp [outside, beyond, eq_comm]

theorem readBlock_of_inside (m : Memory) {a n : Nat} (pos : 0 < n) (fits : a + n ≤ m.size) :
    m.readBlock a n = .ok ((List.range n).map fun k => m.byteAt (a + k : Nat)) := by
  have first : m.Valid a := by simp only [Valid]; omega
  have last : m.Valid (a + n - 1) := by simp only [Valid]; omega
  have behind : ((a : Int) + n).toNat = a + n := by omega
  simp only [readBlock, readFault?, if_pos first, if_pos last, Int.toNat_natCast, behind]
  congr 1
  apply List.ext_getElem
  · simp only [size] at fits
    simp only [Array.length_toList, Array.size_extract, List.length_map, List.length_range]
    omega
  · intro k hk hk'
    simp only [List.length_map, List.length_range] at hk'
    have inside : a + k < m.bytes.size := by
      simp only [size] at fits
      omega
    have nonneg : ¬ ((a + k : Nat) : Int) < 0 := by omega
    rw [Array.getElem_toList, Array.getElem_extract, List.getElem_map, List.getElem_range, byteAt,
      if_neg nonneg, Int.toNat_natCast, Array.getD_eq_getD_getElem?, Array.getElem?_eq_getElem inside,
      Option.getD_some]

theorem writeFault?_eq_none_iff (m : Memory) (a : Int) : m.writeFault? a = none ↔ m.Writable a := by
  simp only [writeFault?, Writable]
  by_cases valid : m.Valid a
  · have high := valid.2
    simp only [valid, not_true_eq_false, if_false, ite_eq_right_iff, reduceCtorEq, imp_false]
    omega
  · simp only [valid, not_false_eq_true, if_true, reduceCtorEq, false_iff]
    simp only [Valid, Font.size] at valid ⊢
    omega

theorem writeFault?_eq_some_iff (m : Memory) {a : Int} (nonneg : 0 ≤ a) (f : Fault)
    (font : Font.size ≤ m.size) :
    m.writeFault? a = some f ↔
      ¬ m.Writable a ∧ f = .memoryAccess a (if a < Font.size then .fontReadOnly else .outOfRange) := by
  simp only [writeFault?, Writable, Valid]
  by_cases low : a < Font.size
  · have inside : a < m.size := by omega
    simp [low, inside, nonneg, eq_comm]
  · by_cases inside : a < m.size
    · simp [low, inside, nonneg]
    · simp [low, inside, eq_comm]

theorem findSome?_range_eq_some_iff {α : Type} (g : Nat → Option α) (n : Nat) (b : α) :
    (List.range n).findSome? g = some b ↔ ∃ k < n, g k = some b ∧ ∀ j < k, g j = none := by
  induction n with
  | zero => simp
  | succ n ih =>
    rw [List.range_succ, List.findSome?_append, Option.or_eq_some_iff, ih, List.findSome?_eq_none_iff]
    simp only [List.mem_range, List.findSome?_cons, List.findSome?_nil]
    constructor
    · rintro (⟨k, hk, found⟩ | ⟨none, found⟩)
      · exact ⟨k, by omega, found⟩
      · refine ⟨n, by omega, ?_, none⟩
        cases h : g n <;> simp_all
    · rintro ⟨k, hk, found, none⟩
      by_cases last : k = n
      · subst last
        exact .inr ⟨none, by simp [found]⟩
      · exact .inl ⟨k, by omega, found, none⟩

theorem blockFault?_eq_none_iff (m : Memory) (a : Int) (n : Nat) :
    m.blockFault? a n = none ↔ ∀ k < n, m.Writable (a + (k : Int)) := by
  simp [blockFault?, List.findSome?_eq_none_iff, writeFault?_eq_none_iff]

theorem blockFault?_eq_some_iff (m : Memory) {a : Int} (nonneg : 0 ≤ a) (n : Nat) (f : Fault)
    (font : Font.size ≤ m.size) :
    m.blockFault? a n = some f ↔
      ∃ b, IsLeast {b | a ≤ b ∧ b < a + n ∧ ¬ m.Writable b} b ∧
        f = .memoryAccess b (if b < Font.size then .fontReadOnly else .outOfRange) := by
  rw [blockFault?, findSome?_range_eq_some_iff]
  simp only [writeFault?_eq_none_iff]
  constructor
  · rintro ⟨k, hk, found, before⟩
    obtain ⟨bad, rfl⟩ := (m.writeFault?_eq_some_iff (by omega) f font).mp found
    -- every lower address of the block was tried before, so it can be written
    refine ⟨a + (k : Int), ⟨⟨by omega, by omega, bad⟩, ?_⟩, rfl⟩
    rintro b ⟨low, -, hb⟩
    refine Int.not_lt.mp fun less => ?_
    have writable := before (b - a).toNat (by omega)
    rw [show a + ((b - a).toNat : Int) = b by omega] at writable
    exact hb writable
  · rintro ⟨b, ⟨⟨low, high, bad⟩, least⟩, rfl⟩
    have place : a + ((b - a).toNat : Int) = b := by omega
    refine ⟨(b - a).toNat, by omega, ?_, ?_⟩
    · rw [place]
      exact (m.writeFault?_eq_some_iff (by omega) _ font).mpr ⟨bad, rfl⟩
    · intro j hj
      refine Classical.byContradiction fun unwritable => ?_
      have lower := least ⟨by omega, by omega, unwritable⟩
      omega

theorem blockFault?_eq_none_iff_of_pos (m : Memory) (a : Int) {n : Nat} (pos : 0 < n) :
    m.blockFault? a n = none ↔ Font.size ≤ a ∧ a + n ≤ m.size := by
  rw [blockFault?_eq_none_iff]
  constructor
  · intro writable
    have first := (writable 0 pos).1
    have last := (writable (n - 1) (by omega)).2
    omega
  · rintro ⟨low, high⟩ k hk
    exact ⟨by omega, by omega⟩

theorem blockFault?_of_size {m m' : Memory} (size : m'.size = m.size) (a : Int) (n : Nat) :
    m'.blockFault? a n = m.blockFault? a n := by
  have valid (b : Int) : m'.Valid b ↔ m.Valid b := by rw [Valid, Valid, size]
  simp only [blockFault?, writeFault?, valid]

theorem set_eq_error_iff (m : Memory) (a : Int) (b : UInt8) (f : Fault) :
    m.set a b = .error f ↔ m.writeFault? a = some f := by
  simp only [set]
  split <;> simp_all

theorem writeBlock_eq_error_iff (m : Memory) (a : Int) (bs : List UInt8) (f : Fault) :
    m.writeBlock a bs = .error f ↔ m.blockFault? a bs.length = some f := by
  simp only [writeBlock]
  split <;> simp_all

theorem splice_nil (m : Memory) (start : Nat) : m.splice start [] = m := by
  simp [splice, Array.extract_eq_self_of_le (Nat.le_max_right start m.bytes.size)]

theorem splice_of_writeBlock {m m' : Memory} {a : Int} {bs : List UInt8}
    (h : m.writeBlock a bs = .ok m') :
    bs = [] ∧ m' = m ∨ Font.size ≤ a ∧ a + bs.length ≤ m.size ∧ m' = m.splice a.toNat bs := by
  simp only [writeBlock] at h
  split at h
  · cases h
  next free =>
    obtain rfl := Except.ok.inj h
    cases bs with
    | nil => exact .inl ⟨rfl, m.splice_nil a.toNat⟩
    | cons b bs =>
      obtain ⟨low, high⟩ := (m.blockFault?_eq_none_iff_of_pos a (by simp)).mp free
      exact .inr ⟨low, high, rfl⟩

theorem getElem?_splice (m : Memory) {start : Nat} {bs : List UInt8}
    (fits : start + bs.length ≤ m.size) (k : Nat) :
    (m.splice start bs).bytes[k]? =
      if k < start then m.bytes[k]?
      else if k < start + bs.length then bs[k - start]? else m.bytes[k]? := by
  simp only [size] at fits
  have inside : min start m.bytes.size = start := by omega
  simp only [splice, Array.getElem?_append, Array.getElem?_extract, Array.size_extract,
    List.getElem?_toArray, Array.size_append, List.size_toArray, inside, Nat.sub_zero, Nat.zero_add,
    Nat.min_self]
  by_cases before : k < start
  · have inFront : k < start + bs.length := by omega
    simp [before, inFront]
  · by_cases within : k < start + bs.length
    · simp [before, within]
    · have place : start + bs.length + (k - (start + bs.length)) = k := by omega
      simp only [before, within, if_false, place]
      split
      · rfl
      · rw [Array.getElem?_eq_none (by omega)]

theorem getElem?_of_writeBlock {m s : Memory} {a : Nat} {bs : List UInt8}
    (written : m.writeBlock a bs = .ok s) (k : Nat) :
    s.bytes[k]? = if a ≤ k ∧ k < a + bs.length then bs[k - a]? else m.bytes[k]? := by
  rcases splice_of_writeBlock written with ⟨rfl, rfl⟩ | ⟨-, fits, rfl⟩
  · rw [if_neg (by simp)]
  · rw [Int.toNat_natCast, getElem?_splice m (by omega)]
    grind

theorem splice_singleton (m : Memory) {start : Nat} (inside : start < m.size) (b : UInt8) :
    m.splice start [b] = ⟨m.bytes.setIfInBounds start b⟩ := by
  rw [Memory.mk.injEq]
  apply Array.ext_getElem?
  intro k
  rw [getElem?_splice m inside, Array.getElem?_setIfInBounds]
  rcases Nat.lt_trichotomy k start with before | rfl | behind
  · rw [if_pos before, if_neg (by omega)]
  · have place : k < m.bytes.size := inside
    simp [place]
  · rw [if_neg (by omega), if_neg (by simp only [List.length_singleton]; omega), if_neg (by omega)]

theorem set_eq_ok_iff (m m' : Memory) (a : Int) (b : UInt8) :
    m.set a b = .ok m' ↔ m.Writable a ∧ m' = m.splice a.toNat [b] := by
  rw [← writeFault?_eq_none_iff]
  simp only [set]
  cases free : m.writeFault? a with
  | some f => simp
  | none =>
    obtain ⟨low, high⟩ := (m.writeFault?_eq_none_iff a).mp free
    rw [m.splice_singleton (by omega)]
    simp [eq_comm]

def HasFont (m : Memory) : Prop :=
  ∀ k < Font.size, m.bytes[k]? = Font.glyphs[k]?

theorem hasFont_ofSize (size : Nat) : (ofSize size).HasFont := by
  intro k hk
  have inside : k < Font.glyphs.length := hk
  simp [ofSize, Array.getElem?_append, inside]

theorem HasFont.splice {m : Memory} (font : m.HasFont) {start : Nat} {bs : List UInt8}
    (behind : Font.size ≤ start) (fits : start + bs.length ≤ m.size) :
    (m.splice start bs).HasFont := by
  intro k hk
  rw [getElem?_splice m fits, if_pos (by omega)]
  exact font k hk

/-- What every way to change memory keeps: its size and the font. -/
structure Kept (m m' : Memory) : Prop where
  size : m'.size = m.size
  font : m.HasFont → m'.HasFont

theorem Kept.refl (m : Memory) : m.Kept m :=
  ⟨rfl, id⟩

theorem Kept.trans {a b c : Memory} (first : a.Kept b) (second : b.Kept c) : a.Kept c :=
  ⟨second.size.trans first.size, fun font => second.font (first.font font)⟩

theorem kept_splice (m : Memory) {start : Nat} {bs : List UInt8} (behind : Font.size ≤ start)
    (fits : start + bs.length ≤ m.size) : m.Kept (m.splice start bs) :=
  ⟨size_splice m fits, fun font => font.splice behind fits⟩

theorem kept_of_set {m m' : Memory} {a : Int} {b : UInt8} (h : m.set a b = .ok m') : m.Kept m' := by
  obtain ⟨⟨behind, inside⟩, rfl⟩ := (m.set_eq_ok_iff m' a b).mp h
  exact m.kept_splice (by omega) (by simp only [List.length_singleton]; omega)

theorem kept_of_writeBlock {m m' : Memory} {a : Int} {bs : List UInt8}
    (h : m.writeBlock a bs = .ok m') : m.Kept m' := by
  rcases splice_of_writeBlock h with ⟨-, rfl⟩ | ⟨low, high, rfl⟩
  · exact .refl m'
  · exact m.kept_splice (by omega) (by omega)

def attempt (m : Memory) (a : Int) (bs : List UInt8) : Memory :=
  match m.writeBlock a bs with
  | .error _ => m
  | .ok m' => m'

theorem attempt_nil (m : Memory) (a : Int) : m.attempt a [] = m := by
  simp only [attempt]
  split
  · rfl
  next written =>
    rcases splice_of_writeBlock written with ⟨-, rfl⟩ | ⟨-, -, rfl⟩
    · rfl
    · exact m.splice_nil a.toNat

theorem kept_attempt (m : Memory) (a : Int) (bs : List UInt8) : m.Kept (m.attempt a bs) := by
  simp only [attempt]
  split
  · exact .refl m
  next written => exact kept_of_writeBlock written

theorem bytes_attempt_of_ne {m : Memory} {a k : Nat} {bs : List UInt8}
    (changed : (m.attempt a bs).bytes[k]? ≠ m.bytes[k]?) : a ≤ k ∧ k < a + bs.length := by
  simp only [attempt] at changed
  split at changed
  · exact absurd rfl changed
  next m' written =>
    rw [getElem?_of_writeBlock written] at changed
    exact Classical.byContradiction fun outside => changed (if_neg outside)

theorem load_eq_ok_iff (m m' : Memory) (rom : List UInt8) (offset : Int) :
    m.load rom offset = .ok m' ↔
      Font.size ≤ offset ∧ offset + rom.length ≤ m.size ∧ m' = m.splice offset.toNat rom := by
  simp only [load]
  split
  · simp only [reduceCtorEq, false_iff]
    omega
  next fits =>
    have range : Font.size ≤ offset ∧ offset + rom.length ≤ m.size := by omega
    simp [range, eq_comm]

theorem loads_iff (m : Memory) (rom : List UInt8) (offset : Int) :
    (∃ m', m.load rom offset = .ok m') ↔ Font.size ≤ offset ∧ offset + rom.length ≤ m.size := by
  simp only [load_eq_ok_iff, exists_and_left, exists_eq, and_true]

theorem load_eq_error_iff (m : Memory) (rom : List UInt8) (offset : Int) (r : RomTooLarge) :
    m.load rom offset = .error r ↔
      ¬ (Font.size ≤ offset ∧ offset + rom.length ≤ m.size) ∧ r = ⟨rom.length, offset, m.size⟩ := by
  by_cases fits : Font.size ≤ offset ∧ offset + rom.length ≤ m.size
  · rw [load, if_neg (by omega)]
    simp [fits]
  · rw [load, if_pos (by omega)]
    simp [fits, eq_comm]

theorem kept_of_load {m m' : Memory} {rom : List UInt8} {offset : Int}
    (h : m.load rom offset = .ok m') : m.Kept m' := by
  obtain ⟨behind, fits, rfl⟩ := (m.load_eq_ok_iff m' rom offset).mp h
  exact m.kept_splice (by omega) (by omega)

theorem HasFont.size_le {m : Memory} (font : m.HasFont) : Font.size ≤ m.size := by
  have last : m.bytes[79]? = some 0x80 := font 79 (by decide)
  exact (Array.getElem?_eq_some_iff.mp last).1

theorem HasFont.extract_eq {m : Memory} (font : m.HasFont) :
    m.bytes.extract 0 Font.size = Font.glyphs.toArray := by
  have room := font.size_le
  simp only [size] at room
  apply Array.ext_getElem?
  intro k
  rw [Array.getElem?_extract]
  by_cases glyph : k < Font.size
  · rw [if_pos (by omega), Nat.zero_add, font k glyph, List.getElem?_toArray]
  · rw [if_neg (by omega), eq_comm, Array.getElem?_eq_none (Nat.not_lt.mp glyph)]

theorem HasFont.clear_eq {m : Memory} (font : m.HasFont) : m.clear = ofSize m.size := by
  rw [clear, ofSize, font.extract_eq]

theorem kept_clear (m : Memory) : m.Kept m.clear :=
  ⟨m.size_clear, fun font => font.clear_eq ▸ hasFont_ofSize m.size⟩

end ChipEight.Memory

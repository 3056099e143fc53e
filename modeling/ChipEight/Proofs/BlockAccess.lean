import ChipEight.Proofs.Loading

/-!
Blocks of memory against single bytes. A block is written as its bytes one after the other are, except that
nothing is written at all if one of them is refused. A block is read if the first and the last of its addresses
can be read, and then it is the bytes in between.
-/

namespace ChipEight.Memory

theorem read_eq_ok_iff (m : Memory) (a : Int) (b : UInt8) :
    m.read a = .ok b ↔ m.Valid a ∧ m.byteAt a = b := by
  simp only [read, readFault?]
  by_cases valid : m.Valid a <;> simp [valid]

theorem read_congr {m m' : Memory} {a : Int} (size : m'.size = m.size) (byte : m'.byteAt a = m.byteAt a) :
    m'.read a = m.read a := by
  have valid : m'.Valid a ↔ m.Valid a := by rw [Valid, Valid, size]
  simp only [read, readFault?, valid, byte]

structure Replaced (m m' : Memory) (start : Int) (bs : List UInt8) : Prop where
  size : m'.size = m.size
  inside : ∀ k (h : k < bs.length), m'.read (start + k) = .ok bs[k]
  outside : ∀ a : Int, a < start ∨ start + bs.length ≤ a → m'.read a = m.read a

theorem Replaced.nil (m : Memory) (start : Int) : m.Replaced m start [] where
  size := rfl
  inside := nofun
  outside _ _ := rfl

theorem replaced_splice (m : Memory) {start : Nat} {bs : List UInt8} (fits : start + bs.length ≤ m.size) :
    m.Replaced (m.splice start bs) start bs where
  size := m.size_splice fits
  inside := by
    intro k h
    have place : (start : Int) + k = (start + k : Nat) := by omega
    rw [read_eq_ok_iff, Valid, m.size_splice fits, place, m.byteAt_splice fits, if_pos (by omega),
      Nat.add_sub_cancel_left, List.getD_eq_getElem?_getD, List.getElem?_eq_getElem h]
    exact ⟨by omega, rfl⟩
  outside := by
    intro a other
    apply read_congr (m.size_splice fits)
    by_cases negative : a < 0
    · rw [byteAt, byteAt, if_pos negative, if_pos negative]
    · obtain ⟨k, rfl⟩ := Int.eq_ofNat_of_zero_le (Int.not_lt.mp negative)
      rw [m.byteAt_splice fits, if_neg (by omega)]

theorem replaced_of_set {m m' : Memory} {a : Int} {b : UInt8} (written : m.set a b = .ok m') :
    m.Replaced m' a [b] := by
  obtain ⟨⟨low, high⟩, rfl⟩ := (m.set_eq_ok_iff m' a b).mp written
  obtain ⟨start, rfl⟩ := Int.eq_ofNat_of_zero_le (show 0 ≤ a by omega)
  exact m.replaced_splice (by simp only [List.length_singleton]; omega)

theorem replaced_of_writeBlock {m m' : Memory} {a : Int} {bs : List UInt8}
    (written : m.writeBlock a bs = .ok m') : m.Replaced m' a bs := by
  rcases splice_of_writeBlock written with ⟨rfl, rfl⟩ | ⟨low, high, rfl⟩
  · exact .nil m' a
  · obtain ⟨start, rfl⟩ := Int.eq_ofNat_of_zero_le (show 0 ≤ a by omega)
    exact m.replaced_splice (by omega)

theorem eq_of_read {m m' : Memory} (size : m.size = m'.size) (same : ∀ a, m.read a = m'.read a) :
    m = m' := by
  rw [Memory.mk.injEq]
  apply Array.ext size
  intro k inside inside'
  have valid : m.Valid k := ⟨by omega, by simp only [Memory.size]; omega⟩
  have byte := (m'.read_eq_ok_iff k _).mp ((same k).symm.trans ((m.read_eq_ok_iff k _).mpr ⟨valid, rfl⟩))
  have nonneg : ¬ (k : Int) < 0 := by omega
  simpa [byteAt, nonneg, inside, inside'] using byte.2.symm

theorem Replaced.unique {m m₁ m₂ : Memory} {start : Int} {bs : List UInt8}
    (first : m.Replaced m₁ start bs) (second : m.Replaced m₂ start bs) : m₁ = m₂ := by
  apply eq_of_read (first.size.trans second.size.symm)
  intro a
  by_cases within : start ≤ a ∧ a < start + bs.length
  · have place : start + ((a - start).toNat : Int) = a := by omega
    have h : (a - start).toNat < bs.length := by omega
    have one := first.inside _ h
    have two := second.inside _ h
    rw [place] at one two
    rw [one, two]
  · rw [first.outside a (by omega), second.outside a (by omega)]

theorem Replaced.cons {m m₁ m₂ : Memory} {start : Int} {b : UInt8} {bs : List UInt8}
    (first : m.Replaced m₁ start [b]) (rest : m₁.Replaced m₂ (start + 1) bs) :
    m.Replaced m₂ start (b :: bs) where
  size := rest.size.trans first.size
  inside := by
    intro k h
    cases k with
    | zero => exact (rest.outside _ (.inl (by omega))).trans (first.inside 0 Nat.one_pos)
    | succ k =>
      have place : start + (k + 1 : Nat) = start + 1 + k := by omega
      rw [place]
      exact rest.inside k (Nat.lt_of_succ_lt_succ h)
  outside := by
    intro a other
    simp only [List.length_cons] at other
    rw [rest.outside a (by omega), first.outside a (by simp only [List.length_singleton]; omega)]

/-- Values written one after the other from an address on: what they leave in memory, up to the first that is
refused, and the fault of that one. -/
def writeEach (m : Memory) (a : Int) : List Int → Memory × Option Fault
  | [] => (m, none)
  | v :: vs =>
    match m.set a (lowByte v) with
    | .error f => (m, some f)
    | .ok m' => m'.writeEach (a + 1) vs

theorem blockFault?_succ (m : Memory) (a : Int) (n : Nat) :
    m.blockFault? a (n + 1) = (m.writeFault? a).or (m.blockFault? (a + 1) n) := by
  have next (k : Nat) : a + 1 + (k : Int) = a + (k + 1 : Nat) := by omega
  simp only [blockFault?, List.range_succ_eq_map, List.findSome?_cons, List.findSome?_map, Function.comp_def,
    next]
  cases first : m.writeFault? (a + (0 : Nat)) <;> simp_all

theorem writeEach_fault (m : Memory) (a : Int) (vs : List Int) :
    (m.writeEach a vs).2 = m.blockFault? a vs.length := by
  -- the block is checked on the memory in front of all writes, and none of them changes the size
  induction vs generalizing m a with
  | nil => rfl
  | cons v vs ih =>
    rw [List.length_cons, blockFault?_succ, writeEach]
    cases written : m.set a (lowByte v) with
    | error f => rw [(m.set_eq_error_iff a _ f).mp written, Option.some_or]
    | ok m' =>
      obtain ⟨writable, -⟩ := (m.set_eq_ok_iff m' a _).mp written
      rw [(m.writeFault?_eq_none_iff a).mpr writable, Option.none_or,
        ← blockFault?_of_size (replaced_of_set written).size]
      exact ih m' (a + 1)

theorem replaced_of_writeEach {m m' : Memory} {a : Int} {vs : List Int}
    (written : m.writeEach a vs = (m', none)) : m.Replaced m' a (vs.map lowByte) := by
  induction vs generalizing m a with
  | nil =>
    obtain rfl := congrArg Prod.fst written
    exact .nil m a
  | cons v vs ih =>
    rw [writeEach] at written
    split at written
    · cases written
    next first => exact (replaced_of_set first).cons (ih written)

theorem writeBlock_eq_ok_iff (m m' : Memory) (a : Int) (vs : List Int) :
    m.writeBlock a (vs.map lowByte) = .ok m' ↔ m.writeEach a vs = (m', none) := by
  constructor
  · intro written
    have free : (m.writeEach a vs).2 = none := by
      rw [writeEach_fault, ← List.length_map lowByte]
      cases refused : m.blockFault? a (vs.map lowByte).length with
      | none => rfl
      | some f =>
        rw [(m.writeBlock_eq_error_iff a _ f).mpr refused] at written
        cases written
    have each : m.writeEach a vs = ((m.writeEach a vs).1, none) := Prod.ext rfl free
    rw [each, (replaced_of_writeEach each).unique (replaced_of_writeBlock written)]
  · intro each
    have free : m.blockFault? a (vs.map lowByte).length = none := by
      rw [List.length_map, ← writeEach_fault, each]
    have written : m.writeBlock a (vs.map lowByte) = .ok (m.splice a.toNat (vs.map lowByte)) := by
      rw [writeBlock, free]
    rw [written, (replaced_of_writeBlock written).unique (replaced_of_writeEach each)]

theorem writeBlock_eq_error_iff_each (m : Memory) (a : Int) (vs : List Int) (f : Fault) :
    m.writeBlock a (vs.map lowByte) = .error f ↔ (m.writeEach a vs).2 = some f := by
  rw [writeBlock_eq_error_iff, List.length_map, writeEach_fault]

theorem writeEach_fault_iff (m : Memory) (a : Int) (vs : List Int) (f : Fault) :
    (m.writeEach a vs).2 = some f ↔
      ∃ k, ∃ h : k < vs.length, ∃ m', m.writeEach a (vs.take k) = (m', none) ∧
        m'.set (a + k) (lowByte vs[k]) = .error f := by
  induction vs generalizing m a with
  | nil => simp [writeEach]
  | cons v vs ih =>
    rw [writeEach]
    cases first : m.set a (lowByte v) with
    | error g =>
      -- the first write is refused, so no other one is made
      constructor
      · intro fault
        obtain rfl := Option.some.inj fault
        exact ⟨0, Nat.succ_pos _, m, rfl, by simpa using first⟩
      · rintro ⟨k, h, m', before, refused⟩
        cases k with
        | zero =>
          obtain rfl : m = m' := congrArg Prod.fst before
          simpa [first] using refused
        | succ k => simp [writeEach, first] at before
    | ok m₁ =>
      simp only [ih m₁ (a + 1)]
      have place (k : Nat) : a + (k + 1 : Nat) = a + 1 + k := by omega
      constructor
      · rintro ⟨k, h, m', before, refused⟩
        refine ⟨k + 1, Nat.succ_lt_succ h, m', ?_, ?_⟩
        · simpa [writeEach, first] using before
        · rw [place]
          exact refused
      · rintro ⟨k, h, m', before, refused⟩
        cases k with
        | zero =>
          obtain rfl : m = m' := congrArg Prod.fst before
          simp [first] at refused
        | succ k =>
          rw [place] at refused
          exact ⟨k, Nat.lt_of_succ_lt_succ h, m', by simpa [writeEach, first] using before, refused⟩

theorem readBlock_of_valid (m : Memory) {a length : Int} (first : m.Valid a)
    (last : m.Valid (a + length - 1)) :
    m.readBlock a length = .ok ((List.range length.toNat).map fun k => m.byteAt (a + (k : Nat))) := by
  obtain ⟨start, rfl⟩ := Int.eq_ofNat_of_zero_le first.1
  by_cases empty : length ≤ 0
  · have none : length.toNat = 0 := by omega
    have before : ((start : Int) + length).toNat ≤ start := by omega
    simp [readBlock, readFault?, first, last, none, before]
  · obtain ⟨n, rfl⟩ := Int.eq_ofNat_of_zero_le (show 0 ≤ length by omega)
    have fits := last.2
    have place (k : Nat) : ((start + k : Nat) : Int) = start + k := by omega
    simpa only [place, Int.toNat_natCast] using m.readBlock_of_inside (a := start) (n := n) (by omega) (by omega)

theorem readBlock_eq_ok_iff (m : Memory) (a length : Int) (bs : List UInt8) :
    m.readBlock a length = .ok bs ↔
      m.Valid a ∧ m.Valid (a + length - 1) ∧ bs.length = length.toNat ∧
        ∀ k (h : k < bs.length), m.read (a + k) = .ok bs[k] := by
  by_cases first : m.Valid a
  · by_cases last : m.Valid (a + length - 1)
    · rw [m.readBlock_of_valid first last]
      have valid (k : Nat) (h : k < length.toNat) : m.Valid (a + k) := by
        simp only [Valid] at first last ⊢
        omega
      constructor
      · intro eq
        obtain rfl := Except.ok.inj eq
        refine ⟨first, last, by simp, fun k h => ?_⟩
        rw [read_eq_ok_iff]
        simp only [List.length_map, List.length_range] at h
        simpa using valid k h
      · rintro ⟨-, -, size, bytes⟩
        congr 1
        apply List.ext_getElem
        · simpa using size.symm
        · intro k h h'
          simpa using ((m.read_eq_ok_iff _ _).mp (bytes k h')).2
    · simp [readBlock, readFault?, first, last]
  · simp [readBlock, readFault?, first]

theorem readable_iff (m : Memory) (a : Int) : (∃ b, m.read a = .ok b) ↔ m.Valid a := by
  simp only [read_eq_ok_iff, exists_and_left, exists_eq', and_true]

theorem block_readable_iff (m : Memory) (a length : Int) :
    (∃ bs, m.readBlock a length = .ok bs) ↔ m.Valid a ∧ m.Valid (a + length - 1) := by
  constructor
  · rintro ⟨bs, read⟩
    obtain ⟨first, last, -⟩ := (m.readBlock_eq_ok_iff a length bs).mp read
    exact ⟨first, last⟩
  · rintro ⟨first, last⟩
    exact ⟨_, m.readBlock_of_valid first last⟩

theorem readBlock_eq_error_iff_ends (m : Memory) (a length : Int) (f : Fault) :
    m.readBlock a length = .error f ↔
      ¬ m.Valid a ∧ f = .memoryAccess a .outOfRange ∨
        m.Valid a ∧ ¬ m.Valid (a + length - 1) ∧ f = .memoryAccess (a + length - 1) .outOfRange := by
  simp only [readBlock, readFault?]
  by_cases first : m.Valid a
  · by_cases last : m.Valid (a + length - 1) <;> simp [first, last, eq_comm]
  · simp [first, eq_comm]

/-- A block is written exactly if its values can be written one after the other, and then leaves the same
memory; otherwise it has the fault of the first of these writes that is refused, and nothing is written. A block
is read exactly if its first and its last address can be read, and then it is the bytes in between. -/
theorem block_like_bytes (m : Memory) (a : Int) :
    (∀ vs : List Int,
      let written := m.writeBlock a (vs.map lowByte)
      (∀ m', written = .ok m' ↔ m.writeEach a vs = (m', none)) ∧
      (∀ m', written = .ok m' → m'.size = m.size ∧
        (∀ k (h : k < vs.length), ∃ b, m'.read (a + k) = .ok b ∧ (b.toNat : Int) = vs[k] % 256) ∧
        ∀ b, b < a ∨ a + vs.length ≤ b → m'.read b = m.read b) ∧
      (∀ f, written = .error f ↔
        ∃ k, ∃ h : k < vs.length, ∃ m', m.writeEach a (vs.take k) = (m', none) ∧
          m'.set (a + k) (lowByte vs[k]) = .error f) ∧
      m.attempt a (vs.map lowByte) =
        if (m.writeEach a vs).2 = none then (m.writeEach a vs).1 else m) ∧
    m.writeBlock a [] = .ok m ∧
    ∀ length : Int,
      let read := m.readBlock a length
      ((∃ bs, read = .ok bs) ↔ m.Valid a ∧ m.Valid (a + length - 1)) ∧
      (∀ bs, read = .ok bs → (bs.length : Int) = max 0 length ∧
        ∀ k (h : k < bs.length), m.read (a + k) = .ok bs[k]) ∧
      (∀ f, read = .error f ↔
        ¬ m.Valid a ∧ f = .memoryAccess a .outOfRange ∨
          m.Valid a ∧ ¬ m.Valid (a + length - 1) ∧ f = .memoryAccess (a + length - 1) .outOfRange) ∧
      (1 ≤ length →
        ((∃ bs, read = .ok bs) ↔ ∀ k : Nat, k < length → ∃ b, m.read (a + k) = .ok b)) := by
  refine ⟨fun vs => ⟨?same, ?left, ?refused, ?attempt⟩, ?empty, fun length => ⟨?ends, ?bytes, ?fault, ?each⟩⟩
  case same => exact fun m' => m.writeBlock_eq_ok_iff m' a vs
  case left =>
    intro m' written
    have replaced := replaced_of_writeBlock written
    refine ⟨replaced.size, fun k h => ?_, fun b other => replaced.outside b (by simpa using other)⟩
    have byte := replaced.inside k (by simpa using h)
    refine ⟨_, byte, ?_⟩
    rw [List.getElem_map, toNat_lowByte]
    omega
  case refused =>
    intro f
    rw [writeBlock_eq_error_iff_each, writeEach_fault_iff]
  case attempt =>
    rw [attempt]
    cases written : m.writeBlock a (vs.map lowByte) with
    | error f =>
      have refused := (m.writeBlock_eq_error_iff_each a vs f).mp written
      rw [if_neg (by rw [refused]; exact Option.some_ne_none f)]
    | ok m' => rw [(m.writeBlock_eq_ok_iff m' a vs).mp written, if_pos rfl]
  case empty =>
    exact (m.writeBlock_eq_ok_iff m a []).mpr rfl
  case ends => exact m.block_readable_iff a length
  case bytes =>
    intro bs read
    obtain ⟨-, -, size, bytes⟩ := (m.readBlock_eq_ok_iff a length bs).mp read
    exact ⟨by omega, bytes⟩
  case fault => exact m.readBlock_eq_error_iff_ends a length
  case each =>
    intro pos
    rw [block_readable_iff]
    simp only [readable_iff]
    constructor
    · rintro ⟨first, last⟩ k h
      exact ⟨by have low := first.1; omega, by have high := last.2; omega⟩
    · intro bytes
      obtain ⟨n, rfl⟩ := Int.eq_ofNat_of_zero_le (show 0 ≤ length by omega)
      have first := bytes 0 (by omega)
      have last := bytes (n - 1) (by omega)
      simp only [Valid] at first last ⊢
      omega

end ChipEight.Memory

import ChipEight.Proofs.Execution

/-!
Which operation an opcode has, said by its hexadecimal digits. No opcode has the patterns of two
operations, so the search finds an operation if and only if the opcode has its pattern, in whatever order
the masks are tried.
-/

namespace ChipEight

namespace Form

theorem byte_and_mask :
    ∀ b < 256, b &&& 0xF0 = 16 * (b / 16) ∧ b &&& 0x0F = b % 16 ∧ b &&& 0xFF = b := by
  decide +kernel

theorem word_and (w mask : Nat) :
    w &&& mask = 256 * (w / 256 &&& mask / 256) + (w % 256 &&& mask % 256) := by
  have high : (w &&& mask) / 256 = w / 256 &&& mask / 256 := Nat.and_div_two_pow (n := 8)
  have low : (w &&& mask) % 256 = w % 256 &&& mask % 256 := Nat.and_mod_two_pow (n := 8)
  omega

theorem and_mask (f : Form) {w : Nat} (h : w < 65536) :
    w &&& f.mask =
      match f with
      | .fixed => w
      | .register => 4096 * (w / 4096) + w % 256
      | .registers => 4096 * (w / 4096) + w % 16
      | .registerByte | .sprite | .address => 4096 * (w / 4096) := by
  obtain ⟨highDigit, -, highByte⟩ := byte_and_mask (w / 256) (by omega)
  obtain ⟨-, lowDigit, lowByte⟩ := byte_and_mask (w % 256) (by omega)
  rw [word_and]
  cases f <;> simp only [mask, Nat.reduceDiv, Nat.reduceMod, Nat.and_zero, highDigit, highByte,
    lowDigit, lowByte] <;> omega

end Form

namespace Op

def HasDigits (op : Op) (w : Nat) : Prop :=
  match op.pattern?, op.form with
  | none, _ => False
  | some p, .fixed => w = p
  | some p, .register => w / 4096 = p / 4096 ∧ w % 256 = p % 256
  | some p, .registers => w / 4096 = p / 4096 ∧ w % 16 = p % 16
  | some p, _ => w / 4096 = p / 4096

theorem matches_iff_hasDigits (op : Op) {w : Nat} (h : w < 65536) : op.Matches w ↔ op.HasDigits w := by
  cases op <;> simp only [Matches, HasDigits, pattern?, form, Form.and_mask _ h, Option.some.injEq,
    reduceCtorEq] <;> omega

theorem patterns_disjoint : ∀ a ∈ known, ∀ b ∈ known,
    (a.pattern?.map (· &&& b.form.mask)) = b.pattern?.map (· &&& a.form.mask) → a = b := by
  decide +kernel

theorem known_of_matches {op : Op} {w : Nat} (h : op.Matches w) : op ∈ known := by
  rw [mem_known_iff]
  rintro rfl
  exact not_matches_unknown w h

theorem eq_of_matches {a b : Op} {w : Nat} (ha : a.Matches w) (hb : b.Matches w) : a = b := by
  apply patterns_disjoint a (known_of_matches ha) b (known_of_matches hb)
  simp only [Matches] at ha hb
  rw [ha, hb, Option.map_some, Option.map_some, Nat.and_assoc, Nat.and_assoc,
    Nat.and_comm a.form.mask]

theorem matches_of_under {mask w : Nat} {op : Op} (h : under? mask w = some op) : op.Matches w := by
  have found := List.find?_some h
  simp only [Bool.and_eq_true, decide_eq_true_eq] at found
  exact found.2

theorem under_of_matches {w : Nat} {op : Op} (h : op.Matches w) :
    under? op.form.mask w = some op := by
  cases found : under? op.form.mask w with
  | some a => rw [eq_of_matches (matches_of_under found) h]
  | none =>
    have none := List.find?_eq_none.mp found op (known_of_matches h)
    simp [h] at none

theorem search_of_matches {order : List Nat} {w : Nat} {op : Op} (tried : op.form.mask ∈ order)
    (h : op.Matches w) : search order w = op := by
  cases found : order.findSome? (under? · w) with
  | some a =>
    obtain ⟨mask, -, ha⟩ := List.exists_of_findSome?_eq_some found
    rw [search, found, Option.getD_some, eq_of_matches (matches_of_under ha) h]
  | none =>
    have none := List.findSome?_eq_none_iff.mp found _ tried
    rw [under_of_matches h] at none
    cases none

theorem matches_of_search {order : List Nat} {w : Nat} {op : Op} (h : search order w = op)
    (known : op ≠ unknown) : op.Matches w := by
  cases found : order.findSome? (under? · w) with
  | some a =>
    obtain ⟨mask, -, ha⟩ := List.exists_of_findSome?_eq_some found
    rw [search, found, Option.getD_some] at h
    exact h ▸ matches_of_under ha
  | none =>
    rw [search, found, Option.getD_none] at h
    exact absurd h.symm known

theorem mask_mem_masks (op : Op) : op.form.mask ∈ masks := by
  cases op <;> decide

end Op

theorem decode_op_iff (op : Op) (known : op ≠ .unknown) {w : Nat} (h : w < 65536) :
    (decode w).op = op ↔ op.HasDigits w := by
  have low : ((w : Int) % 65536).toNat = w := by omega
  simp only [decode, Instruction.decodeWith, low, ← Op.matches_iff_hasDigits op h]
  exact ⟨fun found => Op.matches_of_search found known, Op.search_of_matches op.mask_mem_masks⟩

theorem decode_x (w : Nat) : (decode w).x.val = w / 256 % 16 := by
  simp only [decode, Instruction.decodeWith, Operands.ofOpcode, val_nibble]
  omega

theorem decode_n (w : Nat) : (decode w).n.val = w % 16 := by
  simp only [decode, Instruction.decodeWith, Operands.ofOpcode, val_nibble]
  omega

theorem Machine.opcode_lt (m : Machine) : m.opcode < 65536 := by
  have high := (m.memory.byteAt m.registers.pc).toNat_lt
  have low := (m.memory.byteAt (m.registers.pc + 1)).toNat_lt
  simp only [opcode, wordAt]
  omega

theorem Machine.hasDigits_opcode {m : Machine} {op : Op} (decoded : m.instruction.op = op)
    (known : op ≠ .unknown := by decide) : op.HasDigits m.opcode :=
  (decode_op_iff op known m.opcode_lt).mp decoded

end ChipEight

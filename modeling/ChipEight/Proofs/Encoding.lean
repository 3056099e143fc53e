import ChipEight.Proofs.Opcodes

/-!
The table of instructions, read from opcodes to operations and back. The digits of a pattern where operands
lie are zero, so operands are put in by adding them, and are found again in the same digits. Of an opcode
of any size only its word counts, which is its lowest sixteen bits.
-/

namespace ChipEight

namespace Operands

def AgreeOn (f : Form) (i j : Operands) : Prop :=
  match f with
  | .fixed => True
  | .register => i.x = j.x
  | .registers => i.x = j.x ∧ i.y = j.y
  | .registerByte => i.x = j.x ∧ i.kk = j.kk
  | .sprite => i.x = j.x ∧ i.y = j.y ∧ i.n = j.n
  | .address => i.nnn = j.nnn

theorem bounds (i : Operands) :
    i.x.val < 16 ∧ i.y.val < 16 ∧ i.n.val < 16 ∧ i.kk.toNat < 256 ∧ i.nnn.val < 4096 :=
  ⟨i.x.isLt, i.y.isLt, i.n.isLt, i.kk.toNat_lt, i.nnn.isLt⟩

theorem ofOpcode_digits {opcode : Int} {w : Nat} (word : (opcode % 65536).toNat = w) :
    (ofOpcode opcode).x.val = w / 256 % 16 ∧ (ofOpcode opcode).y.val = w / 16 % 16 ∧
      (ofOpcode opcode).n.val = w % 16 ∧ (ofOpcode opcode).kk.toNat = w % 256 ∧
      (ofOpcode opcode).nnn.val = w % 4096 := by
  simp only [ofOpcode, val_nibble, toNat_lowByte]
  omega

theorem ofOpcode_word {opcode : Int} {w : Nat} (word : (opcode % 65536).toNat = w) :
    ofOpcode opcode = ofOpcode w := by
  have x : nibble (opcode / 256) = nibble ((w : Int) / 256) := by
    apply Fin.ext
    simp only [val_nibble]
    omega
  have y : nibble (opcode / 16) = nibble ((w : Int) / 16) := by
    apply Fin.ext
    simp only [val_nibble]
    omega
  have n : nibble opcode = nibble w := by
    apply Fin.ext
    simp only [val_nibble]
    omega
  have kk : lowByte opcode = lowByte w := by
    apply UInt8.toNat_inj.mp
    simp only [toNat_lowByte]
    omega
  have nnn : opcode % 4096 = (w : Int) % 4096 := by omega
  simp only [ofOpcode, x, y, n, kk, nnn]

end Operands

namespace Op

theorem pattern_digits {op : Op} {p : Nat} (h : op.pattern? = some p) :
    p < 65536 ∧
      match op.form with
      | .fixed => True
      | .register => p / 256 % 16 = 0
      | .registers => p / 16 % 256 = 0
      | .registerByte | .sprite | .address => p % 4096 = 0 := by
  cases op <;> simp only [pattern?, reduceCtorEq, Option.some.injEq] at h <;> subst h <;> simp [form]

theorem hasDigits_iff {op : Op} {p : Nat} (h : op.pattern? = some p) (w : Nat) :
    op.HasDigits w ↔
      match op.form with
      | .fixed => w = p
      | .register => w / 4096 = p / 4096 ∧ w % 256 = p % 256
      | .registers => w / 4096 = p / 4096 ∧ w % 16 = p % 16
      | .registerByte | .sprite | .address => w / 4096 = p / 4096 := by
  cases form : op.form <;> simp only [HasDigits, h, form]

theorem add_bits_lt {op : Op} {p : Nat} (h : op.pattern? = some p) (i : Operands) :
    p + i.bits op.form < 65536 := by
  have digits := pattern_digits h
  obtain ⟨x, y, n, kk, nnn⟩ := i.bounds
  cases form : op.form <;> simp only [form, Operands.bits] at digits ⊢ <;> omega

theorem hasDigits_add_bits {op : Op} {p : Nat} (h : op.pattern? = some p) (i : Operands) :
    op.HasDigits (p + i.bits op.form) := by
  have digits := pattern_digits h
  obtain ⟨x, y, n, kk, nnn⟩ := i.bounds
  rw [hasDigits_iff h]
  cases form : op.form <;> simp only [form, Operands.bits] at digits ⊢ <;> omega

theorem agreeOn_add_bits {op : Op} {p : Nat} (h : op.pattern? = some p) (i : Operands) :
    Operands.AgreeOn op.form (.ofOpcode (p + i.bits op.form : Nat)) i := by
  have digits := pattern_digits h
  obtain ⟨x, y, n, kk, nnn⟩ := i.bounds
  have small : (((p + i.bits op.form : Nat) : Int) % 65536).toNat = p + i.bits op.form := by
    have lt := add_bits_lt h i
    omega
  obtain ⟨x', y', n', kk', nnn'⟩ := Operands.ofOpcode_digits small
  cases form : op.form <;>
    simp only [form, Operands.bits, Operands.AgreeOn, Fin.ext_iff, ← UInt8.toNat_inj]
      at digits x' y' n' kk' nnn' ⊢ <;>
    omega

theorem eq_add_bits_of_hasDigits {op : Op} {p w : Nat} (h : op.pattern? = some p) (lt : w < 65536)
    (digits : op.HasDigits w) : w = p + (Operands.ofOpcode w).bits op.form := by
  have zeros := pattern_digits h
  have small : ((w : Int) % 65536).toNat = w := by omega
  obtain ⟨x, y, n, kk, nnn⟩ := Operands.ofOpcode_digits small
  rw [hasDigits_iff h] at digits
  cases form : op.form <;> simp only [form, Operands.bits] at digits zeros ⊢ <;> omega

theorem search_congr {order order' : List Nat} (complete : ∀ mask ∈ masks, mask ∈ order)
    (complete' : ∀ mask ∈ masks, mask ∈ order') (w : Nat) : search order w = search order' w := by
  by_cases found : search order w = unknown
  · by_cases found' : search order' w = unknown
    · rw [found, found']
    · have hit := matches_of_search rfl found'
      exact search_of_matches (complete _ (mask_mem_masks _)) hit
  · have hit := matches_of_search rfl found
    exact (search_of_matches (complete' _ (mask_mem_masks _)) hit).symm

end Op

theorem decode_op_word (opcode : Int) :
    (decode opcode).op = Op.search Op.masks (opcode % 65536).toNat := rfl

theorem decode_op_eq_iff_matches (opcode : Int) {op : Op} (known : op ≠ .unknown) :
    (decode opcode).op = op ↔ op.Matches (opcode % 65536).toNat :=
  ⟨fun found => Op.matches_of_search found known, Op.search_of_matches op.mask_mem_masks⟩

theorem decode_unknown_iff (opcode : Int) :
    (decode opcode).op = .unknown ↔ ∀ op : Op, ¬ op.Matches (opcode % 65536).toNat := by
  constructor
  · intro unknown op hit
    have found := Op.search_of_matches op.mask_mem_masks hit
    rw [← decode_op_word, unknown] at found
    exact Op.not_matches_unknown _ (found ▸ hit)
  · intro none
    refine Classical.byContradiction fun known => ?_
    exact none _ ((decode_op_eq_iff_matches opcode known).mp rfl)

theorem decode_unknown_word_iff {w : Nat} (h : w < 65536) :
    (decode w).op = .unknown ↔ ∀ op : Op, ¬ op.Matches w := by
  have low : ((w : Int) % 65536).toNat = w := by omega
  rw [decode_unknown_iff, low]

theorem decode_encode {op : Op} (known : op ≠ .unknown) (i : Operands) :
    ∃ code, op.encode? i = some code ∧ (decode code).op = op ∧
      Operands.AgreeOn op.form (decode code).toOperands i := by
  obtain ⟨p, pattern⟩ := Option.ne_none_iff_exists'.mp (mt op.pattern?_eq_none_iff.mp known)
  refine ⟨p + i.bits op.form, by simp [Op.encode?, pattern], ?_, Op.agreeOn_add_bits pattern i⟩
  rw [decode_op_iff op known (Op.add_bits_lt pattern i)]
  exact Op.hasDigits_add_bits pattern i

theorem encode_decode (opcode : Int) (known : (decode opcode).op ≠ .unknown) :
    (decode opcode).op.encode? (decode opcode).toOperands = some (opcode % 65536).toNat := by
  obtain ⟨p, pattern⟩ :=
    Option.ne_none_iff_exists'.mp (mt (decode opcode).op.pattern?_eq_none_iff.mp known)
  have lt : (opcode % 65536).toNat < 65536 := by omega
  have hit := (decode_op_eq_iff_matches opcode known).mp rfl
  have digits := (Op.matches_iff_hasDigits _ lt).mp hit
  have operands : (decode opcode).toOperands = .ofOpcode (opcode % 65536).toNat :=
    Operands.ofOpcode_word rfl
  rw [Op.encode?, pattern, Option.map_some, operands,
    ← Op.eq_add_bits_of_hasDigits pattern lt digits]

/-- No word has two patterns, so the order of the masks does not matter and an opcode decodes to the
operation whose pattern its word has. Its operands are digits of the word, and nothing but the word
counts. Decoding undoes encoding, and encoding undoes decoding. -/
theorem decode_exactly_table (opcode : Int) :
    let w := (opcode % 65536).toNat
    let i := decode opcode
    (∀ a b : Op, a.Matches w → b.Matches w → a = b) ∧
    (∀ order, order.Perm Op.masks → Instruction.decodeWith order opcode = i) ∧
    (∀ op ≠ Op.unknown, i.op = op ↔ op.Matches w) ∧
    (i.op = .unknown ↔ ∀ op : Op, ¬ op.Matches w) ∧
    (i.x.val = w / 256 % 16 ∧ i.y.val = w / 16 % 16 ∧ i.n.val = w % 16 ∧ i.kk.toNat = w % 256 ∧
      i.nnn.val = w % 4096) ∧
    (∀ other : Int, other % 65536 = opcode % 65536 →
      (decode other).op = i.op ∧ (decode other).toOperands = i.toOperands) ∧
    (∀ op ≠ Op.unknown, ∀ fields : Operands, ∃ code, op.encode? fields = some code ∧
      (decode code).op = op ∧ Operands.AgreeOn op.form (decode code).toOperands fields) ∧
    (i.op ≠ .unknown → i.op.encode? i.toOperands = some w) := by
  intro w i
  refine ⟨fun a b => Op.eq_of_matches, ?_, fun op => decode_op_eq_iff_matches opcode,
    decode_unknown_iff opcode, Operands.ofOpcode_digits rfl, ?_, fun op => decode_encode,
    encode_decode opcode⟩
  · intro order perm
    have search : Op.search order w = Op.search Op.masks w :=
      Op.search_congr (fun mask mem => perm.mem_iff.mpr mem) (fun mask mem => mem) w
    simp only [Instruction.decodeWith, i, decode, search, w]
  · intro other same
    have word : (other % 65536).toNat = w := by rw [same]
    refine ⟨?_, (Operands.ofOpcode_word word).trans (Operands.ofOpcode_word rfl).symm⟩
    rw [decode_op_word, word, ← decode_op_word]

end ChipEight

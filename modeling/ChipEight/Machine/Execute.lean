import ChipEight.Machine

/-!
The effect of every instruction. The program counter has already been moved to the next opcode. A register
that takes a flag is written after the result, so that the flag stays where both go to the same register.
An instruction that faults has changed nothing.
-/

namespace ChipEight.Machine

def setV (m : Machine) (x : Fin 16) (b : UInt8) : Machine :=
  { m with registers := m.registers.set x b }

/-- The machine with a variable register set and then the flag register. -/
def setVF (m : Machine) (x : Fin 16) (b : UInt8) (flag : Bool) : Machine :=
  (m.setV x b).setV 15 (if flag then 1 else 0)

def setIndex (m : Machine) (v : Int) : Machine :=
  { m with registers.index := lowWord v }

def skipIf (m : Machine) (c : Bool) : Machine :=
  { m with registers := m.registers.skipIf c }

def setSound (m : Machine) (b : UInt8) : Outcome ε Unit :=
  let (timers, edge) := m.timers.setSound b
  .done { m with timers } (edge.toList.map .sound)

def decimalDigits (b : UInt8) : List UInt8 :=
  [b / 100, b / 10 % 10, b % 10]

/-- The bytes of a sprite; one without lines is never looked for in memory. -/
def sprite (m : Machine) (n : Fin 16) : Except Fault (List UInt8) :=
  if n = 0 then .ok [] else m.memory.readBlock m.registers.index.toNat n.val

/-- Notes an unknown opcode, and tells of it when it is met for the first time at its address. -/
def noteUnknown (m : Machine) (u : UnknownOpcode) : Outcome ε Unit :=
  .done { m with unknown := m.unknown.record u } (if m.unknown.contains u then [] else [.unknown u])

def execute (i : Instruction) (m : Machine) : Outcome Fault Unit :=
  let r := m.registers
  let a := r.get i.x
  let b := r.get i.y
  match i.op with
  | .clearScreen => .done { m with display := m.display.clear } []
  | .ret =>
    match m.stack.pop with
    | .error f => .fail m f
    | .ok (address, stack) => .done ({ m with stack }.setPc address) []
  | .jump => .done (m.setPc i.nnn.val) []
  | .call =>
    match m.stack.push r.pc with
    | .error f => .fail m f
    | .ok stack => .done ({ m with stack }.setPc i.nnn.val) []
  | .skipIfByte => .done (m.skipIf (a == i.kk)) []
  | .skipUnlessByte => .done (m.skipIf (a != i.kk)) []
  | .skipIfSame => .done (m.skipIf (a == b)) []
  | .skipUnlessSame => .done (m.skipIf (a != b)) []
  | .setByte => .done (m.setV i.x i.kk) []
  | .addByte => .done (m.setV i.x (a + i.kk)) []
  | .copy => .done (m.setV i.x b) []
  | .or => .done (m.setV i.x (a ||| b)) []
  | .and => .done (m.setV i.x (a &&& b)) []
  | .xor => .done (m.setV i.x (a ^^^ b)) []
  | .add => .done (m.setVF i.x (a + b) (255 < a.toNat + b.toNat)) []
  | .sub => .done (m.setVF i.x (a - b) (b ≤ a)) []
  | .subFrom => .done (m.setVF i.x (b - a) (a ≤ b)) []
  | .shiftRight => .done (m.setVF i.x (a >>> 1) (a % 2 == 1)) []
  | .shiftLeft => .done (m.setVF i.x (a <<< 1) (128 ≤ a)) []
  | .setIndex => .done (m.setIndex i.nnn.val) []
  | .jumpFrom => .done (m.setPc (i.nnn.val + (r.get 0).toNat)) []
  | .random =>
    let (byte, random) := m.random.next 0 255
    .done ({ m with random }.setV i.x (byte &&& i.kk)) []
  | .draw =>
    match m.sprite i.n with
    | .error f => .fail m f
    | .ok lines =>
      let (display, hit) := m.display.draw (spritePoints a.toNat b.toNat lines)
      .done ({ m with display := display.markDirty }.setV 15 (if hit then 1 else 0)) []
  | .skipIfKey => .done (m.skipIf (m.latched.isDown (lowNibble a))) []
  | .skipUnlessKey => .done (m.skipIf (!m.latched.isDown (lowNibble a))) []
  | .readDelay => .done (m.setV i.x m.timers.delay) []
  | .waitKey =>
    -- without a key the same opcode is met again
    match m.latched.first? with
    | none => .done (m.setPc (r.pc - 2)) []
    | some key => .done (m.setV i.x (UInt8.ofNat key.val)) []
  | .setDelay => .done { m with timers := m.timers.setDelay a } []
  | .setSound => m.setSound a
  | .addIndex => .done (m.setIndex (r.index.toNat + a.toNat)) []
  | .glyph => .done (m.setIndex (Font.glyphAddress (lowNibble a))) []
  | .decimal =>
    match m.memory.writeBlock r.index.toNat (decimalDigits a) with
    | .error f => .fail m f
    | .ok memory => .done { m with memory } []
  | .store =>
    match m.memory.writeBlock r.index.toNat (r.upTo i.x) with
    | .error f => .fail m f
    | .ok memory => .done { m with memory } []
  | .load =>
    match m.memory.readBlock r.index.toNat (i.x.val + 1) with
    | .error f => .fail m f
    | .ok bytes => .done { m with registers := r.setUpTo i.x bytes } []
  | .unknown => m.noteUnknown ⟨i.opcode, r.pc - 2⟩

/-- A block that is loaded has a byte for each of the registers that it is set to. -/
theorem length_of_load {m : Machine} {x : Fin 16} {bytes : List UInt8}
    (read : m.memory.readBlock m.registers.index.toNat (x.val + 1) = .ok bytes) : bytes.length = x.val + 1 := by
  rw [Memory.length_of_readBlock read]
  omega

end ChipEight.Machine

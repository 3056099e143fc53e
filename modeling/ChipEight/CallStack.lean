import ChipEight.Room

/-!
The call stack: a fixed number of slots and a pointer to the first free one. The live slots below the
pointer are the return addresses, the newest last; the others are kept zero.
-/

namespace ChipEight

open Text

structure CallStack where
  slots : List Int
  pointer : Nat
  deriving DecidableEq, Repr

namespace CallStack

/-- An empty stack of the given depth; a negative depth leaves no room. -/
def ofDepth (depth : Int) : CallStack :=
  ⟨List.replicate depth.toNat 0, 0⟩

def ofDepth? (depth : Int) (room : Room := .usual) : Except ArgumentError CallStack :=
  match roomError? room.entries depth with
  | some e => .error e
  | none => .ok (ofDepth depth)

theorem ofDepth?_eq_ok_iff {depth : Int} {room : Room} {s : CallStack} :
    ofDepth? depth room = .ok s ↔ Fits64 depth ∧ depth ≤ room.entries ∧ s = ofDepth depth := by
  rw [← and_assoc, ← roomError?_eq_none_iff, ofDepth?]
  cases roomError? room.entries depth with
  | some e => exact iff_of_false nofun fun h => nomatch h.1
  | none => exact ⟨fun built => ⟨rfl, (Except.ok.inj built).symm⟩, fun ⟨_, same⟩ => congrArg Except.ok same.symm⟩

def depth (s : CallStack) : Nat :=
  s.slots.length

def live (s : CallStack) : List Int :=
  s.slots.take s.pointer

def push (s : CallStack) (a : Int) : Except Fault CallStack :=
  if s.depth ≤ s.pointer then .error (.stackOverflow s.depth)
  else .ok ⟨s.slots.set s.pointer a, s.pointer + 1⟩

/-- Faults when no slot is live; the slot that is freed becomes zero. -/
def pop (s : CallStack) : Except Fault (Int × CallStack) :=
  match s.pointer with
  | 0 => .error .stackUnderflow
  | p + 1 => .ok (s.slots.getD p 0, ⟨s.slots.set p 0, p⟩)

def clear (s : CallStack) : CallStack :=
  ⟨List.replicate s.depth 0, 0⟩

def text (s : CallStack) : String :=
  "[" ++ ", ".intercalate (s.live.map fun a => "'0x" ++ hex 4 a ++ "'") ++ "]"

inductive Action where
  | push (a : Int)
  | pop
  | clear
  deriving DecidableEq, Repr

/-- The stack after a use, and the address that it gave; a refused use changes nothing. -/
def apply (s : CallStack) : Action → CallStack × Except Fault (Option Int)
  | .push a =>
    match s.push a with
    | .ok s' => (s', .ok none)
    | .error f => (s, .error f)
  | .pop =>
    match s.pop with
    | .ok (a, s') => (s', .ok (some a))
    | .error f => (s, .error f)
  | .clear => (s.clear, .ok none)

end CallStack

end ChipEight

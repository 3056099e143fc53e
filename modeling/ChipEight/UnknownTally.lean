import ChipEight.Fault

/-!
How often each unknown opcode was met, by the opcode and its address, in the order of first sight.
-/

namespace ChipEight

structure UnknownTally where
  entries : List (UnknownOpcode × Nat)
  deriving DecidableEq, Repr

namespace UnknownTally

def empty : UnknownTally :=
  ⟨[]⟩

def count (t : UnknownTally) (u : UnknownOpcode) : Nat :=
  (t.entries.lookup u).getD 0

def contains (t : UnknownTally) (u : UnknownOpcode) : Bool :=
  t.entries.any fun e => e.1 == u

def record (t : UnknownTally) (u : UnknownOpcode) : UnknownTally :=
  if t.contains u then
    ⟨t.entries.map fun (v, n) => if v == u then (v, n + 1) else (v, n)⟩
  else ⟨t.entries ++ [(u, 1)]⟩

def total (t : UnknownTally) : Nat :=
  t.entries.foldr (fun e n => e.2 + n) 0

end UnknownTally

end ChipEight

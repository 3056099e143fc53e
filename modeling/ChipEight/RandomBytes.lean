/-!
A source of random bytes: the bytes that it will give, in order, and zeros for ever after them. It keeps the bounds
that it was asked to give bytes in.
-/

namespace ChipEight

structure RandomBytes where
  rest : List UInt8
  /-- The bounds, both included, of each byte so far, the last one first. -/
  asked : List (Nat × Nat)
  deriving DecidableEq, Repr

namespace RandomBytes

def ofList (bytes : List UInt8) : RandomBytes :=
  ⟨bytes, []⟩

def drawn (s : RandomBytes) : Nat :=
  s.asked.length

def bounds (s : RandomBytes) : List (Nat × Nat) :=
  s.asked.reverse

def byte (s : RandomBytes) : UInt8 :=
  s.rest.headD 0

/-- The next byte, which is to lie in the bounds, and the source behind it. -/
def next (s : RandomBytes) (least greatest : Nat) : UInt8 × RandomBytes :=
  (s.byte, ⟨s.rest.tail, (least, greatest) :: s.asked⟩)

end RandomBytes

end ChipEight

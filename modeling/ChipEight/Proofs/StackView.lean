import ChipEight.CallStack

/-!
The call stack as the list of its live addresses: a push appends one, a pop takes off the last, and a
refused use changes nothing. The slots that are not live are followed too.
-/

namespace ChipEight.CallStack

def free (s : CallStack) : List Int :=
  s.slots.drop s.pointer

theorem length_live {s : CallStack} (room : s.pointer ≤ s.depth) : s.live.length = s.pointer := by
  simp only [live, List.length_take, depth] at *
  omega

theorem push_eq_error_iff (s : CallStack) (a : Int) (f : Fault) :
    s.push a = .error f ↔ s.depth ≤ s.pointer ∧ f = .stackOverflow s.depth := by
  simp only [push]
  by_cases full : s.depth ≤ s.pointer <;> simp [full, eq_comm]

theorem pop_eq_error_iff (s : CallStack) (f : Fault) :
    s.pop = .error f ↔ s.pointer = 0 ∧ f = .stackUnderflow := by
  simp only [pop]
  split <;> simp_all [eq_comm]

structure Pushed (s : CallStack) (a : Int) (s' : CallStack) : Prop where
  room : s.pointer < s.depth
  depth : s'.depth = s.depth
  pointer : s'.pointer = s.pointer + 1
  live : s'.live = s.live ++ [a]
  free : s'.free = s.free.tail

theorem pushed_of_push {s s' : CallStack} {a : Int} (h : s.push a = .ok s') : s.Pushed a s' := by
  simp only [push] at h
  split at h
  · cases h
  next full =>
    cases h
    have room : s.pointer < s.slots.length := by simpa [CallStack.depth] using full
    refine ⟨room, by simp [CallStack.depth], rfl, ?_, ?_⟩
    · simp only [CallStack.live]
      rw [List.take_succ_eq_append_getElem (by simpa using room), List.getElem_set_self,
        List.take_set_of_le (Nat.le_refl s.pointer)]
    · simp only [CallStack.free]
      rw [List.drop_set_of_lt (by omega), List.tail_drop]

structure Popped (s : CallStack) (a : Int) (s' : CallStack) : Prop where
  depth : s'.depth = s.depth
  pointer : s.pointer = s'.pointer + 1
  live : s.live = s'.live ++ [a]
  free : s'.free = 0 :: s.free

theorem popped_of_pop {s s' : CallStack} {a : Int} (room : s.pointer ≤ s.depth)
    (h : s.pop = .ok (a, s')) : s.Popped a s' := by
  simp only [pop] at h
  split at h
  · cases h
  next p top =>
    cases h
    have inside : p < s.slots.length := by
      simp only [CallStack.depth] at room
      omega
    refine ⟨by simp [CallStack.depth], top, ?_, ?_⟩
    · simp only [CallStack.live, top]
      rw [List.take_succ_eq_append_getElem inside, List.take_set_of_le (Nat.le_refl p),
        List.getD_eq_getElem?_getD, List.getElem?_eq_getElem inside, Option.getD_some]
    · simp only [CallStack.free, top]
      rw [List.drop_set, if_neg (by omega), Nat.sub_self, List.drop_eq_getElem_cons inside,
        List.set_cons_zero]

end ChipEight.CallStack

import ChipEight.Proofs.StackView

/-!
The call stack against a list of bounded length that is used at its head. The slots and the pointer are
determined by the list: its addresses, the newest last, and zeros in the slots that are left. Each use of the
stack is the same use of the list, so a run of uses leaves the stack that holds what the list holds.
-/

namespace ChipEight.CallStack

/-- The list of addresses, the newest first, after a use of it, and the address that it gave. The list has
room for a number of addresses. -/
def onList (room : Nat) : List Int → Action → List Int × Except Fault (Option Int)
  | l, .push a => if l.length < room then (a :: l, .ok none) else (l, .error (.stackOverflow room))
  | [], .pop => ([], .error .stackUnderflow)
  | a :: l, .pop => (l, .ok (some a))
  | _, .clear => ([], .ok none)

def holding (room : Nat) (l : List Int) : CallStack :=
  ⟨l.reverse ++ List.replicate (room - l.length) 0, l.length⟩

theorem holding_nil (depth : Int) : holding depth.toNat [] = ofDepth depth := by
  simp [holding, ofDepth]

theorem live_holding (room : Nat) (l : List Int) : (holding room l).live = l.reverse := by
  simp [holding, live]

theorem free_holding (room : Nat) (l : List Int) :
    (holding room l).free = List.replicate (room - l.length) 0 := by
  simp [holding, free]

theorem eq_of_view {s s' : CallStack} (live : s.live = s'.live) (free : s.free = s'.free)
    (pointer : s.pointer = s'.pointer) : s = s' := by
  have slots : s.slots = s'.slots :=
    calc s.slots = s.live ++ s.free := (List.take_append_drop s.pointer s.slots).symm
      _ = s'.live ++ s'.free := by rw [live, free]
      _ = s'.slots := List.take_append_drop s'.pointer s'.slots
  rw [CallStack.mk.injEq]
  exact ⟨slots, pointer⟩

section Holding

variable {room : Nat} {l : List Int}

theorem depth_holding (fits : l.length ≤ room) : (holding room l).depth = room := by
  simp only [depth, holding, List.length_append, List.length_reverse, List.length_replicate]
  omega

theorem push_holding (fits : l.length < room) (a : Int) :
    (holding room l).push a = .ok (holding room (a :: l)) := by
  cases pushed : (holding room l).push a with
  | error f =>
    have full := ((push_eq_error_iff _ a f).mp pushed).1
    rw [depth_holding (Nat.le_of_lt fits)] at full
    exact absurd fits (Nat.not_lt.mpr full)
  | ok s =>
    have step := pushed_of_push pushed
    have rest : room - (a :: l).length = room - l.length - 1 := Nat.sub_add_eq room l.length 1
    congr 1
    apply eq_of_view
    · rw [step.live, live_holding, live_holding, List.reverse_cons]
    · rw [step.free, free_holding, free_holding, List.tail_replicate, rest]
    · exact step.pointer

theorem push_holding_full (full : l.length = room) (a : Int) :
    (holding room l).push a = .error (.stackOverflow room) := by
  rw [push_eq_error_iff, depth_holding (Nat.le_of_eq full)]
  exact ⟨Nat.le_of_eq full.symm, rfl⟩

theorem pop_holding {a : Int} (fits : (a :: l).length ≤ room) :
    (holding room (a :: l)).pop = .ok (a, holding room l) := by
  cases popped : (holding room (a :: l)).pop with
  | error f => exact absurd ((pop_eq_error_iff _ f).mp popped).1 (Nat.succ_ne_zero l.length)
  | ok result =>
    obtain ⟨b, s⟩ := result
    have step := popped_of_pop (Nat.le_trans fits (Nat.le_of_eq (depth_holding fits).symm)) popped
    have live := step.live
    rw [live_holding, List.reverse_cons] at live
    obtain ⟨below, top⟩ := List.append_inj' live rfl
    obtain rfl := List.singleton_inj.mp top
    have zeros : room - l.length = room - (a :: l).length + 1 := by
      simp only [List.length_cons] at fits ⊢
      omega
    congr 2
    apply eq_of_view
    · rw [← below, live_holding]
    · rw [step.free, free_holding, free_holding, zeros, List.replicate_succ]
    · exact (Nat.succ.inj step.pointer).symm

theorem pop_of_push_holding (fits : l.length ≤ room) {a : Int} {s : CallStack}
    (pushed : (holding room l).push a = .ok s) : s.pop = .ok (a, holding room l) := by
  by_cases space : l.length < room
  · rw [push_holding space] at pushed
    rw [← Except.ok.inj pushed, pop_holding space]
  · rw [push_holding_full (by omega)] at pushed
    cases pushed

theorem push_of_pop_holding (fits : l.length ≤ room) {a : Int} {s : CallStack}
    (popped : (holding room l).pop = .ok (a, s)) : s.push a = .ok (holding room l) := by
  cases l with
  | nil => cases popped
  | cons b rest =>
    rw [pop_holding fits] at popped
    obtain ⟨rfl, rfl⟩ := Prod.mk.inj (Except.ok.inj popped)
    exact push_holding fits b

theorem clear_holding (fits : l.length ≤ room) : (holding room l).clear = holding room [] := by
  rw [clear, depth_holding fits]
  simp [holding]

theorem apply_holding (fits : l.length ≤ room) (action : Action) :
    (holding room l).apply action = (holding room (onList room l action).1, (onList room l action).2) := by
  cases action with
  | push a =>
    by_cases space : l.length < room
    · simp only [apply, onList, push_holding space, if_pos space]
    · have full : l.length = room := by omega
      simp only [apply, onList, push_holding_full full, if_neg space]
  | pop =>
    cases l with
    | nil => rfl
    | cons a l => simp only [apply, onList, pop_holding fits]
  | clear => simp only [apply, onList, clear_holding fits]

theorem length_onList (fits : l.length ≤ room) (action : Action) : (onList room l action).1.length ≤ room := by
  cases action with
  | push a =>
    by_cases space : l.length < room
    · rw [onList, if_pos space]
      exact space
    · rw [onList, if_neg space]
      exact fits
  | pop =>
    cases l with
    | nil => exact fits
    | cons a l => exact Nat.le_of_succ_le fits
  | clear => exact Nat.zero_le room

end Holding

theorem onList_of_error {room : Nat} {l : List Int} {action : Action} {f : Fault}
    (refused : (onList room l action).2 = .error f) : (onList room l action).1 = l := by
  cases action with
  | push a =>
    by_cases space : l.length < room
    · rw [onList, if_pos space] at refused
      cases refused
    · rw [onList, if_neg space]
  | pop =>
    cases l with
    | nil => rfl
    | cons a l => cases refused
  | clear => cases refused

def after (s : CallStack) (actions : List Action) : CallStack :=
  actions.foldl (fun s action => (s.apply action).1) s

def listAfter (room : Nat) (l : List Int) (actions : List Action) : List Int :=
  actions.foldl (fun l action => (onList room l action).1) l

theorem after_holding {room : Nat} {l : List Int} (fits : l.length ≤ room) (actions : List Action) :
    (holding room l).after actions = holding room (listAfter room l actions) ∧
      (listAfter room l actions).length ≤ room := by
  -- the list never grows beyond its room, so each use finds it as the stack does
  induction actions generalizing l with
  | nil => exact ⟨rfl, fits⟩
  | cons action rest ih =>
    rw [after, listAfter, List.foldl_cons, List.foldl_cons, apply_holding fits]
    exact ih (length_onList fits action)

/-- After any uses the live slots are the addresses of a list that is used alike, and the other slots are zero.
The stack answers as the list does: it refuses a push exactly when the list is full and a pop exactly when it is
empty, and then stays as it is. A push and a pop undo each other. -/
theorem refines_bounded_list (depth : Int) (actions : List Action) :
    let s := (ofDepth depth).after actions
    let l := listAfter depth.toNat [] actions
    ((s.slots.length : Int) = max 0 depth ∧ (s.pointer : Int) ≤ max 0 depth ∧ s.live = l.reverse ∧
      ∀ a ∈ s.slots.drop s.pointer, a = 0) ∧
    (∀ action, (s.apply action).2 = (onList depth.toNat l action).2 ∧
      (s.apply action).1.live = (onList depth.toNat l action).1.reverse ∧
      ∀ f, (s.apply action).2 = .error f → (s.apply action).1 = s) ∧
    (∀ a f, s.push a = .error f ↔ (l.length : Int) = max 0 depth ∧ f = .stackOverflow (max 0 depth)) ∧
    (∀ f, s.pop = .error f ↔ l = [] ∧ f = .stackUnderflow) ∧
    (∀ a s', s.push a = .ok s' → s'.pop = .ok (a, s)) ∧
    ∀ a s', s.pop = .ok (a, s') → s'.push a = .ok s := by
  intro s l
  obtain ⟨same, fits⟩ := after_holding (l := []) (Nat.zero_le depth.toNat) actions
  rw [holding_nil] at same
  have held : s = holding depth.toNat l := same
  have bounded : l.length ≤ depth.toNat := fits
  have room : (depth.toNat : Int) = max 0 depth := by omega
  rw [held]
  refine ⟨⟨?slots, ?pointer, live_holding _ l, ?free⟩, fun action => ?alike, fun a f => ?overflow,
    fun f => ?underflow, fun a s' => pop_of_push_holding bounded, fun a s' => push_of_pop_holding bounded⟩
  case slots =>
    rw [← room]
    exact congrArg Nat.cast (depth_holding bounded)
  case pointer =>
    rw [← room]
    exact Int.ofNat_le.mpr bounded
  case free =>
    intro a mem
    have dead : a ∈ (holding depth.toNat l).free := mem
    rw [free_holding] at dead
    exact List.eq_of_mem_replicate dead
  case alike =>
    rw [apply_holding bounded]
    refine ⟨rfl, live_holding _ _, fun f refused => ?_⟩
    rw [onList_of_error refused]
  case overflow =>
    have full : depth.toNat ≤ l.length ↔ (l.length : Int) = max 0 depth := by omega
    rw [push_eq_error_iff, depth_holding bounded, room]
    exact and_congr_left fun _ => full
  case underflow =>
    rw [pop_eq_error_iff]
    exact and_congr_left fun _ => List.length_eq_zero_iff

end ChipEight.CallStack

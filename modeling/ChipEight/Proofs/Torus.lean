import ChipEight.Proofs.Drawing
import Mathlib.Data.List.DropRight

/-!
A display of any size by itself. Its cells are the classes of points that differ by whole sides, so it is a torus,
and whether a cell is lit is the parity of its toggles since the display was cleared last. The cells, the lines and
the text are three views of these parities.
-/

namespace ChipEight.Display

theorem parity_add (a b : Nat) :
    decide ((a + b) % 2 = 1) = (decide (a % 2 = 1) ^^ decide (b % 2 = 1)) := by
  rcases Nat.mod_two_eq_zero_or_one a with first | first <;>
    rcases Nat.mod_two_eq_zero_or_one b with second | second <;>
    simp [Nat.add_mod, first, second]

theorem parity_toNat (b : Bool) : decide (b.toNat % 2 = 1) = b := by
  cases b <;> rfl

def congruent (width height : Int) (p q : Int × Int) : Bool :=
  p.1 % width = q.1 % width && p.2 % height = q.2 % height

def Action.hits (width height : Int) (q : Int × Int) : Action → Bool
  | .toggle x y => congruent width height (x, y) q
  | _ => false

def after (d : Display) (actions : List Action) : Display :=
  actions.foldl apply d

theorem after_concat (d : Display) (actions : List Action) (action : Action) :
    d.after (actions ++ [action]) = (d.after actions).apply action :=
  List.foldl_concat ..

theorem whole_blank {width height : Int} (wide : 0 < width) (high : 0 < height) :
    (blank width height).Whole :=
  ⟨wide, high, Array.size_replicate⟩

section Apply

variable (d : Display) (action : Action)

theorem width_apply : (d.apply action).width = d.width := by
  cases action <;> rfl

theorem height_apply : (d.apply action).height = d.height := by
  cases action <;> rfl

theorem Whole.apply {d : Display} (h : d.Whole) : (d.apply action).Whole := by
  cases action with
  | toggle x y => exact h.toggle x y
  | clear => exact ⟨h.width, h.height, Array.size_replicate⟩
  | markClean => exact ⟨h.width, h.height, h.cells⟩

end Apply

section After

variable (d : Display) (actions : List Action)

theorem sides_after : (d.after actions).width = d.width ∧ (d.after actions).height = d.height := by
  induction actions using List.reverseRecOn with
  | nil => exact ⟨rfl, rfl⟩
  | append_singleton actions action ih =>
    rw [after_concat, width_apply, height_apply]
    exact ih

theorem Whole.after {d : Display} (h : d.Whole) : (d.after actions).Whole := by
  induction actions using List.reverseRecOn with
  | nil => exact h
  | append_singleton actions action ih =>
    rw [after_concat]
    exact ih.apply action

end After

namespace Whole

variable {d : Display} (h : d.Whole)
include h

theorem offset_eq_iff_congruent (p q : Int × Int) :
    d.offset p.1 p.2 = d.offset q.1 q.2 ↔ congruent d.width d.height p q = true := by
  rw [h.offset_eq_iff, congruent, Bool.and_eq_true, decide_eq_true_eq, decide_eq_true_eq]

theorem read_toggle_congruent (p q : Int × Int) :
    (d.toggle p.1 p.2).read q.1 q.2 = (d.read q.1 q.2 ^^ congruent d.width d.height p q) := by
  rw [h.read_toggle, ← Bool.decide_coe (congruent d.width d.height p q)]
  simp only [h.offset_eq_iff_congruent]

theorem read_of_congruent {p q : Int × Int} (same : congruent d.width d.height p q = true) :
    d.read p.1 p.2 = d.read q.1 q.2 := by
  rw [read, read, (h.offset_eq_iff_congruent p q).mpr same]

theorem getElem?_toggle (x y : Int) (k : Nat) :
    (d.toggle x y).cells[k]? ≠ d.cells[k]? ↔ k = d.offset x y := by
  rw [Display.toggle, Array.getElem?_modify]
  by_cases place : d.offset x y = k
  · have inside := h.offset_lt_size x y
    subst place
    simp [inside]
  · simp [place, Ne.symm place]

theorem accessError?_eq (x y : Int) : d.accessError? x y = none := by
  have width := h.width
  have height := h.height
  rw [accessError?, if_neg (by omega), if_pos ⟨width, height⟩]

theorem toggle?_eq (x y : Int) : d.toggle? x y = .ok (d.read x y, d.apply (.toggle x y)) := by
  rw [toggle?, h.accessError?_eq]
  rfl

theorem read?_eq (x y : Int) : d.read? x y = .ok (d.read x y) := by
  rw [read?, h.accessError?_eq]

theorem rows_eq : d.rows =
    (List.range d.height.toNat).map fun (y : Nat) =>
      (List.range d.width.toNat).map fun (x : Nat) => d.read x y := by
  rw [rows]
  refine List.map_congr_left fun y mem => ?_
  apply List.ext_getElem?
  intro x
  rw [h.getElem?_row (List.mem_range.mp mem), List.getElem?_map]
  by_cases inside : x < d.width.toNat
  · rw [if_pos inside, List.getElem?_range inside, Option.map_some]
  · rw [if_neg inside, List.getElem?_eq_none (by simpa using inside), Option.map_none]

end Whole

section Blank

variable {width height : Int} (wide : 0 < width) (high : 0 < height) (actions : List Action)
include wide high

theorem read_after_blank (q : Int × Int) :
    ((blank width height).after actions).read q.1 q.2 =
      decide ((actions.rtakeWhile (· ≠ .clear)).countP (Action.hits width height q) % 2 = 1) := by
  -- over the actions from the last one back: a toggle adds one, and nothing counts in front of a clear
  induction actions using List.reverseRecOn with
  | nil => exact read_blank width height q.1 q.2
  | append_singleton actions action ih =>
    have whole := (whole_blank wide high).after actions
    obtain ⟨width_eq, height_eq⟩ := (blank width height).sides_after actions
    rw [after_concat]
    cases action with
    | toggle x y =>
      have flips := whole.read_toggle_congruent (x, y) q
      have once : [Action.toggle x y].countP (Action.hits width height q) =
          (congruent width height (x, y) q).toNat := by
        cases same : congruent width height (x, y) q <;> simp [Action.hits, same]
      rw [width_eq, height_eq, ih] at flips
      rw [List.rtakeWhile_concat_pos _ _ _ (by simp), List.countP_append, parity_add, once, parity_toNat]
      exact flips
    | clear =>
      rw [List.rtakeWhile_concat_neg _ _ _ (by simp)]
      exact read_blank _ _ q.1 q.2
    | markClean =>
      rw [List.rtakeWhile_concat_pos _ _ _ (by simp), List.countP_append]
      exact ih

end Blank

theorem dirty_after_blank (width height : Int) (actions : List Action) :
    ((blank width height).after actions).dirty = true ↔
      ∃ a ∈ actions.rtakeWhile (· ≠ .markClean), a = .clear ∨ ∃ x y, a = .toggle x y := by
  induction actions using List.reverseRecOn with
  | nil => simp [after, blank]
  | append_singleton actions action ih =>
    rw [after_concat]
    cases action with
    | toggle x y =>
      rw [List.rtakeWhile_concat_pos _ _ _ (by simp)]
      exact iff_of_true rfl ⟨.toggle x y, by simp, .inr ⟨x, y, rfl⟩⟩
    | clear =>
      rw [List.rtakeWhile_concat_pos _ _ _ (by simp)]
      exact iff_of_true rfl ⟨.clear, by simp, .inl rfl⟩
    | markClean =>
      rw [List.rtakeWhile_concat_neg _ _ _ (by simp)]
      simp [apply, markClean]

/-- Every cell of a display of any size shows the parity of its toggles since the last clear, wherever on the torus
it is looked up. A toggle changes its cell alone and answers what the cell was. The lines and the text show the same
cells, and the display is dirty if it was changed since it was marked last. -/
theorem torus_of_parities {w h : Int} (width : 1 ≤ w) (height : 1 ≤ h) (actions : List Action) :
    let d := (blank w h).after actions
    (d.cells.size : Int) = w * h ∧
    (∀ x y, d.read? x y = .ok (d.read x y) ∧
      (d.read x y = true ↔
        (actions.rtakeWhile (· ≠ .clear)).countP (Action.hits w h (x, y)) % 2 = 1)) ∧
    (∀ x y i j, d.read (x + i * w) (y + j * h) = d.read x y) ∧
    (∀ x y, d.toggle? x y = .ok (d.read x y, d.apply (.toggle x y)) ∧
      (∃! k : Nat, (d.apply (.toggle x y)).cells[k]? ≠ d.cells[k]?) ∧
      ∀ x' y', (d.apply (.toggle x y)).read x' y' ≠ d.read x' y' ↔ x % w = x' % w ∧ y % h = y' % h) ∧
    ((d.rows.length : Int) = h ∧ (∀ row ∈ d.rows, (row.length : Int) = w) ∧
      ∀ x y : Nat, x < w → y < h → ∃ row, d.rows[y]? = some row ∧ row[x]? = some (d.read x y)) ∧
    d.text = "\n".intercalate ((List.range h.toNat).map fun (y : Nat) =>
      String.ofList ((List.range w.toNat).map fun (x : Nat) => if d.read x y then '#' else '.')) ∧
    (d.dirty = true ↔
      ∃ a ∈ actions.rtakeWhile (· ≠ .markClean), a = .clear ∨ ∃ x y, a = .toggle x y) := by
  intro d
  have whole : d.Whole := (whole_blank width height).after actions
  obtain ⟨wide, high⟩ : d.width = w ∧ d.height = h := (blank w h).sides_after actions
  have rows := whole.rows_eq
  rw [wide, high] at rows
  refine ⟨?size, fun x y => ⟨whole.read?_eq x y, ?parity⟩, fun x y i j => ?torus,
    fun x y => ⟨whole.toggle?_eq x y, ?one, fun x' y' => ?flips⟩, ⟨?lines, ?columns, fun x y hx hy => ?entry⟩,
    ?text, dirty_after_blank w h actions⟩
  case size =>
    rw [whole.cells, wide, high, Nat.mul_comm, Int.natCast_mul, Int.toNat_of_nonneg (by omega),
      Int.toNat_of_nonneg (by omega)]
  case parity =>
    rw [← decide_eq_true_iff (p := _ % 2 = 1), ← read_after_blank width height actions (x, y)]
  case torus =>
    refine whole.read_of_congruent (p := (x + i * w, y + j * h)) (q := (x, y)) ?_
    simp [congruent, wide, high]
  case one =>
    exact ⟨d.offset x y, (whole.getElem?_toggle x y _).mpr rfl, fun k => (whole.getElem?_toggle x y k).mp⟩
  case flips =>
    have flips := whole.read_toggle_congruent (x, y) (x', y')
    rw [show (d.apply (.toggle x y)).read x' y' = _ from flips]
    cases d.read x' y' <;> simp [congruent, wide, high]
  case lines =>
    rw [rows, List.length_map, List.length_range, Int.toNat_of_nonneg (by omega)]
  case columns =>
    intro row mem
    rw [rows] at mem
    obtain ⟨y, -, rfl⟩ := List.mem_map.mp mem
    rw [List.length_map, List.length_range, Int.toNat_of_nonneg (by omega)]
  case entry =>
    refine ⟨_, by rw [rows, List.getElem?_map, List.getElem?_range (by omega), Option.map_some], ?_⟩
    rw [List.getElem?_map, List.getElem?_range (by omega), Option.map_some]
  case text =>
    simp only [Display.text, rows, List.map_map, Function.comp_def]

theorem torus_of_parities_wrapped :
    let d := (blank 3 2).after [.toggle 2 1, .clear, .toggle (-1) 3, .markClean, .toggle 2 1, .toggle 5 (-1)]
    (1 : Int) ≤ 3 ∧ (1 : Int) ≤ 2 ∧ d.read 2 1 = true ∧ d.read (-4) 5 = true ∧ d.read 1 1 = false ∧
      d.dirty = true := by
  intro d
  obtain ⟨-, parity, torus, -, -, -, dirty⟩ := torus_of_parities (w := 3) (h := 2) (by decide) (by decide)
    [.toggle 2 1, .clear, .toggle (-1) 3, .markClean, .toggle 2 1, .toggle 5 (-1)]
  have lit : d.read 2 1 = true := (parity 2 1).2.mpr (by decide)
  have further : d.read (-4) 5 = d.read (2 + -2 * 3) (1 + 2 * 2) := congrArg₂ d.read (by decide) (by decide)
  refine ⟨by decide, by decide, lit, further.trans ((torus 2 1 (-2) 2).trans lit), ?_, dirty.mpr ?_⟩
  · exact Bool.eq_false_iff.mpr (mt (parity 1 1).2.mp (by decide))
  · exact ⟨.toggle 5 (-1), by decide, .inr ⟨5, -1, rfl⟩⟩

end ChipEight.Display

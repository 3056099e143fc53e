import ChipEight.Proofs.Representation
import ChipEight.Screen

/-!
What a screen shows. A pixel of a repainted surface has the foreground colour if and only if a square covers
it; the squares are those of the lit cells, and each pixel of the grid lies in the square of one cell. The
surface may be smaller or larger than the grid.
-/

namespace ChipEight

namespace Display

structure Whole (d : Display) : Prop where
  width : 0 < d.width
  height : 0 < d.height
  cells : d.cells.size = d.height.toNat * d.width.toNat

theorem WellFormed.whole {d : Display} (h : d.WellFormed) : d.Whole where
  width := by rw [h.width]; decide
  height := by rw [h.height]; decide
  cells := by rw [h.cells, h.width, h.height]; rfl

theorem read_inside (d : Display) {x y : Nat} (hx : x < d.width) (hy : y < d.height) :
    d.read x y = d.cells.getD (y * d.width.toNat + x) false := by
  have column : ((x : Int) % d.width).toNat = x := by
    rw [Int.emod_eq_of_lt (Int.natCast_nonneg x) hx, Int.toNat_natCast]
  have line : ((y : Int) % d.height).toNat = y := by
    rw [Int.emod_eq_of_lt (Int.natCast_nonneg y) hy, Int.toNat_natCast]
  rw [read, offset, column, line]

theorem read_blank (width height x y : Int) : (blank width height).read x y = false := by
  rw [read, blank, dark, Array.getD_eq_getD_getElem?, Array.getElem?_replicate]
  split <;> rfl

theorem Whole.offset_lt {d : Display} (h : d.Whole) {x y : Nat} (hx : x < d.width.toNat)
    (hy : y < d.height.toNat) : y * d.width.toNat + x < d.cells.size := by
  rw [h.cells]
  have line : (y + 1) * d.width.toNat ≤ d.height.toNat * d.width.toNat :=
    Nat.mul_le_mul_right _ hy
  rw [Nat.succ_mul] at line
  omega

theorem getElem?_rows (d : Display) {y : Nat} (hy : y < d.height.toNat) :
    d.rows[y]? =
      some (d.cells.extract (y * d.width.toNat) ((y + 1) * d.width.toNat)).toList := by
  rw [rows, List.getElem?_map, List.getElem?_range hy, Option.map_some]

theorem Whole.getElem?_row {d : Display} (h : d.Whole) {y : Nat} (hy : y < d.height.toNat) (x : Nat) :
    (d.cells.extract (y * d.width.toNat) ((y + 1) * d.width.toNat)).toList[x]? =
      if x < d.width.toNat then some (d.read x y) else none := by
  have length : (y + 1) * d.width.toNat = y * d.width.toNat + d.width.toNat := Nat.succ_mul _ _
  rw [Array.getElem?_toList, Array.getElem?_extract]
  by_cases hx : x < d.width.toNat
  · have inside := h.offset_lt hx hy
    have read := d.read_inside (show (x : Int) < d.width by omega) (show (y : Int) < d.height by omega)
    rw [if_pos (by omega), if_pos hx, read, Array.getD_eq_getD_getElem?,
      Array.getElem?_eq_getElem inside, Option.getD_some]
  · rw [if_neg (by omega), if_neg hx]

theorem Whole.rows_lit_iff {d : Display} (h : d.Whole) (x y : Nat) :
    (∃ row, d.rows[y]? = some row ∧ row[x]? = some true) ↔
      x < d.width.toNat ∧ y < d.height.toNat ∧ d.read x y = true := by
  by_cases hy : y < d.height.toNat
  · simp [d.getElem?_rows hy, h.getElem?_row hy, hy, -Array.toList_extract]
  · simp [rows, hy]

end Display

namespace Surface

theorem pixel_foldl_paint (s : Surface) (squares : List Rectangle) (c : Colour) (px py : Int) :
    (squares.foldl (fun surface r => surface.paint r c) s).pixel px py =
      if squares.any fun r => r.covers px py then c.kept else s.pixel px py := by
  induction squares generalizing s with
  | nil => rfl
  | cons r rest ih =>
    rw [List.foldl_cons, ih, pixel_paint, List.any_cons]
    cases rest.any fun r => r.covers px py <;> cases r.covers px py <;> rfl

theorem size_foldl_paint (s : Surface) (squares : List Rectangle) (c : Colour) :
    (squares.foldl (fun surface r => surface.paint r c) s).width = s.width ∧
      (squares.foldl (fun surface r => surface.paint r c) s).height = s.height := by
  induction squares generalizing s with
  | nil => exact ⟨rfl, rfl⟩
  | cons r rest ih => exact ih (s.paint r c)

end Surface

namespace Rectangle

variable {paint : Rectangle → Except ArgumentError Rectangle} {squares : List Rectangle}

theorem mapM_of_taken (taken : ∀ r ∈ squares, paint r = .ok r) : squares.mapM paint = .ok squares := by
  induction squares with
  | nil => rfl
  | cons r rest ih =>
    obtain ⟨first, others⟩ := List.forall_mem_cons.mp taken
    rw [List.mapM_cons, first, ih others]
    rfl

theorem exists_mapM (painted : ∀ r ∈ squares, ∃ r', paint r = .ok r') : ∃ all, squares.mapM paint = .ok all := by
  induction squares with
  | nil => exact ⟨[], rfl⟩
  | cons r rest ih =>
    obtain ⟨⟨r', first⟩, others⟩ := List.forall_mem_cons.mp painted
    obtain ⟨all, later⟩ := ih others
    exact ⟨r' :: all, by rw [List.mapM_cons, first, later]; rfl⟩

end Rectangle

namespace Screen

theorem covers_square {s : Screen} (scale : 0 < s.scale) (x y : Nat) (px py : Int) :
    (s.square x y).covers px py = true ↔ px / s.scale = x ∧ py / s.scale = y := by
  rw [Int.ediv_eq_iff_of_pos scale, Int.ediv_eq_iff_of_pos scale, square, Rectangle.covers]
  simp only [Bool.and_eq_true, decide_eq_true_eq, and_assoc]

theorem mem_litSquares (s : Screen) {d : Display} (h : d.Whole) (r : Rectangle) :
    r ∈ s.litSquares d ↔
      ∃ x y : Nat, (x < d.width.toNat ∧ y < d.height.toNat ∧ d.read x y = true) ∧
        r = s.square x y := by
  simp only [litSquares, List.mem_flatMap, List.mem_filterMap, Prod.exists,
    List.mem_zipIdx_iff_getElem?]
  constructor
  · rintro ⟨row, y, line, lit, x, column, square⟩
    cases lit with
    | false => cases square
    | true => exact ⟨x, y, (h.rows_lit_iff x y).mp ⟨row, line, column⟩, (Option.some.inj square).symm⟩
  · rintro ⟨x, y, lit, rfl⟩
    obtain ⟨row, line, column⟩ := (h.rows_lit_iff x y).mpr lit
    exact ⟨row, y, line, true, x, column, rfl⟩

def litAt (d : Display) (scale px py : Int) : Bool :=
  (0 ≤ px && px < d.width * scale && 0 ≤ py && py < d.height * scale) && d.read (px / scale) (py / scale)

theorem litAt_iff {d : Display} {scale : Int} (pos : 0 < scale) (px py : Int) :
    litAt d scale px py = true ↔
      ∃ x y : Nat, px / scale = x ∧ py / scale = y ∧
        x < d.width.toNat ∧ y < d.height.toNat ∧ d.read x y = true := by
  have least (p : Int) : 0 ≤ p ↔ 0 ≤ p / scale := (Int.ediv_nonneg_iff_of_pos pos).symm
  have greatest (p side : Int) : p < side * scale ↔ p / scale < side :=
    (Int.ediv_lt_iff_lt_mul pos).symm
  simp only [litAt, Bool.and_eq_true, decide_eq_true_eq, greatest, least px, least py]
  constructor
  · rintro ⟨⟨⟨⟨left, right⟩, top⟩, bottom⟩, lit⟩
    obtain ⟨x, column⟩ := Int.eq_ofNat_of_zero_le left
    obtain ⟨y, line⟩ := Int.eq_ofNat_of_zero_le top
    rw [column, line] at lit
    exact ⟨x, y, column, line, by omega, by omega, lit⟩
  · rintro ⟨x, y, column, line, hx, hy, lit⟩
    rw [column, line]
    exact ⟨⟨⟨⟨by omega, by omega⟩, by omega⟩, by omega⟩, lit⟩

theorem pixel_render {s : Screen} {d : Display} (h : d.Whole) (scale : 0 < s.scale) (px py : Int) :
    (s.render d).1.surface.pixel px py =
      if litAt d s.scale px py then s.foreground.kept else s.background.kept := by
  have covered : ((s.litSquares d).any fun r => r.covers px py) = litAt d s.scale px py := by
    rw [Bool.eq_iff_iff, List.any_eq_true, litAt_iff scale]
    constructor
    · rintro ⟨r, mem, covers⟩
      obtain ⟨x, y, lit, rfl⟩ := (s.mem_litSquares h r).mp mem
      obtain ⟨column, line⟩ := (covers_square scale x y px py).mp covers
      exact ⟨x, y, column, line, lit⟩
    · rintro ⟨x, y, column, line, lit⟩
      exact ⟨s.square x y, (s.mem_litSquares h _).mpr ⟨x, y, lit, rfl⟩,
        (covers_square scale x y px py).mpr ⟨column, line⟩⟩
  rw [render, repaint, Surface.pixel_foldl_paint, Surface.pixel_fill, covered]

theorem render?_of_taken {s : Screen} {d : Display} {library : Library}
    (taken : ∀ r ∈ s.litSquares d, library.rectangle r = .ok r) : s.render? d library = .ok (s.render d) := by
  rw [render?, Rectangle.mapM_of_taken taken]
  rfl

end Screen

end ChipEight

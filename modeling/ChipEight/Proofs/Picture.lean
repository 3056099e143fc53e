import ChipEight.Proofs.Rendering
import ChipEight.Proofs.Torus

/-!
The picture that a rendered display leaves on a surface of any size. It is that of the display alone: what was on the
surface before is painted over, so neither an earlier picture nor the same one makes a difference.
-/

namespace ChipEight

namespace Surface

theorem fill_of_size {s s' : Surface} (width : s.width = s'.width) (height : s.height = s'.height)
    (c : Colour) : s.fill c = s'.fill c := by
  rw [fill, fill, width, height]

theorem getElem?_rows (s : Surface) (px py : Nat) :
    (s.rows[py]?.bind fun row => row[px]?) =
      if px < s.width ∧ py < s.height then some (s.pixel px py) else none := by
  rw [rows, List.getElem?_map]
  by_cases line : py < s.height
  · rw [List.getElem?_range line, Option.map_some, Option.bind_some, List.getElem?_map]
    by_cases column : px < s.width
    · rw [List.getElem?_range column, if_pos ⟨column, line⟩, Option.map_some]
    · rw [List.getElem?_eq_none (by simpa using column), if_neg fun inside => column inside.1, Option.map_none]
  · rw [List.getElem?_eq_none (by simpa using line), if_neg fun inside => line inside.2]
    rfl

end Surface

namespace Rectangle

theorem taken?_of_small {r : Rectangle} (x : 0 ≤ r.x ∧ r.x < 2147483648) (y : 0 ≤ r.y ∧ r.y < 2147483648)
    (width : 0 ≤ r.width ∧ r.width < 2147483648) (height : 0 ≤ r.height ∧ r.height < 2147483648) :
    r.taken? = .ok r := by
  rw [taken?, if_pos (by simp only [Fits64]; omega), lowSigned_of_small x.1 x.2, lowSigned_of_small y.1 y.2,
    lowSigned_of_small width.1 width.2, lowSigned_of_small height.1 height.2]

end Rectangle

namespace Screen

variable (s : Screen) (d : Display)

theorem size_render :
    (s.render d).1.surface.width = s.surface.width ∧ (s.render d).1.surface.height = s.surface.height :=
  (s.surface.fill s.background).size_foldl_paint (s.litSquares d) s.foreground

theorem render_of_size {surface : Surface} (width : surface.width = s.surface.width)
    (height : surface.height = s.surface.height) : { s with surface }.render d = s.render d := by
  have blank : surface.fill s.background = s.surface.fill s.background := Surface.fill_of_size width height _
  simp only [render, repaint, blank]
  rfl

theorem render_after_render (d' : Display) : (s.render d').1.render d = s.render d :=
  s.render_of_size d (s.size_render d').1 (s.size_render d').2

theorem render_after (earlier : List Display) :
    (earlier.foldl (fun s d => (s.render d).1) s).render d = s.render d := by
  induction earlier generalizing s with
  | nil => rfl
  | cons d' rest ih => rw [List.foldl_cons, ih, render_after_render]

theorem render_render : (s.render d).1.render (s.render d).2 = s.render d :=
  s.render_after_render d.markClean d

variable {s d}

theorem render?_of_small (h : d.Whole) (scale : 0 < s.scale) (width : d.width * s.scale < 2147483648)
    (height : d.height * s.scale < 2147483648) : s.render? d = .ok (s.render d) := by
  have within {k : Nat} {side : Int} (inside : k < side.toNat) (small : side * s.scale < 2147483648) :
      (0 ≤ k * s.scale ∧ k * s.scale < 2147483648) ∧ s.scale < 2147483648 := by
    have next : ((k : Int) + 1) * s.scale ≤ side * s.scale :=
      Int.mul_le_mul_of_nonneg_right (by omega) (Int.le_of_lt scale)
    have nonneg : 0 ≤ (k : Int) * s.scale := Int.mul_nonneg (by omega) (Int.le_of_lt scale)
    rw [Int.add_mul, Int.one_mul] at next
    omega
  have taken : ∀ r ∈ s.litSquares d, r.taken? = .ok r := by
    intro r mem
    obtain ⟨x, y, ⟨hx, hy, -⟩, rfl⟩ := (s.mem_litSquares h r).mp mem
    obtain ⟨column, side⟩ := within hx width
    obtain ⟨line, -⟩ := within hy height
    exact Rectangle.taken?_of_small column line ⟨Int.le_of_lt scale, side⟩ ⟨Int.le_of_lt scale, side⟩
  exact render?_of_taken taken

/-- A rendered display is seen on its surface, pixel by pixel, and on as much of it as there is: a pixel has the
foreground colour if it lies in the square of a lit cell, and the background colour if not. The display is clean then
and has not changed otherwise. Nothing that was on the surface before makes a difference, be it earlier pictures or
this one. A library that takes the squares of the lit cells as they are paints just that. -/
theorem picture_of_display (whole : d.Whole) (scale : 1 ≤ s.scale) :
    let r := s.render d
    (r.1.surface.width = s.surface.width ∧ r.1.surface.height = s.surface.height) ∧
    (∀ px py : Nat, (r.1.surface.rows[py]?.bind fun row => row[px]?) =
      if px < s.surface.width ∧ py < s.surface.height then
        some (if px < d.width * s.scale ∧ py < d.height * s.scale ∧ d.read (px / s.scale) (py / s.scale) = true
          then s.foreground.kept else s.background.kept)
      else none) ∧
    (s.foreground.kept ≠ s.background.kept → ∀ px py : Nat,
      r.1.surface.pixel px py = s.foreground.kept ↔
        px < d.width * s.scale ∧ py < d.height * s.scale ∧ d.read (px / s.scale) (py / s.scale) = true) ∧
    r.2 = { d with dirty := false } ∧
    (∀ surface : Surface, surface.width = s.surface.width → surface.height = s.surface.height →
      { s with surface }.render d = r) ∧
    (∀ earlier : List Display, (earlier.foldl (fun s d => (s.render d).1) s).render d = r) ∧
    r.1.render r.2 = r ∧
    (∀ library : Library, (∀ square ∈ s.litSquares d, library.rectangle square = .ok square) →
      s.render? d library = .ok r) ∧
    (d.width * s.scale < 2147483648 → d.height * s.scale < 2147483648 → s.render? d = .ok r) := by
  intro r
  have pixel (px py : Nat) : r.1.surface.pixel px py =
      if px < d.width * s.scale ∧ py < d.height * s.scale ∧ d.read (px / s.scale) (py / s.scale) = true
        then s.foreground.kept else s.background.kept := by
    rw [pixel_render whole scale]
    simp [litAt, and_assoc]
  obtain ⟨width, height⟩ := s.size_render d
  refine ⟨⟨width, height⟩, fun px py => ?rows, fun distinct px py => ?iff, rfl,
    fun surface => s.render_of_size d, s.render_after d, s.render_render d, fun _ => render?_of_taken,
    render?_of_small whole scale⟩
  case rows =>
    rw [Surface.getElem?_rows, width, height, pixel]
  case iff =>
    rw [pixel]
    split
    next lit => exact iff_of_true rfl lit
    next dark => exact iff_of_false distinct.symm dark

theorem picture_of_display_clipped :
    let d := (Display.blank 3 2).toggle 2 1
    let s : Screen := ⟨⟨5, 7, .darkBlue, [(⟨0, 0, 5, 7⟩, .lightBlue)]⟩, 2, .darkBlue, .lightBlue⟩
    let rows := (s.render d).1.surface.rows
    d.Whole ∧ 1 ≤ s.scale ∧ s.foreground.kept ≠ s.background.kept ∧
      (rows[3]?.bind fun row => row[4]?) = some .lightBlue ∧ (rows[3]?.bind fun row => row[3]?) = some .darkBlue ∧
      (rows[6]?.bind fun row => row[4]?) = some .darkBlue ∧ (rows[3]?.bind fun row => row[5]?) = none ∧
      (s.render d).1.surface.pixel 4 2 = .lightBlue ∧ s.render? d = .ok (s.render d) := by
  intro d s rows
  have whole : d.Whole := (Display.whole_blank (by decide) (by decide)).toggle 2 1
  have distinct : s.foreground.kept ≠ s.background.kept := by decide
  obtain ⟨-, lines, lit, -, -, -, -, -, small⟩ := picture_of_display (s := s) whole (by decide)
  refine ⟨whole, by decide, distinct, ?_, ?_, ?_, ?_, (lit distinct 4 2).mpr (by decide), small (by decide) (by decide)⟩
  · exact (lines 4 3).trans (by decide)
  · exact (lines 3 3).trans (by decide)
  · exact (lines 4 6).trans (by decide)
  · exact (lines 5 3).trans (by decide)

end Screen

end ChipEight

import ChipEight.Proofs.Frames
import ChipEight.Proofs.Picture

/-!
What a program relies on where it leaves the painting to a library. A library that paints something for every square
of a display never ends a session; one that opens windows of the size that is asked for and paints the squares as they
are shows the display. The usual library paints for every window that it opens, and is exact as long as the numbers
are small.
-/

namespace ChipEight

open Parameters

namespace Library

/-- For every square of a display at a scale something is painted. -/
def Paints (library : Library) (scale : Int) : Prop :=
  ∀ x < screenWidth, ∀ y < screenHeight, ∃ r, library.rectangle ⟨x * scale, y * scale, scale, scale⟩ = .ok r

/-- A window at a scale has the size that is asked for, and the squares of a display in it are painted as they are. -/
structure Exact (library : Library) (scale : Int) : Prop where
  window : ∀ size, library.window (Screen.windowSize scale) = .ok size →
    size = ((screenWidth * scale).toNat, (screenHeight * scale).toNat)
  square : ∀ x < screenWidth, ∀ y < screenHeight,
    library.rectangle ⟨x * scale, y * scale, scale, scale⟩ = .ok ⟨x * scale, y * scale, scale, scale⟩

theorem Exact.paints {library : Library} {scale : Int} (exact : library.Exact scale) : library.Paints scale :=
  fun x hx y hy => ⟨_, exact.square x hx y hy⟩

theorem usual_paints {scale : Int} {size : Nat × Nat}
    (opens : usual.window (Screen.windowSize scale) = .ok size) : usual.Paints scale := by
  have fits : Fits64 (screenWidth * scale) := by
    by_cases fits : Fits64 (screenWidth * scale) ∧ Fits64 (screenHeight * scale)
    · exact fits.1
    · simp [usual, cutWindow, Screen.windowSize, fits] at opens
  simp only [screenWidth] at fits
  have within {k : Nat} (hk : k < 64) : Fits64 (k * scale) := by
    by_cases sign : 0 ≤ scale
    · have least := Int.mul_nonneg (Int.natCast_nonneg k) sign
      have greatest := Int.mul_le_mul_of_nonneg_right (show (k : Int) ≤ 64 by omega) sign
      exact ⟨by have := fits.1; omega, by have := fits.2; omega⟩
    · have nonpos : scale ≤ 0 := by omega
      have greatest := Int.mul_nonpos_of_nonneg_of_nonpos (Int.natCast_nonneg k) nonpos
      have least := Int.mul_le_mul_of_nonpos_right (show (k : Int) ≤ 64 by omega) nonpos
      exact ⟨by have := fits.1; omega, by omega⟩
  intro x hx y hy
  have side : Fits64 scale := by simpa using within (show 1 < 64 by decide)
  exact ⟨_, if_pos ⟨within hx, within (Nat.lt_trans hy (by decide)), side, side⟩⟩

theorem usual_exact {scale : Int} (nonneg : 0 ≤ scale) (small : scale < 33554432) : usual.Exact scale where
  window := by
    intro size opens
    simp only [usual, cutWindow, Screen.windowSize, screenWidth, screenHeight,
      lowSigned_of_small (show 0 ≤ (64 : Nat) * scale by omega) (by omega),
      lowSigned_of_small (show 0 ≤ (32 : Nat) * scale by omega) (by omega)] at opens
    split at opens
    · cases opens
    · split at opens
      · cases opens
      · split at opens
        · cases opens
        · exact (Except.ok.inj opens).symm
  square := by
    intro x hx y hy
    have within {k : Nat} (hk : k < 64) : 0 ≤ k * scale ∧ k * scale < 2147483648 := by
      have greatest := Int.mul_le_mul_of_nonneg_right (show (k : Int) ≤ 64 by omega) nonneg
      exact ⟨Int.mul_nonneg (Int.natCast_nonneg k) nonneg, by omega⟩
    have side : scale < 2147483648 := by omega
    exact Rectangle.taken?_of_small (within hx) (within (Nat.lt_trans hy (by decide))) ⟨nonneg, side⟩ ⟨nonneg, side⟩

end Library

namespace Screen

variable {s : Screen} {d : Display} {library : Library} (cells : d.WellFormed)
include cells

theorem square_of_mem_litSquares {r : Rectangle} (mem : r ∈ s.litSquares d) :
    ∃ x < screenWidth, ∃ y < screenHeight, r = ⟨x * s.scale, y * s.scale, s.scale, s.scale⟩ := by
  obtain ⟨x, y, ⟨hx, hy, -⟩, rfl⟩ := (s.mem_litSquares cells.whole r).mp mem
  rw [cells.width] at hx
  rw [cells.height] at hy
  exact ⟨x, hx, y, hy, rfl⟩

theorem exists_render? (paints : library.Paints s.scale) : ∃ shown, s.render? d library = .ok shown := by
  obtain ⟨squares, painted⟩ : ∃ squares, (s.litSquares d).mapM library.rectangle = .ok squares := by
    refine Rectangle.exists_mapM fun r mem => ?_
    obtain ⟨x, hx, y, hy, rfl⟩ := square_of_mem_litSquares cells mem
    exact paints x hx y hy
  exact ⟨_, by rw [render?, painted]⟩

theorem render?_of_exact (exact : library.Exact s.scale) : s.render? d library = .ok (s.render d) := by
  refine render?_of_taken fun r mem => ?_
  obtain ⟨x, hx, y, hy, rfl⟩ := square_of_mem_litSquares cells mem
  exact exact.square x hx y hy

end Screen

namespace Session

/-- Whatever the machine does next, the library paints it. -/
structure Paintable (s : Session) : Prop where
  wellFormed : s.machine.WellFormed
  paints : s.library.Paints s.screen.scale

section Paintable

variable {s : Session} (h : s.Paintable)
include h

theorem Paintable.exists_refresh? : ∃ s', s.refresh? = .ok s' := by
  obtain ⟨⟨screen, display⟩, painted⟩ := Screen.exists_render? h.wellFormed.display h.paints
  simp only [refresh?, painted]
  split <;> exact ⟨_, rfl⟩

theorem Paintable.ran (pace : Int) (events : List KeyEvent) : (s.ran pace events).Paintable :=
  ⟨h.wellFormed.frameWith pace events, h.paints⟩

theorem Paintable.refreshed {s' : Session} (painted : s.refresh? = .ok s') : s'.Paintable := by
  have same := refreshed_of_ok painted
  refine ⟨?_, by rw [same.library, same.scale]; exact h.paints⟩
  rw [same.machine]
  exact Machine.wellFormed_after h.wellFormed [.markClean]

theorem Paintable.before (pace : Int) (script : List (List KeyEvent)) (k : Nat) :
    (s.before pace script k).Paintable :=
  after_invariant (fun _ events h => h.ran pace events) (fun _ _ h => h.refreshed) h (script.take k)

variable {pace : Int} {script : List (List KeyEvent)} {n : Nat} {ending : Ending}

theorem Paintable.ends (running : s.machine.halted = false) (last : s.LastFrame pace script n ending) :
    ((s.before pace script n).machine.frameWith pace (script.getD n [])).answer = .ok () ∧
        ((s.before pace script n).ran pace (script.getD n [])).refresh? = .ok (s.before pace script (n + 1)) ∧
        (∃ e ∈ script.getD n [], e.AsksToQuit) ∧ ending = .quit ∨
      ∃ f, ((s.before pace script n).machine.frameWith pace (script.getD n [])).answer = .error (.fault f) ∧
        s.before pace script (n + 1) = (s.before pace script n).ran pace (script.getD n []) ∧
        (s.before pace script (n + 1)).machine.halted = true ∧
        (s.before pace script (n + 1)).machine.fault = some f ∧ ending = .ofFailure (.fault f) := by
  -- a fault comes before the painting, and the painting does not fail
  rcases ends_before last running with quits | ⟨ran, ⟨f, faults, halted, recorded, eq⟩ | ⟨e, -, refused, -⟩⟩
  · exact .inl quits
  · exact .inr ⟨f, faults, ran, halted, recorded, eq⟩
  · obtain ⟨s', painted⟩ := ((h.before pace script n).ran pace (script.getD n [])).exists_refresh?
    rw [painted] at refused
    cases refused

theorem Paintable.lt_of_completes (running : s.machine.halted = false) (last : s.LastFrame pace script n ending)
    {k : Nat} (le : k ≤ n)
    (completes : ((s.before pace script k).machine.frameWith pace (script.getD k [])).answer = .ok ())
    (unasked : ∀ e ∈ script.getD k [], ¬ e.AsksToQuit) : k < n := by
  rcases Nat.lt_or_eq_of_le le with lt | rfl
  · exact lt
  · rcases h.ends running last with ⟨-, -, ⟨e, mem, asks⟩, -⟩ | ⟨f, faults, -⟩
    · exact absurd asks (unasked e mem)
    · exact absurd (completes.symm.trans faults) nofun

theorem Paintable.next_of_completes (running : s.machine.halted = false) (last : s.LastFrame pace script n ending)
    {k : Nat} (le : k ≤ n) (quiet : script.getD k [] = [])
    (completes : ((s.before pace script k).machine.frame pace).answer = .ok ()) :
    k < n ∧ (s.before pace script (k + 1)).machine =
      { ((s.before pace script k).machine.frame pace).machine with
        display := ((s.before pace script k).machine.frame pace).machine.display.markClean } := by
  have lt : k < n := by
    refine h.lt_of_completes running last le ?_ ?_
    · rw [quiet]
      exact completes
    · rw [quiet]
      exact List.forall_mem_nil _
  obtain ⟨-, painted, -⟩ := completes_before last lt
  have next := (refreshed_of_ok painted).machine
  rw [machine_ran, quiet] at next
  exact ⟨lt, next⟩

theorem Paintable.exists_completed (running : s.machine.halted = false)
    (last : s.LastFrame pace script n ending) :
    ∃ c, s.Completed pace script c ∧
      (c = n + 1 ∧ ending = .quit ∨
        c = n ∧ ∃ f, ((s.before pace script n).machine.frameWith pace (script.getD n [])).answer =
          .error (.fault f) ∧ ending = .ofFailure (.fault f)) ∧
      (s.before pace script (n + 1)).screen = (s.before pace script c).screen ∧
      (s.before pace script (n + 1)).refreshes = (s.before pace script c).refreshes := by
  have earlier : s.Completed pace script n := by
    intro k hk
    obtain ⟨completes, painted, -⟩ := completes_before last hk
    exact ⟨completes, painted⟩
  rcases h.ends running last with ⟨completes, painted, -, quits⟩ | ⟨f, faults, ran, -, -, fails⟩
  · refine ⟨n + 1, fun k hk => ?_, .inl ⟨rfl, quits⟩, rfl, rfl⟩
    rcases Nat.lt_succ_iff_lt_or_eq.mp hk with hk | rfl
    · exact earlier k hk
    · exact ⟨completes, painted⟩
  · refine ⟨n, earlier, .inr ⟨rfl, f, faults, fails⟩, ?_, ?_⟩
    · rw [ran, screen_ran]
    · rw [ran, refreshes_ran]

end Paintable

end Session

end ChipEight

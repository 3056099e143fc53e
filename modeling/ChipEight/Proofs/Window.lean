import ChipEight.Proofs.DirtyFlag
import ChipEight.Proofs.FrameRefinement

/-!
The window and the display. A window that shows a display goes on showing it as long as the display is
clean, and a frame that leaves the display dirty paints the window anew; so a window is never stale between
frames, if the library paints the squares of cells as they are.
-/

namespace ChipEight

open Parameters

namespace Screen

structure Shows (s : Screen) (scale : Int) (d : Display) : Prop where
  width : s.surface.width = (d.width * scale).toNat
  height : s.surface.height = (d.height * scale).toNat
  pixel : ∀ px py : Int, 0 ≤ px → px < s.surface.width → 0 ≤ py → py < s.surface.height →
    s.surface.pixel px py = if d.read (px / scale) (py / scale) then .lightBlue else .darkBlue

def newWindow (scale : Int) : Screen :=
  .onWindow scale ((screenWidth * scale).toNat, (screenHeight * scale).toNat)

theorem eq_newWindow {library : Library} {scale : Int} (exact : library.Exact scale) {s : Screen}
    (opened : inWindow? library scale = .ok s) : s = .newWindow scale := by
  obtain ⟨size, opens, rfl⟩ := inWindow?_eq_ok_iff.mp opened
  rw [exact.window size opens]
  rfl

theorem shows_newWindow (scale : Int) :
    (newWindow scale).Shows scale (.blank screenWidth screenHeight) where
  width := rfl
  height := rfl
  pixel := by
    intro px py _ _ _ _
    rw [Display.read_blank]
    rfl

structure Windowed (s : Screen) (scale : Int) : Prop where
  width : s.surface.width = (screenWidth * scale).toNat
  height : s.surface.height = (screenHeight * scale).toNat
  scale : s.scale = scale
  background : s.background = .darkBlue
  foreground : s.foreground = .lightBlue

theorem windowed_newWindow (scale : Int) : (newWindow scale).Windowed scale :=
  ⟨rfl, rfl, rfl, rfl, rfl⟩

theorem Windowed.render {s : Screen} {scale : Int} (h : s.Windowed scale) (d : Display) :
    (s.render d).1.Windowed scale := by
  obtain ⟨width, height⟩ := Surface.size_foldl_paint (s.surface.fill s.background) (s.litSquares d)
    s.foreground
  exact ⟨width.trans h.width, height.trans h.height, h.scale, h.background, h.foreground⟩

theorem Windowed.shows_render {s : Screen} {scale : Int} (h : s.Windowed scale) {d : Display}
    (cells : d.WellFormed) : (s.render d).1.Shows scale d := by
  have rendered := h.render d
  refine ⟨by rw [cells.width]; exact rendered.width, by rw [cells.height]; exact rendered.height, ?_⟩
  intro px py left right top bottom
  rw [rendered.width] at right
  rw [rendered.height] at bottom
  -- a window with a pixel in it has a positive scale
  have pos : 0 < scale := by
    simp only [screenWidth] at right
    omega
  have inside : litAt d scale px py = d.read (px / scale) (py / scale) := by
    simp only [litAt, cells.width, cells.height]
    simp [left, top, show px < screenWidth * scale by omega,
      show py < screenHeight * scale by omega]
  rw [pixel_render cells.whole (h.scale ▸ pos), h.scale, inside, h.foreground, h.background]
  rfl

end Screen

namespace Machine

theorem dirtyUnless_frameWith (m : Machine) (pace : Int) (events : List KeyEvent) :
    m.display.DirtyUnless (m.frameWith pace events).machine.display := by
  have polled : (m.after (events.flatMap KeyEvent.operations)).display = m.display := by
    rw [after_events]
  rw [machine_frameWith, after_append, ← polled]
  exact dirtyUnless_after (by simp) (by simp) _

end Machine

namespace Session

/-- Between frames the display is clean and the window shows it. -/
structure UpToDate (s : Session) (scale : Int) : Prop where
  exact : s.library.Exact scale
  wellFormed : s.machine.WellFormed
  clean : s.machine.display.dirty = false
  windowed : s.screen.Windowed scale
  shows : s.screen.Shows scale s.machine.display

theorem screen_of_refresh? {s s' : Session} (painted : s.refresh? = .ok s') (cells : s.machine.display.WellFormed)
    (exact : s.library.Exact s.screen.scale) :
    s'.screen = if s.machine.display.dirty then (s.screen.render s.machine.display).1 else s.screen := by
  simp only [refresh?, Screen.render?_of_exact cells exact] at painted
  split at painted
  next dirty =>
    obtain rfl := Except.ok.inj painted
    rw [if_pos dirty]
  next clean =>
    obtain rfl := Except.ok.inj painted
    rw [if_neg clean]

section UpToDate

variable {s s' : Session} {scale : Int} (h : s.UpToDate scale) {pace : Int} {events : List KeyEvent}
  (painted : (s.ran pace events).refresh? = .ok s')
include h

theorem UpToDate.paintable : s.Paintable :=
  ⟨h.wellFormed, by rw [h.windowed.scale]; exact h.exact.paints⟩

include painted

theorem UpToDate.screen_ran :
    s'.screen =
      if (s.machine.frameWith pace events).machine.display.dirty then
        (s.screen.render (s.machine.frameWith pace events).machine.display).1
      else s.screen := by
  have exact : s.library.Exact s.screen.scale := by
    rw [h.windowed.scale]
    exact h.exact
  exact screen_of_refresh? painted (h.wellFormed.frameWith pace events).display exact

theorem UpToDate.shows_ran : s'.screen.Shows scale (s.machine.frameWith pace events).machine.display := by
  rw [h.screen_ran painted]
  rcases s.machine.dirtyUnless_frameWith pace events with dirty | same
  · rw [if_pos dirty]
    exact h.windowed.shows_render (h.wellFormed.frameWith pace events).display
  · rw [same, if_neg (by rw [h.clean]; decide)]
    exact h.shows

theorem UpToDate.ran : s'.UpToDate scale := by
  have same := refreshed_of_ok painted
  have shown := h.shows_ran painted
  refine ⟨by rw [same.library]; exact h.exact, (h.paintable.ran pace events).refreshed painted |>.wellFormed,
    by rw [same.machine]; rfl, ?_, ?_⟩
  · rw [h.screen_ran painted]
    split
    · exact h.windowed.render _
    · exact h.windowed
  · rw [same.machine]
    exact ⟨shown.width, shown.height, shown.pixel⟩

end UpToDate

section Completed

variable {s : Session} {pace : Int} {script : List (List KeyEvent)} {c : Nat}
  (done : s.Completed pace script c)
include done

theorem upToDate_before {scale : Int} (start : s.UpToDate scale) {k : Nat} (hk : k ≤ c) :
    (s.before pace script k).UpToDate scale := by
  induction k with
  | zero => exact start
  | succ k ih =>
    exact (ih (Nat.le_of_lt hk)).ran (done k hk).2

theorem refreshes_before {k : Nat} (hk : k ≤ c) :
    (s.before pace script k).refreshes =
      s.refreshes + (List.range k).countP fun i =>
        ((s.before pace script i).machine.frameWith pace (script.getD i [])).machine.display.dirty := by
  induction k with
  | zero => rfl
  | succ k ih =>
    rw [(refreshed_of_ok (done k hk).2).refreshes, refreshes_ran, machine_ran, ih (Nat.le_of_lt hk),
      List.range_succ, List.countP_append, List.countP_singleton, Nat.add_assoc]

end Completed

end Session

namespace Program

section Begun

variable {w : World} {rom : List UInt8} {scale : Int} {s : Session} (begun : Begun w rom scale s)
include begun

theorem Begun.display : s.machine.display = .blank screenWidth screenHeight := by
  rw [begun.machine, Machine.after_cons, Machine.after_nil, Machine.perform_load_machine,
    Machine.loadRom_display]
  rfl

theorem Begun.upToDate (exact : w.library.Exact scale) : s.UpToDate scale := by
  have window := Screen.eq_newWindow exact begun.screen
  refine ⟨begun.library ▸ exact, ?_, by rw [begun.display]; rfl, ?_, ?_⟩
  · rw [begun.machine]
    exact Machine.wellFormed_after (Machine.wellFormed_initial w.random) _
  · rw [window]
    exact Screen.windowed_newWindow scale
  · rw [begun.display, window]
    exact Screen.shows_newWindow scale

end Begun

end Program

namespace Machine

section Dash

/-- A program that draws the top line of the glyph of zero, clears V0, and returns from no call. -/
def dash : List UInt8 :=
  [0xD0, 0x01, 0x60, 0x00, 0x00, 0xEE]

/-- The program is in memory, no call is open, and an opcode of the program comes next. -/
structure InDash (m : Machine) (pc : Nat) : Prop where
  memory : m.memory = (loaded dash).memory
  running : m.halted = false
  pc : m.registers.pc = pc
  stack : m.stack = (loaded dash).stack

theorem InDash.markClean {m : Machine} {pc : Nat} (h : m.InDash pc) :
    InDash { m with display := m.display.markClean } pc :=
  ⟨h.memory, h.running, h.pc, h.stack⟩

theorem frame_dash_draws :
    ((loaded dash).frame 1).answer = .ok () ∧ ((loaded dash).frame 1).machine.display.dirty = true ∧
      ((loaded dash).frame 1).machine.display.read 0 0 = true ∧
      ((loaded dash).frame 1).machine.InDash (0x200 + 2) := by
  have wellFormed : (loaded dash).WellFormed := by
    rw [← after_nil (loaded dash), ← after_load dash (by decide)]
    exact wellFormed_after (wellFormed_initial _) _
  have opcode : (loaded dash).opcode = 0xD001 := wordAt_loaded dash (by decide) 0 (by decide)
  have line : (loaded dash).memory.byteAt 0 = 0xF0 := by
    have glyph := wellFormed.font 0 (by decide)
    simp [Memory.byteAt, glyph, Font.glyphs]
  have covers : (loaded dash).SpriteCovers 0 0 := by
    rw [SpriteCovers, opcode]
    exact ⟨0, by decide, 0, by decide, line ▸ by decide, rfl, rfl⟩
  have flips := (wellFormed.display.whole.flipped_iff (nodup_places_drawnPoints wellFormed) 0 0).mpr
    ((covers_iff wellFormed (by decide) (by decide)).mpr covers)
  have dark : (loaded dash).display.read 0 0 = false := Display.read_blank 64 32 0 0
  obtain ⟨succeeds, drawn⟩ := cycle_draw wellFormed rfl (by decide) (by rw [opcode]) (.inr (by rw [opcode]; decide))
  obtain ⟨completes, state⟩ := frame_one_of_ok succeeds
  rw [drawn] at state
  refine ⟨completes, ?_⟩
  rw [state]
  refine ⟨rfl, ?_, ⟨rfl, rfl, rfl, rfl⟩⟩
  change ((loaded dash).display.draw (loaded dash).drawnPoints).1.markDirty.read 0 0 = true
  rw [dark] at flips
  rw [Display.read_markDirty]
  exact Bool.of_not_eq_false flips

variable {m : Machine}

theorem frame_dash_clears (h : m.InDash (0x200 + 2)) :
    (m.frame 1).answer = .ok () ∧ (m.frame 1).machine.display = m.display ∧
      (m.frame 1).machine.InDash (0x200 + 4) := by
  have opcode : m.opcode = 0x6000 := opcode_of_loaded h.memory h.pc (by decide) (by decide)
  have cycle := cycle_of_opcode h.running (by rw [h.pc]; decide) opcode rfl
  obtain ⟨completes, state⟩ := frame_one_of_ok (congrArg Outcome.answer cycle)
  rw [cycle] at state
  refine ⟨completes, ?_⟩
  rw [state]
  refine ⟨rfl, ⟨h.memory, h.running, ?_, h.stack⟩⟩
  change m.registers.pc + 2 = _
  rw [h.pc]
  decide

theorem frame_dash_returns (wellFormed : m.WellFormed) (h : m.InDash (0x200 + 4)) :
    (m.frame 1).answer = .error (.fault .stackUnderflow) := by
  have opcode : m.opcode = 0x00EE := opcode_of_loaded h.memory h.pc (by decide) (by decide)
  have empty : m.stack.pointer = 0 := by rw [h.stack]; rfl
  have fails := (executed_stackUnderflow_iff wellFormed).mpr ⟨opcode, empty⟩
  exact frame_one_of_error (congrArg Outcome.answer (cycle_of_fault h.running (by rw [h.pc]; decide) fails))

end Dash

end Machine

namespace Session

theorem frames_dash {s : Session} {script : List (List KeyEvent)} {n : Nat} {ending : Ending}
    (paintable : s.Paintable) (machine : s.machine = .loaded Machine.dash) (last : s.LastFrame 1 script n ending)
    (quiet : ∀ k ≤ 2, script.getD k [] = []) :
    n = 2 ∧ ((s.before 1 script 0).machine.frame 1).machine.display.dirty = true ∧
      ((s.before 1 script 1).machine.frame 1).machine.display.dirty = false ∧
      ((s.before 1 script 1).machine.frame 1).machine.display.read 0 0 = true ∧
      ((s.before 1 script 2).machine.frame 1).answer = .error (.fault .stackUnderflow) := by
  have running : s.machine.halted = false := by rw [machine]; rfl
  have zero : (s.before 1 script 0).machine = .loaded Machine.dash := machine
  obtain ⟨completes, dirty, lit, drawn⟩ := Machine.frame_dash_draws
  rw [← zero] at completes dirty lit drawn
  obtain ⟨first, one⟩ := paintable.next_of_completes running last (Nat.zero_le n) (quiet 0 (by decide)) completes
  have between := drawn.markClean
  rw [← one] at between
  obtain ⟨completes', display, cleared⟩ := Machine.frame_dash_clears between
  obtain ⟨second, two⟩ := paintable.next_of_completes running last first (quiet 1 (by decide)) completes'
  -- the second frame leaves the display clean, so nothing is painted behind it
  have behind := cleared.markClean
  rw [← two] at behind
  have faults := Machine.frame_dash_returns (paintable.before 1 script 2).wellFormed behind
  refine ⟨?_, dirty, by rw [display, one]; rfl, by rw [display, one]; exact lit, faults⟩
  have late : ¬ 2 < n := fun late => by
    have completes := (completes_before last late).1
    rw [quiet 2 (Nat.le_refl 2)] at completes
    exact absurd (completes.symm.trans faults) nofun
  omega

end Session

namespace Program

/-- Between frames the window shows the display, although it is painted anew only after frames that left the
display dirty; and the display is dirty unless it has the cells that it had when it was last clean. The library is
taken to paint exactly at the scale that is given. -/
theorem window_never_stale {words : List String} {w : World}
    (exact : ∀ a scale, CommandLine.read words = .ok (.run a) → a.scale = some scale → w.library.Exact scale) :
    (∀ st, start? words w = some st →
      let r := run words w
      let session := st.before w
      let frame (k : Nat) := (session k).machine.frameWith st.pace ((script w).getD k [])
      ∃ a scale completed, CommandLine.read words = .ok (.run a) ∧ a.scale = some scale ∧
        (r.frames = completed ∨
          r.frames = completed + 1 ∧ ∃ f, (frame completed).answer = .error (.fault f)) ∧
        (session 0).screen.Shows scale (.blank screenWidth screenHeight) ∧
        (∀ k < completed, (frame k).answer = .ok () ∧
          (session (k + 1)).screen.Shows scale (frame k).machine.display ∧
          ((frame k).machine.display.dirty = false →
            (session (k + 1)).screen = (session k).screen)) ∧
        r.screen = some (session completed).screen ∧
        r.refreshes = (List.range completed).countP fun k => (frame k).machine.display.dirty) ∧
    (start? words w = none →
      (run words w).frames = 0 ∧ (run words w).refreshes = 0 ∧
        ∀ screen, (run words w).screen = some screen →
          ∃ scale, screen.Shows scale (.blank screenWidth screenHeight)) ∧
    (∀ random ops, .reset ∉ ops → .markClean ∉ ops →
      ((Machine.initial random).after ops).display.dirty = false →
      ((Machine.initial random).after ops).display = .blank screenWidth screenHeight) ∧
    ∀ random earlier later, .reset ∉ earlier ++ later → .markClean ∉ later →
      ((Machine.initial random).after (earlier ++ .markClean :: later)).display.dirty = false →
      ((Machine.initial random).after (earlier ++ .markClean :: later)).display.cells =
        ((Machine.initial random).after earlier).display.cells := by
  refine ⟨fun st started => ?_, fun unstarted => ?_, ?_, ?_⟩
  · intro r session frame
    obtain ⟨a, rom, scale, read, given, begun⟩ := begun_of_start? started
    have upToDate := begun.upToDate (exact a scale read given)
    obtain ⟨n, ending, last, frames, report⟩ := run_of_start? started
    obtain ⟨completed, done, ended, screen, refreshes⟩ :=
      upToDate.paintable.exists_completed begun.running last
    have counted := Session.refreshes_before done (Nat.le_refl completed)
    rw [begun.refreshes, Nat.zero_add] at counted
    -- the library paints, so that the session has not ended for want of that
    have reported : r.frames = n + 1 ∧ r.screen = some (session (n + 1)).screen ∧
        r.refreshes = (session (n + 1)).refreshes := by
      simp only [r, report]
      refine ⟨frames, ?_, rfl⟩
      rcases ended with ⟨-, rfl⟩ | ⟨-, f, -, rfl⟩
      · rfl
      · cases f <;> rfl
    have first := upToDate.shows
    rw [begun.display] at first
    refine ⟨a, scale, completed, read, given, ?_, first, fun k hk => ?_, ?_, ?_⟩
    · rcases ended with ⟨rfl, -⟩ | ⟨rfl, f, faults, -⟩
      · exact .inl reported.1
      · exact .inr ⟨reported.1, f, faults⟩
    · obtain ⟨completes, painted⟩ := done k hk
      have sofar := Session.upToDate_before done upToDate (Nat.le_of_lt hk)
      refine ⟨completes, sofar.shows_ran painted, fun clean => ?_⟩
      exact (sofar.screen_ran painted).trans (if_neg (ne_true_of_eq_false clean))
    · exact reported.2.1.trans (congrArg some screen)
    · exact reported.2.2.trans (refreshes.trans counted)
  · obtain ⟨scale, unplayed, given⟩ := unplayed_of_not_start? unstarted
    refine ⟨unplayed.frames, unplayed.refreshes, fun screen shown => ?_⟩
    obtain ⟨n, scaled, window⟩ := unplayed.screen screen shown
    obtain ⟨a, read, given⟩ := given n scaled
    rw [Screen.eq_newWindow (exact a n read given) window]
    exact ⟨n, Screen.shows_newWindow n⟩
  · intro random ops kept unmarked clean
    exact (Machine.dirtyUnless_after kept unmarked (.initial random)).resolve_left (by simp [clean])
  · intro random earlier later kept unmarked clean
    have kept' : .reset ∉ later := fun mem => kept (List.mem_append_right earlier mem)
    rw [Machine.display_since_mark kept' unmarked (.initial random) earlier clean]
    rfl

theorem window_never_stale_dash :
    let words := ["-f", "r", "-s", "60"]
    let w := worldWith Machine.dash [[], [], []]
    ∃ st, start? words w = some st ∧
      ((st.before w 0).machine.frameWith st.pace []).machine.display.dirty = true ∧
      ((st.before w 1).machine.frameWith st.pace []).machine.display.dirty = false ∧
      ((st.before w 2).machine.frameWith st.pace []).answer = .error (.fault .stackUnderflow) ∧
      (run words w).frames = 3 ∧ (run words w).refreshes = 1 ∧
      (st.before w 2).screen = (st.before w 1).screen ∧
      ∃ screen, (run words w).screen = some screen ∧ screen.surface.pixel 14 14 = .lightBlue := by
  intro words w
  have read : CommandLine.read words = .ok (.run ⟨some "r", some 60, some 15, false⟩) := rfl
  obtain ⟨s, starts, machine, paintable⟩ := exists_starts_worldWith 60 Machine.dash [[], [], []] (by decide)
  have starts' := starts.startWith?
  generalize s.absorb (s.machine.loadRom Machine.dash programStart) = session at machine paintable starts'
  have started : start? words w = some ⟨"r", 1, session⟩ := by
    simp only [start?, read, w, starts']
    rfl
  have exact (a : CommandLine.Arguments) (scale : Int) (read' : CommandLine.read words = .ok (.run a))
      (given : a.scale = some scale) : w.library.Exact scale := by
    obtain rfl : a = ⟨some "r", some 60, some 15, false⟩ := by simpa [read, eq_comm] using read'
    obtain rfl := Option.some.inj given
    exact Library.usual_exact (by decide) (by decide)
  obtain ⟨n, ending, last, frames, report⟩ := run_of_start? started
  have quiet : ∀ k ≤ 2, (script w).getD k [] = [] := by decide
  obtain ⟨rfl, dirty, clean, lit, faults⟩ := Session.frames_dash paintable machine last quiet
  have played : (run words w).frames = 3 := by
    rw [report]
    exact frames
  obtain ⟨a, scale, completed, read', given, counted, -, each, shown, refreshes⟩ :=
    (window_never_stale exact).1 _ started
  obtain rfl : a = ⟨some "r", some 60, some 15, false⟩ := by simpa [read, eq_comm] using read'
  obtain rfl := Option.some.inj given
  rw [played] at counted
  obtain rfl : completed = 2 := by
    rcases counted with rfl | ⟨eq, -⟩
    · have both := (each 2 (by decide)).1.symm.trans faults
      cases both
    · omega
  obtain ⟨-, shows, stays⟩ := each 1 (by decide)
  have once : (run words w).refreshes = 1 := by
    rw [refreshes, List.range_succ, List.countP_append, List.countP_singleton, List.range_succ, List.countP_append,
      List.countP_singleton]
    exact congr (congrArg (fun a b : Nat => 0 + a + b) (if_pos dirty)) (if_neg (ne_true_of_eq_false clean))
  have size := ((paintable.before 1 (script w) 1).wellFormed.frameWith 1 []).display
  have width := shows.width.trans (congrArg (fun side : Int => (side * 15).toNat) size.width)
  have height := shows.height.trans (congrArg (fun side : Int => (side * 15).toNat) size.height)
  have pixel := shows.pixel 14 14 (by decide) (by rw [width]; decide) (by decide) (by rw [height]; decide)
  refine ⟨_, started, dirty, clean, faults, played, once, stays clean, _, shown, pixel.trans (if_pos ?_)⟩
  exact lit

end Program

end ChipEight

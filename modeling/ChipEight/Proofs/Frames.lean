import ChipEight.Proofs.CycleFaults
import ChipEight.Session

/-!
A session frame by frame. The events of a frame are operations on the machine, and so is the rest of a
frame; a frame that completes leaves the display clean, because the screen is painted anew if it is not.
The session goes on as long as frames complete, the library paints them and nobody asks to quit.
-/

namespace ChipEight

namespace KeyEvent

def AsksToQuit (e : KeyEvent) : Prop :=
  e = .quit ∨ e = .down Keyboard.quitKey

instance (e : KeyEvent) : Decidable e.AsksToQuit :=
  inferInstanceAs (Decidable (_ ∨ _))

def operations : KeyEvent → List Operation
  | .quit | .other => []
  | .down key =>
    if key = Keyboard.quitKey then [] else (Keyboard.defaultLayout.lookup key).toList.map .press
  | .up key => (Keyboard.defaultLayout.lookup key).toList.map .release

end KeyEvent

/-- The operations on the machine in a frame that completes. The last of them stands for the screen, which
takes what the display shows. -/
def Operation.ofFrame (pace : Int) (events : List KeyEvent) : List Operation :=
  events.flatMap KeyEvent.operations ++ [.frame pace, .markClean]

namespace Keyboard

theorem handle_goOn (layout : KeyLayout) (pad : Keypad) (e : KeyEvent) :
    (handle layout pad e).2 = decide (¬ e.AsksToQuit) := by
  cases e with
  | quit => rfl
  | other => rfl
  | down key =>
    by_cases quits : key = quitKey
    · simp [handle, KeyEvent.AsksToQuit, quits]
    · cases target : layout.lookup key <;> simp [handle, KeyEvent.AsksToQuit, quits, target]
  | up key => cases target : layout.lookup key <;> simp [handle, KeyEvent.AsksToQuit, target]

theorem poll_goOn (layout : KeyLayout) (pad : Keypad) (events : List KeyEvent) :
    (poll layout pad events).2 = decide (∀ e ∈ events, ¬ e.AsksToQuit) := by
  induction events generalizing pad with
  | nil => rfl
  | cons e rest ih =>
    simp only [poll, handle_goOn, ih, List.forall_mem_cons, Bool.decide_and]

end Keyboard

namespace Machine

theorem after_event (m : Machine) (e : KeyEvent) :
    m.after e.operations =
      { m with keypad := (Keyboard.handle Keyboard.defaultLayout m.keypad e).1 } := by
  cases e with
  | quit => rfl
  | other => rfl
  | down key =>
    by_cases quits : key = Keyboard.quitKey
    · simp [KeyEvent.operations, Keyboard.handle, quits]
    · cases target : Keyboard.defaultLayout.lookup key <;>
        simp [KeyEvent.operations, Keyboard.handle, quits, target, perform, Outcome.ok]
  | up key =>
    cases target : Keyboard.defaultLayout.lookup key <;>
      simp [KeyEvent.operations, Keyboard.handle, target, perform, Outcome.ok]

theorem after_events (m : Machine) (events : List KeyEvent) :
    m.after (events.flatMap KeyEvent.operations) =
      { m with keypad := (Keyboard.poll Keyboard.defaultLayout m.keypad events).1 } := by
  induction events generalizing m with
  | nil => rfl
  | cons e rest ih =>
    rw [List.flatMap_cons, after_append, after_event, ih]
    rfl

def frameWith (pace : Int) (m : Machine) (events : List KeyEvent) : Outcome Failure Unit :=
  (m.after (events.flatMap KeyEvent.operations)).frame pace

theorem machine_frameWith (pace : Int) (m : Machine) (events : List KeyEvent) :
    (m.frameWith pace events).machine =
      m.after (events.flatMap KeyEvent.operations ++ [.frame pace]) := by
  rw [after_append, after_cons, after_nil, perform_frame_machine, frameWith]

theorem after_ofFrame (pace : Int) (m : Machine) (events : List KeyEvent) :
    m.after (Operation.ofFrame pace events) =
      { (m.frameWith pace events).machine with
        display := (m.frameWith pace events).machine.display.markClean } := by
  rw [Operation.ofFrame, after_append]
  rfl

theorem frame_one_of_ok {m : Machine} (succeeds : m.cycle.answer = .ok ()) :
    (m.frame 1).answer = .ok () ∧
      (m.frame 1).machine = { m.cycle.machine with timers := m.cycle.machine.timers.tick.1 } := by
  rw [frame, show Int.toNat 1 = 0 + 1 from rfl, times, Outcome.andThen_of_ok _ succeeds]
  exact ⟨rfl, rfl⟩

theorem frame_one_of_error {m : Machine} {e : Failure} (fails : m.cycle.answer = .error e) :
    (m.frame 1).answer = .error e := by
  rw [frame, show Int.toNat 1 = 0 + 1 from rfl, times, Outcome.andThen_of_error _ fails]
  rfl

/-- An operation on a running machine either succeeds and leaves it running, or faults and halts it. -/
inductive RunsOn (o : Outcome Failure Unit) : Prop
  | ok (succeeds : o.answer = .ok ()) (running : o.machine.halted = false)
  | fault (f : Fault) (fails : o.answer = .error (.fault f)) (halted : o.machine.halted = true)
      (recorded : o.machine.fault = some f)

theorem cycle_runsOn {m : Machine} (running : m.halted = false) : RunsOn m.cycle := by
  cases m.cycle_cases with
  | halted halted => simp [running] at halted
  | outside _ _ eq => rw [eq]; exact .fault _ rfl rfl rfl
  | fault _ _ f _ eq => rw [eq]; exact .fault f rfl rfl rfl
  | success _ _ _ eq =>
    rw [eq]
    exact .ok rfl ((execute_halted m.instruction m.fetched).trans running)

theorem times_cycle_runsOn (n : Nat) {m : Machine} (running : m.halted = false) :
    RunsOn (times cycle n m) := by
  induction n generalizing m with
  | zero => exact .ok rfl running
  | succ n ih =>
    cases cycle_runsOn running with
    | ok succeeds still =>
      have rest := ih still
      simp only [times, Outcome.andThen, succeeds]
      cases rest with
      | ok succeeds running => exact .ok succeeds running
      | fault f fails halted recorded => exact .fault f fails halted recorded
    | fault f fails halted recorded =>
      simp only [times, Outcome.andThen, fails]
      exact .fault f rfl halted recorded

theorem frame_runsOn (count : Int) {m : Machine} (running : m.halted = false) :
    RunsOn (m.frame count) := by
  rw [frame]
  cases times_cycle_runsOn count.toNat running with
  | ok succeeds still =>
    simp only [Outcome.andThen, succeeds]
    exact .ok rfl still
  | fault f fails halted recorded =>
    simp only [Outcome.andThen, fails]
    exact .fault f rfl halted recorded

theorem WellFormed.frameWith {m : Machine} (h : m.WellFormed) (pace : Int) (events : List KeyEvent) :
    (m.frameWith pace events).machine.WellFormed := by
  rw [machine_frameWith]
  exact wellFormed_after h _

theorem frameWith_runsOn (pace : Int) {m : Machine} (running : m.halted = false)
    (events : List KeyEvent) : RunsOn (m.frameWith pace events) := by
  have running' : (m.after (events.flatMap KeyEvent.operations)).halted = false := by
    rw [after_events]
    exact running
  exact frame_runsOn pace running'

end Machine

namespace Session

@[simp] theorem machine_absorb (s : Session) (o : Outcome Failure Unit) :
    (s.absorb o).machine = o.machine := rfl

/-- The session in a frame when the events have been applied and the machine has run. -/
def ran (pace : Int) (s : Session) (events : List KeyEvent) : Session :=
  ({ s with frames := s.frames + 1 }.poll events).1.absorb (s.machine.frameWith pace events)

@[simp] theorem machine_ran (pace : Int) (s : Session) (events : List KeyEvent) :
    (s.ran pace events).machine = (s.machine.frameWith pace events).machine := rfl

@[simp] theorem screen_ran (pace : Int) (s : Session) (events : List KeyEvent) :
    (s.ran pace events).screen = s.screen := rfl

@[simp] theorem frames_ran (pace : Int) (s : Session) (events : List KeyEvent) :
    (s.ran pace events).frames = s.frames + 1 := rfl

@[simp] theorem refreshes_ran (pace : Int) (s : Session) (events : List KeyEvent) :
    (s.ran pace events).refreshes = s.refreshes := rfl

theorem frame_eq (pace : Int) (s : Session) (events : List KeyEvent) :
    s.frame pace events =
      match (s.machine.frameWith pace events).answer with
      | .error e => (s.ran pace events, some (.ofFailure e))
      | .ok () =>
        match (s.ran pace events).refresh? with
        | .error e => (s.ran pace events, some (.refused e))
        | .ok s' => (s', if ∀ e ∈ events, ¬ e.AsksToQuit then none else some .quit) := by
  have outcome : ({ s with frames := s.frames + 1 }.poll events).1.machine.frame pace =
      s.machine.frameWith pace events :=
    congrArg (Machine.frame pace) (s.machine.after_events events).symm
  have goOn : ({ s with frames := s.frames + 1 }.poll events).2 =
      decide (∀ e ∈ events, ¬ e.AsksToQuit) :=
    Keyboard.poll_goOn _ _ events
  simp only [frame, outcome, goOn, decide_eq_true_eq]
  cases (s.machine.frameWith pace events).answer <;> rfl

/-- A frame completes and is painted, and the session goes on or somebody asked to quit; or it completes and the library
does not paint it; or it fails. -/
inductive FrameCase (pace : Int) (s : Session) (events : List KeyEvent) : Prop
  | goesOn (s' : Session) (completes : (s.machine.frameWith pace events).answer = .ok ())
      (painted : (s.ran pace events).refresh? = .ok s') (unasked : ∀ e ∈ events, ¬ e.AsksToQuit)
      (eq : s.frame pace events = (s', none))
  | quits (s' : Session) (completes : (s.machine.frameWith pace events).answer = .ok ())
      (painted : (s.ran pace events).refresh? = .ok s') (asked : ∃ e ∈ events, e.AsksToQuit)
      (eq : s.frame pace events = (s', some .quit))
  | refused (e : ArgumentError) (completes : (s.machine.frameWith pace events).answer = .ok ())
      (refused : (s.ran pace events).refresh? = .error e)
      (eq : s.frame pace events = (s.ran pace events, some (.refused e)))
  | fails (e : Failure) (fails : (s.machine.frameWith pace events).answer = .error e)
      (eq : s.frame pace events = (s.ran pace events, some (.ofFailure e)))

theorem frame_cases (pace : Int) (s : Session) (events : List KeyEvent) : FrameCase pace s events := by
  have eq := s.frame_eq pace events
  cases answer : (s.machine.frameWith pace events).answer with
  | error e =>
    rw [answer] at eq
    exact .fails e answer eq
  | ok =>
    rw [answer] at eq
    cases refresh : (s.ran pace events).refresh? with
    | error e =>
      rw [refresh] at eq
      exact .refused e answer refresh eq
    | ok s' =>
      rw [refresh] at eq
      by_cases unasked : ∀ e ∈ events, ¬ e.AsksToQuit
      · simp only [if_pos unasked] at eq
        exact .goesOn s' answer refresh unasked eq
      · have asked : ∃ e ∈ events, e.AsksToQuit := by simpa using unasked
        simp only [if_neg unasked] at eq
        exact .quits s' answer refresh asked eq

theorem frame_fst (pace : Int) (s : Session) (events : List KeyEvent) :
    (s.ran pace events).refresh? = .ok (s.frame pace events).1 ∨
      (s.frame pace events).1 = s.ran pace events := by
  cases s.frame_cases pace events with
  | goesOn s' _ painted _ eq | quits s' _ painted _ eq =>
    rw [eq]
    exact .inl painted
  | refused _ _ _ eq | fails _ _ eq => exact .inr (congrArg Prod.fst eq)

structure Refreshed (s s' : Session) : Prop where
  library : s'.library = s.library
  machine : s'.machine = { s.machine with display := s.machine.display.markClean }
  scale : s'.screen.scale = s.screen.scale
  beeper : s'.beeper = s.beeper
  frames : s'.frames = s.frames
  refreshes : s'.refreshes = s.refreshes + if s.machine.display.dirty then 1 else 0
  calls : s'.calls = s.calls

theorem refreshed_of_ok {s s' : Session} (painted : s.refresh? = .ok s') : s.Refreshed s' := by
  simp only [refresh?] at painted
  split at painted
  next dirty =>
    simp only [Screen.render?] at painted
    cases squares : (s.screen.litSquares s.machine.display).mapM s.library.rectangle with
    | error e => simp [squares] at painted
    | ok squares' =>
      simp only [squares, Except.ok.injEq] at painted
      subst painted
      exact ⟨rfl, rfl, rfl, rfl, rfl, by rw [if_pos dirty], rfl⟩
  next clean =>
    obtain rfl := Except.ok.inj painted
    -- without a refresh nothing is marked, but then the display is clean already
    have same : s.machine.display.markClean = s.machine.display := by
      simp only [Bool.not_eq_true] at clean
      rw [Display.markClean, ← clean]
    exact ⟨rfl, by rw [same], rfl, rfl, rfl, by rw [if_neg clean]; rfl, rfl⟩

def after (pace : Int) (s : Session) (frames : List (List KeyEvent)) : Session :=
  frames.foldl (fun s events => (s.frame pace events).1) s

@[simp] theorem after_nil (pace : Int) (s : Session) : s.after pace [] = s := rfl

@[simp] theorem after_cons (pace : Int) (s : Session) (events : List KeyEvent)
    (frames : List (List KeyEvent)) :
    s.after pace (events :: frames) = (s.frame pace events).1.after pace frames := rfl

theorem after_append (pace : Int) (s : Session) (xs ys : List (List KeyEvent)) :
    s.after pace (xs ++ ys) = (s.after pace xs).after pace ys :=
  List.foldl_append

theorem after_invariant {P : Session → Prop} {pace : Int} {s : Session}
    (ran : ∀ s events, P s → P (s.ran pace events)) (refreshed : ∀ s s', P s → s.refresh? = .ok s' → P s')
    (start : P s)
    (frames : List (List KeyEvent)) : P (s.after pace frames) := by
  induction frames generalizing s with
  | nil => exact start
  | cons events rest ih =>
    have now := ran s events start
    rw [after_cons]
    rcases s.frame_fst pace events with painted | eq
    · exact ih (refreshed _ _ now painted)
    · rw [eq]
      exact ih now

def before (pace : Int) (s : Session) (script : List (List KeyEvent)) (k : Nat) : Session :=
  s.after pace (script.take k)

/-- The frames before the one with the given number go on, and that one ends the session. -/
structure LastFrame (pace : Int) (s : Session) (script : List (List KeyEvent)) (n : Nat)
    (ending : Ending) : Prop where
  inScript : n < script.length
  goOn : ∀ k < n, ((s.before pace script k).frame pace (script.getD k [])).2 = none
  ends : ((s.before pace script n).frame pace (script.getD n [])).2 = some ending

/-- The frames before the one with the given number complete and are painted. -/
def Completed (pace : Int) (s : Session) (script : List (List KeyEvent)) (c : Nat) : Prop :=
  ∀ k < c,
    ((s.before pace script k).machine.frameWith pace (script.getD k [])).answer = .ok () ∧
      ((s.before pace script k).ran pace (script.getD k [])).refresh? = .ok (s.before pace script (k + 1))

theorem LastFrame.cons {pace : Int} {s : Session} {events : List KeyEvent}
    {script : List (List KeyEvent)} {n : Nat} {ending : Ending}
    (goesOn : (s.frame pace events).2 = none)
    (h : (s.frame pace events).1.LastFrame pace script n ending) :
    s.LastFrame pace (events :: script) (n + 1) ending where
  inScript := Nat.succ_lt_succ h.inScript
  goOn := by
    intro k hk
    cases k with
    | zero => exact goesOn
    | succ k => exact h.goOn k (Nat.lt_of_succ_lt_succ hk)
  ends := h.ends

theorem run_lastFrame (pace : Int) (s : Session) (frames : List (List KeyEvent)) :
    ∃ n ending, s.LastFrame pace (frames ++ [[.quit]]) n ending ∧
      s.run pace frames = (s.before pace (frames ++ [[.quit]]) (n + 1), ending) := by
  induction frames generalizing s with
  | nil =>
    -- the frame that is added has a wish to quit, so it does not go on
    have ends : ∃ ending, s.frame pace [.quit] = ((s.frame pace [.quit]).1, some ending) := by
      cases s.frame_cases pace [.quit] with
      | goesOn _ _ _ unasked => exact absurd (.inl rfl) (unasked .quit List.mem_cons_self)
      | quits _ _ _ _ eq | refused _ _ _ eq | fails _ _ eq => exact ⟨_, by rw [eq]⟩
    obtain ⟨ending, eq⟩ := ends
    refine ⟨0, ending, ⟨Nat.one_pos, nofun, congrArg Prod.snd eq⟩, ?_⟩
    rw [run, eq]
    rfl
  | cons events rest ih =>
    rcases eq : s.frame pace events with ⟨s', none | ending⟩
    · obtain ⟨n, ending, last, run_eq⟩ := ih s'
      have next : (s.frame pace events).1 = s' := congrArg Prod.fst eq
      refine ⟨n + 1, ending, .cons (congrArg Prod.snd eq) (next ▸ last), ?_⟩
      rw [run, eq]
      simp only [run_eq, before, List.cons_append, List.take_succ_cons, after_cons, next]
    · refine ⟨0, ending, ⟨Nat.succ_pos _, nofun, congrArg Prod.snd eq⟩, ?_⟩
      rw [run, eq]
      simp only [before, List.cons_append, List.take_succ_cons, List.take_zero, after_cons, eq,
        after_nil]

section LastFrame

variable {pace : Int} {s : Session} {script : List (List KeyEvent)} {n : Nat} {ending : Ending}
  (h : s.LastFrame pace script n ending)
include h

theorem script_take_succ {k : Nat} (hk : k ≤ n) :
    script.take (k + 1) = script.take k ++ [script.getD k []] := by
  have inside : k < script.length := Nat.lt_of_le_of_lt hk h.inScript
  have entry : script.getD k [] = script[k] := by simp [inside]
  rw [List.take_succ_eq_append_getElem inside, entry]

theorem before_succ {k : Nat} (hk : k ≤ n) :
    s.before pace script (k + 1) =
      ((s.before pace script k).frame pace (script.getD k [])).1 := by
  rw [before, script_take_succ h hk, after_append, after_cons, after_nil]
  rfl

theorem machine_before_succ {k : Nat} (hk : k ≤ n)
    (painted : ((s.before pace script k).ran pace (script.getD k [])).refresh? =
      .ok (s.before pace script (k + 1)))
    (so_far : (s.before pace script k).machine =
      s.machine.after ((script.take k).flatMap (Operation.ofFrame pace))) :
    (s.before pace script (k + 1)).machine =
      s.machine.after ((script.take (k + 1)).flatMap (Operation.ofFrame pace)) := by
  rw [(refreshed_of_ok painted).machine, machine_ran, script_take_succ h hk, List.flatMap_append,
    Machine.after_append, ← so_far, List.flatMap_singleton, Machine.after_ofFrame]

theorem completes_before {k : Nat} (hk : k < n) :
    ((s.before pace script k).machine.frameWith pace (script.getD k [])).answer = .ok () ∧
      ((s.before pace script k).ran pace (script.getD k [])).refresh? = .ok (s.before pace script (k + 1)) ∧
      ∀ e ∈ script.getD k [], ¬ e.AsksToQuit := by
  have goesOn := h.goOn k hk
  rw [before_succ h (Nat.le_of_lt hk)]
  cases (s.before pace script k).frame_cases pace (script.getD k []) with
  | goesOn s' completes painted unasked eq => exact ⟨completes, by rw [eq]; exact painted, unasked⟩
  | quits _ _ _ _ eq | refused _ _ _ eq | fails _ _ eq => exact absurd (eq ▸ goesOn) nofun

/-- Between frames, the machine of the session is a machine that went through the same frames. -/
theorem machine_before {k : Nat} (hk : k ≤ n) :
    (s.before pace script k).machine =
      s.machine.after ((script.take k).flatMap (Operation.ofFrame pace)) := by
  induction k with
  | zero => rfl
  | succ k ih =>
    have earlier := Nat.le_of_lt hk
    exact machine_before_succ h earlier (completes_before h hk).2.1 (ih earlier)

theorem frames_before {k : Nat} (hk : k ≤ n + 1) :
    (s.before pace script k).frames = s.frames + k := by
  induction k with
  | zero => rfl
  | succ k ih =>
    rw [before_succ h (Nat.le_of_succ_le_succ hk)]
    have so_far := ih (Nat.le_of_succ_le hk)
    rcases (s.before pace script k).frame_fst pace (script.getD k []) with painted | eq
    · rw [(refreshed_of_ok painted).frames, frames_ran, so_far, Nat.add_assoc]
    · rw [eq, frames_ran, so_far, Nat.add_assoc]

theorem running_before (running : s.machine.halted = false) {k : Nat} (hk : k ≤ n) :
    (s.before pace script k).machine.halted = false := by
  induction k with
  | zero => exact running
  | succ k ih =>
    have earlier := Nat.le_of_lt hk
    obtain ⟨completes, painted, -⟩ := completes_before h hk
    rw [(refreshed_of_ok painted).machine, machine_ran]
    cases Machine.frameWith_runsOn pace (ih earlier) (script.getD k []) with
    | ok _ running => exact running
    | fault f fails => exact absurd (fails ▸ completes) nofun

theorem ends_before (running : s.machine.halted = false) :
    ((s.before pace script n).machine.frameWith pace (script.getD n [])).answer = .ok () ∧
        ((s.before pace script n).ran pace (script.getD n [])).refresh? = .ok (s.before pace script (n + 1)) ∧
        (∃ e ∈ script.getD n [], e.AsksToQuit) ∧ ending = .quit ∨
      s.before pace script (n + 1) = (s.before pace script n).ran pace (script.getD n []) ∧
        ((∃ f, ((s.before pace script n).machine.frameWith pace (script.getD n [])).answer =
            .error (.fault f) ∧
          (s.before pace script (n + 1)).machine.halted = true ∧
          (s.before pace script (n + 1)).machine.fault = some f ∧
          ending = .ofFailure (.fault f)) ∨
        ∃ e, ((s.before pace script n).machine.frameWith pace (script.getD n [])).answer = .ok () ∧
          ((s.before pace script n).ran pace (script.getD n [])).refresh? = .error e ∧
          ending = .refused e) := by
  have running' := running_before h running (Nat.le_refl n)
  rw [before_succ h (Nat.le_refl n)]
  have ends := h.ends
  -- a frame of a running machine fails only by a fault, which the session passes on as its ending
  cases (s.before pace script n).frame_cases pace (script.getD n []) with
  | goesOn _ _ _ _ eq => exact absurd (eq ▸ ends) nofun
  | quits s' completes painted asked eq =>
    rw [eq] at ends ⊢
    exact .inl ⟨completes, painted, asked, (Option.some.inj ends).symm⟩
  | refused e completes refused eq =>
    rw [eq] at ends ⊢
    exact .inr ⟨rfl, .inr ⟨e, completes, refused, (Option.some.inj ends).symm⟩⟩
  | fails e fails eq =>
    rw [eq] at ends ⊢
    cases Machine.frameWith_runsOn pace running' (script.getD n []) with
    | ok succeeds => exact absurd (fails ▸ succeeds) nofun
    | fault f faults halted recorded =>
      obtain rfl : e = .fault f := Except.error.inj (fails.symm.trans faults)
      exact .inr ⟨rfl, .inl ⟨f, faults, halted, recorded, (Option.some.inj ends).symm⟩⟩

end LastFrame

end Session

end ChipEight

import ChipEight.Program
import ChipEight.Proofs.Frames
import ChipEight.Proofs.Loading
import ChipEight.Proofs.WaveLoop

/-!
How a program gets to its first frame: the window and the beeper open and the ROM is loaded, or the program
ends without a frame. From its start on, the report of a program is that of its session.
-/

namespace ChipEight

namespace Beeper

theorem exists_connect {muted : Bool} {device : Option Mixer} {room : Room} (ready : Bool) (library : Library)
    (roomy : ∀ mixer, device = some mixer → muted = false →
      Tone.HasRoom room Parameters.toneFrequency mixer.rate mixer.channels) :
    ∃ b, connect Parameters.toneFrequency muted ready device library room = .ok b := by
  cases muted with
  | true => exact ⟨_, rfl⟩
  | false =>
    cases device with
    | none => exact ⟨_, rfl⟩
    | some mixer =>
      obtain ⟨wave, stored⟩ := Tone.exists_wave (by decide) (roomy mixer rfl rfl)
      simp only [connect, stored]
      exact ⟨_, rfl⟩

end Beeper

namespace Program

/-- A program whose ROM is loaded, before its first frame. -/
structure Start where
  path : String
  pace : Int
  session : Session

def startWith? (w : World) (a : CommandLine.Arguments) : Option Start :=
  match a.file, a.speed with
  | some path, some speed =>
    if path.toList.contains '\x00' then none
    else
      match w.read path, opened? w a.mute a.scale with
      | .ok rom, .ok s =>
        match (s.machine.loadRom rom Parameters.programStart).answer with
        | .ok () =>
          some ⟨path, Session.pace speed, s.absorb (s.machine.loadRom rom Parameters.programStart)⟩
        | .error _ => none
      | _, _ => none
  | _, _ => none

def start? (words : List String) (w : World) : Option Start :=
  match CommandLine.read words with
  | .ok (.run a) => startWith? w a
  | _ => none

structure Opened (w : World) (scale : Int) (s : Session) : Prop where
  library : s.library = w.library
  machine : s.machine = .initial w.random
  screen : Screen.inWindow? w.library scale = .ok s.screen
  frames : s.frames = 0
  refreshes : s.refreshes = 0

theorem opened_of_ok {w : World} {mute : Bool} {scale : Option Int} {s : Session}
    (h : opened? w mute scale = .ok s) : ∃ n, scale = some n ∧ Opened w n s := by
  cases scale with
  | none => cases h
  | some n =>
    simp only [opened?] at h
    split at h
    · cases h
    next window =>
      split at h
      · cases h
      · obtain rfl := Except.ok.inj h
        exact ⟨n, rfl, rfl, rfl, window, rfl, rfl⟩

theorem exists_opened {w : World} {mute : Bool} {scale : Int} {size : Nat × Nat}
    (opens : w.library.window (Screen.windowSize scale) = .ok size)
    (roomy : ∀ mixer, w.device = some mixer → mute = false →
      Tone.HasRoom w.room Parameters.toneFrequency mixer.rate mixer.channels) :
    ∃ s, opened? w mute (some scale) = .ok s := by
  obtain ⟨b, connected⟩ := Beeper.exists_connect w.ready w.library roomy
  have window := Screen.inWindow?_eq_ok_iff.mpr ⟨size, opens, rfl⟩
  simp only [opened?, window, connected]
  exact ⟨_, rfl⟩

structure Starts (w : World) (a : CommandLine.Arguments) (path : String) (rom : List UInt8)
    (speed : Int) (s : Session) : Prop where
  file : a.file = some path
  named : '\x00' ∉ path.toList
  readable : w.read path = .ok rom
  speed : a.speed = some speed
  opened : opened? w a.mute a.scale = .ok s
  loads : (s.machine.loadRom rom Parameters.programStart).answer = .ok ()

theorem Starts.startWith? {w : World} {a : CommandLine.Arguments} {path : String}
    {rom : List UInt8} {speed : Int} {s : Session} (h : Starts w a path rom speed s) :
    startWith? w a =
      some ⟨path, Session.pace speed,
        s.absorb (s.machine.loadRom rom Parameters.programStart)⟩ := by
  simp [Program.startWith?, h.file, h.speed, h.named, h.readable, h.opened, h.loads]

theorem starts_of_startWith? {w : World} {a : CommandLine.Arguments} {st : Start}
    (h : startWith? w a = some st) :
    ∃ path rom speed s, Starts w a path rom speed s ∧
      st = ⟨path, Session.pace speed,
        s.absorb (s.machine.loadRom rom Parameters.programStart)⟩ := by
  simp only [startWith?] at h
  split at h
  next path speed file speed_eq =>
    split at h
    · cases h
    next noZero =>
      split at h
      next rom s readable opened =>
        split at h
        next loads =>
          have named : '\x00' ∉ path.toList := by simpa using noZero
          exact ⟨path, rom, speed, s, ⟨file, named, readable, speed_eq, opened, loads⟩,
            (Option.some.inj h).symm⟩
        · cases h
      · cases h
  · cases h

/-- The session of a program that has started: a machine with a ROM in it, in a window, and no frame yet. -/
structure Begun (w : World) (rom : List UInt8) (scale : Int) (s : Session) : Prop where
  library : s.library = w.library
  machine : s.machine = (Machine.initial w.random).after [.load rom Parameters.programStart]
  running : s.machine.halted = false
  screen : Screen.inWindow? w.library scale = .ok s.screen
  frames : s.frames = 0
  refreshes : s.refreshes = 0

theorem Opened.begun {w : World} {scale : Int} {s : Session} (h : Opened w scale s)
    (rom : List UInt8) :
    Begun w rom scale (s.absorb (s.machine.loadRom rom Parameters.programStart)) where
  library := h.library
  machine := by
    rw [← h.machine, Machine.after_cons, Machine.after_nil, Machine.perform_load_machine,
      Session.machine_absorb]
  running := by
    rw [Session.machine_absorb, Machine.loadRom_halted, h.machine]
    rfl
  screen := h.screen
  frames := h.frames
  refreshes := h.refreshes

theorem begun_of_startWith? {w : World} {a : CommandLine.Arguments} {st : Start}
    (h : startWith? w a = some st) :
    ∃ rom scale, a.scale = some scale ∧ Begun w rom scale st.session := by
  obtain ⟨path, rom, speed, s, starts, rfl⟩ := starts_of_startWith? h
  obtain ⟨scale, given, fresh⟩ := opened_of_ok starts.opened
  exact ⟨rom, scale, given, fresh.begun rom⟩

theorem start_eq_play {w : World} {a : CommandLine.Arguments} {path : String} {rom : List UInt8}
    {s : Session} (file : a.file = some path) (named : '\x00' ∉ path.toList)
    (readable : w.read path = .ok rom) (opened : opened? w a.mute a.scale = .ok s) :
    start w a = play w path a.speed rom s := by
  simp [start, file, named, readable, opened]

theorem play_of_refused {w : World} {path : String} {speed : Option Int} {rom : List UInt8}
    {s : Session} {e : Failure}
    (refused : (s.machine.loadRom rom Parameters.programStart).answer = .error e) :
    play w path speed rom s = reportOf w path s (.text (path ++ ": " ++ e.message)) := by
  simp only [play, refused]

/-- The frames of a program: those with the events given, and one with a wish to quit. -/
def script (w : World) : List (List KeyEvent) :=
  w.frames ++ [[.quit]]

def Start.before (st : Start) (w : World) (k : Nat) : Session :=
  st.session.before st.pace (script w) k

theorem Starts.start_eq {w : World} {a : CommandLine.Arguments} {path : String} {rom : List UInt8}
    {speed : Int} {s : Session} (h : Starts w a path rom speed s) :
    start w a =
      let ran := (s.absorb (s.machine.loadRom rom Parameters.programStart)).run
        (Session.pace speed) w.frames
      reportOf w path (ran.1.close ran.2) (exitOf ran.1.machine ran.2) := by
  rw [start_eq_play h.file h.named h.readable h.opened]
  simp only [play, h.loads, h.speed]

theorem start_of_startWith? {w : World} {a : CommandLine.Arguments} {st : Start}
    (h : startWith? w a = some st) :
    ∃ n ending, st.session.LastFrame st.pace (script w) n ending ∧
      (st.before w (n + 1)).frames = n + 1 ∧
      start w a = reportOf w st.path ((st.before w (n + 1)).close ending)
        (exitOf (st.before w (n + 1)).machine ending) := by
  obtain ⟨n, ending, last, ran⟩ := st.session.run_lastFrame st.pace w.frames
  obtain ⟨rom, scale, -, begun⟩ := begun_of_startWith? h
  have frames := Session.frames_before last (Nat.le_refl (n + 1))
  rw [begun.frames, Nat.zero_add] at frames
  refine ⟨n, ending, last, frames, ?_⟩
  have ended : st.session.run st.pace w.frames = (st.before w (n + 1), ending) := ran
  obtain ⟨path, rom, speed, s, starts, rfl⟩ := starts_of_startWith? h
  rw [starts.start_eq]
  simp only [ended]

/-- A report without a frame; what it leaves on the screen, if there is one, is a new window. -/
structure Unplayed (w : World) (scale : Option Int) (r : Report) : Prop where
  frames : r.frames = 0
  refreshes : r.refreshes = 0
  screen : ∀ screen, r.screen = some screen →
    ∃ n, scale = some n ∧ Screen.inWindow? w.library n = .ok screen

theorem unplayed_reportOf {w : World} {scale : Int} {s : Session} (opened : Opened w scale s)
    (path : String) (exit : Exit) : Unplayed w (some scale) (reportOf w path s exit) where
  frames := opened.frames
  refreshes := opened.refreshes
  screen := by
    intro screen shown
    cases exit with
    | refused e => cases shown
    | returned | status | text =>
      obtain rfl := Option.some.inj shown
      exact ⟨scale, rfl, opened.screen⟩

/-- How a program ends that does not start: before its window is open, or with a ROM that is refused, or for
want of a speed. -/
inductive Unstarted (w : World) (a : CommandLine.Arguments) : Prop
  | unopened (exit : Exit) (output captions : List String) (windows : List (Option (Int × Int)))
      (eq : start w a = { Report.early exit output with captions, windows })
  | unloaded (s : Session) (path : String) (exit : Exit) (opened : opened? w a.mute a.scale = .ok s)
      (eq : start w a = reportOf w path s exit)
  | unpaced (s : Session) (path : String) (rom : List UInt8) (opened : opened? w a.mute a.scale = .ok s)
      (eq : start w a =
        reportOf w path (s.absorb (s.machine.loadRom rom Parameters.programStart)) (.refused .noSpeed))

theorem unstarted_of_not_startWith? {w : World} {a : CommandLine.Arguments}
    (h : startWith? w a = none) : Unstarted w a := by
  cases file : a.file with
  | none => exact .unopened _ _ [] [] (by rw [start, file]; rfl)
  | some path =>
    by_cases named : '\x00' ∈ path.toList
    · exact .unopened _ _ [] [] (by simp only [start, file, List.contains_iff_mem, named]; rfl)
    have absent : path.toList.contains '\x00' = false := by simpa using named
    cases readable : w.read path with
    | error e =>
      exact .unopened _ _ [] []
        (by simp only [start, file, absent, readable, Bool.false_eq_true, if_false]; rfl)
    | ok rom =>
      cases opened : opened? w a.mute a.scale with
      | error e =>
        exact .unopened _ _ _ _
          (by simp only [start, file, absent, readable, opened, Bool.false_eq_true, if_false]; rfl)
      | ok s =>
        have eq := start_eq_play file named readable opened
        cases loads : (s.machine.loadRom rom Parameters.programStart).answer with
        | error e => exact .unloaded s path _ opened (eq.trans (play_of_refused loads))
        | ok =>
          cases speed : a.speed with
          | none => exact .unpaced s path rom opened (by rw [eq, speed]; simp only [play, loads])
          | some speed' =>
            have started := Starts.startWith? ⟨file, named, readable, speed, opened, loads⟩
            rw [started] at h
            cases h

theorem unplayed_of_not_startWith? {w : World} {a : CommandLine.Arguments}
    (h : startWith? w a = none) : Unplayed w a.scale (start w a) := by
  cases unstarted_of_not_startWith? h with
  | unopened exit output captions windows eq =>
    rw [eq]
    exact ⟨rfl, rfl, nofun⟩
  | unloaded s path exit opened eq =>
    obtain ⟨scale, given, fresh⟩ := opened_of_ok opened
    rw [eq, given]
    exact unplayed_reportOf fresh path exit
  | unpaced s path rom opened eq =>
    obtain ⟨scale, -, fresh⟩ := opened_of_ok opened
    rw [eq]
    exact ⟨fresh.frames, fresh.refreshes, nofun⟩

theorem exit_of_not_opened {words : List String} {w : World} {a : CommandLine.Arguments}
    {path : String} {rom : List UInt8} {e : ArgumentError}
    (read : CommandLine.read words = .ok (.run a)) (file : a.file = some path)
    (named : '\x00' ∉ path.toList) (readable : w.read path = .ok rom)
    (refused : opened? w a.mute a.scale = .error e) : (run words w).exit = .refused e := by
  simp [run, read, start, file, named, readable, refused, unopened, Report.early]

theorem startWith?_of_start? {words : List String} {w : World} {st : Start}
    (h : start? words w = some st) :
    ∃ a, CommandLine.read words = .ok (.run a) ∧ startWith? w a = some st := by
  simp only [start?] at h
  split at h
  next a read => exact ⟨a, read, h⟩
  · cases h

theorem run_of_start? {words : List String} {w : World} {st : Start}
    (h : start? words w = some st) :
    ∃ n ending, st.session.LastFrame st.pace (script w) n ending ∧
      (st.before w (n + 1)).frames = n + 1 ∧
      run words w = reportOf w st.path ((st.before w (n + 1)).close ending)
        (exitOf (st.before w (n + 1)).machine ending) := by
  obtain ⟨a, read, started⟩ := startWith?_of_start? h
  simp only [run, read]
  exact start_of_startWith? started

theorem begun_of_start? {words : List String} {w : World} {st : Start}
    (h : start? words w = some st) :
    ∃ a rom scale, CommandLine.read words = .ok (.run a) ∧ a.scale = some scale ∧
      Begun w rom scale st.session := by
  obtain ⟨a, read, started⟩ := startWith?_of_start? h
  obtain ⟨rom, scale, given, begun⟩ := begun_of_startWith? started
  exact ⟨a, rom, scale, read, given, begun⟩

theorem unplayed_of_not_start? {words : List String} {w : World} (h : start? words w = none) :
    ∃ scale, Unplayed w scale (run words w) ∧
      ∀ n, scale = some n → ∃ a, CommandLine.read words = .ok (.run a) ∧ a.scale = some n := by
  simp only [start?] at h
  simp only [run]
  split
  · exact ⟨none, ⟨rfl, rfl, nofun⟩, nofun⟩
  · exact ⟨none, ⟨rfl, rfl, nofun⟩, nofun⟩
  next a read =>
    simp only [read] at h
    exact ⟨a.scale, unplayed_of_not_startWith? h, fun n given => ⟨a, read, given⟩⟩

end Program

end ChipEight

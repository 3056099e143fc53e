import ChipEight.Proofs.Launch
import ChipEight.Proofs.Painting

/-!
The program does what the machine does frame by frame. Where the library opens a window at the scale and paints, and
there is room for the tone of the sound device, the machine of the program goes through the states of a machine that is
given the ROM and then, frame after frame, the events and the cycles of the frame. The screen adds one thing: a frame
that completes leaves the display marked clean.
-/

namespace ChipEight

open Parameters

namespace Program

/-- A new machine with the ROM after a number of frames of the script. -/
def machineAt (w : World) (rom : List UInt8) (pace : Int) (k : Nat) : Machine :=
  (Machine.initial w.random).after
    (.load rom programStart :: ((script w).take k).flatMap (Operation.ofFrame pace))

theorem machineAt_zero (w : World) (rom : List UInt8) (pace : Int) :
    machineAt w rom pace 0 = (Machine.initial w.random).after [.load rom programStart] := by
  rw [machineAt, List.take_zero, List.flatMap_nil]

theorem machineAt_eq (w : World) (rom : List UInt8) (pace : Int) (k : Nat) :
    machineAt w rom pace k =
      (machineAt w rom pace 0).after (((script w).take k).flatMap (Operation.ofFrame pace)) := by
  rw [machineAt_zero, ← Machine.after_append]
  exact congrArg (Machine.initial w.random).after (List.singleton_append).symm

theorem machineAt_succ (w : World) (rom : List UInt8) (pace : Int) {k : Nat} (inside : k < (script w).length) :
    machineAt w rom pace (k + 1) =
      (machineAt w rom pace k).after (Operation.ofFrame pace ((script w).getD k [])) := by
  have entry : (script w).getD k [] = (script w)[k] := by simp [inside]
  rw [machineAt_eq, List.take_succ_eq_append_getElem inside, List.flatMap_append, Machine.after_append,
    ← machineAt_eq, List.flatMap_singleton, entry]

def frameAt (w : World) (rom : List UInt8) (pace : Int) (k : Nat) : Outcome Failure Unit :=
  (machineAt w rom pace k).frameWith pace ((script w).getD k [])

def faultExit (m : Machine) : Fault → Exit
  | .programCounter _ => .returned
  | _ => .text (crashText m)

theorem exitOf_fault (m : Machine) (f : Fault) :
    exitOf m (.ofFailure (.fault f)) = faultExit m f := by
  cases f <;> rfl

theorem Opened.size {w : World} {scale : Int} {s : Session} (h : Opened w scale s) :
    s.machine.memory.size = 4096 := by
  rw [h.machine]
  exact Machine.size_initial w.random

theorem Begun.paintable {w : World} {rom : List UInt8} {scale : Int} {s : Session} (h : Begun w rom scale s)
    (paints : w.library.Paints scale) : s.Paintable where
  wellFormed := by
    rw [h.machine]
    exact Machine.wellFormed_after (Machine.wellFormed_initial w.random) _
  paints := by
    obtain ⟨size, -, window⟩ := Screen.inWindow?_eq_ok_iff.mp h.screen
    rw [h.library, window]
    exact paints

def worldWith (rom : List UInt8) (frames : List (List KeyEvent)) : World :=
  { read := fun _ => .ok rom
    device := some ⟨44100, -16, 2⟩
    debug := false
    random := .ofList []
    frames }

theorem roomy_worldWith {rom : List UInt8} {frames : List (List KeyEvent)} (mixer : Mixer)
    (present : (worldWith rom frames).device = some mixer) :
    Tone.HasRoom .usual toneFrequency mixer.rate mixer.channels := by
  obtain rfl := Option.some.inj present
  decide

theorem opens_usual : Library.usual.window (Screen.windowSize 15) = .ok (960, 480) := rfl

theorem exists_starts_worldWith (speed : Int) (rom : List UInt8) (frames : List (List KeyEvent))
    (fits : rom.length ≤ 3584) :
    ∃ s, Starts (worldWith rom frames) ⟨some "r", some speed, some 15, false⟩ "r" rom speed s ∧
      (s.absorb (s.machine.loadRom rom programStart)).machine = Machine.loaded rom ∧
      (s.absorb (s.machine.loadRom rom programStart)).Paintable := by
  obtain ⟨s, opened⟩ : ∃ s, opened? (worldWith rom frames) false (some 15) = .ok s :=
    exists_opened opens_usual (fun mixer present _ => roomy_worldWith mixer present)
  obtain ⟨scale, given, fresh⟩ := opened_of_ok opened
  obtain rfl := Option.some.inj given
  have load := Machine.loadRom_programStart fresh.size fits
  refine ⟨s, ⟨rfl, by decide, rfl, rfl, opened, congrArg Outcome.answer load⟩, ?_,
    (fresh.begun rom).paintable (Library.usual_paints opens_usual)⟩
  rw [Session.machine_absorb, load, Outcome.machine_done, fresh.machine, worldWith, Machine.loaded]

end Program

namespace Machine

@[simp] theorem fault_halt (m : Machine) (f : Fault) : (m.halt f).fault = some f := rfl

theorem text_markClean_ne {m : Machine} (dirty : m.display.dirty = true) :
    { m with display := m.display.markClean }.text ≠ m.text := by
  intro same
  have lengths := congrArg String.length same
  simp only [text, Display.markClean, dirty, String.intercalate_cons_cons,
    String.intercalate_singleton, String.length_append] at lengths
  have texts : "False".length = "True".length := by
    simp only [if_true, Bool.false_eq_true, if_false] at lengths
    omega
  exact absurd texts (by decide)

section Clearing

/-- A program that clears the screen in one cycle and returns from no call in the next. -/
def clearing : List UInt8 := [0x00, 0xE0, 0x00, 0xEE]

def cleared (dirty : Bool) : Machine :=
  { (loaded clearing) with
    registers.pc := 0x202
    display := { (loaded clearing).display.clear with dirty }
    cycles := 1 }

theorem cycle_clearing :
    (loaded clearing).cycle = .done (cleared true) [.executed 0x200 (decode 0x00E0)] :=
  (cycle_of_opcode rfl (by decide) (wordAt_loaded clearing (by decide) 0 (by decide)) rfl).trans rfl

theorem cycle_cleared (dirty : Bool) :
    (cleared dirty).cycle =
      ⟨(cleared dirty).fetched.halt .stackUnderflow, [.halted .stackUnderflow],
        .error (.fault .stackUnderflow)⟩ := by
  have opcode : (cleared dirty).opcode = 0x00EE :=
    wordAt_loaded clearing (by decide) 2 (by decide)
  have fails : (cleared dirty).executed.answer = .error .stackUnderflow := by
    rw [executed, instruction, opcode]
    rfl
  have inside : InProgram 0x202 := by decide
  exact cycle_of_fault rfl inside fails

theorem halt_cleared :
    (cleared false).fetched.halt .stackUnderflow =
      { (cleared true).fetched.halt .stackUnderflow with
        display := ((cleared true).fetched.halt .stackUnderflow).display.markClean } := rfl

theorem frame_clearing :
    (loaded clearing).frame 1 = .done (cleared true) [.executed 0x200 (decode 0x00E0)] := by
  have timers : (cleared true).timers.tick.1 = (cleared true).timers := rfl
  rw [frame, show Int.toNat 1 = 0 + 1 from rfl, times, cycle_clearing]
  change Outcome.mk { cleared true with timers := (cleared true).timers.tick.1 } _ _ = _
  rw [timers]
  rfl

theorem frame_cleared (dirty : Bool) :
    (cleared dirty).frame 1 =
      ⟨(cleared dirty).fetched.halt .stackUnderflow, [.halted .stackUnderflow],
        .error (.fault .stackUnderflow)⟩ := by
  rw [frame, show Int.toNat 1 = 0 + 1 from rfl, times, cycle_cleared]
  rfl

theorem after_clearing :
    (initial (.ofList [])).after [.load clearing programStart, .frame 1, .frame 1] =
      (cleared true).fetched.halt .stackUnderflow := by
  have rest : (loaded clearing).after [.frame 1, .frame 1] =
      (cleared true).fetched.halt .stackUnderflow := by
    rw [after_cons, perform_frame_machine, frame_clearing, Outcome.machine_done, after_cons,
      perform_frame_machine, frame_cleared, after_nil]
  exact (after_load clearing (by decide) [.frame 1, .frame 1]).trans rest

theorem crash_clearing :
    Program.crashText ((cleared false).fetched.halt .stackUnderflow) ≠
      Program.crashText ((cleared true).fetched.halt .stackUnderflow) := by
  have texts : ((cleared false).fetched.halt .stackUnderflow).text ≠
      ((cleared true).fetched.halt .stackUnderflow).text := by
    rw [halt_cleared]
    exact text_markClean_ne rfl
  intro same
  exact texts ((String.append_right_inj _).mp same)

end Clearing

end Machine

namespace Session

open Machine

theorem run_clearing {s : Session} (machine : s.machine = loaded clearing) (paintable : s.Paintable) :
    (s.run 1 [[], []]).1.machine = (cleared false).fetched.halt .stackUnderflow ∧
      (s.run 1 [[], []]).2 = .crash (.fault .stackUnderflow) := by
  have first : s.machine.frameWith 1 [] = .done (cleared true) [.executed 0x200 (decode 0x00E0)] := by
    rw [machine]
    exact frame_clearing
  obtain ⟨s', painted⟩ := (paintable.ran 1 []).exists_refresh?
  have frame : s.frame 1 [] = (s', none) := by
    rw [frame_eq, first, painted]
    rfl
  have between : s'.machine = cleared false := by
    rw [(refreshed_of_ok painted).machine, machine_ran, first]
    rfl
  have second : s'.machine.frameWith 1 [] =
      ⟨(cleared false).fetched.halt .stackUnderflow, [.halted .stackUnderflow],
        .error (.fault .stackUnderflow)⟩ := by
    rw [between]
    exact frame_cleared false
  have crash : s'.frame 1 [] = (s'.ran 1 [], some (.crash (.fault .stackUnderflow))) := by
    rw [frame_eq, second]
    rfl
  simp only [run, frame, crash, machine_ran, second, and_self]

end Session

namespace Program

theorem exit_clearing :
    (run ["-f", "r", "-s", "60"] (worldWith Machine.clearing [[], []])).exit =
      .text (crashText ((Machine.cleared false).fetched.halt .stackUnderflow)) := by
  have words : CommandLine.read ["-f", "r", "-s", "60"] =
      .ok (.run ⟨some "r", some 60, some 15, false⟩) := rfl
  obtain ⟨s, starts, machine, paintable⟩ := exists_starts_worldWith 60 Machine.clearing [[], []] (by decide)
  obtain ⟨ended, crash⟩ := Session.run_clearing machine paintable
  have frames : (worldWith Machine.clearing [[], []]).frames = [[], []] := rfl
  have pace : Session.pace 60 = 1 := rfl
  simp only [run, words, starts.start_eq, frames, pace, crash, ended]
  rfl

theorem frameAt_clearing :
    let w := worldWith Machine.clearing [[], []]
    frameAt w Machine.clearing 1 0 = .done (Machine.cleared true) [.executed 0x200 (decode 0x00E0)] ∧
      machineAt w Machine.clearing 1 1 = Machine.cleared false ∧
      frameAt w Machine.clearing 1 1 =
        ⟨(Machine.cleared false).fetched.halt .stackUnderflow, [.halted .stackUnderflow],
          .error (.fault .stackUnderflow)⟩ := by
  intro w
  have start : machineAt w Machine.clearing 1 0 = Machine.loaded Machine.clearing :=
    (machineAt_zero w _ 1).trans (Machine.after_load Machine.clearing (by decide) [])
  have first : frameAt w Machine.clearing 1 0 = .done (Machine.cleared true) [.executed 0x200 (decode 0x00E0)] := by
    rw [frameAt, start]
    exact Machine.frame_clearing
  have next : machineAt w Machine.clearing 1 1 = Machine.cleared false := by
    rw [machineAt_succ w _ 1 (by decide), Machine.after_ofFrame]
    rw [frameAt] at first
    rw [first]
    rfl
  refine ⟨first, next, ?_⟩
  rw [frameAt, next]
  exact Machine.frame_cleared false

/-- A program that gets a window in which the library paints, and room for its sound, refuses a ROM that is too large
before the first frame, and otherwise plays frames up to the first in which the machine faults or somebody asks to
quit. It returns after a wish to quit and where the program ran off its area, and shows the machine after any other
fault. -/
theorem run_frame_by_frame {words : List String} {w : World} {a : CommandLine.Arguments}
    {path : String} {rom : List UInt8} {speed scale : Int} {size : Nat × Nat}
    (read : CommandLine.read words = .ok (.run a)) (file : a.file = some path)
    (named : '\x00' ∉ path.toList) (readable : w.read path = .ok rom)
    (speed_given : a.speed = some speed) (scale_given : a.scale = some scale)
    (opens : w.library.window (Screen.windowSize scale) = .ok size) (paints : w.library.Paints scale)
    (roomy : ∀ mixer, w.device = some mixer → a.mute = false →
      Tone.HasRoom w.room toneFrequency mixer.rate mixer.channels) :
    ∃ s, opened? w a.mute a.scale = .ok s ∧ s.machine = .initial w.random ∧
      let r := run words w
      let pace := max 1 (speed / 60)
      let session := (Start.mk path pace (s.absorb (s.machine.loadRom rom programStart))).before w
      let frame := frameAt w rom pace
      let events (k : Nat) := (script w).getD k []
      (3584 < rom.length → r.frames = 0 ∧
        r = reportOf w path s
          (.text (path ++ ": " ++ (RomTooLarge.mk rom.length 0x200 4096).message))) ∧
      (rom.length ≤ 3584 →
        ∃ n < (script w).length, r.frames = n + 1 ∧
          (∀ k ≤ n, (session k).machine = machineAt w rom pace k) ∧
          (∀ k < n, (frame k).answer = .ok () ∧ ∀ e ∈ events k, ¬ e.AsksToQuit) ∧
          ((frame n).answer = .ok () ∧ (∃ e ∈ events n, e.AsksToQuit) ∧
              (session (n + 1)).machine = machineAt w rom pace (n + 1) ∧
              r = reportOf w path ((session (n + 1)).close .quit) .returned ∨
            ∃ f, (frame n).answer = .error (.fault f) ∧
              (session (n + 1)).machine = (frame n).machine ∧
              (frame n).machine.halted = true ∧ (frame n).machine.fault = some f ∧
              r = reportOf w path ((session (n + 1)).close (.ofFailure (.fault f)))
                (faultExit (frame n).machine f))) := by
  obtain ⟨s, opened⟩ := exists_opened opens roomy
  rw [← scale_given] at opened
  obtain ⟨_, given, fresh⟩ := opened_of_ok opened
  obtain rfl : scale = _ := Option.some.inj (scale_given.symm.trans given)
  refine ⟨s, opened, fresh.machine, ?_⟩
  intro r pace session frame events
  have run_eq : r = start w a := by simp only [r, run, read]
  refine ⟨fun tooLarge => ?_, fun fits => ?_⟩
  · have refused := congrArg Outcome.answer (Machine.loadRom_too_large fresh.size tooLarge)
    have report : play w path a.speed rom s = reportOf w path s
        (.text (path ++ ": " ++ (RomTooLarge.mk rom.length 0x200 4096).message)) :=
      play_of_refused refused
    rw [← start_eq_play file named readable opened, ← run_eq] at report
    exact ⟨by rw [report]; exact fresh.frames, report⟩
  have loads := congrArg Outcome.answer (Machine.loadRom_programStart fresh.size fits)
  have started := Starts.startWith? ⟨file, named, readable, speed_given, opened, loads⟩
  have begun := fresh.begun rom
  have paintable := begun.paintable paints
  obtain ⟨n, ending, last, frames, report⟩ := start_of_startWith? started
  rw [← run_eq] at report
  have machine {k : Nat} (hk : k ≤ n) : (session k).machine = machineAt w rom pace k := by
    rw [machineAt_eq, machineAt_zero, ← begun.machine]
    exact Session.machine_before last hk
  have frame_eq {k : Nat} (hk : k ≤ n) :
      (session k).machine.frameWith pace (events k) = frame k := by
    rw [machine hk]
    rfl
  refine ⟨n, last.inScript, by rw [report]; exact frames, fun k => machine, ?_, ?_⟩
  · intro k hk
    rw [← frame_eq (Nat.le_of_lt hk)]
    obtain ⟨completes, -, unasked⟩ := Session.completes_before last hk
    exact ⟨completes, unasked⟩
  -- the last frame completes like those before it, or it is left in the middle and nothing is marked
  have same := frame_eq (Nat.le_refl n)
  rcases paintable.ends begun.running last with
    ⟨completes, painted, asked, rfl⟩ | ⟨f, faults, ran, halted, recorded, rfl⟩
  · refine .inl ⟨same ▸ completes, asked, ?_, report⟩
    rw [machineAt_eq, machineAt_zero, ← begun.machine]
    exact Session.machine_before_succ last (Nat.le_refl n) painted
      (Session.machine_before last (Nat.le_refl n))
  · have machine_eq : (session (n + 1)).machine = (frame n).machine := by
      rw [← same]
      exact congrArg Session.machine ran
    rw [exitOf_fault] at report
    exact .inr ⟨f, same ▸ faults, machine_eq, machine_eq ▸ halted, machine_eq ▸ recorded,
      machine_eq ▸ report⟩

theorem run_frame_by_frame_crash :
    let words := ["-f", "r", "-s", "60"]
    let w := worldWith Machine.clearing [[], []]
    let w' := worldWith (List.replicate 3585 0) []
    (∃ s, opened? w false (some 15) = .ok s ∧
      ((Start.mk "r" 1 (s.absorb (s.machine.loadRom Machine.clearing programStart))).before w 1).machine =
        Machine.cleared false) ∧
      (run words w).frames = 2 ∧
      (run words w).exit = .text (crashText ((Machine.cleared false).fetched.halt .stackUnderflow)) ∧
      (run words w').frames = 0 ∧
      (run words w').exit = .text ("r: " ++ (RomTooLarge.mk 3585 0x200 4096).message) := by
  intro words w w'
  have read : CommandLine.read words = .ok (.run ⟨some "r", some 60, some 15, false⟩) := rfl
  have paints := Library.usual_paints opens_usual
  obtain ⟨s, opened, -, -, fits⟩ := run_frame_by_frame (w := w) read rfl (by decide) rfl rfl rfl opens_usual paints
    fun mixer present _ => roomy_worldWith mixer present
  have refuses (rom : List UInt8) (tooLarge : rom.length = 3585) :
      (run words (worldWith rom [])).frames = 0 ∧
        (run words (worldWith rom [])).exit = .text ("r: " ++ (RomTooLarge.mk 3585 0x200 4096).message) := by
    obtain ⟨s', -, -, refused, -⟩ := run_frame_by_frame (w := worldWith rom []) read rfl (by decide) rfl rfl rfl
      opens_usual paints fun mixer present _ => roomy_worldWith mixer present
    obtain ⟨frames, report⟩ := refused (by omega)
    rw [tooLarge] at report
    exact ⟨frames, congrArg Report.exit report⟩
  obtain ⟨n, inScript, frames, machine, goesOn, last⟩ := fits (by decide)
  have pace : max 1 ((60 : Int) / 60) = 1 := by decide
  rw [pace] at machine goesOn last
  obtain ⟨first, next, second⟩ := frameAt_clearing
  obtain rfl : n = 1 := by
    have late : ¬ 1 < n := fun late => by
      have completes := (goesOn 1 late).1
      rw [second] at completes
      cases completes
    have early : n ≠ 0 := by
      rintro rfl
      rcases last with ⟨-, ⟨e, mem, -⟩, -⟩ | ⟨f, faults, -⟩
      · cases mem
      · rw [first] at faults
        cases faults
    omega
  rcases last with ⟨completes, -⟩ | ⟨f, faults, -, -, -, report⟩
  · rw [second] at completes
    cases completes
  · rw [second] at faults report
    obtain rfl : .stackUnderflow = f := by simpa using faults
    exact ⟨⟨s, opened, (machine 1 (Nat.le_refl 1)).trans next⟩, frames, congrArg Report.exit report,
      refuses _ List.length_replicate⟩

/-- A crash in the second frame shows a clean display where the frames alone leave it dirty. There is no
frame at all at a scale without a window, or with more channels than there is room for. -/
theorem run_frame_by_frame_dirty :
    let w := worldWith Machine.clearing [[], []]
    let m := (Machine.initial w.random).after [.load Machine.clearing programStart, .frame 1, .frame 1]
    (m.fault = some .stackUnderflow ∧ (run ["-f", "r", "-s", "60"] w).exit ≠ .text (crashText m)) ∧
      (run ["-f", "r", "--scale", "100000000000000000000"] w).exit = .refused .windowSize ∧
      (run ["-f", "r"] { w with device := some ⟨44100, -16, 100000000000000000000⟩ }).exit =
        .refused .countTooWide := by
  intro w m
  have state : m = (Machine.cleared true).fetched.halt .stackUnderflow := Machine.after_clearing
  refine ⟨⟨by rw [state, Machine.fault_halt], ?_⟩, ?_, ?_⟩
  · rw [exit_clearing, state]
    exact fun same => Machine.crash_clearing (Exit.text.inj same)
  · have read : CommandLine.read ["-f", "r", "--scale", "100000000000000000000"] =
        .ok (.run ⟨some "r", some 600, some 100000000000000000000, false⟩) := rfl
    exact exit_of_not_opened read rfl (by decide) rfl rfl
  · have read : CommandLine.read ["-f", "r"] = .ok (.run ⟨some "r", some 600, some 15, false⟩) := rfl
    exact exit_of_not_opened read rfl (by decide) rfl rfl

end Program

end ChipEight

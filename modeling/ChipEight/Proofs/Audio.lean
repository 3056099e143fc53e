import ChipEight.Proofs.FrameRefinement
import ChipEight.Proofs.SoundEdges
import Mathlib.Data.List.Count

/-!
What the program asks of the sound device. The beeper passes on the edges of the tone, each as one call if
there is a sound; so plays and stops alternate as the edges do, and between frames a play is outstanding
just where the sound timer is not zero. The end of a session stops what is outstanding.
-/

namespace ChipEight

open SoundEdge

def DeviceCall.isTone : DeviceCall → Bool
  | play | stop => true
  | setUp _ | sound _ => false

def SoundEdge.call : SoundEdge → DeviceCall
  | start => .play
  | stop => .stop

namespace Beeper

theorem hearAll_append (b : Beeper) (xs ys : List SoundEdge) :
    b.hearAll (xs ++ ys) =
      (((b.hearAll xs).1.hearAll ys).1, (b.hearAll xs).2 ++ ((b.hearAll xs).1.hearAll ys).2) := by
  induction xs generalizing b with
  | nil => rfl
  | cons e rest ih =>
    simp only [List.cons_append, hearAll, ih, List.append_assoc]

theorem hasSound_hearAll (b : Beeper) (es : List SoundEdge) : (b.hearAll es).1.hasSound = b.hasSound := by
  induction es generalizing b with
  | nil => rfl
  | cons e rest ih =>
    cases e
    · exact ih b.start.1
    · exact ih b.stop.1

theorem hearAll_of_silent {b : Beeper} (silent : b.hasSound = false) (es : List SoundEdge) :
    (b.hearAll es).2 = [] := by
  obtain ⟨hasSound, playing⟩ := b
  obtain rfl : hasSound = false := silent
  induction es generalizing playing with
  | nil => rfl
  | cons e rest ih =>
    cases e
    · exact ih true
    · exact ih false

theorem hearAll_concat (b : Beeper) (es : List SoundEdge) (e : SoundEdge) :
    b.hearAll (es ++ [e]) =
      (⟨b.hasSound, decide (e = .start)⟩,
        (b.hearAll es).2 ++
          if b.hasSound = true ∧ e = .start ∧ (b.hearAll es).1.playing = false then [.play]
          else if b.hasSound = true ∧ e = .stop ∧ (b.hearAll es).1.playing = true then [.stop]
          else []) := by
  rw [hearAll_append, ← b.hasSound_hearAll es]
  obtain ⟨hasSound, playing⟩ := (b.hearAll es).1
  cases e <;> cases playing <;> cases hasSound <;> simp [hearAll, hear, Beeper.start, Beeper.stop]

example : ((⟨true, false⟩ : Beeper).hearAll [.start, .start, .stop, .stop, .start]).2 =
    [.play, .stop, .play] := by
  decide

def played (audible : Bool) (es : List SoundEdge) : List DeviceCall :=
  if audible then es.map call else []

theorem played_append (audible : Bool) (xs ys : List SoundEdge) :
    played audible (xs ++ ys) = played audible xs ++ played audible ys := by
  cases audible
  · rfl
  · exact List.map_append

theorem hearAll_of_lead (audible : Bool) {first last : Bool} {es : List SoundEdge}
    (h : Lead first es last) :
    (⟨audible, first⟩ : Beeper).hearAll es = (⟨audible, last⟩, played audible es) := by
  induction h with
  | nil => cases audible <;> rfl
  | start _ ih | stop _ ih =>
    simp only [hearAll, hear, start, stop, ih]
    cases audible <;> rfl

theorem filter_played (audible : Bool) (es : List SoundEdge) :
    (played audible es).filter DeviceCall.isTone = played audible es := by
  apply List.filter_eq_self.mpr
  cases audible
  · exact nofun
  · rintro c mem
    obtain ⟨e, -, rfl⟩ := List.mem_map.mp mem
    cases e <;> rfl

theorem call_injective : Function.Injective call := by
  intro a b same
  cases a <;> cases b <;> first | rfl | cases same

theorem count_played (audible : Bool) (es : List SoundEdge) (e : SoundEdge) :
    (played audible es).count e.call = if audible then es.count e else 0 := by
  cases audible
  · rfl
  · exact List.count_map_of_injective es call call_injective e

theorem count_setUp_append {setUp : List DeviceCall} (quiet : setUp.filter DeviceCall.isTone = [])
    (audible : Bool) (es : List SoundEdge) (e : SoundEdge) :
    (setUp ++ played audible es).count e.call = if audible then es.count e else 0 := by
  have absent : e.call ∉ setUp := by
    intro mem
    have kept := List.mem_filter.mpr ⟨mem, show e.call.isTone = true by cases e <;> rfl⟩
    rw [quiet] at kept
    exact absurd kept List.not_mem_nil
  rw [List.count_append, List.count_eq_zero_of_not_mem absent, Nat.zero_add, count_played]

theorem connect_of_ok {frequency : Int} {muted ready : Bool} {device : Option Mixer} {library : Library}
    {room : Room} {b : Beeper} {calls : List DeviceCall} {log : List LogLine}
    (h : connect frequency muted ready device library room = .ok (b, calls, log)) :
    b = ⟨!muted && device.isSome, false⟩ ∧ calls.filter DeviceCall.isTone = [] ∧
      (muted = true → calls = []) := by
  cases muted with
  | true =>
    cases h
    exact ⟨rfl, rfl, fun _ => rfl⟩
  | false =>
    cases device with
    | none =>
      cases h
      exact ⟨rfl, rfl, nofun⟩
    | some mixer =>
      simp only [connect, Bool.false_eq_true, if_false] at h
      split at h
      · cases h
      · cases h
        refine ⟨rfl, ?_, nofun⟩
        cases ready <;> rfl

end Beeper

open Beeper

namespace Machine

theorem lead_frameWith (pace : Int) (m : Machine) (events : List KeyEvent) :
    Lead m.timers.sounding (edges (m.frameWith pace events).events)
      (m.frameWith pace events).machine.timers.sounding := by
  have polled : (m.after (events.flatMap KeyEvent.operations)).timers = m.timers := by
    rw [after_events]
  have lead := (m.after (events.flatMap KeyEvent.operations)).lead_diary [.frame pace]
  rw [polled, diary_cons, diary_nil, List.append_nil] at lead
  exact lead

theorem lead_loadRom (m : Machine) (rom : List UInt8) (offset : Int) :
    Lead m.timers.sounding (edges (m.loadRom rom offset).events)
      (m.loadRom rom offset).machine.timers.sounding := by
  have lead := m.lead_diary [.load rom offset]
  rw [diary_cons, diary_nil, List.append_nil] at lead
  exact lead

end Machine

namespace Session

/-- The beeper plays if and only if the tone sounds, and since the device was set up it was asked for edges
that have led there from silence. -/
structure InTune (setUp : List DeviceCall) (audible : Bool) (s : Session) : Prop where
  beeper : s.beeper = ⟨audible, s.machine.timers.sounding⟩
  calls : ∃ es, Lead false es s.machine.timers.sounding ∧ s.calls = setUp ++ played audible es

section InTune

variable {setUp : List DeviceCall} {audible : Bool} {s : Session} (h : s.InTune setUp audible)
include h

theorem InTune.absorb {o : Outcome Failure Unit}
    (lead : Lead s.machine.timers.sounding (edges o.events) o.machine.timers.sounding) :
    (s.absorb o).InTune setUp audible := by
  have heard := hearAll_of_lead audible lead
  rw [← h.beeper] at heard
  obtain ⟨es, since, calls⟩ := h.calls
  refine ⟨congrArg Prod.fst heard, es ++ edges o.events, since.append lead, ?_⟩
  change s.calls ++ (s.beeper.hearAll (edges o.events)).2 = _
  rw [heard, calls, played_append, List.append_assoc]

theorem InTune.ran (pace : Int) (events : List KeyEvent) : (s.ran pace events).InTune setUp audible := by
  -- the events of a frame reach neither the timers nor the beeper
  have polled : ({ s with frames := s.frames + 1 }.poll events).1.InTune setUp audible :=
    ⟨h.beeper, h.calls⟩
  exact polled.absorb (s.machine.lead_frameWith pace events)

theorem InTune.refreshed {s' : Session} (painted : s.refresh? = .ok s') : s'.InTune setUp audible := by
  have same := refreshed_of_ok painted
  refine ⟨?_, ?_⟩
  · rw [same.beeper, same.machine]
    exact h.beeper
  · rw [same.machine, same.calls]
    exact h.calls

theorem InTune.after (pace : Int) (frames : List (List KeyEvent)) :
    (s.after pace frames).InTune setUp audible :=
  after_invariant (fun _ events h => h.ran pace events) (fun _ _ h => h.refreshed) h frames

theorem InTune.close (ending : Ending) :
    ∃ es, Lead false es false ∧ (s.close ending).calls = setUp ++ played audible es := by
  obtain ⟨es, since, calls⟩ := h.calls
  change ∃ es, Lead false es false ∧ s.calls ++ s.beeper.stop.2 = setUp ++ played audible es
  rw [h.beeper, calls]
  cases sounding : s.machine.timers.sounding with
  | false =>
    rw [sounding] at since
    refine ⟨es, since, ?_⟩
    simp [Beeper.stop]
  | true =>
    rw [sounding] at since
    refine ⟨es ++ [.stop], since.append (.stop (.nil false)), ?_⟩
    rw [played_append, List.append_assoc]
    cases audible <;> rfl

theorem InTune.count_play (quiet : setUp.filter DeviceCall.isTone = []) :
    s.calls.count .play =
      s.calls.count .stop + if audible = true ∧ s.machine.timers.sound ≠ 0 then 1 else 0 := by
  obtain ⟨es, since, calls⟩ := h.calls
  have counts := since.count
  rw [Timers.toNat_sounding, Bool.toNat_false] at counts
  have plays := count_setUp_append quiet audible es .start
  have stops := count_setUp_append quiet audible es .stop
  simp only [call, ← calls] at plays stops
  rw [plays, stops]
  cases audible with
  | false => simp
  | true =>
    by_cases silent : s.machine.timers.sound = 0
    · simp only [silent, if_true] at counts
      simpa [silent] using counts
    · simp only [silent, if_false] at counts
      simpa [silent] using counts

end InTune

theorem calls_after (pace : Int) (s : Session) (frames : List (List KeyEvent)) :
    s.calls <+: (s.after pace frames).calls := by
  refine after_invariant (P := fun t => s.calls <+: t.calls) ?_ ?_ List.prefix_rfl frames
  · intro t events so_far
    exact so_far.trans (List.prefix_append _ _)
  · intro t t' so_far painted
    rwa [(refreshed_of_ok painted).calls]

theorem calls_before (pace : Int) (s : Session) (script : List (List KeyEvent)) {j k : Nat} (hjk : j ≤ k) :
    (s.before pace script j).calls <+: (s.before pace script k).calls := by
  have split : script.take k = script.take j ++ (script.take k).drop j := by
    rw [← Nat.min_eq_left hjk, ← List.take_take, Nat.min_eq_left hjk, List.take_append_drop]
  rw [before, before, split, after_append]
  exact calls_after pace _ _

end Session

namespace Program

theorem inTune_of_opened {w : World} {mute : Bool} {scale : Option Int} {s : Session}
    (h : opened? w mute scale = .ok s) :
    s.InTune s.calls (!mute && w.device.isSome) ∧ s.calls.filter DeviceCall.isTone = [] ∧
      (mute = true → s.calls = []) := by
  cases scale with
  | none => cases h
  | some scale =>
    simp only [opened?] at h
    split at h
    · cases h
    · split at h
      · cases h
      next beeper calls log connected =>
        obtain ⟨rfl, quiet, silent⟩ := connect_of_ok connected
        obtain rfl := Except.ok.inj h
        have nothing : played (!mute && w.device.isSome) [] = [] := by
          cases !mute && w.device.isSome <;> rfl
        refine ⟨⟨rfl, [], .nil false, ?_⟩, quiet, silent⟩
        rw [nothing, List.append_nil]

/-- The calls of a whole program: those that set the device up, and those at edges that lead from silence back
to silence. A program that is mute makes none. -/
def Balanced (mute : Bool) (calls : List DeviceCall) : Prop :=
  ∃ setUp audible es, setUp.filter DeviceCall.isTone = [] ∧ Lead false es false ∧
    calls = setUp ++ played audible es ∧ (mute = true → setUp = [] ∧ audible = false)

theorem Balanced.nil (mute : Bool) : Balanced mute [] :=
  ⟨[], false, [], rfl, .nil false, rfl, fun _ => ⟨rfl, rfl⟩⟩

theorem balanced_of_lead {mute device : Bool} {setUp calls : List DeviceCall} {es : List SoundEdge}
    (quiet : setUp.filter DeviceCall.isTone = []) (silent : mute = true → setUp = [])
    (lead : Lead false es false) (eq : calls = setUp ++ played (!mute && device) es) :
    Balanced mute calls :=
  ⟨setUp, !mute && device, es, quiet, lead, eq, fun muted => ⟨silent muted, by rw [muted]; rfl⟩⟩

theorem inTune_of_startWith? {w : World} {a : CommandLine.Arguments} {st : Start}
    (h : startWith? w a = some st) :
    ∃ setUp, st.session.InTune setUp (!a.mute && w.device.isSome) ∧
      setUp.filter DeviceCall.isTone = [] ∧ (a.mute = true → setUp = []) := by
  obtain ⟨path, rom, speed, s, starts, rfl⟩ := starts_of_startWith? h
  obtain ⟨inTune, quiet, silent⟩ := inTune_of_opened starts.opened
  exact ⟨s.calls, inTune.absorb (s.machine.lead_loadRom rom _), quiet, silent⟩

theorem balanced_start (w : World) (a : CommandLine.Arguments) : Balanced a.mute (start w a).calls := by
  cases started : startWith? w a with
  | some st =>
    obtain ⟨setUp, inTune, quiet, silent⟩ := inTune_of_startWith? started
    obtain ⟨n, ending, -, -, eq⟩ := start_of_startWith? started
    obtain ⟨es, lead, calls⟩ := (inTune.after st.pace ((script w).take (n + 1))).close ending
    rw [eq]
    exact balanced_of_lead quiet silent lead calls
  | none =>
    cases unstarted_of_not_startWith? started with
    | unopened exit output captions windows eq =>
      rw [eq]
      exact .nil a.mute
    | unloaded s path exit opened eq =>
      obtain ⟨inTune, quiet, silent⟩ := inTune_of_opened opened
      obtain ⟨scale, -, fresh⟩ := opened_of_ok opened
      obtain ⟨es, lead, calls⟩ := inTune.calls
      rw [fresh.machine] at lead
      rw [eq]
      exact balanced_of_lead quiet silent lead calls
    | unpaced s path rom opened eq =>
      obtain ⟨inTune, quiet, silent⟩ := inTune_of_opened opened
      obtain ⟨scale, -, fresh⟩ := opened_of_ok opened
      obtain ⟨es, lead, calls⟩ :=
        (inTune.absorb (s.machine.lead_loadRom rom Parameters.programStart)).calls
      rw [Session.machine_absorb, Machine.loadRom_timers, fresh.machine] at lead
      rw [eq]
      exact balanced_of_lead quiet silent lead calls

section Balanced

variable {mute : Bool} {calls : List DeviceCall} (h : Balanced mute calls)
include h

theorem Balanced.getElem (k : Nat) (inside : k < (calls.filter DeviceCall.isTone).length) :
    (calls.filter DeviceCall.isTone)[k] = if k % 2 = 0 then .play else .stop := by
  obtain ⟨setUp, audible, es, quiet, lead, rfl, -⟩ := h
  simp only [List.filter_append, quiet, List.nil_append, filter_played] at inside ⊢
  cases audible with
  | false => exact absurd inside (Nat.not_lt_zero k)
  | true =>
    simp only [played, if_true, List.length_map] at inside
    simp only [played, if_true, List.getElem_map, lead.getElem k inside]
    simp only [Bool.toNat_false, Nat.add_zero]
    split <;> rfl

theorem Balanced.count : calls.count .play = calls.count .stop := by
  obtain ⟨setUp, audible, es, quiet, lead, rfl, -⟩ := h
  have plays := count_setUp_append quiet audible es .start
  have stops := count_setUp_append quiet audible es .stop
  simp only [call] at plays stops
  rw [plays, stops, Nat.add_right_cancel lead.count]

theorem Balanced.nil_of_mute (muted : mute = true) : calls = [] := by
  obtain ⟨setUp, audible, es, -, -, rfl, silent⟩ := h
  obtain ⟨rfl, rfl⟩ := silent muted
  rfl

end Balanced

theorem balanced_run (words : List String) (w : World) :
    ∃ mute, Balanced mute (run words w).calls ∧
      ∀ a, CommandLine.read words = .ok (.run a) → mute = a.mute := by
  simp only [run]
  cases CommandLine.read words with
  | error e => exact ⟨true, .nil true, by simp⟩
  | ok request =>
    cases request with
    | help => exact ⟨true, .nil true, by simp⟩
    | run a =>
      refine ⟨a.mute, balanced_start w a, fun a' same => ?_⟩
      obtain rfl : a = a' := by simpa using same
      rfl

theorem count_play_before {words : List String} {w : World} {st : Start}
    (h : start? words w = some st) :
    ∃ a, CommandLine.read words = .ok (.run a) ∧
      ∀ k ≤ (run words w).frames,
        (st.before w k).calls <+: (run words w).calls ∧
        (st.before w k).calls.count .play = (st.before w k).calls.count .stop +
          if (!a.mute && w.device.isSome) = true ∧ (st.before w k).machine.timers.sound ≠ 0 then 1
          else 0 := by
  obtain ⟨a, read, started⟩ := startWith?_of_start? h
  obtain ⟨setUp, inTune, quiet, -⟩ := inTune_of_startWith? started
  obtain ⟨n, ending, -, frames, report⟩ := run_of_start? h
  refine ⟨a, read, fun k hk => ⟨?_, (inTune.after st.pace ((script w).take k)).count_play quiet⟩⟩
  have earlier : k ≤ n + 1 := by
    rw [report] at hk
    calc
      k ≤ (st.before w (n + 1)).frames := hk
      _ = n + 1 := frames
  have sofar := st.session.calls_before st.pace (script w) earlier
  rw [report]
  exact sofar.trans (List.prefix_append _ _)

/-- Plays and stops alternate from the first play to the last stop, in every run of the program, and between
frames a play is outstanding just where the sound timer is not zero. A program that is mute does not ask the
device for anything. A beeper alone, at any sequence of starts and stops, asks for a play at the starts that
find it not playing and for a stop at the stops that find it playing, if it has a sound. -/
theorem audio_balanced (words : List String) (w : World) :
    let r := run words w
    let tones := r.calls.filter DeviceCall.isTone
    (∀ (k : Nat) (inside : k < tones.length), tones[k] = if k % 2 = 0 then .play else .stop) ∧
    r.calls.count .play = r.calls.count .stop ∧
    (∀ a, CommandLine.read words = .ok (.run a) → a.mute = true → r.calls = []) ∧
    (∀ st, start? words w = some st → ∃ a, CommandLine.read words = .ok (.run a) ∧
      ∀ k ≤ r.frames,
        let s := st.before w k
        s.calls <+: r.calls ∧
        s.calls.count .play = s.calls.count .stop +
          if (!a.mute && w.device.isSome) = true ∧ s.machine.timers.sound ≠ 0 then 1 else 0) ∧
    (∀ frequency muted ready device library room b calls log,
      Beeper.connect frequency muted ready device library room = .ok (b, calls, log) →
        b = ⟨!muted && device.isSome, false⟩ ∧ calls.filter DeviceCall.isTone = []) ∧
    (∀ b : Beeper, b.hasSound = false → ∀ es, (b.hearAll es).2 = []) ∧
    ∀ (b : Beeper) (es : List SoundEdge) (e : SoundEdge),
      b.hearAll (es ++ [e]) =
        (⟨b.hasSound, decide (e = .start)⟩,
          (b.hearAll es).2 ++
            if b.hasSound = true ∧ e = .start ∧ (b.hearAll es).1.playing = false then [.play]
            else if b.hasSound = true ∧ e = .stop ∧ (b.hearAll es).1.playing = true then [.stop]
            else []) := by
  intro r tones
  obtain ⟨mute, balanced, muted⟩ := balanced_run words w
  refine ⟨balanced.getElem, balanced.count, ?_, ?_, ?_, ?_, ?_⟩
  · intro a read silent
    exact balanced.nil_of_mute ((muted a read).trans silent)
  · intro st started
    exact count_play_before started
  · intro frequency muted ready device library room b calls log connected
    obtain ⟨beeper, quiet, -⟩ := connect_of_ok connected
    exact ⟨beeper, quiet⟩
  · intro b silent es
    exact hearAll_of_silent silent es
  · intro b es e
    exact b.hearAll_concat es e

end Program

namespace Machine

section Beeping

/-- A program that sets VF, starts the tone, and returns from no call. -/
def beeping : List UInt8 := [0x6F, 0x02, 0xFF, 0x18, 0x00, 0xEE]

def prepared : Machine :=
  { (loaded beeping) with
    registers := { ((loaded beeping).registers.set (.last 15) 2) with pc := 0x202 }
    cycles := 1 }

def beeped : Machine :=
  { prepared with registers.pc := 0x204, timers.sound := 2, cycles := 2 }

theorem cycle_beeping :
    (loaded beeping).cycle = .done prepared [.executed 0x200 (decode 0x6F02)] :=
  (cycle_of_opcode rfl (by decide) (wordAt_loaded beeping (by decide) 0 (by decide)) rfl).trans rfl

theorem cycle_prepared :
    prepared.cycle = .done beeped [.sound .start, .executed 0x202 (decode 0xFF18)] := by
  have memory : prepared.memory = (loaded beeping).memory := by simp only [prepared]
  have opcode : prepared.opcode = 0xFF18 :=
    (wordAt_of_memory memory 0x202).trans (wordAt_loaded beeping (by decide) 2 (by decide))
  exact (cycle_of_opcode rfl (by decide) opcode rfl).trans rfl

theorem cycle_beeped :
    beeped.cycle =
      ⟨beeped.fetched.halt .stackUnderflow, [.halted .stackUnderflow],
        .error (.fault .stackUnderflow)⟩ := by
  have memory : beeped.memory = (loaded beeping).memory := by simp only [beeped, prepared]
  have opcode : beeped.opcode = 0x00EE :=
    (wordAt_of_memory memory 0x204).trans (wordAt_loaded beeping (by decide) 4 (by decide))
  have fails : beeped.executed.answer = .error .stackUnderflow := by
    rw [executed, instruction, opcode]
    rfl
  have inside : InProgram 0x204 := by decide
  exact cycle_of_fault rfl inside fails

theorem frame_beeping :
    ((loaded beeping).frame 3).machine = beeped.fetched.halt .stackUnderflow := by
  have succeeded (m : Machine) (events : List Event) (next : Machine → Outcome Failure Unit) :=
    Outcome.andThen_of_ok next (Outcome.answer_done m events)
  rw [frame, show Int.toNat 3 = 0 + 1 + 1 + 1 from rfl, times, cycle_beeping, succeeded,
    Outcome.machine_done, times, cycle_prepared, succeeded, Outcome.machine_done, times, cycle_beeped]
  rfl

end Beeping

end Machine

namespace Program

theorem sound_beeping {s : Session} (machine : s.machine = Machine.loaded Machine.beeping) :
    (s.before 3 [[.quit]] 1).machine.timers.sound = 2 := by
  have frame : (s.machine.frameWith 3 [.quit]).machine =
      Machine.beeped.fetched.halt .stackUnderflow := by
    rw [machine]
    exact Machine.frame_beeping
  have ran : (s.before 3 [[.quit]] 1).machine.timers = (s.ran 3 [.quit]).machine.timers := by
    change (s.frame 3 [.quit]).1.machine.timers = _
    rcases s.frame_fst 3 [.quit] with painted | eq
    · rw [(Session.refreshed_of_ok painted).machine]
    · rw [eq]
  rw [ran, Session.machine_ran, frame]
  rfl

theorem audio_balanced_crash :
    let r := run ["-f", "r", "-s", "180"] (worldWith Machine.beeping [])
    .play ∈ r.calls ∧ r.calls.count .play = r.calls.count .stop := by
  intro r
  have read : CommandLine.read ["-f", "r", "-s", "180"] =
      .ok (.run ⟨some "r", some 180, some 15, false⟩) := rfl
  obtain ⟨s, starts, machine, -⟩ := exists_starts_worldWith 180 Machine.beeping [] (by decide)
  have starts' := starts.startWith?
  generalize s.absorb (s.machine.loadRom Machine.beeping Parameters.programStart) = session
    at machine starts'
  have started : start? ["-f", "r", "-s", "180"] (worldWith Machine.beeping []) =
      some ⟨"r", 3, session⟩ := by
    simp only [start?, read, starts']
    rfl
  obtain ⟨-, balanced, -, outstanding, -⟩ :=
    audio_balanced ["-f", "r", "-s", "180"] (worldWith Machine.beeping [])
  obtain ⟨a, read', frames⟩ := outstanding _ started
  obtain rfl : a = ⟨some "r", some 180, some 15, false⟩ := by simpa [read, eq_comm] using read'
  obtain ⟨n, ending, -, begun, report⟩ := run_of_start? started
  have some_frame : 1 ≤ r.frames := by
    calc
      1 ≤ n + 1 := Nat.le_add_left 1 n
      _ = r.frames := by simp only [r, report]; exact begun.symm
  obtain ⟨sofar, count⟩ := frames 1 some_frame
  have sound : ((⟨"r", 3, session⟩ : Start).before (worldWith Machine.beeping []) 1).machine.timers.sound =
      2 := sound_beeping machine
  rw [sound, if_pos ⟨rfl, by decide⟩] at count
  exact ⟨sofar.subset (List.count_pos_iff.mp (by omega)), balanced⟩

end Program

end ChipEight

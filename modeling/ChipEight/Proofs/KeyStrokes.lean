import ChipEight.Proofs.Frames

/-!
The keypad after events at the keyboard. Each keypad key shows the last event that was for it, in whatever
batches the events came, and is as it was before if there was none.
-/

namespace ChipEight

theorem nibble_eq_iff (v : Int) (k : Fin 16) : nibble v = k ↔ v % 16 = k.val := by
  rw [Fin.ext_iff, val_nibble]
  omega

def KeyEvent.goesDown : KeyEvent → Bool
  | down _ => true
  | quit | other | up _ => false

namespace Keyboard

/-- Whether a key of the keyboard stands for the keypad key. Of its number the lowest four bits count. -/
def StandsFor (layout : KeyLayout) (k : Key) (key : Fin 16) : Prop :=
  ∃ target, layout.lookup k = some target ∧ target % 16 = key.val

theorem standsFor_iff_of_lookup {layout : KeyLayout} {k : Key} {target : Int}
    (mapped : layout.lookup k = some target) (key : Fin 16) :
    StandsFor layout k key ↔ nibble target = key := by
  simp [StandsFor, mapped, nibble_eq_iff]

theorem not_standsFor_of_lookup {layout : KeyLayout} {k : Key} (unmapped : layout.lookup k = none)
    (key : Fin 16) : ¬ StandsFor layout k key := by
  simp [StandsFor, unmapped]

instance (layout : KeyLayout) (k : Key) (key : Fin 16) : Decidable (StandsFor layout k key) :=
  match mapped : layout.lookup k with
  | some _ => decidable_of_iff' _ (standsFor_iff_of_lookup mapped key)
  | none => isFalse (not_standsFor_of_lookup mapped key)

/-- Whether the event is for the keypad key. The key that quits is for none when it goes down. -/
def Strikes (layout : KeyLayout) (key : Fin 16) : KeyEvent → Prop
  | .quit | .other => False
  | .down k => k ≠ quitKey ∧ StandsFor layout k key
  | .up k => StandsFor layout k key

instance (layout : KeyLayout) (key : Fin 16) : DecidablePred (Strikes layout key)
  | .quit | .other => inferInstanceAs (Decidable False)
  | .down _ => inferInstanceAs (Decidable (_ ∧ _))
  | .up k => inferInstanceAs (Decidable (StandsFor layout k key))

theorem isDown_handle (layout : KeyLayout) (pad : Keypad) (e : KeyEvent) (key : Fin 16) :
    (handle layout pad e).1.isDown key =
      if Strikes layout key e then e.goesDown else pad.isDown key := by
  cases e with
  | quit | other => rfl
  | down k =>
    by_cases quits : k = quitKey
    · simp [handle, Strikes, quits]
    · cases mapped : layout.lookup k with
      | none => simp [handle, Strikes, quits, mapped, not_standsFor_of_lookup mapped]
      | some target =>
        simp [handle, Strikes, quits, mapped, standsFor_iff_of_lookup mapped, Keypad.press,
          Keypad.isDown_set, KeyEvent.goesDown]
  | up k =>
    cases mapped : layout.lookup k with
    | none => simp [handle, Strikes, mapped, not_standsFor_of_lookup mapped]
    | some target =>
      simp [handle, Strikes, mapped, standsFor_iff_of_lookup mapped, Keypad.release,
        Keypad.isDown_set, KeyEvent.goesDown]

def handleAll (layout : KeyLayout) (pad : Keypad) (events : List KeyEvent) : Keypad :=
  events.foldl (fun pad e => (handle layout pad e).1) pad

def pollAll (layout : KeyLayout) (pad : Keypad) (batches : List (List KeyEvent)) : Keypad :=
  batches.foldl (fun pad events => (poll layout pad events).1) pad

theorem poll_fst (layout : KeyLayout) (pad : Keypad) (events : List KeyEvent) :
    (poll layout pad events).1 = handleAll layout pad events := by
  induction events generalizing pad with
  | nil => rfl
  | cons e rest ih => exact ih (handle layout pad e).1

theorem handleAll_append (layout : KeyLayout) (pad : Keypad) (xs ys : List KeyEvent) :
    handleAll layout pad (xs ++ ys) = handleAll layout (handleAll layout pad xs) ys :=
  List.foldl_append

theorem pollAll_eq (layout : KeyLayout) (pad : Keypad) (batches : List (List KeyEvent)) :
    pollAll layout pad batches = handleAll layout pad batches.flatten := by
  induction batches generalizing pad with
  | nil => rfl
  | cons events rest ih =>
    rw [List.flatten_cons, handleAll_append, ← ih, ← poll_fst]
    rfl

theorem isDown_handleAll (layout : KeyLayout) (pad : Keypad) (events : List KeyEvent) (key : Fin 16) :
    (handleAll layout pad events).isDown key =
      ((events.filter (Strikes layout key)).getLast?.map KeyEvent.goesDown).getD (pad.isDown key) := by
  -- the last event for the key decides, so the others are passed on as the pad before it
  induction events generalizing pad with
  | nil => rfl
  | cons e rest ih =>
    have step : handleAll layout pad (e :: rest) = handleAll layout (handle layout pad e).1 rest := rfl
    rw [step, ih, isDown_handle]
    by_cases strikes : Strikes layout key e
    · rw [List.filter_cons_of_pos (by simpa using strikes), List.getLast?_cons, if_pos strikes]
      cases (rest.filter (Strikes layout key)).getLast? <;> rfl
    · rw [List.filter_cons_of_neg (by simpa using strikes), if_neg strikes]

theorem isDown_handleAll_iff (layout : KeyLayout) (pad : Keypad) (events : List KeyEvent)
    (key : Fin 16) :
    (handleAll layout pad events).isDown key = true ↔
      (∃ k, (events.filter (Strikes layout key)).getLast? = some (.down k)) ∨
        (∀ e ∈ events, ¬ Strikes layout key e) ∧ pad.isDown key = true := by
  have none_iff : (events.filter (Strikes layout key)).getLast? = none ↔
      ∀ e ∈ events, ¬ Strikes layout key e := by
    simp
  rw [isDown_handleAll, ← none_iff]
  cases last : (events.filter (Strikes layout key)).getLast? with
  | none => simp
  | some e => cases e <;> simp [KeyEvent.goesDown]

theorem handle_of_inert (layout : KeyLayout) (pad : Keypad) {e : KeyEvent}
    (inert : e.AsksToQuit ∨ e = .other ∨
      ∃ k, layout.lookup k = none ∧ (e = .down k ∨ e = .up k)) : (handle layout pad e).1 = pad := by
  rcases inert with (rfl | rfl) | rfl | ⟨k, unmapped, rfl | rfl⟩
  · rfl
  · rfl
  · rfl
  · simp only [handle, unmapped]
    split <;> rfl
  · simp only [handle, unmapped]

theorem poll_goOn_iff (layout : KeyLayout) (pad : Keypad) (events : List KeyEvent) :
    (poll layout pad events).2 = true ↔ .quit ∉ events ∧ .down quitKey ∉ events := by
  rw [poll_goOn, decide_eq_true_iff]
  simp only [KeyEvent.AsksToQuit, not_or]
  constructor
  · intro unasked
    exact ⟨fun mem => (unasked _ mem).1 rfl, fun mem => (unasked _ mem).2 rfl⟩
  · rintro ⟨quit, escape⟩ e mem
    exact ⟨fun h => quit (h ▸ mem), fun h => escape (h ▸ mem)⟩

theorem poll_fst_of_quit (layout : KeyLayout) (pad : Keypad) {e : KeyEvent} (asks : e.AsksToQuit)
    (before behind : List KeyEvent) :
    (poll layout pad (before ++ e :: behind)).1 = (poll layout pad (before ++ behind)).1 := by
  rw [poll_fst, poll_fst, handleAll_append, handleAll_append]
  exact congrArg (handleAll layout · behind) (handle_of_inert layout _ (.inl asks))

section Default

theorem mem_of_lookup {layout : KeyLayout} {k : Key} {target : Int}
    (mapped : layout.lookup k = some target) : (k, target) ∈ layout := by
  obtain ⟨before, behind, rfl, -⟩ := List.lookup_eq_some_iff.mp mapped
  simp

theorem defaultLayout_range {k : Key} {target : Int} (mapped : defaultLayout.lookup k = some target) :
    0 ≤ target ∧ target ≤ 15 := by
  have all : ∀ p ∈ defaultLayout, 0 ≤ p.2 ∧ p.2 ≤ 15 := by decide
  exact all _ (mem_of_lookup mapped)

theorem defaultLayout_injective {k k' : Key} {target : Int}
    (mapped : defaultLayout.lookup k = some target) (mapped' : defaultLayout.lookup k' = some target) :
    k' = k := by
  have all : ∀ p ∈ defaultLayout, ∀ q ∈ defaultLayout, p.2 = q.2 → p.1 = q.1 := by decide
  exact all _ (mem_of_lookup mapped') _ (mem_of_lookup mapped) rfl

theorem defaultLayout_surjective :
    ∀ key : Fin 16, ∃ p ∈ defaultLayout, defaultLayout.lookup p.1 = some (key.val : Int) := by
  decide

theorem defaultLayout_quitKey : defaultLayout.lookup quitKey = none := by
  decide

theorem strikes_defaultLayout_iff {k : Key} {key : Fin 16}
    (mapped : defaultLayout.lookup k = some (key.val : Int)) (e : KeyEvent) :
    Strikes defaultLayout key e ↔ e = .down k ∨ e = .up k := by
  have stands (k' : Key) : StandsFor defaultLayout k' key ↔ k' = k := by
    constructor
    · rintro ⟨target, mapped', same⟩
      have range := defaultLayout_range mapped'
      have exact : target = key.val := by omega
      exact defaultLayout_injective mapped (exact ▸ mapped')
    · rintro rfl
      exact ⟨key.val, mapped, by omega⟩
  have stays : k ≠ quitKey := by
    rintro rfl
    simp [defaultLayout_quitKey] at mapped
  cases e with
  | quit | other => simp [Strikes]
  | down k' =>
    simp only [Strikes, stands, KeyEvent.down.injEq, reduceCtorEq, or_false]
    exact ⟨And.right, fun same => ⟨same ▸ stays, same⟩⟩
  | up k' => simp [Strikes, stands]

theorem isDown_handleAll_default {k : Key} {key : Fin 16}
    (mapped : defaultLayout.lookup k = some (key.val : Int)) (pad : Keypad) (events : List KeyEvent) :
    let own := events.filter fun e => e = .down k ∨ e = .up k
    (handleAll defaultLayout pad events).isDown key = true ↔
      own.getLast? = some (.down k) ∨ own = [] ∧ pad.isDown key = true := by
  intro own
  have strikes := strikes_defaultLayout_iff mapped
  have same : events.filter (Strikes defaultLayout key) = own :=
    List.filter_congr fun e _ => decide_eq_decide.mpr (strikes e)
  have last : (∃ k', own.getLast? = some (.down k')) ↔ own.getLast? = some (.down k) := by
    refine ⟨?_, fun found => ⟨k, found⟩⟩
    rintro ⟨k', found⟩
    have mem : .down k' ∈ own := List.mem_of_getLast? found
    have isOwn : k' = k := by simpa [own] using (List.mem_filter.mp mem).2
    rwa [isOwn] at found
  have none : (∀ e ∈ events, ¬ Strikes defaultLayout key e) ↔ own = [] := by
    simp only [← same, List.filter_eq_nil_iff, decide_eq_true_eq]
  rw [isDown_handleAll_iff, same, last, none]

end Default

/-- A keypad key is down after events, however they are divided into batches, if the last event for it was
a key that went down, or if it was down before and there was no such event. Other events change nothing.
A batch is polled to its end, and tells whether nobody asked to quit in it. In the default layout one key
of the keyboard stands for each key of the keypad, and its last event decides. -/
theorem keypad_follows_strokes :
    (∀ layout pad (batches : List (List KeyEvent)),
      pollAll layout pad batches = handleAll layout pad batches.flatten) ∧
    (∀ layout pad (batches : List (List KeyEvent)) (key : Fin 16),
      (pollAll layout pad batches).isDown key = true ↔
        (∃ k, (batches.flatten.filter (Strikes layout key)).getLast? = some (.down k)) ∨
          (∀ e ∈ batches.flatten, ¬ Strikes layout key e) ∧ pad.isDown key = true) ∧
    (∀ (layout : KeyLayout) (pad : Keypad) (e : KeyEvent),
      (e.AsksToQuit ∨ e = .other ∨ ∃ k, layout.lookup k = none ∧ (e = .down k ∨ e = .up k)) →
        (handle layout pad e).1 = pad) ∧
    (∀ layout pad events, (poll layout pad events).2 = true ↔ .quit ∉ events ∧ .down quitKey ∉ events) ∧
    (∀ layout pad before behind, ∀ e : KeyEvent, e.AsksToQuit →
      (poll layout pad (before ++ e :: behind)).1 = (poll layout pad (before ++ behind)).1) ∧
    (∀ k target, defaultLayout.lookup k = some target → 0 ≤ target ∧ target ≤ 15) ∧
    ∀ key : Fin 16, ∃ k, (∀ k', defaultLayout.lookup k' = some (key.val : Int) ↔ k' = k) ∧
      ∀ pad (batches : List (List KeyEvent)),
        let own := batches.flatten.filter fun e => e = .down k ∨ e = .up k
        (pollAll defaultLayout pad batches).isDown key = true ↔
          own.getLast? = some (.down k) ∨ own = [] ∧ pad.isDown key = true := by
  refine ⟨pollAll_eq, ?_, fun layout pad e => handle_of_inert layout pad, poll_goOn_iff, ?_, ?_, ?_⟩
  · intro layout pad batches key
    rw [pollAll_eq, isDown_handleAll_iff]
  · intro layout pad before behind e asks
    exact poll_fst_of_quit layout pad asks before behind
  · intro k target
    exact defaultLayout_range
  · intro key
    obtain ⟨⟨k, target⟩, -, mapped⟩ := defaultLayout_surjective key
    refine ⟨k, fun k' => ⟨?_, fun same => same ▸ mapped⟩, ?_⟩
    · exact fun mapped' => defaultLayout_injective mapped mapped'
    · intro pad batches
      rw [pollAll_eq]
      exact isDown_handleAll_default mapped pad batches.flatten

theorem keypad_follows_strokes_quit :
    let e : List KeyEvent := [.down ⟨"q"⟩] ++ .quit :: [.down ⟨"x"⟩]
    ¬ (poll defaultLayout .released e).2 = true ∧
      (poll defaultLayout .released e).1 =
        (poll defaultLayout .released ([.down ⟨"q"⟩] ++ [.down ⟨"x"⟩])).1 ∧
      (pollAll defaultLayout .released [e]).isDown 0 = true := by
  intro e
  obtain ⟨-, last, -, goOn, behind, -⟩ := keypad_follows_strokes
  refine ⟨?_, behind _ _ _ _ _ (.inl rfl), ?_⟩
  · exact fun goesOn => ((goOn _ _ _).mp goesOn).1 (by decide)
  · rw [last]
    exact .inl ⟨⟨"x"⟩, by decide⟩

end Keyboard

end ChipEight

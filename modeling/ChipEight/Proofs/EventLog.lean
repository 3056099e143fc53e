import ChipEight.Event

/-!
Which lines of a log come from which events. A line of the processor tells by its level what it is about:
an executed instruction is told at the lowest level, an opcode without a meaning as a warning, and a fault
at neither of the two.
-/

namespace ChipEight

open Text

namespace Event

def executed? : Event → Option (Int × Instruction)
  | executed address i => some (address, i)
  | _ => none

def unknown? : Event → Option UnknownOpcode
  | unknown u => some u
  | _ => none

end Event

namespace LogLine

def trace (address : Int) (assembly : String) : LogLine :=
  ⟨.debug, .cpu, "mem_addr: 0x" ++ hex 4 address ++ "    instruction: " ++ assembly⟩

def warning (u : UnknownOpcode) : LogLine :=
  ⟨.warning, .cpu, u.message⟩

def ofProcessor (level : Level) (ls : List LogLine) : List LogLine :=
  ls.filter fun l => l.level = level ∧ l.channel = .cpu

end LogLine

theorem logOf_debug (es : List Event) : logOf .debug es = es.map Event.line := by
  simp [logOf, LogLine.atLeast, Level.rank]

theorem filter_logOf {least : Level} {kind : LogLine → Bool} {told : Event → Option LogLine}
    (loud : ∀ l, kind l = true → least.rank ≤ l.level.rank)
    (told_eq : ∀ e, told e = if kind e.line then some e.line else none) (es : List Event) :
    (logOf least es).filter kind = es.filterMap told := by
  have kept : (logOf least es).filter kind = (es.map Event.line).filter kind := by
    rw [logOf, LogLine.atLeast, List.filter_filter]
    refine List.filter_congr fun l _ => ?_
    cases shown : kind l with
    | false => rfl
    | true => simp [loud l shown]
  have lines : (es.map Event.line).filter kind = es.filterMap told := by
    rw [List.filter_map, ← List.filterMap_eq_filter, List.map_filterMap]
    congr 1
    funext e
    rw [told_eq]
    by_cases shown : kind e.line = true <;> simp [shown, Option.guard]
  exact kept.trans lines

theorem haltLevel_ne (f : Fault) : Event.haltLevel f ≠ .debug ∧ Event.haltLevel f ≠ .warning := by
  cases f <;> exact ⟨nofun, nofun⟩

theorem logOf_trace (es : List Event) :
    LogLine.ofProcessor .debug (logOf .debug es) =
      (es.filterMap Event.executed?).map fun e => LogLine.trace e.1 e.2.listing := by
  rw [List.map_filterMap]
  apply filter_logOf
  · intro l _
    exact Nat.zero_le _
  · intro e
    cases e with
    | halted f => simp [Event.executed?, Event.line, (haltLevel_ne f).1]
    | sound | executed | unknown | loaded => rfl

theorem logOf_warnings {least : Level} (shown : least.rank ≤ Level.warning.rank) (es : List Event) :
    LogLine.ofProcessor .warning (logOf least es) =
      (es.filterMap Event.unknown?).map LogLine.warning := by
  rw [List.map_filterMap]
  apply filter_logOf
  · intro l warns
    obtain ⟨level, -⟩ := of_decide_eq_true warns
    rwa [level]
  · intro e
    cases e with
    | halted f => simp [Event.unknown?, Event.line, (haltLevel_ne f).2]
    | sound | executed | unknown | loaded => rfl

end ChipEight

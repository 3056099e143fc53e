import ChipEight.UnknownTally

/-!
A tally told by what was met. After any list of sights it has an entry for each opcode in it, at the place of
the first sight, and the number in the entry is that of all sights.
-/

namespace ChipEight

namespace UnknownTally

def keys (t : UnknownTally) : List UnknownOpcode :=
  t.entries.map Prod.fst

theorem contains_iff (t : UnknownTally) (u : UnknownOpcode) : t.contains u = true ↔ u ∈ t.keys := by
  simp [contains, keys]

theorem record_of_mem {t : UnknownTally} {u : UnknownOpcode} (met : u ∈ t.keys) :
    t.record u = ⟨t.entries.map fun e => (e.1, if e.1 = u then e.2 + 1 else e.2)⟩ := by
  rw [record, if_pos ((t.contains_iff u).mpr met)]
  congr 1
  refine List.map_congr_left fun e _ => ?_
  by_cases same : e.1 = u <;> simp [same]

theorem record_of_not_mem {t : UnknownTally} {u : UnknownOpcode} (new : u ∉ t.keys) :
    t.record u = ⟨t.entries ++ [(u, 1)]⟩ :=
  if_neg fun h => new ((t.contains_iff u).mp h)

theorem keys_record (t : UnknownTally) (u : UnknownOpcode) :
    (t.record u).keys = t.keys ++ if t.contains u then [] else [u] := by
  by_cases met : u ∈ t.keys
  · rw [if_pos ((t.contains_iff u).mpr met), record_of_mem met]
    simp [keys]
  · rw [if_neg fun h => met ((t.contains_iff u).mp h), record_of_not_mem met]
    simp [keys]

theorem lookup_isSome_iff (t : UnknownTally) (u : UnknownOpcode) :
    (t.entries.lookup u).isSome ↔ u ∈ t.keys := by
  simp only [List.lookup_isSome_iff, beq_iff_eq, keys, List.mem_map, @eq_comm _ u]

theorem lookup_map_snd (entries : List (UnknownOpcode × Nat)) (f : UnknownOpcode → Nat → Nat)
    (u : UnknownOpcode) :
    (entries.map fun e => (e.1, f e.1 e.2)).lookup u = (entries.lookup u).map (f u) := by
  induction entries with
  | nil => rfl
  | cons e rest ih =>
    obtain ⟨v, n⟩ := e
    by_cases same : u = v
    · simp [same]
    · have other : (u == v) = false := beq_false_of_ne same
      simp [List.lookup_cons, other, ih]

theorem count_record (t : UnknownTally) (u v : UnknownOpcode) :
    (t.record u).count v = t.count v + [u].count v := by
  by_cases met : u ∈ t.keys
  · have changed := lookup_map_snd t.entries (fun w n => if w = u then n + 1 else n) v
    rw [record_of_mem met, count, changed, count]
    by_cases same : v = u
    · obtain ⟨n, found⟩ := Option.isSome_iff_exists.mp ((t.lookup_isSome_iff u).mpr met)
      simp [same, found]
    · simp [same, Ne.symm same]
  · rw [record_of_not_mem met, count, count, List.lookup_append]
    by_cases same : v = u
    · have missing : t.entries.lookup u = none := by
        rw [← Option.not_isSome_iff_eq_none, lookup_isSome_iff]
        exact met
      simp [same, missing]
    · have other : (v == u) = false := beq_false_of_ne same
      simp [List.lookup_cons, other, Ne.symm same]

theorem total_cons (e : UnknownOpcode × Nat) (rest : List (UnknownOpcode × Nat)) :
    total ⟨e :: rest⟩ = e.2 + total ⟨rest⟩ := rfl

theorem total_append_one (entries : List (UnknownOpcode × Nat)) (u : UnknownOpcode) :
    total ⟨entries ++ [(u, 1)]⟩ = total ⟨entries⟩ + 1 := by
  induction entries with
  | nil => rfl
  | cons e rest ih => rw [List.cons_append, total_cons, total_cons, ih, Nat.add_assoc]

theorem total_raised {u : UnknownOpcode} {entries : List (UnknownOpcode × Nat)}
    (nodup : (entries.map Prod.fst).Nodup) (met : u ∈ entries.map Prod.fst) :
    total ⟨entries.map fun e => (e.1, if e.1 = u then e.2 + 1 else e.2)⟩ = total ⟨entries⟩ + 1 := by
  induction entries with
  | nil => cases met
  | cons e rest ih =>
    simp only [List.map_cons, List.nodup_cons, List.mem_cons] at nodup met
    rw [List.map_cons, total_cons, total_cons]
    by_cases same : e.1 = u
    · have others : rest.map (fun e => (e.1, if e.1 = u then e.2 + 1 else e.2)) = rest := by
        refine (List.map_congr_left fun e' mem => ?_).trans (List.map_id rest)
        have other : e'.1 ≠ u := fun again => nodup.1 (List.mem_map.mpr ⟨e', mem, again.trans same.symm⟩)
        rw [if_neg other]
        rfl
      rw [others, if_pos same]
      omega
    · rw [ih nodup.2 (met.resolve_left (Ne.symm same)), if_neg same]
      omega

theorem total_record {t : UnknownTally} (nodup : t.keys.Nodup) (u : UnknownOpcode) :
    (t.record u).total = t.total + 1 := by
  by_cases met : u ∈ t.keys
  · rw [record_of_mem met]
    exact total_raised nodup met
  · rw [record_of_not_mem met]
    exact total_append_one t.entries u

/-- The tally of a list of opcodes: an entry for each of them, in the order in which they are first found
in the list, with the number of times that they are found. -/
structure Tallies (t : UnknownTally) (met : List UnknownOpcode) : Prop where
  keys : t.keys = met.eraseDups
  nodup : t.keys.Nodup
  count : ∀ u, t.count u = met.count u
  total : t.total = met.length

theorem tallies_empty : empty.Tallies [] :=
  ⟨rfl, List.nodup_nil, fun _ => rfl, rfl⟩

theorem Tallies.contains_iff {t : UnknownTally} {met : List UnknownOpcode} (h : t.Tallies met)
    (u : UnknownOpcode) : t.contains u = true ↔ u ∈ met := by
  rw [t.contains_iff, h.keys, List.mem_eraseDups]

theorem Tallies.record {t : UnknownTally} {met : List UnknownOpcode} (h : t.Tallies met)
    (u : UnknownOpcode) : (t.record u).Tallies (met ++ [u]) where
  keys := by
    rw [keys_record, h.keys, List.eraseDups_append]
    by_cases old : u ∈ met
    · rw [if_pos ((h.contains_iff u).mpr old)]
      simp [List.removeAll, old]
    · rw [if_neg fun c => old ((h.contains_iff u).mp c)]
      simp [List.removeAll, old, List.eraseDups_cons]
  nodup := by
    rw [keys_record]
    by_cases old : t.contains u = true
    · rw [if_pos old, List.append_nil]
      exact h.nodup
    · rw [if_neg old]
      have new : ∀ v ∈ t.keys, v ≠ u := fun v mem same => old ((t.contains_iff u).mpr (same ▸ mem))
      simpa [List.nodup_append] using ⟨h.nodup, new⟩
  count v := by rw [count_record, h.count, List.count_append]
  total := by rw [total_record h.nodup, h.total, List.length_append, List.length_singleton]

theorem Tallies.foldl {t : UnknownTally} {met : List UnknownOpcode} (h : t.Tallies met)
    (us : List UnknownOpcode) : (us.foldl UnknownTally.record t).Tallies (met ++ us) := by
  induction us generalizing t met with
  | nil => rwa [List.append_nil]
  | cons u rest ih =>
    have next := ih (h.record u)
    rwa [List.append_assoc, List.singleton_append] at next

end UnknownTally

end ChipEight

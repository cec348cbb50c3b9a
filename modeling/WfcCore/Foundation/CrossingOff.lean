import Mathlib.Data.List.Nodup

/-!
# Crossing names off a list

A list of names from which the ones in use are crossed off by a blank at their first place.
-/

namespace WfcCore.Foundation

variable {α : Type*} [DecidableEq α] {blank : α} {names used : List α}

/-- The names with a blank in place of those in use. -/
def crossedOff (blank : α) (names used : List α) : List α :=
  names.map fun name => if name ∈ used then blank else name

theorem crossedOff_nil (blank : α) (names : List α) : crossedOff blank names [] = names := by
  simp [crossedOff]

theorem crossedOff_cons_of_mem {first : α} {rest : List α} (already : first ∈ used) :
    crossedOff blank (first :: rest) used = blank :: crossedOff blank rest used := by
  simp [crossedOff, already]

theorem crossedOff_cons_of_notMem {first : α} {rest : List α} (open_ : first ∉ used) :
    crossedOff blank (first :: rest) used = first :: crossedOff blank rest used := by
  simp [crossedOff, open_]

theorem crossedOff_append_of_notMem {name : α} (absent : name ∉ names) :
    crossedOff blank names (used ++ [name]) = crossedOff blank names used := by
  apply List.map_congr_left
  intro other member
  have different : other ≠ name := fun same => absent (same ▸ member)
  simp [different]

/-- To blank the first place with a name crosses that name off. -/
theorem set_findIdx_crossedOff (once : names.Nodup) {name : α} (named : name ≠ blank) :
    (crossedOff blank names used).set ((crossedOff blank names used).findIdx (· == name)) blank =
      crossedOff blank names (used ++ [name]) := by
  induction names with
  | nil => rfl
  | cons first rest ih =>
    obtain ⟨fresh, once⟩ := List.nodup_cons.mp once
    by_cases already : first ∈ used
    · have away : (blank == name) = false := by simp [named.symm]
      rw [crossedOff_cons_of_mem already, crossedOff_cons_of_mem (List.mem_append_left _ already),
        List.findIdx_cons, away, cond_false, List.set_cons_succ, ih once]
    · rw [crossedOff_cons_of_notMem already, List.findIdx_cons]
      by_cases same : first = name
      · subst same
        rw [crossedOff_cons_of_mem (List.mem_append_right _ (List.mem_singleton_self _)),
          crossedOff_append_of_notMem fresh, beq_self_eq_true, cond_true, List.set_cons_zero]
      · have stillOpen : first ∉ used ++ [name] := by simp [already, same]
        have away : (first == name) = false := by simp [same]
        rw [crossedOff_cons_of_notMem stillOpen, away, cond_false, List.set_cons_succ, ih once]

theorem mem_crossedOff_blank (apart : blank ∉ names) :
    blank ∈ crossedOff blank names used ↔ ∃ name ∈ names, name ∈ used := by
  constructor
  · intro member
    obtain ⟨name, listed, same⟩ := List.mem_map.mp member
    by_cases already : name ∈ used
    · exact ⟨name, listed, already⟩
    · rw [if_neg already] at same
      exact (apart (same ▸ listed)).elim
  · rintro ⟨name, listed, already⟩
    exact List.mem_map.mpr ⟨name, listed, if_pos already⟩

theorem notMem_crossedOff {name : α} (absent : name ∉ names) (named : name ≠ blank) :
    name ∉ crossedOff blank names used := by
  intro member
  obtain ⟨other, listed, same⟩ := List.mem_map.mp member
  split at same
  · exact named same.symm
  · exact absent (same ▸ listed)

/-- What is not crossed off. -/
theorem filter_crossedOff (apart : blank ∉ names) :
    (crossedOff blank names used).filter (· != blank) = names.filter (· ∉ used) := by
  induction names with
  | nil => rfl
  | cons first rest ih =>
    obtain ⟨different, apart⟩ := not_or.mp (mt List.mem_cons.mpr apart)
    by_cases already : first ∈ used
    · rw [crossedOff_cons_of_mem already, List.filter_cons_of_neg (by simp), List.filter_cons_of_neg (by simpa),
        ih apart]
    · rw [crossedOff_cons_of_notMem already, List.filter_cons_of_pos (by simpa using Ne.symm different),
        List.filter_cons_of_pos (by simpa), ih apart]

/-! ### Searching for one name -/

theorem set_findIdx_self (entries : List α) (name : α) :
    entries.set (entries.findIdx (· == name)) name = entries := by
  induction entries with
  | nil => rfl
  | cons first rest ih =>
    rw [List.findIdx_cons]
    by_cases same : first = name
    · subst same
      rw [beq_self_eq_true, cond_true, List.set_cons_zero]
    · have away : (first == name) = false := by simp [same]
      rw [away, cond_false, List.set_cons_succ, ih]

theorem find?_same {entries : List α} {name : α} (member : name ∈ entries) :
    entries.find? (· == name) = some name := by
  have hit : (entries.find? (· == name)).isSome := List.find?_isSome.mpr ⟨name, member, beq_self_eq_true name⟩
  obtain ⟨found, first⟩ := Option.isSome_iff_exists.mp hit
  have same : (found == name) = true := List.find?_some (p := (· == name)) first
  rw [first, eq_of_beq same]

theorem find?_absent {entries : List α} {name : α} (absent : name ∉ entries) :
    entries.find? (· == name) = none := by
  refine List.find?_eq_none.mpr fun other member same => ?_
  rw [eq_of_beq same] at member
  exact absent member

end WfcCore.Foundation

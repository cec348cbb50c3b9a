import Mathlib.Data.List.Nodup
import Mathlib.Order.Defs.Unbundled

/-!
# Ordered maps

`std::map` as a list of pairs in the order of the keys.
-/

namespace WfcCore.Foundation

variable {κ β : Type} [BEq κ] [LawfulBEq κ] [LT κ] [DecidableLT κ]

/-- `map[key] = value`. -/
def assign (key : κ) (value : β) : List (κ × β) → List (κ × β)
  | [] => [(key, value)]
  | item :: rest =>
    if key == item.1 then (key, value) :: rest
    else if key < item.1 then (key, value) :: item :: rest
    else item :: assign key value rest

theorem lookup_assign_ne {key other : κ} (different : other ≠ key) (value : β) (map : List (κ × β)) :
    (assign key value map).lookup other = map.lookup other := by
  have away : (other == key) = false := by simp [different]
  induction map with
  | nil => simp [assign, List.lookup_cons, away]
  | cons item rest ih =>
    unfold assign
    split
    · rename_i same
      rw [List.lookup_cons, List.lookup_cons, ← eq_of_beq same]
      simp only [away]
    · split
      · simp only [List.lookup_cons, away]
      · rw [List.lookup_cons, List.lookup_cons, ih]

theorem lookup_assign_self (key : κ) (value : β) (map : List (κ × β)) :
    (assign key value map).lookup key = some value := by
  induction map with
  | nil => simp [assign]
  | cons item rest ih =>
    unfold assign
    split
    · simp
    · rename_i different
      split
      · simp
      · rw [List.lookup_cons, Bool.eq_false_iff.mpr different]
        exact ih

/-- The pairs written into a map one after another. -/
def assignAll (items map : List (κ × β)) : List (κ × β) :=
  items.foldl (fun map item => assign item.1 item.2 map) map

/-- A key has the value written last. -/
theorem lookup_assignAll (key : κ) (items map : List (κ × β)) :
    (assignAll items map).lookup key = (items.reverse.lookup key).or (map.lookup key) := by
  induction items generalizing map with
  | nil => rfl
  | cons item items ih =>
    have step := ih (assign item.1 item.2 map)
    rw [List.reverse_cons, List.lookup_append, Option.or_assoc]
    refine step.trans ?_
    congr 1
    obtain ⟨written, value⟩ := item
    by_cases same : key = written
    · subst same
      simp [lookup_assign_self]
    · have away : (key == written) = false := by simp [same]
      rw [lookup_assign_ne same]
      simp only [List.lookup_cons, away, List.lookup_nil, Option.none_or]

omit [LawfulBEq κ] in
theorem mem_assign {key : κ} {value : β} {map : List (κ × β)} {item : κ × β}
    (member : item ∈ assign key value map) : item = (key, value) ∨ item ∈ map := by
  induction map with
  | nil => exact Or.inl (List.mem_singleton.mp member)
  | cons first rest ih =>
    unfold assign at member
    split at member
    · rcases List.mem_cons.mp member with written | later
      · exact Or.inl written
      · exact Or.inr (List.mem_cons_of_mem _ later)
    · split at member
      · rcases List.mem_cons.mp member with written | kept
        · exact Or.inl written
        · exact Or.inr kept
      · rcases List.mem_cons.mp member with rfl | later
        · exact Or.inr List.mem_cons_self
        · exact (ih later).imp_right (List.mem_cons_of_mem _)

section Sorted

variable [IsStrictTotalOrder κ (· < ·)]

/-- The keys of a map stand in order, each once. -/
def Sorted (map : List (κ × β)) : Prop :=
  map.Pairwise (·.1 < ·.1)

theorem Sorted.assign {map : List (κ × β)} (sorted : Sorted map) (key : κ) (value : β) :
    Sorted (Foundation.assign key value map) := by
  induction map with
  | nil => exact List.pairwise_singleton _ _
  | cons item rest ih =>
    obtain ⟨first, later⟩ := List.pairwise_cons.mp sorted
    unfold Foundation.assign
    split
    · rename_i same
      refine List.pairwise_cons.mpr ⟨?_, later⟩
      intro other member
      rw [eq_of_beq same]
      exact first other member
    · rename_i different
      split
      · rename_i before
        refine List.pairwise_cons.mpr ⟨?_, sorted⟩
        intro other member
        rcases List.mem_cons.mp member with rfl | member
        · exact before
        · exact IsTrans.trans _ _ _ before (first other member)
      · rename_i notBefore
        refine List.pairwise_cons.mpr ⟨?_, ih later⟩
        intro other member
        rcases mem_assign member with rfl | member
        · rcases trichotomous (r := (· < ·)) key item.1 with before | same | after
          · exact (notBefore before).elim
          · exact (different (beq_iff_eq.mpr same)).elim
          · exact after
        · exact first other member

theorem Sorted.assignAll {map : List (κ × β)} (sorted : Sorted map) (items : List (κ × β)) :
    Sorted (Foundation.assignAll items map) := by
  induction items generalizing map with
  | nil => exact sorted
  | cons item items ih => exact ih (sorted.assign item.1 item.2)

/-- A filter that drops the written pair drops its key, wherever the map held it. -/
theorem Sorted.filter_assign {map : List (κ × β)} (sorted : Sorted map) {key : κ} {value : β} {p : κ × β → Bool}
    (dropped : p (key, value) = false) :
    (Foundation.assign key value map).filter p = (map.filter p).filter (·.1 != key) := by
  have kept {rest : List (κ × β)} (away : ∀ other ∈ rest, other.1 ≠ key) :
      (rest.filter p).filter (·.1 != key) = rest.filter p := by
    apply List.filter_eq_self.mpr
    intro other member
    simpa using away other (List.mem_of_mem_filter member)
  induction map with
  | nil => simp [Foundation.assign, dropped]
  | cons item rest ih =>
    obtain ⟨first, later⟩ := List.pairwise_cons.mp sorted
    unfold Foundation.assign
    split
    · rename_i same
      have away : ∀ other ∈ rest, other.1 ≠ key := by
        rintro other member rfl
        exact irrefl_of (· < ·) other.1 (eq_of_beq same ▸ first other member)
      rw [List.filter_cons_of_neg (by simp [dropped]), List.filter_cons]
      split
      · rw [List.filter_cons_of_neg (by simpa using (eq_of_beq same).symm), kept away]
      · rw [kept away]
    · rename_i different
      split
      · rename_i before
        have away : ∀ other ∈ item :: rest, other.1 ≠ key := by
          rintro other member rfl
          rcases List.mem_cons.mp member with rfl | member
          · exact irrefl_of (· < ·) _ before
          · exact irrefl_of (· < ·) _ (IsTrans.trans _ _ _ before (first other member))
        rw [List.filter_cons_of_neg (by simp [dropped]), kept away]
      · have head : item.1 ≠ key := fun same => different (beq_iff_eq.mpr same.symm)
        rw [List.filter_cons, ih later, List.filter_cons]
        split
        · rw [List.filter_cons_of_pos (by simpa using head)]
        · rfl
omit [BEq κ] [LawfulBEq κ] [DecidableLT κ] in
theorem Sorted.keys_nodup {map : List (κ × β)} (sorted : Sorted map) : (map.map Prod.fst).Nodup := by
  refine List.pairwise_map.mpr (sorted.imp ?_)
  intro first later before same
  rw [same] at before
  exact irrefl_of (· < ·) later.1 before

end Sorted

omit [LT κ] [DecidableLT κ] in
/-- With each key once, what a map holds for a key does not depend on the order of the pairs. -/
theorem lookup_eq_some_iff_mem {map : List (κ × β)} (once : (map.map Prod.fst).Nodup) {key : κ} {value : β} :
    map.lookup key = some value ↔ (key, value) ∈ map := by
  induction map with
  | nil => exact iff_of_false (by simp) (by simp)
  | cons item rest ih =>
    obtain ⟨written, own⟩ := item
    obtain ⟨fresh, once⟩ := List.nodup_cons.mp once
    rw [List.lookup_cons, List.mem_cons]
    by_cases same : key = written
    · subst same
      have elsewhere : (key, value) ∉ rest := fun member => fresh (List.mem_map.mpr ⟨_, member, rfl⟩)
      simp [elsewhere, eq_comm]
    · have away : (key == written) = false := by simp [same]
      simp only [away, ih once, Prod.mk.injEq, same, false_and, false_or]

omit [LT κ] [DecidableLT κ] in
theorem filter_key_of_mem {map : List (κ × β)} (once : (map.map Prod.fst).Nodup) {item : κ × β} (member : item ∈ map) :
    map.filter (·.1 == item.1) = [item] := by
  induction map with
  | nil => contradiction
  | cons first rest ih =>
    obtain ⟨fresh, once⟩ := List.nodup_cons.mp once
    rcases List.mem_cons.mp member with rfl | later
    · rw [List.filter_cons_of_pos (by simp)]
      congr 1
      apply List.filter_eq_nil_iff.mpr
      intro other listed same
      exact fresh (List.mem_map.mpr ⟨other, listed, eq_of_beq same⟩)
    · rw [List.filter_cons_of_neg, ih once later]
      intro same
      exact fresh (List.mem_map.mpr ⟨item, later, (eq_of_beq same).symm⟩)

section Extensional

variable [IsStrictTotalOrder κ (· < ·)]

omit [DecidableLT κ] in
/-- A map is known by what it holds for each key. -/
theorem Sorted.ext {map other : List (κ × β)} (sorted : Sorted map) (sorted' : Sorted other)
    (same : ∀ key, map.lookup key = other.lookup key) : map = other := by
  have together (item : κ × β) : item ∈ map ↔ item ∈ other := by
    rw [← lookup_eq_some_iff_mem sorted.keys_nodup, ← lookup_eq_some_iff_mem sorted'.keys_nodup, same]
  have perm := (List.perm_ext_iff_of_nodup (List.Nodup.of_map _ sorted.keys_nodup)
    (List.Nodup.of_map _ sorted'.keys_nodup)).mpr together
  exact perm.eq_of_pairwise (fun first later _ _ before after =>
    (irrefl_of (· < ·) first.1 (IsTrans.trans _ _ _ before after)).elim) sorted sorted'

end Extensional

end WfcCore.Foundation

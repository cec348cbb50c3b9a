import Mathlib.Data.List.GetD
import Mathlib.Data.List.Nodup

/-!
# Store and forward

A relay is handed elements one after another. It passes each on to every live receiver at once, or
keeps it and passes on all it has kept when it is flushed. Receivers are numbered; one that goes
offline stays offline. `fanOut` is the order in which the receivers get one element.
-/

namespace WfcCore.Foundation

structure Relay (α : Type*) where
  handed : List α
  waiting : List α
  received : Nat → List α
  live : Nat → Bool

namespace Relay

variable {α : Type*} (r : Relay α) (a : α) {ok : α → Prop} {base : Nat → List α}

def deliver (as : List α) : Relay α :=
  { r with received := fun j => r.received j ++ if r.live j then as else [] }

def keep : Relay α := { r with handed := r.handed ++ [a], waiting := r.waiting ++ [a] }

def pass : Relay α := { r.deliver [a] with handed := r.handed ++ [a] }

def flush : Relay α := { r.deliver r.waiting with waiting := [] }

def drop (j : Nat) : Relay α := { r with live := fun i => decide (i ≠ j) && r.live i }

/-- Every live receiver has got what was handed over, once and in order, up to what still waits;
no receiver has got anything else. -/
structure Conserved : Prop where
  exactly : ∀ j, r.live j = true → r.received j ++ r.waiting = r.handed
  only : ∀ j, r.received j <+: r.handed

def Waits (ok : α → Prop) : Prop := ∀ a ∈ r.waiting, ok a

/-- All that reached the receivers after they had got `base` is `ok`. -/
def GotSince (ok : α → Prop) (base : Nat → List α) : Prop :=
  ∀ j, ∃ more, r.received j = base j ++ more ∧ ∀ a ∈ more, ok a

theorem deliver_nil : r.deliver [] = r := by
  simp [deliver]

theorem deliver_append (first rest : List α) : r.deliver (first ++ rest) = (r.deliver first).deliver rest := by
  unfold deliver
  congr 1
  funext j
  show _ = (r.received j ++ _) ++ if r.live j then rest else []
  split
  · rw [List.append_assoc]
  · rw [List.append_nil, List.append_nil]

variable {r a}

theorem Conserved.keep (h : r.Conserved) : (r.keep a).Conserved where
  exactly j live := by
    show r.received j ++ (r.waiting ++ [a]) = r.handed ++ [a]
    rw [← List.append_assoc, h.exactly j live]
  only j := (h.only j).trans (List.prefix_append _ _)

theorem Conserved.pass (h : r.Conserved) (nothing : r.waiting = []) : (r.pass a).Conserved := by
  have got : ∀ j, r.live j = true → r.received j = r.handed := by
    intro j live
    rw [← h.exactly j live, nothing, List.append_nil]
  constructor
  · intro j live
    have live : r.live j = true := live
    show (r.received j ++ if r.live j then [a] else []) ++ r.waiting = r.handed ++ [a]
    rw [nothing, List.append_nil, if_pos live, got j live]
  · intro j
    show (r.received j ++ if r.live j then [a] else []) <+: r.handed ++ [a]
    split
    · rename_i live
      simp [got j live]
    · rw [List.append_nil]
      exact (h.only j).trans (List.prefix_append _ _)

theorem Conserved.flush (h : r.Conserved) : r.flush.Conserved := by
  constructor
  · intro j live
    have live : r.live j = true := live
    show (r.received j ++ if r.live j then r.waiting else []) ++ [] = r.handed
    rw [if_pos live, List.append_nil, h.exactly j live]
  · intro j
    show (r.received j ++ if r.live j then r.waiting else []) <+: r.handed
    split
    · rename_i live
      simp [h.exactly j live]
    · rw [List.append_nil]
      exact h.only j

theorem Conserved.drop (h : r.Conserved) (j : Nat) : (r.drop j).Conserved where
  exactly i live := h.exactly i (Bool.and_eq_true_iff.mp live).2
  only := h.only

theorem Waits.keep (h : r.Waits ok) (fine : ok a) : (r.keep a).Waits ok := by
  intro b member
  rcases List.mem_append.mp member with old | new
  · exact h b old
  · rw [List.mem_singleton.mp new]
    exact fine

theorem GotSince.start : r.GotSince ok r.received :=
  fun _ => ⟨[], (List.append_nil _).symm, by simp⟩

theorem GotSince.mono {weaker : α → Prop} (h : r.GotSince ok base) (implies : ∀ a, ok a → weaker a) :
    r.GotSince weaker base := by
  intro j
  obtain ⟨more, eq, good⟩ := h j
  exact ⟨more, eq, fun a member => implies a (good a member)⟩

theorem GotSince.deliver (h : r.GotSince ok base) {as : List α} (fine : ∀ a ∈ as, ok a) :
    (r.deliver as).GotSince ok base := by
  intro j
  obtain ⟨more, eq, good⟩ := h j
  refine ⟨more ++ if r.live j then as else [], ?_, ?_⟩
  · show (r.received j ++ if r.live j then as else []) = _
    rw [eq, List.append_assoc]
  · intro a member
    rcases List.mem_append.mp member with old | new
    · exact good a old
    · split at new
      · exact fine a new
      · contradiction

theorem GotSince.pass (h : r.GotSince ok base) (fine : ok a) : (r.pass a).GotSince ok base := by
  have sent : (r.deliver [a]).GotSince ok base := h.deliver fun b member => by
    rw [List.mem_singleton.mp member]
    exact fine
  exact sent

theorem GotSince.flush (h : r.GotSince ok base) (waits : r.Waits ok) : r.flush.GotSince ok base :=
  h.deliver waits

end Relay

/-! ### Fan-out -/

/-- The order in which numbered receivers get an element: copies go to receivers 1, 2, … and the element itself
goes to receiver 0. -/
def fanOut (count : Nat) : List Nat :=
  if count = 0 then [] else List.range' 1 (count - 1) ++ [0]

theorem mem_fanOut {count j : Nat} : j ∈ fanOut count ↔ j < count := by
  unfold fanOut
  split
  · simp_all
  · rw [List.mem_append, List.mem_range'_1, List.mem_singleton]
    omega

theorem fanOut_nodup (count : Nat) : (fanOut count).Nodup := by
  unfold fanOut
  split
  · exact List.nodup_nil
  · refine List.nodup_append.mpr ⟨List.nodup_range', List.nodup_singleton 0, ?_⟩
    intro j copied i last same
    rw [List.mem_range'_1] at copied
    rw [List.mem_singleton] at last
    omega

/-- Sent once to each live receiver of a list without duplicates, elements reach those receivers and no others. -/
theorem flatMap_filter_once {β : Type*} {indices : List Nat} (distinct : indices.Nodup) (live : Nat → Bool)
    (as : List β) (j : Nat) :
    ((indices.filter live).flatMap fun i => if i = j then as else []) =
      if j ∈ indices ∧ live j = true then as else [] := by
  induction indices with
  | nil => simp
  | cons i rest ih =>
    obtain ⟨fresh, distinct⟩ := List.nodup_cons.mp distinct
    have later := ih distinct
    by_cases here : i = j
    · subst here
      rw [if_neg (fun h => fresh h.1)] at later
      cases up : live i <;> simp [up, later]
    · have elsewhere : j ≠ i := fun h => here h.symm
      cases up : live i <;> simp [up, here, elsewhere, later]

theorem flatMap_fanOut {β : Type*} {live : Nat → Bool} {count : Nat} (numbered : ∀ j, live j = true → j < count)
    (as : List β) (j : Nat) :
    (((fanOut count).filter live).flatMap fun i => if i = j then as else []) = if live j then as else [] := by
  rw [flatMap_filter_once (fanOut_nodup count)]
  cases up : live j with
  | false => simp
  | true => simp [mem_fanOut, numbered j up]

/-- With the receivers listed as live or not, only a listed one is live. -/
theorem lt_of_getD {targets : List Bool} {j : Nat} (live : targets.getD j false = true) : j < targets.length := by
  by_contra out
  rw [List.getD_eq_default _ _ (Nat.le_of_not_lt out)] at live
  contradiction

end WfcCore.Foundation

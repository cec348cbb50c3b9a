import Mathlib.Logic.Basic

/-!
# Working off a sorted list

A round chooses some items, sorts them by a priority and calls them one after the other. At every point of it
the calls made so far begin some sorted order of what was chosen.
-/

namespace WfcCore.Foundation

structure Round (α : Type*) where
  chosen : Option (List α)
  calls : List α

variable {α β : Type*} [LE β] {priority : α → β} {r : Round α} {m : α} {rest : List α}

def Round.fresh : Round α := ⟨none, []⟩

def Round.choose (r : Round α) (items : List α) : Round α := { r with chosen := some items }

def Round.call (r : Round α) (m : α) : Round α := { r with calls := r.calls ++ [m] }

/-- The calls are the beginning of a sorted order of what was chosen, each item of it called once at most. -/
def Round.Ordered (priority : α → β) (r : Round α) : Prop :=
  ∃ rest, (r.calls ++ rest).Perm (r.chosen.getD []) ∧
    (r.calls ++ rest).Pairwise fun a b => priority a ≤ priority b

/-- Every chosen item has been called. -/
def Round.Complete (r : Round α) : Prop := ∃ items, r.chosen = some items ∧ r.calls.Perm items

/-- `rest` is left to call. -/
structure Round.Working (priority : α → β) (r : Round α) (rest : List α) : Prop where
  chosen : ∃ items, r.chosen = some items ∧ (r.calls ++ rest).Perm items
  sorted : (r.calls ++ rest).Pairwise fun a b => priority a ≤ priority b

theorem Round.fresh_ordered : (Round.fresh : Round α).Ordered priority :=
  ⟨[], List.Perm.refl _, List.Pairwise.nil⟩

theorem Round.fresh_working {items order : List α} (all : order.Perm items)
    (sorted : order.Pairwise fun a b => priority a ≤ priority b) :
    (Round.fresh.choose items).Working priority order := ⟨⟨items, rfl, all⟩, sorted⟩

theorem Round.Working.ordered (working : r.Working priority rest) : r.Ordered priority := by
  obtain ⟨items, chosen, all⟩ := working.chosen
  refine ⟨rest, ?_, working.sorted⟩
  rw [chosen]
  exact all

theorem Round.Working.call (working : r.Working priority (m :: rest)) : (r.call m).Working priority rest := by
  obtain ⟨items, chosen, all⟩ := working.chosen
  rw [List.append_cons] at all
  have sorted := working.sorted
  rw [List.append_cons] at sorted
  exact ⟨⟨items, chosen, all⟩, sorted⟩

theorem Round.Working.complete (working : r.Working priority []) : r.Complete := by
  obtain ⟨items, chosen, all⟩ := working.chosen
  rw [List.append_nil] at all
  exact ⟨items, chosen, all⟩

end WfcCore.Foundation

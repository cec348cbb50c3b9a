import Mathlib.Algebra.Order.Group.Basic
import Mathlib.Tactic.Abel

/-!
# Readings of a counter

What a counter gains over a list of readings, and what is seen of it where a reading that equals a mark is
taken for none at all.
-/

namespace WfcCore.Foundation

theorem le_last {α : Type*} [Preorder α] {readings : List α} (rising : readings.Pairwise (· ≤ ·)) {last : α}
    (read : readings.getLast? = some last) : ∀ x ∈ readings, x ≤ last := by
  obtain ⟨before, rfl⟩ := List.getLast?_eq_some_iff.mp read
  intro x member
  rcases List.mem_append.mp member with earlier | here
  · exact (List.pairwise_append.mp rising).2.2 x earlier last (List.mem_singleton_self last)
  · exact le_of_eq (List.mem_singleton.mp here)

variable {α : Type*} [AddCommGroup α]

/-- The last reading minus the first. -/
def gained (readings : List α) : α := readings.getLast?.getD 0 - readings.head?.getD 0

theorem gained_cons_cons (a b : α) (rest : List α) : gained (a :: b :: rest) = b - a + gained (b :: rest) := by
  simp only [gained, List.getLast?_cons_cons, List.head?_cons, Option.getD_some]
  abel

/-- The gains from one reading to the next, where the former is not the mark. -/
def seen [DecidableEq α] (mark : α) : List α → α
  | a :: b :: rest => (if a = mark then 0 else b - a) + seen mark (b :: rest)
  | _ => 0

theorem seen_snoc [DecidableEq α] (mark : α) {readings : List α} {last : α} (read : readings.getLast? = some last) (x : α) :
    seen mark (readings ++ [x]) = seen mark readings + if last = mark then 0 else x - last := by
  induction readings with
  | nil => contradiction
  | cons a rest ih =>
    cases rest with
    | nil =>
      obtain rfl : a = last := Option.some.inj read
      simp [seen]
    | cons b rest =>
      rw [List.getLast?_cons_cons] at read
      simp only [List.cons_append, seen] at ih ⊢
      rw [ih read, add_assoc]

section Ordered

variable [LinearOrder α] [IsOrderedAddMonoid α] {mark : α} {readings : List α}

theorem seen_le_gained (mark : α) (rising : readings.Pairwise (· ≤ ·)) : seen mark readings ≤ gained readings := by
  induction readings with
  | nil => simp [seen, gained]
  | cons a rest ih =>
    cases rest with
    | nil => simp [seen, gained]
    | cons b rest =>
      obtain ⟨low, rising⟩ := List.pairwise_cons.mp rising
      have step : 0 ≤ b - a := sub_nonneg.mpr (low b List.mem_cons_self)
      rw [seen, gained_cons_cons]
      apply add_le_add _ (ih rising)
      split
      · exact step
      · exact le_refl _

/-- All that a rising counter gains is seen unless it leaves the mark. -/
theorem seen_eq_gained_iff (rising : readings.Pairwise (· ≤ ·)) :
    seen mark readings = gained readings ↔ (mark ∈ readings → readings.getLast? = some mark) := by
  induction readings with
  | nil => simp [seen, gained]
  | cons a rest ih =>
    cases rest with
    | nil => simp [seen, gained, eq_comm]
    | cons b rest =>
      obtain ⟨low, later⟩ := List.pairwise_cons.mp rising
      have ih := ih later
      rw [seen, gained_cons_cons, List.getLast?_cons_cons]
      by_cases marked : a = mark
      · subst marked
        have least := low b List.mem_cons_self
        have part := seen_le_gained a later
        rw [if_pos rfl, zero_add]
        constructor
        · intro whole _
          -- The gain of the first step is not negative, and it is not seen.
          have still : b = a := by
            rw [whole, add_le_iff_nonpos_left] at part
            exact le_antisymm (sub_nonpos.mp part) least
          rw [still, sub_self, zero_add] at whole
          rw [still] at ih ⊢
          exact ih.mp whole List.mem_cons_self
        · intro stays
          have last := stays List.mem_cons_self
          have still : b = a := le_antisymm (le_last later last b List.mem_cons_self) least
          rw [ih.mpr fun _ => last, still, sub_self, zero_add]
      · have elsewhere : mark ∈ a :: b :: rest ↔ mark ∈ b :: rest := by simp [Ne.symm marked]
        rw [if_neg marked, add_right_inj, ih, elsewhere]

end Ordered

end WfcCore.Foundation

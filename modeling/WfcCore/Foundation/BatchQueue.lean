import Mathlib.Data.List.Basic

/-!
# A queue emptied in batches

Elements go in one at a time and come out in batches that keep their order. What is inside is known
by `waiting` only; `popAll` is the loop that pops until the queue says it is empty.
-/

namespace WfcCore.Foundation

/-- A queue of `α` popped in batches of type `β`, each made of the elements `parts` lists. -/
structure BatchQueue (α β : Type) (parts : β → List α) where
  State : Type
  empty : State
  push : State → α → State
  pop : State → Option (β × State)
  waiting : State → List α
  waiting_empty : waiting empty = []
  waiting_push : ∀ s a, waiting (push s a) = waiting s ++ [a]
  pop_none : ∀ {s}, pop s = none → waiting s = []
  pop_some : ∀ {s b t}, pop s = some (b, t) → parts b ≠ [] ∧ waiting s = parts b ++ waiting t

namespace BatchQueue

variable {α β : Type} {parts : β → List α} (q : BatchQueue α β parts)

def popUpTo : Nat → q.State → List β × q.State
  | 0, s => ([], s)
  | n + 1, s =>
    match q.pop s with
    | none => ([], s)
    | some (b, t) => (b :: (popUpTo n t).1, (popUpTo n t).2)

/-- Pop until there is nothing left. A batch is never empty, so the elements bound the pops. -/
def popAll (s : q.State) : List β × q.State := q.popUpTo (q.waiting s).length s

theorem popUpTo_waiting (n : Nat) (s : q.State) :
    (q.popUpTo n s).1.flatMap parts ++ q.waiting (q.popUpTo n s).2 = q.waiting s := by
  induction n generalizing s with
  | zero => rfl
  | succ n ih =>
    unfold popUpTo
    split
    · rfl
    · rename_i b t popped
      rw [List.flatMap_cons, List.append_assoc, ih, (q.pop_some popped).2]

theorem popUpTo_empties (n : Nat) (s : q.State) (enough : (q.waiting s).length ≤ n) :
    q.waiting (q.popUpTo n s).2 = [] := by
  induction n generalizing s with
  | zero => exact List.eq_nil_of_length_eq_zero (Nat.le_zero.mp enough)
  | succ n ih =>
    unfold popUpTo
    split
    · rename_i popped
      exact q.pop_none popped
    · rename_i b t popped
      obtain ⟨nonempty, eq⟩ := q.pop_some popped
      have pos := List.length_pos_of_ne_nil nonempty
      rw [eq, List.length_append] at enough
      exact ih t (by omega)

theorem waiting_popAll (s : q.State) : q.waiting (q.popAll s).2 = [] :=
  q.popUpTo_empties _ s (Nat.le_refl _)

theorem popAll_nothing {s : q.State} (nothing : q.waiting s = []) : (q.popAll s).1 = [] := by
  unfold popAll
  rw [nothing]
  rfl

/-- The batches hold what was waiting, once each and in order. -/
theorem popAll_parts (s : q.State) : (q.popAll s).1.flatMap parts = q.waiting s := by
  have all := q.popUpTo_waiting (q.waiting s).length s
  rwa [show q.waiting (q.popUpTo (q.waiting s).length s).2 = [] from q.waiting_popAll s,
    List.append_nil] at all

end BatchQueue

end WfcCore.Foundation

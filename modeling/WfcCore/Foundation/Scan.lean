import Mathlib.Data.List.TakeWhile

/-!
# Scanning a text by positions

A position is looked for from a start, and what stands between two positions is cut out. The lemmas
say what the positions mean for the rest of the text.
-/

namespace WfcCore.Foundation.Scan

section Slice

variable {α : Type}

/-- The part of a text from `beg` up to `stop`, without the place `stop`. -/
def slice (text : List α) (beg stop : Nat) : List α :=
  (text.take stop).drop beg

theorem slice_length (text : List α) (beg : Nat) : slice text beg text.length = text.drop beg := by
  rw [slice, List.take_length]

theorem slice_add (text : List α) (beg place : Nat) :
    slice text beg (beg + place) = (text.drop beg).take place := by
  rw [slice, List.drop_take]
  congr 1
  omega

end Slice

variable {α : Type} [BEq α] [LawfulBEq α]

/-- The first place of `c` at or after `beg`, and nothing where there is none. -/
def find (c : α) (text : List α) (beg : Nat) : Option Nat :=
  ((text.drop beg).findIdx? (· == c)).map (beg + ·)

theorem find_cases {c : α} {text : List α} {beg stop : Nat} (found : find c text beg = some stop) :
    ∃ place, stop = beg + place ∧ ∃ short : place < (text.drop beg).length,
      (text.drop beg)[place] = c ∧ ∀ i (before : i < place), (text.drop beg)[i] ≠ c := by
  obtain ⟨place, hit, rfl⟩ := Option.map_eq_some_iff.mp found
  obtain ⟨short, same, first⟩ := List.findIdx?_eq_some_iff_getElem.mp hit
  refine ⟨place, rfl, short, eq_of_beq same, ?_⟩
  intro i before equal
  apply first i before
  exact beq_iff_eq.mpr equal

theorem find_bounds {c : α} {text : List α} {beg stop : Nat} (found : find c text beg = some stop) :
    beg ≤ stop ∧ stop < text.length := by
  obtain ⟨place, rfl, short, -⟩ := find_cases found
  rw [List.length_drop] at short
  omega

/-- The text from `beg` on is the part before the place found, the character, and the text after it. -/
theorem drop_of_find {c : α} {text : List α} {beg stop : Nat} (found : find c text beg = some stop) :
    text.drop beg = slice text beg stop ++ c :: text.drop (stop + 1) := by
  obtain ⟨-, inside⟩ := find_bounds found
  obtain ⟨place, rfl, short, hit, -⟩ := find_cases found
  rw [List.getElem_drop] at hit
  have split : text.drop (beg + place) = c :: text.drop (beg + place + 1) := by
    rw [List.drop_eq_getElem_cons inside, hit]
  rw [slice_add, ← split, ← List.drop_drop, List.take_append_drop]

theorem notMem_slice_of_find {c : α} {text : List α} {beg stop : Nat} (found : find c text beg = some stop) :
    c ∉ slice text beg stop := by
  obtain ⟨place, rfl, short, -, first⟩ := find_cases found
  intro member
  rw [slice_add] at member
  obtain ⟨i, bound, equal⟩ := List.mem_iff_getElem.mp member
  rw [List.getElem_take] at equal
  rw [List.length_take] at bound
  apply first i (by omega)
  exact equal

theorem find_append_cons {c : α} {text : List α} (absent : c ∉ text) (rest : List α) :
    find c (text ++ c :: rest) 0 = some text.length := by
  have hit : (text ++ c :: rest).findIdx? (· == c) = some text.length := by
    rw [List.findIdx?_append, List.findIdx?_eq_none_iff.mpr, Option.none_or, List.findIdx?_cons, beq_self_eq_true]
    · simp
    · intro x member
      apply beq_false_of_ne
      rintro rfl
      exact absent member
  rw [find, List.drop_zero, hit, Option.map_some, Nat.zero_add]

theorem find_of_notMem {c : α} {text : List α} (absent : c ∉ text) : find c text 0 = none := by
  cases found : find c text 0 with
  | none => rfl
  | some stop =>
    have whole := drop_of_find found
    rw [List.drop_zero] at whole
    exact absurd (by rw [whole]; simp) absent

theorem notMem_drop_of_find {c : α} {text : List α} {beg : Nat} (missing : find c text beg = none) :
    c ∉ text.drop beg := by
  have absent := List.findIdx?_eq_none_iff.mp (Option.map_eq_none_iff.mp missing)
  intro member
  simpa using absent c member

/-- One round of a splitting loop that finds a separator. -/
theorem splitOn_of_find {c : α} {text : List α} {beg stop : Nat} (found : find c text beg = some stop) :
    (text.drop beg).splitOn c = slice text beg stop :: (text.drop (stop + 1)).splitOn c := by
  rw [drop_of_find found]
  exact List.splitOn_append_cons_self_of_not_mem (notMem_slice_of_find found) _

/-- The last round of a splitting loop. -/
theorem splitOn_of_find_none {c : α} {text : List α} {beg : Nat} (missing : find c text beg = none) :
    (text.drop beg).splitOn c = [text.drop beg] :=
  List.splitOn_eq_singleton (notMem_drop_of_find missing)

theorem bne_of_notMem {c : α} {text : List α} (absent : c ∉ text) : ∀ x ∈ text, (x != c) = true := by
  intro x member
  apply bne_iff_ne.mpr
  rintro rfl
  exact absent member

theorem takeWhile_of_notMem {c : α} {text : List α} (absent : c ∉ text) :
    text.takeWhile (· != c) = text :=
  List.takeWhile_eq_self_iff.mpr (bne_of_notMem absent)

theorem dropWhile_of_notMem {c : α} {text : List α} (absent : c ∉ text) :
    text.dropWhile (· != c) = [] :=
  List.dropWhile_eq_nil_iff.mpr (bne_of_notMem absent)

/-- The text is cut at its first separator. -/
theorem takeWhile_append_cons {c : α} {text : List α} (absent : c ∉ text) (rest : List α) :
    (text ++ c :: rest).takeWhile (· != c) = text := by
  rw [List.takeWhile_append_of_pos (bne_of_notMem absent), List.takeWhile_cons_of_neg (by simp), List.append_nil]

theorem dropWhile_append_cons {c : α} {text : List α} (absent : c ∉ text) (rest : List α) :
    (text ++ c :: rest).dropWhile (· != c) = c :: rest := by
  rw [List.dropWhile_append_of_pos (bne_of_notMem absent), List.dropWhile_cons_of_neg (by simp)]

theorem takeWhile_of_find {c : α} {text : List α} {stop : Nat} (found : find c text 0 = some stop) :
    text.takeWhile (· != c) = slice text 0 stop := by
  have whole := drop_of_find found
  rw [List.drop_zero] at whole
  have cut := takeWhile_append_cons (notMem_slice_of_find found) (text.drop (stop + 1))
  rwa [← whole] at cut

theorem dropWhile_of_find {c : α} {text : List α} {stop : Nat} (found : find c text 0 = some stop) :
    text.dropWhile (· != c) = c :: text.drop (stop + 1) := by
  have whole := List.takeWhile_append_dropWhile (p := (· != c)) (l := text)
  rw [takeWhile_of_find found] at whole
  have split := drop_of_find found
  rw [List.drop_zero] at split
  exact List.append_cancel_left (whole.trans split)

theorem dropWhile_of_find_none {c : α} {text : List α} (missing : find c text 0 = none) :
    text.dropWhile (· != c) = [] :=
  dropWhile_of_notMem (notMem_drop_of_find missing)

end WfcCore.Foundation.Scan

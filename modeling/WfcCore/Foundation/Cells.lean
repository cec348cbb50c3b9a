import Mathlib.Data.List.TakeWhile

/-!
# Lines of cells

A cell is a text behind blanks and before one blank; in a line every cell is closed by a separator. A text can be
read back from its cell if it has no separator in it and does not begin with a blank.
-/

namespace WfcCore.Foundation.Cells

variable {α : Type} [DecidableEq α] (sep blank : α)

/-- What a cell can show so that it can be read back. -/
def Plain (text : List α) : Prop := sep ∉ text ∧ text.head? ≠ some blank

instance (text : List α) : Decidable (Plain sep blank text) :=
  inferInstanceAs (Decidable (sep ∉ text ∧ text.head? ≠ some blank))

def write (width : Nat) (text : List α) : List α := List.replicate width blank ++ text ++ [blank]

def read (cell : List α) : List α := (cell.dropWhile (· = blank)).dropLast

/-- The cells of a line, `before` being the part of the first one that has been passed. -/
def readFrom (before : List α) : List α → List (List α)
  | [] => []
  | a :: rest => if a = sep then read blank before :: readFrom [] rest else readFrom (before ++ [a]) rest

def readLine (line : List α) : List (List α) := readFrom sep blank [] line

variable {sep blank}

theorem read_write {text : List α} (plain : text.head? ≠ some blank) (width : Nat) :
    read blank (write blank width text) = text := by
  unfold read write
  rw [List.append_assoc, List.dropWhile_append_of_pos (by simp)]
  cases text with
  | nil => simp
  | cons a rest =>
    have other : ¬ a = blank := fun same => plain (by rw [same]; rfl)
    rw [List.cons_append, List.dropWhile_cons_of_neg (by simpa using other), ← List.cons_append,
      List.dropLast_concat]

theorem readFrom_append {cell : List α} (without : sep ∉ cell) (before rest : List α) :
    readFrom sep blank before (cell ++ sep :: rest) = read blank (before ++ cell) :: readFrom sep blank [] rest := by
  induction cell generalizing before with
  | nil =>
    rw [List.nil_append, readFrom, if_pos rfl, List.append_nil]
  | cons a cell ih =>
    obtain ⟨head, tail⟩ := not_or.mp (mt List.mem_cons.mpr without)
    rw [List.cons_append, readFrom, if_neg fun same => head same.symm, ih tail, List.append_assoc]
    rfl

omit [DecidableEq α] in
theorem write_without (apart : blank ≠ sep) {text : List α} (plain : sep ∉ text) (width : Nat) :
    sep ∉ write blank width text := by
  have other : ¬ sep = blank := fun same => apart same.symm
  simp [write, plain, other]

/-- The texts of a line of cells are read back. -/
theorem readLine_write {β : Type} (apart : blank ≠ sep) (columns : List β) (width : β → Nat) (text : β → List α)
    (plain : ∀ column ∈ columns, Plain sep blank (text column)) :
    readLine sep blank (columns.flatMap fun column => write blank (width column) (text column) ++ [sep]) =
      columns.map text := by
  induction columns with
  | nil => rfl
  | cons column rest ih =>
    obtain ⟨without, start⟩ := plain column List.mem_cons_self
    rw [List.flatMap_cons, List.append_assoc, List.singleton_append]
    unfold readLine
    rw [readFrom_append (write_without apart without _), List.nil_append, read_write start, List.map_cons,
      ← ih fun other member => plain other (List.mem_cons_of_mem _ member)]
    rfl

theorem read_plain {cell : List α} (without : sep ∉ cell) : Plain sep blank (read blank cell) := by
  unfold read
  have part : (cell.dropWhile (· = blank)).dropLast ⊆ cell :=
    List.Subset.trans (List.dropLast_subset _) (List.dropWhile_suffix _).subset
  refine ⟨fun member => without (part member), fun first => ?_⟩
  cases left : cell.dropWhile (· = blank) with
  | nil =>
    rw [left] at first
    contradiction
  | cons a rest =>
    have other := List.head?_dropWhile_not (· = blank) cell
    rw [left] at other first
    cases rest with
    | nil => contradiction
    | cons b rest =>
      obtain rfl := Option.some.inj first
      simp at other

/-- Nothing else is ever read. -/
theorem readFrom_plain (line : List α) {before : List α} (without : sep ∉ before) :
    ∀ text ∈ readFrom sep blank before line, Plain sep blank text := by
  induction line generalizing before with
  | nil => simp [readFrom]
  | cons a rest ih =>
    intro text member
    rw [readFrom] at member
    split at member
    · rcases List.mem_cons.mp member with rfl | later
      · exact read_plain without
      · exact ih List.not_mem_nil text later
    · rename_i other
      have apart : ¬ sep = a := fun same => other same.symm
      exact ih (by simp [without, apart]) text member

end WfcCore.Foundation.Cells

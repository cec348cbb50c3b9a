import Mathlib.Data.List.DropRight
import WfcCore.Foundation.CInteger

/-!
# Reading numbers with `sscanf`

A format is a list of directives, each with the target of what it reads, and reading ends at the first
directive that fails. The rules say what is read from a line of decimal numbers, whole or cut off.
-/

namespace WfcCore.Foundation.Scanf

/-- White space in the C locale. -/
def isSpace (c : Char) : Bool := c == ' ' || 9 ≤ c.toNat && c.toNat ≤ 13

def skipSpace (text : List Char) : List Char := text.dropWhile isSpace

def readSign : List Char → Bool × List Char
  | '-' :: text => (true, text)
  | '+' :: text => (false, text)
  | text => (false, text)

def digitsValue (digits : List Char) : Int := Nat.ofDigitChars 10 digits 0

/-- The number that `%d` and `%u` read, and the text behind it. -/
def readNumber (text : List Char) : Option (Int × List Char) :=
  let (negative, text) := readSign (skipSpace text)
  let digits := text.takeWhile Char.isDigit
  if digits = [] then none
  else some (if negative then -digitsValue digits else digitsValue digits, text.dropWhile Char.isDigit)

/-- What is stored for a number that the type of the target does not hold is left to the C library. -/
structure Library where
  store : (τ : IntType) → Int → τ.Value
  store_of_holds : ∀ τ n, τ.Holds n → (store τ n).val = n

theorem Library.store_val (lib : Library) {τ : IntType} (v : τ.Value) : lib.store τ v = v :=
  Subtype.ext (lib.store_of_holds τ v v.property)

inductive Directive (σ : Type) where
  | blank
  | char (set : Char → σ → σ)
  | number (type : IntType) (set : type.Value → σ → σ)

variable {σ β : Type} {lib : Library}

def sscanf (lib : Library) : List (Directive σ) → List Char → σ → σ
  | [], _, s => s
  | .blank :: rest, text, s => sscanf lib rest (skipSpace text) s
  | .char _ :: _, [], s => s
  | .char set :: rest, c :: text, s => sscanf lib rest text (set c s)
  | .number type set :: rest, text, s =>
    match readNumber text with
    | none => s
    | some (n, text) => sscanf lib rest text (set (lib.store type n) s)

/-- A directive for a number with a blank before it. -/
structure Field (σ : Type) where
  type : IntType
  set : type.Value → σ → σ

def format (fields : List (Field σ)) : List (Directive σ) :=
  fields.flatMap fun field => [.blank, .number field.type field.set]

def decimal : Int → List Char
  | .ofNat n => Nat.toDigits 10 n
  | .negSucc n => '-' :: Nat.toDigits 10 (n + 1)

/-- Numbers as they stand in a line, each after a blank. -/
def spaced (numbers : List Int) : List Char := numbers.flatMap fun n => ' ' :: decimal n

def assign (lib : Library) : List (Field σ) → List Int → σ → σ
  | field :: fields, n :: numbers, s => assign lib fields numbers (field.set (lib.store field.type n) s)
  | _, _, s => s

/-! ### One number -/

/-- The text does not go on with a digit. -/
def Ends (text : List Char) : Prop := ∀ c ∈ text.head?, c.isDigit = false

theorem ends_nil : Ends [] := by
  intro c head
  contradiction

theorem ends_blank (text : List Char) : Ends (' ' :: text) := by
  intro c head
  obtain rfl := Option.some.inj head
  rfl

theorem ends_spaced (numbers : List Int) {rest : List Char} (ends : Ends rest) : Ends (spaced numbers ++ rest) := by
  cases numbers with
  | nil => exact ends
  | cons n numbers => exact ends_blank _

theorem ends_take {text : List Char} (ends : Ends text) (k : Nat) : Ends (text.take k) := by
  cases k with
  | zero => exact ends_nil
  | succ k =>
    cases text with
    | nil => exact ends_nil
    | cons c text => exact ends

theorem digit_plain {c : Char} (digit : c.isDigit) : isSpace c = false ∧ c ≠ '-' ∧ c ≠ '+' := by
  refine ⟨?_, ?_, ?_⟩
  · obtain ⟨low, -⟩ := Char.isDigit_iff_toNat.mp digit
    have blank : c ≠ ' ' := by
      rintro rfl
      contradiction
    have zero : '0'.toNat = 48 := rfl
    simp [isSpace, blank]
    omega
  · rintro rfl
    contradiction
  · rintro rfl
    contradiction

theorem span_digits {digits rest : List Char} (digit : ∀ c ∈ digits, c.isDigit) (ends : Ends rest) :
    (digits ++ rest).takeWhile Char.isDigit = digits ∧ (digits ++ rest).dropWhile Char.isDigit = rest := by
  rw [List.takeWhile_append_of_pos digit, List.dropWhile_append_of_pos digit]
  cases rest with
  | nil => simp
  | cons c rest =>
    have stop : ¬ c.isDigit = true := by
      rw [ends c rfl]
      exact Bool.false_ne_true
    rw [List.takeWhile_cons_of_neg stop, List.dropWhile_cons_of_neg stop]
    simp

theorem readSign_plain {c : Char} (minus : c ≠ '-') (plus : c ≠ '+') (text : List Char) :
    readSign (c :: text) = (false, c :: text) := by
  unfold readSign
  split
  · rename_i sign
    exact absurd (List.cons.inj sign).1 minus
  · rename_i sign
    exact absurd (List.cons.inj sign).1 plus
  · rfl

theorem readNumber_digits {digits rest : List Char} (digit : ∀ c ∈ digits, c.isDigit) (nonempty : digits ≠ [])
    (ends : Ends rest) : readNumber (digits ++ rest) = some (digitsValue digits, rest) := by
  obtain ⟨taken, dropped⟩ := span_digits digit ends
  have start : readSign (skipSpace (digits ++ rest)) = (false, digits ++ rest) := by
    cases digits with
    | nil => exact absurd rfl nonempty
    | cons c digits =>
      obtain ⟨space, minus, plus⟩ := digit_plain (digit c List.mem_cons_self)
      rw [List.cons_append, skipSpace, List.dropWhile_cons_of_neg (by simp [space])]
      exact readSign_plain minus plus _
  unfold readNumber
  simp only [start, taken, dropped, if_neg nonempty]
  rfl

theorem readNumber_minus {digits rest : List Char} (digit : ∀ c ∈ digits, c.isDigit) (nonempty : digits ≠ [])
    (ends : Ends rest) : readNumber ('-' :: (digits ++ rest)) = some (-digitsValue digits, rest) := by
  obtain ⟨taken, dropped⟩ := span_digits digit ends
  have start : readSign (skipSpace ('-' :: (digits ++ rest))) = (true, digits ++ rest) := rfl
  unfold readNumber
  simp only [start, taken, dropped, if_neg nonempty]
  rfl

theorem toDigits_digit (n : Nat) : ∀ c ∈ Nat.toDigits 10 n, c.isDigit := fun _ member =>
  Nat.isDigit_of_mem_toDigits (by decide) (by decide) member

theorem readNumber_decimal (n : Int) {rest : List Char} (ends : Ends rest) :
    readNumber (decimal n ++ rest) = some (n, rest) := by
  have value (m : Nat) : digitsValue (Nat.toDigits 10 m) = m := congrArg Int.ofNat Nat.ofDigitChars_ten_toDigits
  cases n with
  | ofNat m =>
    rw [decimal, readNumber_digits (toDigits_digit m) Nat.toDigits_ne_nil ends, value]
    rfl
  | negSucc m =>
    rw [decimal, List.cons_append, readNumber_minus (toDigits_digit _) Nat.toDigits_ne_nil ends, value]
    rfl

theorem decimal_injective {m n : Int} (same : decimal m = decimal n) : m = n := by
  have first := readNumber_decimal m ends_nil
  rw [same, readNumber_decimal n ends_nil] at first
  exact (Prod.mk.inj (Option.some.inj first)).1.symm

theorem mem_decimal {n : Int} {c : Char} (member : c ∈ decimal n) : c.isDigit ∨ c = '-' := by
  cases n with
  | ofNat m => exact Or.inl (toDigits_digit m c member)
  | negSucc m =>
    rcases List.mem_cons.mp member with sign | digit
    · exact Or.inr sign
    · exact Or.inl (toDigits_digit _ c digit)

theorem notMem_decimal {c : Char} (digit : c.isDigit = false) (sign : c ≠ '-') (n : Int) : c ∉ decimal n := by
  intro member
  rcases mem_decimal member with isDigit | isSign
  · rw [digit] at isDigit
    contradiction
  · exact sign isSign

theorem toList_repr (n : Int) : n.repr.toList = decimal n := by
  cases n with
  | ofNat m => exact Nat.toList_repr
  | negSucc m =>
    show ("-" ++ Nat.repr (m + 1)).toList = _
    rw [String.toList_append, Nat.toList_repr]
    rfl

theorem readNumber_skipSpace (text : List Char) : readNumber (skipSpace text) = readNumber text := by
  have twice : skipSpace (skipSpace text) = skipSpace text := List.dropWhile_idempotent ..
  unfold readNumber
  rw [twice]

theorem readNumber_blank (text : List Char) : readNumber (' ' :: text) = readNumber text := rfl

/-- The digits of a number that is cut off are those of a smaller one. -/
theorem digitsValue_take_lt {m k : Nat} (some_ : 0 < k) (cut : k < (Nat.toDigits 10 m).length) :
    ∃ j : Nat, j < m ∧ digitsValue ((Nat.toDigits 10 m).take k) = j := by
  refine ⟨Nat.ofDigitChars 10 ((Nat.toDigits 10 m).take k) 0, ?_, rfl⟩
  have whole : Nat.ofDigitChars 10 ((Nat.toDigits 10 m).drop k)
      (Nat.ofDigitChars 10 ((Nat.toDigits 10 m).take k) 0) = m := by
    rw [← Nat.ofDigitChars_append, List.take_append_drop, Nat.ofDigitChars_ten_toDigits]
  rw [Nat.ofDigitChars_eq_ofDigitChars_zero] at whole
  have positive : 0 < m := by
    by_contra zero
    obtain rfl : m = 0 := by omega
    rw [Nat.toDigits_zero, List.length_singleton] at cut
    omega
  have scale : 10 ≤ 10 ^ ((Nat.toDigits 10 m).drop k).length := by
    rw [List.length_drop]
    exact Nat.le_self_pow (by omega) 10
  have := Nat.mul_le_mul_right (Nat.ofDigitChars 10 ((Nat.toDigits 10 m).take k) 0) scale
  omega

/-! ### A line of numbers -/

theorem sscanf_field (field : Field σ) (rest : List (Directive σ)) (text : List Char) (s : σ) :
    sscanf lib (.blank :: .number field.type field.set :: rest) text s =
      match readNumber text with
      | none => s
      | some (n, text) => sscanf lib rest text (field.set (lib.store field.type n) s) := by
  rw [sscanf, sscanf, readNumber_skipSpace]

theorem format_cons (field : Field σ) (fields : List (Field σ)) :
    format (field :: fields) = .blank :: .number field.type field.set :: format fields := rfl

theorem spaced_cons (n : Int) (numbers : List Int) : spaced (n :: numbers) = ' ' :: decimal n ++ spaced numbers := rfl

/-- Behind the end of the text nothing is read. -/
theorem sscanf_nil (fields : List (Field σ)) (s : σ) : sscanf lib (format fields) [] s = s := by
  cases fields with
  | nil => rfl
  | cons field fields => rw [format_cons, sscanf_field]; rfl

theorem sscanf_spaced {fields : List (Field σ)} {numbers : List Int} (all : fields.length = numbers.length)
    {rest : List Char} (ends : Ends rest) (more : List (Directive σ)) (s : σ) :
    sscanf lib (format fields ++ more) (spaced numbers ++ rest) s =
      sscanf lib more rest (assign lib fields numbers s) := by
  induction fields generalizing numbers s with
  | nil =>
    obtain rfl := List.length_eq_zero_iff.mp all.symm
    rfl
  | cons field fields ih =>
    cases numbers with
    | nil => contradiction
    | cons n numbers =>
      have read : readNumber (spaced (n :: numbers) ++ rest) = some (n, spaced numbers ++ rest) := by
        rw [spaced_cons, List.append_assoc, List.cons_append, readNumber_blank]
        exact readNumber_decimal n (ends_spaced numbers ends)
      rw [format_cons, List.cons_append, List.cons_append, sscanf_field, read]
      exact ih (Nat.succ.inj all) _

theorem assign_append {fields : List (Field σ)} {numbers : List Int} (all : fields.length = numbers.length)
    (fields' : List (Field σ)) (numbers' : List Int) (s : σ) :
    assign lib (fields ++ fields') (numbers ++ numbers') s = assign lib fields' numbers' (assign lib fields numbers s) := by
  induction fields generalizing numbers s with
  | nil =>
    obtain rfl := List.length_eq_zero_iff.mp all.symm
    rfl
  | cons field fields ih =>
    cases numbers with
    | nil => contradiction
    | cons n numbers => exact ih (Nat.succ.inj all) _

/-- None of the fields has to do with what is looked at. -/
def Keeps (get : σ → β) (fields : List (Field σ)) : Prop := ∀ field ∈ fields, ∀ v s, get (field.set v s) = get s

theorem sscanf_keeps {get : σ → β} {fields : List (Field σ)} (keeps : Keeps get fields) (text : List Char) (s : σ) :
    get (sscanf lib (format fields) text s) = get s := by
  induction fields generalizing text s with
  | nil => rfl
  | cons field fields ih =>
    obtain ⟨first, keeps⟩ := List.forall_mem_cons.mp keeps
    rw [format_cons, sscanf_field]
    cases readNumber text with
    | none => rfl
    | some read => rw [ih keeps, first]

/-- A text that is cut off within a number has no more text behind the number. -/
theorem readNumber_take (n : Int) {k : Nat} (cut : k ≤ (decimal n).length) :
    readNumber ((decimal n).take k) = none ∨ ∃ j, readNumber ((decimal n).take k) = some (j, []) := by
  have digits (m i : Nat) : ∀ c ∈ (Nat.toDigits 10 m).take i, c.isDigit := fun c member =>
    toDigits_digit m c (List.mem_of_mem_take member)
  cases n with
  | ofNat m =>
    by_cases empty : (Nat.toDigits 10 m).take k = []
    · rw [decimal, empty]
      exact Or.inl rfl
    · have read := readNumber_digits (digits m k) empty ends_nil
      rw [List.append_nil] at read
      exact Or.inr ⟨_, read⟩
  | negSucc m =>
    cases k with
    | zero => exact Or.inl rfl
    | succ k =>
      rw [decimal, List.take_succ_cons]
      by_cases empty : (Nat.toDigits 10 (m + 1)).take k = []
      · rw [empty]
        exact Or.inl rfl
      · have read := readNumber_minus (digits (m + 1) k) empty ends_nil
        rw [List.append_nil] at read
        exact Or.inr ⟨_, read⟩

/-- A line that is cut off ends at its first number or goes on behind it. -/
theorem readNumber_take_spaced (n : Int) (numbers : List Int) (k : Nat) :
    let text := (decimal n ++ spaced numbers).take k
    readNumber text = none ∨ (∃ j, readNumber text = some (j, [])) ∨
      (decimal n).length < k ∧ readNumber text = some (n, (spaced numbers).take (k - (decimal n).length)) := by
  intro text
  by_cases within : k ≤ (decimal n).length
  · have cut : text = (decimal n).take k := List.take_append_of_le_length within
    rw [cut]
    rcases readNumber_take n within with nothing | read
    · exact Or.inl nothing
    · exact Or.inr (Or.inl read)
  · have whole : text = decimal n ++ (spaced numbers).take (k - (decimal n).length) := by
      show List.take _ _ = _
      rw [List.take_append, List.take_of_length_le (by omega)]
    have ends : Ends (spaced numbers) := by
      have all := ends_spaced numbers ends_nil
      rwa [List.append_nil] at all
    rw [whole]
    exact Or.inr (Or.inr ⟨by omega, readNumber_decimal n (ends_take ends _)⟩)

theorem readNumber_take_digits {m k : Nat} (cut : k < (Nat.toDigits 10 m).length) :
    readNumber ((Nat.toDigits 10 m).take k) = none ∨
      ∃ j : Nat, j < m ∧ readNumber ((Nat.toDigits 10 m).take k) = some ((j : Int), []) := by
  rcases Nat.eq_zero_or_pos k with rfl | some_
  · exact Or.inl rfl
  · obtain ⟨j, less, value⟩ := digitsValue_take_lt some_ cut
    have nonempty : (Nat.toDigits 10 m).take k ≠ [] := by
      rw [Ne, List.take_eq_nil_iff]
      exact not_or.mpr ⟨by omega, Nat.toDigits_ne_nil⟩
    have read := readNumber_digits (fun c member => toDigits_digit m c (List.mem_of_mem_take member)) nonempty ends_nil
    rw [List.append_nil, value] at read
    exact Or.inr ⟨j, less, read⟩

/-- What a line that is cut off before the end of the number `m` stores for it: nothing or a smaller number. -/
theorem sscanf_cut {get : σ → β} {fields : List (Field σ)} (early : Keeps get fields) {last : Field σ}
    {later : List (Field σ)} {numbers : List Int} (all : fields.length = numbers.length) {m k : Nat}
    (cut : k < (spaced (numbers ++ [(m : Int)])).length) (s : σ) :
    get (sscanf lib (format (fields ++ last :: later)) ((spaced (numbers ++ [(m : Int)])).take k) s) = get s ∨
      ∃ t, ∃ j : Nat, j < m ∧
        sscanf lib (format (fields ++ last :: later)) ((spaced (numbers ++ [(m : Int)])).take k) s =
          last.set (lib.store last.type j) t := by
  induction fields generalizing numbers k s with
  | nil =>
    obtain rfl := List.length_eq_zero_iff.mp all.symm
    have line : spaced ([] ++ [(m : Int)]) = ' ' :: Nat.toDigits 10 m := List.append_nil _
    rw [line] at cut ⊢
    cases k with
    | zero => exact Or.inl (congrArg get (sscanf_nil _ s))
    | succ k =>
      rw [List.nil_append, List.take_succ_cons, format_cons, sscanf_field, readNumber_blank]
      rcases readNumber_take_digits (Nat.lt_of_succ_lt_succ cut) with nothing | ⟨j, less, read⟩
      · rw [nothing]
        exact Or.inl rfl
      · rw [read]
        exact Or.inr ⟨s, j, less, sscanf_nil later _⟩
  | cons field fields ih =>
    cases numbers with
    | nil => contradiction
    | cons n numbers =>
      obtain ⟨first, early⟩ := List.forall_mem_cons.mp early
      have line : spaced (n :: numbers ++ [(m : Int)]) = ' ' :: (decimal n ++ spaced (numbers ++ [(m : Int)])) := rfl
      rw [line] at cut ⊢
      cases k with
      | zero => exact Or.inl (congrArg get (sscanf_nil _ s))
      | succ k =>
        rw [List.cons_append, List.take_succ_cons, format_cons, sscanf_field, readNumber_blank]
        rcases readNumber_take_spaced n (numbers ++ [(m : Int)]) k with nothing | ⟨j, read⟩ | ⟨behind, read⟩
        · rw [nothing]
          exact Or.inl rfl
        · rw [read]
          exact Or.inl ((congrArg get (sscanf_nil _ _)).trans (first _ s))
        · rw [read, ← first (lib.store field.type n) s]
          apply ih early (Nat.succ.inj all)
          rw [List.length_cons, List.length_append] at cut
          omega

end WfcCore.Foundation.Scanf

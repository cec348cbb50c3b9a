import WfcCore.Core.Abort

/-!
# Calls of a run

The labels of a run tell which calls were started beside the main thread and how far each of them has
got. `Written` is what they tell about a write; a flag that nothing else raises and nothing lowers
is up exactly when it was up at the start or has been written.
-/

namespace WfcCore.Core

open Foundation Wfc

/-- The calls that were started, in the order of `State.calls`. -/
def callsOf (as : List Action) : List Call :=
  as.filterMap fun
    | .call c => some c
    | _ => none

/-- How many of its writes the call at `i` has made. -/
def writesOf (i : Nat) (as : List Action) : Nat :=
  as.countP fun
    | .write j => j == i
    | _ => false

/-- A call that asks the core to stop. -/
def Call.requestsStop : Call → Bool
  | .coreReconfigure | .reload _ => false
  | _ => true

/-- The call at `i` has passed its write `w`. -/
def Passed (i : Nat) (w : Write) (as : List Action) : Prop :=
  ∃ c : Call, (callsOf as)[i]? = some c ∧ w ∈ c.writes.take (writesOf i as)

def Written (w : Write) (as : List Action) : Prop := ∃ i, Passed i w as

structure Aligned (as : List Action) (s : State) : Prop where
  pending : ∀ i, s.calls[i]? = (callsOf as)[i]?.map fun (c : Call) => c.writes.drop (writesOf i as)
  started : ∀ i, (callsOf as).length ≤ i → writesOf i as = 0

variable {p : Program} {s t : State} {as : List Action}

@[simp] theorem callsOf_nil : callsOf [] = [] := rfl

@[simp] theorem callsOf_append (first rest : List Action) :
    callsOf (first ++ rest) = callsOf first ++ callsOf rest := List.filterMap_append

@[simp] theorem writesOf_append (i : Nat) (first rest : List Action) :
    writesOf i (first ++ rest) = writesOf i first + writesOf i rest := List.countP_append

theorem writesOf_self (i : Nat) : writesOf i [.write i] = 1 := by simp [writesOf]

theorem writesOf_other {i j : Nat} (other : j ≠ i) : writesOf i [.write j] = 0 := by simp [writesOf, other]

theorem silent_counts {a : Action} (silent : a.silent = true) : callsOf [a] = [] ∧ ∀ i, writesOf i [a] = 0 := by
  cases a <;> first | contradiction | exact ⟨rfl, fun _ => rfl⟩

theorem aligned_start (s : State) (fresh : s.calls = []) : Aligned [] s := by
  constructor <;> simp [fresh, writesOf]

theorem aligned_call {c : Call} (aligned : Aligned as s) :
    Aligned (as ++ [.call c]) { s with calls := s.calls ++ [c.writes] } := by
  have long : s.calls.length = (callsOf as).length := by
    apply Nat.le_antisymm
    · have last := aligned.pending (callsOf as).length
      rw [List.getElem?_eq_none (Nat.le_refl _), Option.map_none] at last
      exact List.getElem?_eq_none_iff.mp last
    · have last := aligned.pending s.calls.length
      rw [List.getElem?_eq_none (Nat.le_refl _)] at last
      exact List.getElem?_eq_none_iff.mp (Option.map_eq_none_iff.mp last.symm)
  have silent (i : Nat) : writesOf i [Action.call c] = 0 := rfl
  constructor
  · intro i
    simp only [callsOf_append, writesOf_append, silent, Nat.add_zero]
    show (s.calls ++ [c.writes])[i]? = ((callsOf as) ++ [c])[i]?.map _
    rcases Nat.lt_trichotomy i (callsOf as).length with before | rfl | beyond
    · rw [List.getElem?_append_left (long ▸ before), List.getElem?_append_left before]
      exact aligned.pending i
    · rw [← long, List.getElem?_append_right (Nat.le_refl _), long,
        List.getElem?_append_right (Nat.le_refl _), aligned.started _ (Nat.le_refl _)]
      simp
    · rw [List.getElem?_eq_none (by simp; omega), List.getElem?_eq_none (by simp; omega)]
      rfl
  · intro i beyond
    simp only [callsOf_append, writesOf_append, silent, Nat.add_zero, List.length_append] at beyond ⊢
    exact aligned.started i (by omega)

theorem aligned_write {i : Nat} {w : Write} {rest : List Write} (aligned : Aligned as s)
    (read : s.calls[i]? = some (w :: rest)) :
    Aligned (as ++ [.write i]) { s.perform w with calls := s.calls.set i rest } := by
  constructor
  · intro j
    simp only [callsOf_append, writesOf_append]
    show (s.calls.set i rest)[j]? = ((callsOf as) ++ [])[j]?.map _
    rw [List.append_nil]
    by_cases same : i = j
    · obtain rfl := same
      obtain ⟨inside, _⟩ := List.getElem?_eq_some_iff.mp read
      rw [List.getElem?_set_self inside, writesOf_self]
      have now := read.symm.trans (aligned.pending i)
      obtain ⟨c, found, left⟩ := Option.map_eq_some_iff.mp now.symm
      rw [found, Option.map_some, ← List.drop_drop, left]
      rfl
    · rw [List.getElem?_set_ne same, writesOf_other same]
      exact aligned.pending j
  · intro j beyond
    simp only [callsOf_append, writesOf_append, List.length_append] at beyond ⊢
    have quiet := aligned.started j (by omega)
    by_cases same : i = j
    · obtain rfl := same
      have now := read.symm.trans (aligned.pending i)
      rw [List.getElem?_eq_none (by omega)] at now
      contradiction
    · rw [quiet, writesOf_other same]

theorem aligned_step {a : Action} (aligned : Aligned as s) (h : step p s a = some t) :
    Aligned (as ++ [a]) t := by
  by_cases quiet : a.silent = true
  · obtain ⟨calls, writes⟩ := silent_counts quiet
    constructor
    · intro i
      rw [(silent_kept quiet h).calls, callsOf_append, writesOf_append, calls, writes, List.append_nil, Nat.add_zero]
      exact aligned.pending i
    · intro i beyond
      rw [callsOf_append, calls, List.append_nil] at beyond
      rw [writesOf_append, writes, Nat.add_zero]
      exact aligned.started i beyond
  · cases a with
    | call c =>
      obtain rfl := Option.some.inj h
      exact aligned_call aligned
    | write i =>
      obtain ⟨w, rest, read, rfl⟩ := writeStep_some h
      exact aligned_write aligned read
    | _ => exact absurd rfl quiet

theorem aligned_run {restartFlag dirty : Bool} {mainconf : Configuration} {instances : List Instance}
    (run : exec (step p) (initial restartFlag mainconf dirty instances) as = some s) : Aligned as s :=
  exec_history Aligned (aligned_start _ rfl) (fun _ _ _ _ aligned h => aligned_step aligned h) run

/-! ### What has been written -/

theorem passed_silent {a : Action} (aligned : Aligned as s) (other : ∀ j, a ≠ .write j) (i : Nat) (w : Write) :
    Passed i w (as ++ [a]) ↔ Passed i w as := by
  have writes : writesOf i [a] = 0 := by
    cases a with
    | write j => exact absurd rfl (other j)
    | _ => rfl
  constructor
  · rintro ⟨c, found, member⟩
    rw [writesOf_append, writes, Nat.add_zero] at member
    rw [callsOf_append] at found
    by_cases inside : i < (callsOf as).length
    · rw [List.getElem?_append_left inside] at found
      exact ⟨c, found, member⟩
    · rw [aligned.started i (by omega)] at member
      simp at member
  · rintro ⟨c, found, member⟩
    refine ⟨c, ?_, ?_⟩
    · rw [callsOf_append, List.getElem?_append_left (List.getElem?_eq_some_iff.mp found).1]
      exact found
    · rw [writesOf_append, writes, Nat.add_zero]
      exact member

theorem passed_write {j : Nat} {v : Write} {rest : List Write} (aligned : Aligned as s)
    (read : s.calls[j]? = some (v :: rest)) (i : Nat) (w : Write) :
    Passed i w (as ++ [.write j]) ↔ Passed i w as ∨ i = j ∧ w = v := by
  have calls : callsOf (as ++ [.write j]) = callsOf as := by
    rw [callsOf_append]
    exact List.append_nil _
  unfold Passed
  rw [calls, writesOf_append]
  by_cases same : j = i
  · obtain rfl := same
    obtain ⟨c, found, left⟩ := Option.map_eq_some_iff.mp (read.symm.trans (aligned.pending j)).symm
    have next : c.writes.take (writesOf j as + 1) = c.writes.take (writesOf j as) ++ [v] := by
      rw [List.take_add, left]
      rfl
    simp only [found, Option.some.injEq, exists_eq_left', writesOf_self, next, List.mem_append, List.mem_singleton, true_and]
  · simp only [writesOf_other same, Nat.add_zero, Ne.symm same, false_and, or_false]

theorem written_silent {a : Action} (aligned : Aligned as s) (other : ∀ j, a ≠ .write j) (w : Write) :
    Written w (as ++ [a]) ↔ Written w as :=
  exists_congr fun i => passed_silent aligned other i w

theorem written_write {j : Nat} {v : Write} {rest : List Write} (aligned : Aligned as s)
    (read : s.calls[j]? = some (v :: rest)) (w : Write) :
    Written w (as ++ [.write j]) ↔ Written w as ∨ w = v := by
  unfold Written
  simp only [passed_write aligned read, exists_or, exists_eq_left]

/-- What holds of a flag that only calls raise and nothing lowers. -/
theorem flag_iff_written (flag : State → Bool) (w : Write) {s₀ : State} (fresh : s₀.calls = [])
    (writes : ∀ s v, flag (s.perform v) = (flag s || decide (v = w)))
    (calls : ∀ s cs, flag { s with calls := cs } = flag s)
    (keeps : ∀ s a t, a.silent = true → step p s a = some t → flag t = flag s)
    (run : exec (step p) s₀ as = some s) : flag s = true ↔ flag s₀ = true ∨ Written w as := by
  have history : Aligned as s ∧ (flag s = true ↔ flag s₀ = true ∨ Written w as) := by
    refine exec_history (fun as s => Aligned as s ∧ (flag s = true ↔ flag s₀ = true ∨ Written w as))
      ⟨aligned_start _ fresh, ?_⟩ ?_ run
    · have none : ¬ Written w [] := by
        rintro ⟨i, c, found, _⟩
        contradiction
      simp [none]
    · rintro before m a next ⟨aligned, same⟩ h
      refine ⟨aligned_step aligned h, ?_⟩
      cases a with
      | call c =>
        obtain rfl := Option.some.inj h
        rw [written_silent aligned (by simp), calls]
        exact same
      | write i =>
        obtain ⟨v, rest, read, rfl⟩ := writeStep_some h
        rw [written_write aligned read, calls, writes, Bool.or_eq_true, decide_eq_true_eq, same, or_assoc]
        exact or_congr_right (or_congr_right eq_comm)
      | _ =>
        rw [written_silent aligned (by simp), keeps m _ next rfl h]
        exact same
  exact history.2

end WfcCore.Core

import Mathlib.Tactic.Choose
import WfcCore.Foundation.Run

/-!
# Runs that go on forever

In an infinite run some labels are helpful, and the run is fair when a helpful label comes whenever a
helpful step is enabled. A rank that helpful steps lower and other steps do not raise brings such a run
out of the states in which it is defined, if helpful steps are enabled in all of them.
-/

namespace WfcCore.Foundation

structure FairRun {σ α : Type*} (step : σ → α → Option σ) (helpful : α → Prop) where
  states : Nat → σ
  labels : Nat → α
  follows : ∀ n, step (states n) (labels n) = some (states (n + 1))
  fair : ∀ n a t, helpful a → step (states n) a = some t → ∃ d, helpful (labels (n + d))

variable {σ α β : Type*} {step : σ → α → Option σ} {helpful : α → Prop}

theorem FairRun.invariant (run : FairRun step helpful) {I : σ → Prop} (start : I (run.states 0))
    (keep : ∀ s a t, I s → step s a = some t → I t) (n : Nat) : I (run.states n) := by
  induction n with
  | zero => exact start
  | succ n ih => exact keep _ _ _ ih (run.follows n)

/-- What holds until a label comes still holds when it does. -/
theorem FairRun.until (run : FairRun step helpful) {P : α → Prop} {Q : σ → Prop} {n d : Nat}
    (keeps : ∀ m, n ≤ m → Q (run.states m) → ¬ P (run.labels m) → Q (run.states (m + 1)))
    (now : Q (run.states n)) (comes : P (run.labels (n + d))) :
    ∃ m, n ≤ m ∧ Q (run.states m) ∧ P (run.labels m) := by
  induction d generalizing n with
  | zero => exact ⟨n, Nat.le_refl n, now, comes⟩
  | succ d ih =>
    by_cases here : P (run.labels n)
    · exact ⟨n, Nat.le_refl n, now, here⟩
    · obtain ⟨m, later, reached⟩ := ih (fun m later => keeps m (Nat.le_of_succ_le later))
        (keeps n (Nat.le_refl n) now here) (by rwa [show n + 1 + d = n + (d + 1) by omega])
      exact ⟨m, Nat.le_of_succ_le later, reached⟩

/-- A run that ends where nothing helps any more goes on by a label that changes nothing. -/
def FairRun.ofExec (as : List α) {s t : σ} (run : exec step s as = some t) (idle : α) (stays : step t idle = some t)
    (quiet : ∀ a u, helpful a → step t a ≠ some u) (last : ∀ a ∈ as.getLast?, helpful a) : FairRun step helpful where
  states n := (exec step s (as.take n)).getD t
  labels n := (as[n]?).getD idle
  follows := by
    intro n
    rcases Nat.lt_or_ge n as.length with inside | outside
    · have parts := as.take_append_drop n
      rw [List.drop_eq_getElem_cons inside] at parts
      rw [← parts, exec_append] at run
      obtain ⟨m, first, later⟩ := Option.bind_eq_some_iff.mp run
      obtain ⟨u, taken, _⟩ := exec_cons_some later
      have next : exec step m [as[n]] = some u := by
        rw [exec_cons, taken]
        rfl
      rw [List.take_add_one, List.getElem?_eq_getElem inside, Option.getD_some, Option.toList_some, exec_append, first,
        Option.bind_some, next]
      exact taken
    · rw [List.take_of_length_le outside, List.take_of_length_le (Nat.le_succ_of_le outside), run,
        List.getElem?_eq_none outside]
      exact stays
  fair := by
    intro n a u helps taken
    rcases Nat.lt_or_ge n as.length with inside | outside
    · have found : as.getLast? = as[as.length - 1]? := List.getLast?_eq_getElem?
      obtain ⟨b, known⟩ : ∃ b, as[as.length - 1]? = some b := ⟨_, List.getElem?_eq_getElem (by omega)⟩
      refine ⟨as.length - 1 - n, ?_⟩
      rw [show n + (as.length - 1 - n) = as.length - 1 by omega, known]
      exact last b (found.trans known)
    · rw [List.take_of_length_le outside, run] at taken
      exact absurd taken (quiet a u helps)

/-! ### A run that repeats a cycle -/

/-- What is left to do, the cycle again after it. -/
def again (cycle : List α) : List α → List α
  | [] => cycle
  | rest => rest

section Again

variable {cycle : List α} {labels : Nat → α} {todos : Nat → List α}

theorem again_comes (works : ∀ n, ∃ rest, todos n = labels n :: rest ∧ todos (n + 1) = again cycle rest) {n : Nat}
    {a : α} (member : a ∈ todos n) : ∃ d, labels (n + d) = a := by
  obtain ⟨todo, same⟩ : ∃ todo, todos n = todo := ⟨_, rfl⟩
  rw [same] at member
  induction todo generalizing n with
  | nil => contradiction
  | cons b todo ih =>
    obtain ⟨rest, now, next⟩ := works n
    obtain ⟨rfl, rfl⟩ := List.cons.inj (now.symm.trans same)
    rcases List.mem_cons.mp member with rfl | later
    · exact ⟨0, rfl⟩
    · have onwards : todos (n + 1) = rest := by
        rw [next]
        cases rest with
        | nil => contradiction
        | cons c rest => rfl
      obtain ⟨d, found⟩ := ih later onwards
      exact ⟨d + 1, by rwa [show n + (d + 1) = n + 1 + d by omega]⟩

theorem again_turns (works : ∀ n, ∃ rest, todos n = labels n :: rest ∧ todos (n + 1) = again cycle rest) (n : Nat) :
    ∃ d, todos (n + d) = cycle := by
  obtain ⟨todo, same⟩ : ∃ todo, todos n = todo := ⟨_, rfl⟩
  induction todo generalizing n with
  | nil =>
    obtain ⟨_, now, _⟩ := works n
    rw [same] at now
    contradiction
  | cons b todo ih =>
    obtain ⟨rest, now, next⟩ := works n
    obtain ⟨rfl, rfl⟩ := List.cons.inj (now.symm.trans same)
    cases rest with
    | nil => exact ⟨1, next⟩
    | cons c rest =>
      obtain ⟨d, found⟩ := ih (n + 1) next
      exact ⟨d + 1, by rwa [show n + (d + 1) = n + 1 + d by omega]⟩

theorem again_recurs (works : ∀ n, ∃ rest, todos n = labels n :: rest ∧ todos (n + 1) = again cycle rest) (n : Nat)
    {a : α} (member : a ∈ cycle) : ∃ d, labels (n + d) = a := by
  obtain ⟨d, turned⟩ := again_turns works n
  obtain ⟨e, found⟩ := again_comes works (turned ▸ member : a ∈ todos (n + d))
  exact ⟨d + e, by rwa [← Nat.add_assoc]⟩

end Again

/-- The work that is left meets `cond` and ends in a state that the cycle can start from. -/
structure Turning (step : σ → α → Option σ) (cond : σ → α → Prop) (T : σ → Prop) (s : σ) (todo : List α) : Prop where
  nonempty : todo ≠ []
  met : Meets step cond s todo
  ends : ∃ t, exec step s todo = some t ∧ T t

theorem Turning.next {cond : σ → α → Prop} {T : σ → Prop} {cycle : List α} (nonempty : cycle ≠ [])
    (turns : ∀ u, T u → ∃ v, exec step u cycle = some v ∧ T v ∧ Meets step cond u cycle) {s : σ} {a : α}
    {rest : List α} (now : Turning step cond T s (a :: rest)) :
    ∃ t, step s a = some t ∧ Turning step cond T t (again cycle rest) := by
  obtain ⟨u, run, last⟩ := now.ends
  obtain ⟨t, taken, run⟩ := exec_cons_some run
  refine ⟨t, taken, ?_⟩
  cases rest with
  | nil =>
    obtain rfl := Option.some.inj run
    obtain ⟨v, run, last, met⟩ := turns t last
    exact ⟨nonempty, met, v, run, last⟩
  | cons b rest => exact ⟨by simp [again], (now.met t taken).2, u, run, last⟩

/-- A run goes on forever by a cycle that leads back to where it can start. -/
theorem FairRun.exists_lasso (cond : σ → α → Prop) (T : σ → Prop) {pre cycle : List α} {s t : σ}
    (first : exec step s pre = some t) (met : Meets step cond s pre) (begins : T t)
    (turns : ∀ u, T u → ∃ v, exec step u cycle = some v ∧ T v ∧ Meets step cond u cycle)
    (helps : ∃ a ∈ cycle, helpful a) :
    ∃ run : FairRun step helpful, run.states 0 = s ∧ (∀ n, cond (run.states n) (run.labels n)) ∧
      ∀ n, ∀ a ∈ cycle, ∃ d, run.labels (n + d) = a := by
  obtain ⟨helping, member, helps⟩ := helps
  have nonempty : cycle ≠ [] := List.ne_nil_of_mem member
  obtain ⟨v, run, last, along⟩ := turns t begins
  have start : Turning step cond T s (pre ++ cycle) :=
    ⟨by simp [nonempty], met.append first along, v, by rw [exec_append, first, Option.bind_some, run], last⟩
  let Work := { w : σ × List α // Turning step cond T w.1 w.2 }
  have work (w : Work) : ∃ (a : α) (rest : List α) (u : Work), w.1.2 = a :: rest ∧ u.1.2 = again cycle rest ∧
      step w.1.1 a = some u.1.1 := by
    obtain ⟨⟨s, todo⟩, now⟩ := w
    cases todo with
    | nil => exact absurd rfl now.nonempty
    | cons a rest =>
      obtain ⟨t, taken, next⟩ := now.next nonempty turns
      exact ⟨a, rest, ⟨(t, again cycle rest), next⟩, rfl, rfl, taken⟩
  choose label rest next now then_ follows using work
  let at_ (n : Nat) : Work := Nat.rec ⟨(s, pre ++ cycle), start⟩ (fun _ w => next w) n
  have works (n : Nat) : ∃ rest, (at_ n).1.2 = label (at_ n) :: rest ∧ (at_ (n + 1)).1.2 = again cycle rest :=
    ⟨rest (at_ n), now (at_ n), then_ (at_ n)⟩
  have recurs (n : Nat) (a : α) (member : a ∈ cycle) : ∃ d, label (at_ (n + d)) = a := again_recurs works n member
  refine ⟨⟨fun n => (at_ n).1.1, fun n => label (at_ n), fun n => follows (at_ n), fun n _ _ _ _ => ?_⟩, rfl,
    fun n => ?_, recurs⟩
  · obtain ⟨d, found⟩ := recurs n helping member
    exact ⟨d, found ▸ helps⟩
  · have met := (at_ n).2.met
    rw [now (at_ n)] at met
    exact (met _ (follows (at_ n))).1

/-- A fair run leaves `inside` by some step, and is in `inside` up to then. -/
theorem FairRun.leaves {less : β → β → Prop} (wf : WellFounded less) (inside : σ → Prop) (rank : σ → β)
    (enabled : ∀ s, inside s → ∃ a t, helpful a ∧ step s a = some t)
    (lowers : ∀ s a t, inside s → step s a = some t → helpful a → inside t → less (rank t) (rank s))
    (keeps : ∀ s a t, inside s → step s a = some t → ¬ helpful a → inside t →
      rank t = rank s ∨ less (rank t) (rank s))
    (run : FairRun step helpful) (n : Nat) (begins : inside (run.states n)) :
    ∃ d, (∀ i, i ≤ d → inside (run.states (n + i))) ∧ ¬ inside (run.states (n + d + 1)) := by
  have later (n : Nat) (begins : inside (run.states n))
      (rest : ∃ d, (∀ i, i ≤ d → inside (run.states (n + 1 + i))) ∧ ¬ inside (run.states (n + 1 + d + 1))) :
      ∃ d, (∀ i, i ≤ d → inside (run.states (n + i))) ∧ ¬ inside (run.states (n + d + 1)) := by
    obtain ⟨d, within, out⟩ := rest
    refine ⟨d + 1, ?_, ?_⟩
    · intro i bound
      cases i with
      | zero => exact begins
      | succ i =>
        have next := within i (by omega)
        rwa [show n + 1 + i = n + (i + 1) by omega] at next
    · rwa [show n + 1 + d + 1 = n + (d + 1) + 1 by omega] at out
  generalize value : rank (run.states n) = b
  induction b using wf.induction generalizing n with
  | _ b lower =>
    have comes : ∃ d, helpful (run.labels (n + d)) := by
      obtain ⟨a, t, helps, next⟩ := enabled _ begins
      exact run.fair n a t helps next
    obtain ⟨d, comes⟩ := comes
    induction d generalizing n with
    | zero =>
      by_cases stays : inside (run.states (n + 1))
      · have less := lowers _ _ _ begins (run.follows n) comes stays
        rw [value] at less
        exact later n begins (lower _ less (n + 1) stays rfl)
      · refine ⟨0, ?_, stays⟩
        intro i bound
        obtain rfl := Nat.le_zero.mp bound
        exact begins
    | succ d ih =>
      by_cases stays : inside (run.states (n + 1))
      · apply later n begins
        by_cases now : helpful (run.labels n)
        · have less := lowers _ _ _ begins (run.follows n) now stays
          rw [value] at less
          exact lower _ less (n + 1) stays rfl
        · rcases keeps _ _ _ begins (run.follows n) now stays with same | less
          · apply ih (n + 1) stays (same.trans value)
            rwa [show n + 1 + d = n + (d + 1) by omega]
          · rw [value] at less
            exact lower _ less (n + 1) stays rfl
      · refine ⟨0, ?_, stays⟩
        intro i bound
        obtain rfl := Nat.le_zero.mp bound
        exact begins

end WfcCore.Foundation

import Mathlib.Logic.Basic

/-!
# Runs of a partial step function

A system is a function `step : σ → α → Option σ`: the state after one labelled step, or `none`
when the step is not enabled. `exec` runs a list of labels. `Always` speaks about every state of
a run and `Meets` about every step of it; `always_iff_meets` is the rule that turns an exact
condition on single steps into an exact condition on runs.
-/

namespace WfcCore.Foundation

variable {σ α : Type*} (step : σ → α → Option σ)

def exec : σ → List α → Option σ
  | s, [] => some s
  | s, a :: rest => (step s a).bind fun t => exec t rest

/-- Every step that the run takes is taken in a state that meets `cond`. -/
def Meets (cond : σ → α → Prop) : σ → List α → Prop
  | _, [] => True
  | s, a :: rest => ∀ t, step s a = some t → cond s a ∧ Meets cond t rest

/-- `P` holds in every state of the run, the first and the last included. -/
def Always (P : σ → Prop) : σ → List α → Prop
  | s, [] => P s
  | s, a :: rest => P s ∧ ∀ t, step s a = some t → Always P t rest

variable {step}

instance decidableMeets (cond : σ → α → Prop) [∀ s a, Decidable (cond s a)] :
    (s : σ) → (as : List α) → Decidable (Meets step cond s as)
  | _, [] => isTrue trivial
  | s, a :: rest =>
    match enabled : step s a with
    | none => isTrue fun t taken => by rw [enabled] at taken; contradiction
    | some t =>
      have := decidableMeets cond t rest
      decidable_of_iff (cond s a ∧ Meets step cond t rest) <| by
        constructor
        · intro h u taken
          obtain rfl := Option.some.inj (enabled.symm.trans taken)
          exact h
        · exact fun h => h t enabled

@[simp] theorem exec_nil (s : σ) : exec step s [] = some s := rfl

@[simp] theorem exec_cons (s : σ) (a : α) (rest : List α) :
    exec step s (a :: rest) = (step s a).bind fun t => exec step t rest := rfl

theorem exec_append (s : σ) (first rest : List α) :
    exec step s (first ++ rest) = (exec step s first).bind fun t => exec step t rest := by
  induction first generalizing s with
  | nil => rfl
  | cons a first ih =>
    rw [List.cons_append, exec_cons, exec_cons]
    cases step s a with
    | none => rfl
    | some t => exact ih t

theorem exec_cons_some {s t : σ} {a : α} {rest : List α} (h : exec step s (a :: rest) = some t) :
    ∃ m, step s a = some m ∧ exec step m rest = some t := by
  rw [exec_cons, Option.bind_eq_some_iff] at h
  exact h

theorem exec_invariant {Inv : σ → Prop}
    (preserve : ∀ s a t, Inv s → step s a = some t → Inv t)
    {s t : σ} {as : List α} (start : Inv s) (h : exec step s as = some t) : Inv t := by
  induction as generalizing s with
  | nil =>
    obtain rfl := Option.some.inj h
    exact start
  | cons a rest ih =>
    obtain ⟨m, first, h⟩ := exec_cons_some h
    exact ih (preserve s a m start first) h

/-- Runs of one system are followed by another that can match its steps. -/
theorem exec_simulates {τ : Type*} {step' : τ → α → Option τ} (R : σ → τ → Prop)
    (matched : ∀ s s' a t, R s s' → step s a = some t → ∃ t', step' s' a = some t' ∧ R t t')
    {s t : σ} {s' : τ} {as : List α} (related : R s s') (h : exec step s as = some t) :
    ∃ t', exec step' s' as = some t' ∧ R t t' := by
  induction as generalizing s s' with
  | nil =>
    obtain rfl := Option.some.inj h
    exact ⟨s', rfl, related⟩
  | cons a rest ih =>
    obtain ⟨m, first, h⟩ := exec_cons_some h
    obtain ⟨m', first', next⟩ := matched s s' a m related first
    obtain ⟨t', run, last⟩ := ih next h
    exact ⟨t', by rw [exec_cons, first', Option.bind_some, run], last⟩

/-- An invariant that may also speak about the labels of the run so far. -/
theorem exec_history (Inv : List α → σ → Prop) {s : σ} (start : Inv [] s)
    (preserve : ∀ before m a t, Inv before m → step m a = some t → Inv (before ++ [a]) t)
    {as : List α} {t : σ} (h : exec step s as = some t) : Inv as t := by
  have along (rest before : List α) (m : σ) (now : Inv before m) (run : exec step m rest = some t) :
      Inv (before ++ rest) t := by
    induction rest generalizing before m with
    | nil =>
      obtain rfl := Option.some.inj run
      rw [List.append_nil]
      exact now
    | cons a rest ih =>
      obtain ⟨next, first, run⟩ := exec_cons_some run
      rw [List.append_cons]
      exact ih (before ++ [a]) next (preserve before m a next now first) run
  exact along as [] s start h

theorem Always.head {P : σ → Prop} {s : σ} {as : List α} (h : Always step P s as) : P s := by
  cases as with
  | nil => exact h
  | cons a rest => exact h.1

theorem Always.last {P : σ → Prop} {s t : σ} {as : List α} (h : Always step P s as)
    (run : exec step s as = some t) : P t := by
  induction as generalizing s with
  | nil =>
    obtain rfl := Option.some.inj run
    exact h
  | cons a rest ih =>
    obtain ⟨m, first, run⟩ := exec_cons_some run
    exact ih (h.2 m first) run

theorem Always.mono {P Q : σ → Prop} (weaker : ∀ s, P s → Q s) {s : σ} {as : List α}
    (h : Always step P s as) : Always step Q s as := by
  induction as generalizing s with
  | nil => exact weaker s h
  | cons a rest ih => exact ⟨weaker s h.1, fun t first => ih (h.2 t first)⟩

theorem always_invariant {Inv : σ → Prop}
    (preserve : ∀ s a t, Inv s → step s a = some t → Inv t)
    {s : σ} (start : Inv s) (as : List α) : Always step Inv s as := by
  induction as generalizing s with
  | nil => exact start
  | cons a rest ih => exact ⟨start, fun t first => ih (preserve s a t start first)⟩

theorem always_of_meets {Inv : σ → Prop} {cond : σ → α → Prop}
    (preserve : ∀ s a t, Inv s → cond s a → step s a = some t → Inv t)
    {s : σ} {as : List α} (start : Inv s) (h : Meets step cond s as) : Always step Inv s as := by
  induction as generalizing s with
  | nil => exact start
  | cons a rest ih =>
    refine ⟨start, fun t first => ?_⟩
    obtain ⟨now, later⟩ := h t first
    exact ih (preserve s a t start now first) later

/-- Conditions that agree in the states of a run are met by the same runs. -/
theorem meets_congr {Inv : σ → Prop} {cond cond' : σ → α → Prop}
    (preserve : ∀ s a t, Inv s → step s a = some t → Inv t) (same : ∀ s a, Inv s → (cond s a ↔ cond' s a))
    {s : σ} (start : Inv s) (as : List α) : Meets step cond s as ↔ Meets step cond' s as := by
  induction as generalizing s with
  | nil => exact Iff.rfl
  | cons a rest ih =>
    apply forall_congr'
    intro t
    apply forall_congr'
    intro taken
    exact and_congr (same s a start) (ih (preserve s a t start taken))

theorem meets_of_forall {cond : σ → α → Prop} (every : ∀ s a, cond s a) (s : σ) (as : List α) :
    Meets step cond s as := by
  induction as generalizing s with
  | nil => trivial
  | cons a rest ih => exact fun t _ => ⟨every s a, ih t⟩

/-- A condition on the steps of a run, with an invariant that it keeps, gives another. -/
theorem Meets.mono {Inv : σ → Prop} {cond cond' : σ → α → Prop}
    (preserve : ∀ s a t, Inv s → cond s a → step s a = some t → Inv t)
    (implies : ∀ s a, Inv s → cond s a → cond' s a)
    {s : σ} {as : List α} (start : Inv s) (h : Meets step cond s as) : Meets step cond' s as := by
  induction as generalizing s with
  | nil => trivial
  | cons a rest ih =>
    intro t taken
    obtain ⟨now, later⟩ := h t taken
    exact ⟨implies s a start now, ih (preserve s a t start now taken) later⟩

/-- A condition that follows from what is invariant for the labels of the run so far. -/
theorem meets_history (Inv : List α → σ → Prop) {cond : σ → α → Prop} {s : σ} {as : List α} (start : Inv [] s)
    (kept : ∀ before m a t, before ++ [a] <+: as → Inv before m → step m a = some t →
      cond m a ∧ Inv (before ++ [a]) t) : Meets step cond s as := by
  have along (rest before : List α) (m : σ) (cut : before ++ rest = as) (now : Inv before m) :
      Meets step cond m rest := by
    induction rest generalizing before m with
    | nil => trivial
    | cons a rest ih =>
      intro t taken
      rw [List.append_cons] at cut
      obtain ⟨here, next⟩ := kept before m a t ⟨rest, cut⟩ now taken
      exact ⟨here, ih (before ++ [a]) t cut next⟩
  exact along as [] s rfl start

theorem Meets.rest {cond : σ → α → Prop} {s m : σ} {first rest : List α} (h : Meets step cond s (first ++ rest))
    (run : exec step s first = some m) : Meets step cond m rest := by
  induction first generalizing s with
  | nil =>
    obtain rfl := Option.some.inj run
    exact h
  | cons a first ih =>
    obtain ⟨next, taken, run⟩ := exec_cons_some run
    exact ih (h next taken).2 run

theorem Meets.append {cond : σ → α → Prop} {s m : σ} {first rest : List α} (h : Meets step cond s first)
    (run : exec step s first = some m) (later : Meets step cond m rest) : Meets step cond s (first ++ rest) := by
  induction first generalizing s with
  | nil =>
    obtain rfl := Option.some.inj run
    exact later
  | cons a first ih =>
    intro t taken
    obtain ⟨next, taken', run⟩ := exec_cons_some run
    obtain rfl := Option.some.inj (taken.symm.trans taken')
    exact ⟨(h t taken).1, ih (h t taken).2 run⟩

/-- When a step keeps `P` exactly if it meets `cond`, a run keeps `P` throughout exactly if all
its steps meet `cond`. The invariant is what the exactness of a step may assume. -/
theorem always_iff_meets (Inv : σ → Prop) {P : σ → Prop} {cond : σ → α → Prop}
    (preserve : ∀ s a t, Inv s → P s → step s a = some t → Inv t)
    (exact_step : ∀ s a t, Inv s → P s → step s a = some t → (P t ↔ cond s a))
    {s : σ} (start : Inv s) (holds : P s) (as : List α) :
    Always step P s as ↔ Meets step cond s as := by
  induction as generalizing s with
  | nil => exact ⟨fun _ => trivial, fun _ => holds⟩
  | cons a rest ih =>
    constructor
    · intro h t first
      have later := h.2 t first
      have next := later.head
      exact ⟨(exact_step s a t start holds first).mp next,
        (ih (preserve s a t start holds first) next).mp later⟩
    · intro h
      refine ⟨holds, fun t first => ?_⟩
      obtain ⟨now, later⟩ := h t first
      have next := (exact_step s a t start holds first).mpr now
      exact (ih (preserve s a t start holds first) next).mpr later

end WfcCore.Foundation

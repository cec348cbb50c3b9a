import WfcCore.Foundation.Run
import Mathlib.Order.WellFounded

/-!
# Refinement between two systems

A lower system takes several steps for one step of an upper system. `abs` reads the upper state off the
lower one, and `label` says which upper step a lower step is: `none` is an internal step. `Refinement.run`
carries runs upwards, and where internal steps come to an end `Realisation.reaches` carries them both ways.
-/

namespace WfcCore.Foundation

variable {σ α τ β : Type*}

/-- `cond` is what the lower system asks of its environment, `Inv` what it keeps meanwhile. -/
structure Refinement (step : σ → α → Option σ) (step' : τ → β → Option τ) where
  Inv : σ → Prop
  cond : σ → α → Prop
  abs : σ → τ
  label : σ → α → Option β
  keep : ∀ {s a t}, Inv s → cond s a → step s a = some t → Inv t
  matched : ∀ {s a t}, Inv s → cond s a → step s a = some t →
    exec step' (abs s) (label s a).toList = some (abs t)

variable {step : σ → α → Option σ} {step' : τ → β → Option τ}

theorem exec_single (s : σ) (a : α) : exec step s [a] = step s a := by
  rw [exec_cons]
  exact Option.bind_fun_some _

namespace Refinement

/-- The upper steps of a lower run. -/
def trace (r : Refinement step step') : σ → List α → List β
  | _, [] => []
  | s, a :: rest => (r.label s a).toList ++ ((step s a).elim [] fun t => r.trace t rest)

theorem trace_cons (r : Refinement step step') {s t : σ} {a : α} (rest : List α) (taken : step s a = some t) :
    r.trace s (a :: rest) = (r.label s a).toList ++ r.trace t rest := by
  rw [trace, taken]
  rfl

theorem run (r : Refinement step step') {s t : σ} {as : List α} (start : r.Inv s) (met : Meets step r.cond s as)
    (h : exec step s as = some t) : r.Inv t ∧ exec step' (r.abs s) (r.trace s as) = some (r.abs t) := by
  induction as generalizing s with
  | nil =>
    obtain rfl := Option.some.inj h
    exact ⟨start, rfl⟩
  | cons a rest ih =>
    obtain ⟨m, first, h⟩ := exec_cons_some h
    obtain ⟨now, later⟩ := met m first
    obtain ⟨last, upper⟩ := ih (r.keep start now first) later h
    refine ⟨last, ?_⟩
    rw [r.trace_cons rest first, exec_append, r.matched start now first, Option.bind_some, upper]

end Refinement

/-- A refinement whose internal steps lead to rest, where every upper step has a lower one. -/
structure Realisation (step : σ → α → Option σ) (step' : τ → β → Option τ) (ρ : Type*) [LT ρ]
    extends Refinement step step' where
  Rest : σ → Prop
  rank : σ → ρ
  progress : ∀ {s}, Inv s → ¬ Rest s →
    ∃ a t, step s a = some t ∧ cond s a ∧ label s a = none ∧ rank t < rank s
  enabled : ∀ {s b w}, Inv s → Rest s → step' (abs s) b = some w →
    ∃ a t, step s a = some t ∧ cond s a ∧ label s a = some b

namespace Realisation

variable {ρ : Type*} [LT ρ]

/-- Internal steps alone lead from every state to rest. -/
theorem comes_to_rest [WellFoundedLT ρ] (r : Realisation step step' ρ) {s : σ} (start : r.Inv s) :
    ∃ as t, exec step s as = some t ∧ Meets step r.cond s as ∧ r.Inv t ∧ r.Rest t ∧ r.abs t = r.abs s := by
  generalize same : r.rank s = rank
  induction rank using WellFoundedLT.induction generalizing s with
  | ind rank ih =>
    by_cases resting : r.Rest s
    · exact ⟨[], s, rfl, trivial, start, resting, rfl⟩
    · obtain ⟨a, m, taken, now, internal, lower⟩ := r.progress start resting
      have keeps : r.abs m = r.abs s := by
        have matched := r.matched start now taken
        rw [internal] at matched
        exact (Option.some.inj matched).symm
      obtain ⟨as, t, run, met, inv, rest, abs⟩ := ih (r.rank m) (same ▸ lower) (r.keep start now taken) rfl
      refine ⟨a :: as, t, ?_, ?_, inv, rest, abs.trans keeps⟩
      · rw [exec_cons, taken, Option.bind_some, run]
      · intro u taken'
        obtain rfl := Option.some.inj (taken.symm.trans taken')
        exact ⟨now, met⟩

/-- A step of the upper system is a run of the lower one from rest to rest. -/
theorem realised [WellFoundedLT ρ] (r : Realisation step step' ρ) {s : σ} {b : β} {w : τ} (start : r.Inv s)
    (resting : r.Rest s) (upper : step' (r.abs s) b = some w) :
    ∃ as t, exec step s as = some t ∧ Meets step r.cond s as ∧ r.Inv t ∧ r.Rest t ∧ r.abs t = w := by
  obtain ⟨a, m, taken, now, labelled⟩ := r.enabled start resting upper
  have reached : r.abs m = w := by
    have matched := r.matched start now taken
    rw [labelled, Option.toList_some, exec_cons, upper] at matched
    exact (Option.some.inj matched).symm
  obtain ⟨as, t, run, met, inv, rest, abs⟩ := r.comes_to_rest (r.keep start now taken)
  refine ⟨a :: as, t, ?_, ?_, inv, rest, abs.trans reached⟩
  · rw [exec_cons, taken, Option.bind_some, run]
  · intro u taken'
    obtain rfl := Option.some.inj (taken.symm.trans taken')
    exact ⟨now, met⟩

/-- What the lower system shows at rest is what the upper system reaches. -/
theorem reaches [WellFoundedLT ρ] (r : Realisation step step' ρ) {s : σ} (start : r.Inv s) (resting : r.Rest s)
    (w : τ) :
    (∃ as t, exec step s as = some t ∧ Meets step r.cond s as ∧ r.Rest t ∧ r.abs t = w) ↔
      ∃ bs, exec step' (r.abs s) bs = some w := by
  constructor
  · rintro ⟨as, t, run, met, _, rfl⟩
    exact ⟨_, (r.run start met run).2⟩
  · rintro ⟨bs, upper⟩
    induction bs generalizing s with
    | nil =>
      obtain rfl := Option.some.inj upper
      exact ⟨[], s, rfl, trivial, resting, rfl⟩
    | cons b rest ih =>
      obtain ⟨m, first, upper⟩ := exec_cons_some upper
      obtain ⟨as, t, run, met, inv, rested, rfl⟩ := r.realised start resting first
      obtain ⟨later, u, run', met', rested', abs⟩ := ih inv rested upper
      refine ⟨as ++ later, u, ?_, met.append run met', rested', abs⟩
      rw [exec_append, run, Option.bind_some, run']

end Realisation

end WfcCore.Foundation

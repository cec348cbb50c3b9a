import Mathlib.Logic.Function.Basic
import WfcCore.Foundation.Run

/-!
# Timers in slots

A component keeps the id of each of its timers in a slot. It releases what a slot holds, writes a value that
stands for no timer, or creates a timer and stores its id. A list of such operations is disciplined when it
overwrites only slots that it has released before: then no slot has more than one timer.
-/

namespace WfcCore.Foundation

/-- The values that stand for no timer. -/
def NoTimer (id : Int) : Prop := id = 0 ∨ id = -1

instance (id : Int) : Decidable (NoTimer id) := inferInstanceAs (Decidable (_ ∨ _))

/-- The id that is issued after others. -/
structure TimerService where
  fresh : List Int → Int
  new : ∀ issued, fresh issued ∉ issued
  valid : ∀ issued, ¬ NoTimer (fresh issued)

/-- A component as its timers see it. `unset` are the slots that nothing has been written to, `got` the ids that
were issued to the component and `elsewhere` those issued to others, `live` the running timers created for a slot,
and `foreign` what was released without being the component's own. -/
structure Timers (κ : Type) where
  slots : κ → Int
  unset : κ → Bool
  got : List Int
  elsewhere : List Int
  live : κ → List Int
  foreign : List Int

inductive TimerOp (κ : Type) where
  | release (slot : κ)
  | reset (slot : κ) (value : Int)
  | create (slot : κ)
deriving DecidableEq

variable {κ : Type} [DecidableEq κ]

def Timers.Own (s : Timers κ) (id : Int) : Prop := id ∈ s.got ∨ NoTimer id

instance (s : Timers κ) (id : Int) : Decidable (s.Own id) := inferInstanceAs (Decidable (_ ∨ _))

def TimerService.next (service : TimerService) (s : Timers κ) : Int := service.fresh (s.got ++ s.elsewhere)

def TimerOp.apply (service : TimerService) (s : Timers κ) : TimerOp κ → Timers κ
  | .release k =>
    { s with
      live := fun j => (s.live j).filter (· ≠ s.slots k)
      foreign := if s.Own (s.slots k) then s.foreign else s.foreign ++ [s.slots k] }
  | .reset k value =>
    { s with
      slots := Function.update s.slots k value
      unset := Function.update s.unset k false }
  | .create k =>
    { s with
      slots := Function.update s.slots k (service.next s)
      unset := Function.update s.unset k false
      got := s.got ++ [service.next s]
      live := Function.update s.live k (s.live k ++ [service.next s]) }

def applyOps (service : TimerService) (s : Timers κ) (ops : List (TimerOp κ)) : Timers κ :=
  ops.foldl (TimerOp.apply service) s

def opStep (service : TimerService) (s : Timers κ) (op : TimerOp κ) : Option (Timers κ) := some (op.apply service s)

/-- The slots that are known to have no timer after an operation, and whether it may be made. -/
def TimerOp.frees (free : List κ) : TimerOp κ → List κ
  | .release k => k :: free
  | .reset _ _ => free
  | .create k => free.filter (· ≠ k)

def TimerOp.Allowed (free : List κ) : TimerOp κ → Prop
  | .release _ => True
  | .reset k value => k ∈ free ∧ NoTimer value
  | .create k => k ∈ free

def Disciplined : List κ → List (TimerOp κ) → Prop
  | _, [] => True
  | free, op :: rest => op.Allowed free ∧ Disciplined (op.frees free) rest

structure Held (s : Timers κ) : Prop where
  running : ∀ k, s.live k = [] ∨ s.live k = [s.slots k]
  own : ∀ k, s.unset k = false → s.Own (s.slots k)
  apart : ∀ id ∈ s.elsewhere, ¬ s.Own id

/-- A slot that is released while nothing has been written to it happens to hold a value for no timer. -/
def Settled (s : Timers κ) (ops : List (TimerOp κ)) : Prop :=
  ∀ k, .release k ∈ ops → s.unset k = true → NoTimer (s.slots k)

/-- Nothing foreign is released and no slot has two timers. -/
structure Owned (s : Timers κ) : Prop where
  foreign : s.foreign = []
  single : ∀ k, (s.live k).length ≤ 1

/-- The operation does not end a timer of somebody else. -/
def Spares (s : Timers κ) : TimerOp κ → Prop
  | .release k => s.slots k ∉ s.elsewhere
  | _ => True

variable {service : TimerService} {s : Timers κ} {op : TimerOp κ} {ops rest : List (TimerOp κ)} {free : List κ}

omit [DecidableEq κ] in
theorem Held.owned (h : Held s) (none : s.foreign = []) : Owned s where
  foreign := none
  single k := by
    rcases h.running k with idle | one
    · rw [idle]
      exact Nat.zero_le 1
    · rw [one]
      exact Nat.le_refl 1

theorem own_create (k : κ) {id : Int} (h : s.Own id) : (TimerOp.apply service s (.create k)).Own id := by
  rcases h with got | none
  · exact Or.inl (List.mem_append_left _ got)
  · exact Or.inr none

omit [DecidableEq κ] in
theorem next_elsewhere (service : TimerService) (s : Timers κ) : service.next s ∉ s.elsewhere :=
  fun h => service.new _ (List.mem_append_right _ h)

/-- Ending a timer leaves a slot with its one timer or without. -/
theorem filter_running {ids : List Int} {id : Int} (stays : Int → Bool) (running : ids = [] ∨ ids = [id]) :
    ids.filter stays = [] ∨ ids.filter stays = [id] := by
  rcases running with rfl | rfl
  · exact Or.inl List.filter_nil
  · rw [List.filter_cons, List.filter_nil]
    split
    · exact Or.inr rfl
    · exact Or.inl rfl

theorem Held.apply (h : Held s) (idle : ∀ k ∈ free, s.live k = []) (allowed : op.Allowed free) :
    Held (op.apply service s) := by
  cases op with
  | release k => exact ⟨fun j => filter_running _ (h.running j), h.own, h.apart⟩
  | reset k value =>
    obtain ⟨released, none⟩ := allowed
    refine ⟨fun j => ?_, fun j set => ?_, h.apart⟩
    · rcases eq_or_ne j k with rfl | apart
      · exact Or.inl (idle j released)
      · simp only [TimerOp.apply]
        rw [Function.update_of_ne apart]
        exact h.running j
    · simp only [TimerOp.apply] at set ⊢
      rcases eq_or_ne j k with rfl | apart
      · rw [Function.update_self]
        exact Or.inr none
      · rw [Function.update_of_ne apart] at set ⊢
        exact h.own j set
  | create k =>
    refine ⟨fun j => ?_, fun j set => ?_, fun id other own => ?_⟩
    · simp only [TimerOp.apply]
      rcases eq_or_ne j k with rfl | apart
      · rw [Function.update_self, Function.update_self, idle j allowed]
        exact Or.inr rfl
      · rw [Function.update_of_ne apart, Function.update_of_ne apart]
        exact h.running j
    · rcases eq_or_ne j k with rfl | apart
      · simp only [TimerOp.apply]
        rw [Function.update_self]
        exact Or.inl (List.mem_append_right _ (List.mem_singleton_self _))
      · simp only [TimerOp.apply] at set ⊢
        rw [Function.update_of_ne apart] at set ⊢
        exact own_create k (h.own j set)
    · rcases own with got | none
      · rcases List.mem_append.mp got with old | new
        · exact h.apart id other (Or.inl old)
        · obtain rfl := List.mem_singleton.mp new
          exact next_elsewhere service s other
      · exact h.apart id other (Or.inr none)

theorem Held.release_idle (h : Held s) (k : κ) : (TimerOp.apply service s (.release k)).live k = [] := by
  simp only [TimerOp.apply]
  rcases h.running k with none | one
  · rw [none, List.filter_nil]
  · rw [one, List.filter_cons_of_neg (by simp), List.filter_nil]

theorem idle_apply {k : κ} (idle : s.live k = []) (kept : op ≠ .create k) : (op.apply service s).live k = [] := by
  cases op with
  | release j =>
    simp only [TimerOp.apply]
    rw [idle, List.filter_nil]
  | reset j value => exact idle
  | create j =>
    have apart : k ≠ j := by
      rintro rfl
      exact kept rfl
    simp only [TimerOp.apply]
    rw [Function.update_of_ne apart]
    exact idle

theorem Held.frees_idle (h : Held s) (idle : ∀ k ∈ free, s.live k = []) :
    ∀ k ∈ op.frees free, (op.apply service s).live k = [] := by
  intro k mem
  cases op with
  | release j =>
    rcases List.mem_cons.mp mem with rfl | old
    · exact h.release_idle k
    · exact idle_apply (idle k old) (by simp)
  | reset j value => exact idle_apply (idle k mem) (by simp)
  | create j =>
    obtain ⟨old, apart⟩ := List.mem_filter.mp mem
    apply idle_apply (idle k old)
    rintro ⟨⟩
    simp at apart

/-- A slot that nothing has been written to still holds what it held before. -/
theorem unset_of_apply {k : κ} (unset : (op.apply service s).unset k = true) :
    s.unset k = true ∧ (op.apply service s).slots k = s.slots k := by
  have written (j : κ) (value : Int) (unset : Function.update s.unset j false k = true) :
      s.unset k = true ∧ Function.update s.slots j value k = s.slots k := by
    rcases eq_or_ne k j with rfl | apart
    · rw [Function.update_self] at unset
      contradiction
    · rw [Function.update_of_ne apart] at unset ⊢
      exact ⟨unset, rfl⟩
  cases op with
  | release j => exact ⟨unset, rfl⟩
  | reset j value => exact written j value unset
  | create j => exact written j _ unset

theorem Settled.apply (h : Settled s (op :: rest)) : Settled (op.apply service s) rest := by
  intro k released unset
  obtain ⟨before, same⟩ := unset_of_apply unset
  rw [same]
  exact h k (List.mem_cons_of_mem op released) before

omit [DecidableEq κ] in
theorem Held.own_release (h : Held s) {k : κ} (settled : Settled s (.release k :: rest)) : s.Own (s.slots k) := by
  cases unset : s.unset k with
  | false => exact h.own k unset
  | true => exact Or.inr (settled k (List.mem_cons_self ..) unset)

theorem Held.foreign_apply (h : Held s) (settled : Settled s (op :: rest)) : (op.apply service s).foreign = s.foreign := by
  cases op with
  | release k =>
    simp only [TimerOp.apply]
    rw [if_pos (h.own_release settled)]
  | reset k value => rfl
  | create k => rfl

/-! ### Lists of operations -/

/-- What a disciplined list needs of the state it starts in. -/
structure Ready (s : Timers κ) (free : List κ) (ops : List (TimerOp κ)) : Prop where
  held : Held s
  foreign : s.foreign = []
  idle : ∀ k ∈ free, s.live k = []
  disciplined : Disciplined free ops
  settled : Settled s ops

theorem Ready.apply (h : Ready s free (op :: rest)) : Ready (op.apply service s) (op.frees free) rest where
  held := h.held.apply h.idle h.disciplined.1
  foreign := (h.held.foreign_apply h.settled).trans h.foreign
  idle := h.held.frees_idle h.idle
  disciplined := h.disciplined.2
  settled := h.settled.apply

theorem Ready.always (h : Ready s free ops) : Always (opStep service) Owned s ops := by
  induction ops generalizing s free with
  | nil => exact h.held.owned h.foreign
  | cons op rest ih =>
    refine ⟨h.held.owned h.foreign, fun t applied => ?_⟩
    obtain rfl := Option.some.inj applied
    exact ih h.apply

theorem Ready.spares (h : Ready s free ops) : Meets (opStep service) Spares s ops := by
  induction ops generalizing s free with
  | nil => trivial
  | cons op rest ih =>
    intro t applied
    obtain rfl := Option.some.inj applied
    refine ⟨?_, ih h.apply⟩
    cases op with
    | release k =>
      intro other
      exact h.held.apart _ other (h.held.own_release h.settled)
    | reset k value => trivial
    | create k => trivial

theorem Ready.applyOps (h : Ready s free ops) : Held (applyOps service s ops) ∧ (applyOps service s ops).foreign = [] := by
  induction ops generalizing s free with
  | nil => exact ⟨h.held, h.foreign⟩
  | cons op rest ih => exact ih h.apply

/-- After operations that create nothing, only a slot that they do not release may have a timer. -/
theorem Ready.released_idle (h : Ready s free ops) {k : κ} (creates : .create k ∉ ops)
    (covered : .release k ∈ ops ∨ s.live k = []) : (Foundation.applyOps service s ops).live k = [] := by
  induction ops generalizing s free with
  | nil =>
    rcases covered with released | idle
    · contradiction
    · exact idle
  | cons op rest ih =>
    obtain ⟨now, later⟩ := not_or.mp (mt List.mem_cons.mpr creates)
    refine ih h.apply later ?_
    rcases covered with released | idle
    · rcases List.mem_cons.mp released with rfl | released
      · exact Or.inr (h.held.release_idle k)
      · exact Or.inl released
    · exact Or.inr (idle_apply idle (Ne.symm now))

theorem unset_of_applyOps {k : κ} (unset : (applyOps service s ops).unset k = true) :
    s.unset k = true ∧ (applyOps service s ops).slots k = s.slots k := by
  induction ops generalizing s with
  | nil => exact ⟨unset, rfl⟩
  | cons op rest ih =>
    obtain ⟨later, same⟩ := ih unset
    obtain ⟨before, first⟩ := unset_of_apply later
    exact ⟨before, same.trans first⟩

end WfcCore.Foundation

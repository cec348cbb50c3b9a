import Mathlib.Data.List.Basic

/-!
# Feeds drained into one output

Elements come on feeds and wait there, each feed in its own order. At any time what waits on some of the feeds
is passed on to an output that all feeds share.
-/

namespace WfcCore.Foundation

variable {ι α : Type*} [DecidableEq ι]

/-- The elements of an output that came on feed `i`. -/
def onFeed (i : ι) (out : List (ι × α)) : List α :=
  out.filterMap fun a => if a.1 = i then some a.2 else none

@[simp] theorem onFeed_nil (i : ι) : onFeed i ([] : List (ι × α)) = [] := rfl

theorem onFeed_append (i : ι) (first rest : List (ι × α)) :
    onFeed i (first ++ rest) = onFeed i first ++ onFeed i rest :=
  List.filterMap_append

theorem onFeed_self (i : ι) (as : List α) : onFeed i (as.map (Prod.mk i)) = as := by
  simp [onFeed]

theorem onFeed_other {i j : ι} (other : j ≠ i) (as : List α) : onFeed i (as.map (Prod.mk j)) = [] := by
  simp [onFeed, other]

/-- What came on several feeds, each feed as a whole. -/
theorem onFeed_flatMap {feeds : List ι} (distinct : feeds.Nodup) (i : ι) (waiting : ι → List α) :
    onFeed i (feeds.flatMap fun j => (waiting j).map (Prod.mk j)) = if i ∈ feeds then waiting i else [] := by
  induction feeds with
  | nil => rfl
  | cons j rest ih =>
    obtain ⟨fresh, distinct⟩ := List.nodup_cons.mp distinct
    rw [List.flatMap_cons, onFeed_append, ih distinct]
    by_cases here : i = j
    · subst here
      rw [onFeed_self, if_neg fresh, if_pos List.mem_cons_self, List.append_nil]
    · have elsewhere : j ≠ i := fun h => here h.symm
      rw [onFeed_other elsewhere, List.nil_append]
      simp [here]

omit [DecidableEq ι] in
/-- A list read by its positions. -/
theorem flatMap_positions (l : List ι) (f : Option ι → List α) :
    (List.range l.length).flatMap (fun i => f l[i]?) = l.flatMap fun a => f (some a) := by
  induction l with
  | nil => rfl
  | cons a l ih =>
    rw [List.length_cons, List.range_succ_eq_map, List.flatMap_cons, List.flatMap_map, List.flatMap_cons, ← ih]
    rfl

structure Feeds (ι α : Type*) where
  waiting : ι → List α
  out : List (ι × α)

namespace Feeds

variable (f : Feeds ι α)

/-- The waiting elements of some feeds are passed on, feed by feed. -/
def pass (feeds : List ι) : Feeds ι α where
  waiting := fun i => if i ∈ feeds then [] else f.waiting i
  out := f.out ++ feeds.flatMap fun i => (f.waiting i).map (Prod.mk i)

/-- All that ever came on a feed: what was passed on and what still waits. -/
def all (i : ι) : List α := onFeed i f.out ++ f.waiting i

/-- Passing on loses nothing, doubles nothing and keeps the order of each feed. -/
theorem all_pass {feeds : List ι} (distinct : feeds.Nodup) (i : ι) : (f.pass feeds).all i = f.all i := by
  show onFeed i (f.out ++ _) ++ (if i ∈ feeds then [] else f.waiting i) = _
  rw [onFeed_append, onFeed_flatMap distinct]
  by_cases passed : i ∈ feeds
  · rw [if_pos passed, if_pos passed, List.append_nil]
    rfl
  · rw [if_neg passed, if_neg passed, List.append_nil]
    rfl

end Feeds

end WfcCore.Foundation

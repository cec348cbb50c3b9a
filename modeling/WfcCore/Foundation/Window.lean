import Mathlib.Data.List.DropRight
import Mathlib.Order.Lattice

/-!
# Sliding windows

Stamped items arrive in the order of their stamps. A holder that keeps at most `limit` items and lets go of
the old ones whenever it is touched holds what it would find if it kept everything and looked once.
-/

namespace WfcCore.Foundation.Window

variable {α τ : Type} [LinearOrder τ] (stamp : α → τ) (limit : Nat)

/-- Only the newest `limit` items stay, and of these the oldest go as long as they are too old. -/
def trim (die : τ) (held : List α) : List α :=
  (held.drop (held.length - limit)).dropWhile fun item => stamp item < die

/-- The items among the last `limit` that are not too old. -/
def recent (die : τ) (reported : List α) : List α :=
  (reported.drop (reported.length - limit)).filter fun item => die ≤ stamp item

def Ordered (items : List α) : Prop :=
  items.Pairwise fun earlier later => stamp earlier ≤ stamp later

variable {stamp limit}

theorem trim_length (die : τ) (held : List α) : (trim stamp limit die held).length ≤ limit := by
  have shorter := (List.dropWhile_sublist (fun item : α => decide (stamp item < die))
    (l := held.drop (held.length - limit))).length_le
  rw [List.length_drop] at shorter
  unfold trim
  omega

/-- What is left after trimming is left when it is trimmed again at the same time. -/
theorem trim_trim (die : τ) (held : List α) :
    trim stamp limit die (trim stamp limit die held) = trim stamp limit die held := by
  have short : (trim stamp limit die held).length ≤ limit := trim_length die held
  rw [trim, Nat.sub_eq_zero_of_le short, List.drop_zero]
  exact List.dropWhile_idempotent _ _

theorem trim_zero (die : τ) (held : List α) : trim stamp 0 die held = [] :=
  List.eq_nil_of_length_eq_zero (Nat.le_zero.mp (trim_length die held))

theorem trim_nil (die : τ) : trim stamp limit die [] = [] := by
  rw [trim, List.drop_nil, List.dropWhile_nil]

theorem dropWhile_eq_filter {die : τ} {items : List α} (ordered : Ordered stamp items) :
    items.dropWhile (fun item => stamp item < die) = items.filter fun item => die ≤ stamp item := by
  induction items with
  | nil => rfl
  | cons item rest ih =>
    obtain ⟨first, later⟩ := List.pairwise_cons.mp ordered
    by_cases old : stamp item < die
    · rw [List.dropWhile_cons_of_pos (by simpa using old), List.filter_cons_of_neg (by simpa using old)]
      exact ih later
    · have young := le_of_not_gt old
      rw [List.dropWhile_cons_of_neg (by simpa using young)]
      refine (List.filter_eq_self.mpr ?_).symm
      intro other member
      rcases List.mem_cons.mp member with rfl | behind
      · simpa using young
      · simpa using le_trans young (first other behind)

theorem trim_eq_recent {die : τ} {items : List α} (ordered : Ordered stamp items) :
    trim stamp limit die items = recent stamp limit die items :=
  dropWhile_eq_filter (ordered.sublist (List.drop_sublist _ _))

/-- Items that are too old may be cut off at the front. -/
theorem recent_append_of_old {die : τ} {old items : List α} (gone : ∀ item ∈ old, stamp item < die) :
    recent stamp limit die (old ++ items) = recent stamp limit die items := by
  unfold recent
  rw [List.drop_append, List.filter_append, List.length_append]
  have nothing : (old.drop (old.length + items.length - limit)).filter (fun item => die ≤ stamp item) = [] := by
    apply List.filter_eq_nil_iff.mpr
    intro item member
    simpa using gone item (List.mem_of_mem_drop member)
  rw [nothing, List.nil_append, show old.length + items.length - limit - old.length = items.length - limit by omega]

/-- Only the last items count, also when more are added. -/
theorem recent_drop_append {die : τ} (reported more : List α) :
    recent stamp limit die (reported.drop (reported.length - limit) ++ more) =
      recent stamp limit die (reported ++ more) := by
  unfold recent
  rw [← List.drop_append_of_le_length (Nat.sub_le _ _), List.drop_drop, List.length_drop, List.length_append]
  congr 2
  omega

/-- A window trimmed before and trimmed again after more items came, at a time that is not earlier. -/
theorem trim_recent {before die : τ} {reported more : List α} (ordered : Ordered stamp (reported ++ more))
    (later : before ≤ die) :
    trim stamp limit die (recent stamp limit before reported ++ more) =
      recent stamp limit die (reported ++ more) := by
  have first : Ordered stamp (reported.drop (reported.length - limit)) :=
    (List.Pairwise.sublist (List.sublist_append_left _ _) ordered).sublist (List.drop_sublist _ _)
  have kept : recent stamp limit before reported =
      (reported.drop (reported.length - limit)).dropWhile fun item => stamp item < before :=
    (dropWhile_eq_filter first).symm
  have split := List.takeWhile_append_dropWhile (p := fun item => decide (stamp item < before))
    (l := reported.drop (reported.length - limit))
  have gone : ∀ item ∈ (reported.drop (reported.length - limit)).takeWhile (fun item => stamp item < before),
      stamp item < die := by
    intro item member
    exact lt_of_lt_of_le (by simpa using List.mem_takeWhile_imp member) later
  have short : Ordered stamp (recent stamp limit before reported ++ more) := by
    refine ordered.sublist (List.Sublist.append_right ?_ more)
    exact List.filter_sublist.trans (List.drop_sublist _ _)
  calc
    trim stamp limit die (recent stamp limit before reported ++ more)
      = recent stamp limit die (recent stamp limit before reported ++ more) := trim_eq_recent short
    _ = recent stamp limit die (reported.drop (reported.length - limit) ++ more) := by
      rw [kept, ← recent_append_of_old gone, ← List.append_assoc, split]
    _ = recent stamp limit die (reported ++ more) := recent_drop_append reported more

end WfcCore.Foundation.Window

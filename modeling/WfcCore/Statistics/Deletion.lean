import WfcCore.Statistics.Conservation

/-!
# A deletion and the records before it

`del` purges the aggregator and is forwarded at once, while records that already left the aggregator
may sit in the packer until the next tick. So a deletion overtakes exactly the records of its names
that the packer holds.
-/

namespace WfcCore.Statistics

open Foundation

/-- What is relied on of a `multi_aggregator` about the origin of its values. `holds s name i` says
that the state has values of the name that were pushed from number `i` on. -/
structure Provenance (a : MultiAggregator) where
  holds : a.State → String → Nat → Prop
  fresh : ∀ {name i}, ¬ holds a.fresh name i
  push_holds : ∀ {s req name i}, holds (a.push s req).1 name i →
    holds s name i ∨ (name = req.name ∧ i = req.oldest)
  push_hands : ∀ {s req r}, r ∈ (a.push s req).2 →
    holds s r.name r.oldest ∨ (r.name = req.name ∧ r.oldest = req.oldest)
  pushout_holds : ∀ {s name i}, holds (a.pushout s).1 name i → holds s name i
  pushout_hands : ∀ {s r}, r ∈ (a.pushout s).2 → holds s r.name r.oldest
  del_holds : ∀ {s deleted name i}, holds (a.del s deleted) name i → holds s name i ∧ name ≠ deleted

namespace AggregatorDomain

variable {w : Wrtstat} {s t : AggregatorDomain w}

/-- However the run goes on, no record that carries values pushed under a deleted name before this
deletion reaches a target that got the deletion. -/
def DelOrdered (s : AggregatorDomain w) (req : Del) (cb : Bool) : Prop :=
  ∀ after t, exec step (s.del (some req) cb) after = some t → ∀ j, s.live j = true →
    ∀ r ∈ (t.received j).drop (s.received j).length, r.name ∈ req.names → s.pushed ≤ r.oldest

/-- No record of a deleted name waits in the packer for a tick that would bring it to a target. -/
def Unbuffered (s : AggregatorDomain w) (req : Del) : Prop :=
  s.pushoutTimer.isSome = true → (∃ j, s.live j = true) → ∀ r ∈ s.waiting, r.name ∉ req.names

/-! ### The age of what is on its way -/

def Recent (names : List String) (k pushed : Nat) (name : String) (i : Nat) : Prop :=
  i < pushed ∧ (name ∈ names → k ≤ i)

/-- Everything the aggregator and the packer hold, and everything the targets got after `base`, is
recent. Without a timer the packer does not matter, since it is never emptied. -/
structure Since (p : Provenance w.aggregator) (names : List String) (k : Nat) (base : Nat → List Push)
    (s : AggregatorDomain w) : Prop where
  later : k ≤ s.pushed
  held : ∀ {name i}, p.holds s.stat name i → Recent names k s.pushed name i
  packed : s.pushoutTimer.isSome = true → s.relay.Waits fun r => Recent names k s.pushed r.name r.oldest
  got : s.relay.GotSince (fun r => Recent names k s.pushed r.name r.oldest) base

variable {p : Provenance w.aggregator} {names : List String} {k : Nat} {base : Nat → List Push}

theorem Recent.succ {pushed i : Nat} {name : String} (h : Recent names k pushed name i) :
    Recent names k (pushed + 1) name i := ⟨Nat.lt_succ_of_lt h.1, h.2⟩

theorem Since.pushNext (h : s.Since p names k base) {req : Push}
    (fine : Recent names k s.pushed req.name req.oldest) : (s.pushNext req).Since p names k base := by
  have relayed := relay_pushNext s req
  rw [pushNext_frame] at relayed ⊢
  cases packing : s.enabledPacker with
  | true =>
    rw [packing, if_pos rfl] at relayed
    refine ⟨h.later, h.held, fun timed => ?_, ?_⟩
    · rw [relayed]
      exact (h.packed timed).keep fine
    · rw [relayed]
      exact h.got
  | false =>
    rw [packing, if_neg Bool.false_ne_true] at relayed
    refine ⟨h.later, h.held, fun timed => ?_, ?_⟩
    · rw [relayed]
      exact h.packed timed
    · rw [relayed]
      exact h.got.pass fine

theorem Since.pushNextAll {reqs : List Push} (h : s.Since p names k base)
    (fine : ∀ r ∈ reqs, Recent names k s.pushed r.name r.oldest) :
    (reqs.foldl AggregatorDomain.pushNext s).Since p names k base := by
  induction reqs generalizing s with
  | nil => exact h
  | cons r rest ih =>
    apply ih (h.pushNext (fine r List.mem_cons_self))
    intro later member
    have same : (s.pushNext r).pushed = s.pushed := by rw [pushNext_frame]
    rw [same]
    exact fine later (List.mem_cons_of_mem _ member)

theorem Since.mulitPushNextMt (h : s.Since p names k base) (timed : s.pushoutTimer.isSome = true) :
    s.mulitPushNextMt.Since p names k base := by
  have relayed := relay_mulitPushNextMt s
  rw [mulitPushNextMt_frame] at relayed ⊢
  cases none : s.targets.isEmpty with
  | true =>
    rw [none, if_pos rfl] at relayed
    exact ⟨h.later, h.held, fun _ => relayed ▸ h.packed timed, relayed ▸ h.got⟩
  | false =>
    rw [none, if_neg Bool.false_ne_true] at relayed
    refine ⟨h.later, h.held, fun _ => ?_, ?_⟩
    · rw [relayed]
      exact List.forall_mem_nil _
    · rw [relayed]
      exact h.got.flush (h.packed timed)

theorem Since.answer (h : s.Since p names k base) (cb : Bool) (res : Response) :
    (s.answer cb res).Since p names k base := by
  unfold AggregatorDomain.answer
  split
  · exact ⟨h.later, h.held, h.packed, h.got⟩
  · exact h

theorem Since.pushRecord (h : s.Since p names k base) (req : Push) (now : Int) :
    (s.pushRecord req now).Since p names k base := by
  have new : ∀ name, Recent names k (s.pushed + 1) name s.pushed :=
    fun _ => ⟨Nat.lt_succ_self _, fun _ => h.later⟩
  unfold AggregatorDomain.pushRecord
  dsimp only
  split
  · exact h
  · apply Since.pushNextAll
    · refine ⟨Nat.le_succ_of_le h.later, ?_, fun timed r waits => (h.packed timed r waits).succ,
        h.got.mono fun _ => Recent.succ⟩
      intro name i holds
      rcases p.push_holds holds with old | ⟨_, rfl⟩
      · exact (h.held old).succ
      · exact new name
    · intro r member
      rcases p.push_hands member with old | ⟨_, number⟩
      · exact (h.held old).succ
      · rw [number]
        exact new r.name

theorem Since.pushoutTick (h : s.Since p names k base) (timed : s.pushoutTimer.isSome = true) :
    s.pushoutTick.Since p names k base := by
  have popped : ({ s with stat := (w.aggregator.pushout s.stat).1 } : AggregatorDomain w).Since p names k base :=
    ⟨h.later, fun holds => h.held (p.pushout_holds holds), h.packed, h.got⟩
  apply (popped.pushNextAll fun r member => h.held (p.pushout_hands member)).mulitPushNextMt
  rw [pushNextAll_frame]
  exact timed

theorem holds_delAll {stat : w.aggregator.State} {deleted : List String} {name : String} {i : Nat}
    (holds : p.holds (deleted.foldl w.aggregator.del stat) name i) :
    p.holds stat name i ∧ name ∉ deleted := by
  induction deleted generalizing stat with
  | nil => exact ⟨holds, List.not_mem_nil⟩
  | cons d rest ih =>
    obtain ⟨left, later⟩ := ih holds
    obtain ⟨held, other⟩ := p.del_holds left
    refine ⟨held, fun member => ?_⟩
    rcases List.mem_cons.mp member with here | there
    · exact other here
    · exact later there

theorem Since.del (h : s.Since p names k base) (req : Option Del) (cb : Bool) :
    (s.del req cb).Since p names k base := by
  cases req with
  | none => exact h
  | some req =>
    refine Since.answer ?_ cb .created
    have cleared : ({ s with stat := req.names.foldl w.aggregator.del s.stat } : AggregatorDomain w).Since
        p names k base := ⟨h.later, fun holds => h.held (holds_delAll holds).1, h.packed, h.got⟩
    have unsent := relay_send_del { s with stat := req.names.foldl w.aggregator.del s.stat } req
    exact ⟨h.later, cleared.held, fun timed => unsent.symm ▸ cleared.packed timed, unsent.symm ▸ cleared.got⟩

theorem since_step : ∀ (s : AggregatorDomain w) (op : Op) (t : AggregatorDomain w),
    s.Since p names k base → s.step op = some t → t.Since p names k base := by
  apply step_preserves
  · exact fun s req now h => h.pushRecord req now
  · exact fun s cb res h => h.answer cb res
  · exact fun s req cb h => h.del req cb
  · exact fun s timed h => h.pushoutTick timed
  · exact fun s j h => ⟨h.later, h.held, h.packed, h.got⟩

/-! ### Deletions in a run -/

theorem started_since (p : Provenance w.aggregator) (options : AggregatorConfig) (found : String → Bool)
    (workflow : Bool) : (started w options found workflow).Since p [] 0 fun _ => [] := by
  have none : w.packer.waiting w.packer.empty = [] := w.packer.waiting_empty
  unfold started restart
  split
  all_goals
    refine ⟨Nat.le_refl _, fun holds => absurd holds p.fresh, fun _ r member => ?_, Relay.GotSince.start⟩
    have member : r ∈ w.packer.waiting w.packer.empty := member
    rw [none] at member
    contradiction

theorem delOrdered_of {req : Del} {cb : Bool} (known : s.Since p [] 0 fun _ => [])
    (unbuffered : s.Unbuffered req) : s.DelOrdered req cb := by
  intro after t run j up r member deleted
  have forwarded : (s.del (some req) cb).Since p req.names s.pushed s.received := by
    refine Since.answer ?_ cb .created
    have unsent := relay_send_del { s with stat := req.names.foldl w.aggregator.del s.stat } req
    refine ⟨Nat.le_refl _, fun holds => ?_, fun timed => ?_, ?_⟩
    · obtain ⟨held, gone⟩ := holds_delAll holds
      exact ⟨(known.held held).1, fun member => absurd member gone⟩
    · rw [unsent]
      intro r waits
      exact ⟨(known.packed timed r waits).1, fun member => absurd member (unbuffered timed ⟨j, up⟩ r waits)⟩
    · rw [unsent]
      exact Relay.GotSince.start
  have later := exec_invariant since_step forwarded run
  obtain ⟨more, eq, recent⟩ := later.got j
  have eq : t.received j = s.received j ++ more := eq
  rw [eq, List.drop_left] at member
  exact (recent r member).2 deleted

theorem del_frame (s : AggregatorDomain w) (req : Option Del) (cb : Bool) :
    s.del req cb = { s with
      stat := (s.del req cb).stat
      sent := (s.del req cb).sent
      answered := (s.del req cb).answered } := by
  cases req with
  | none => rfl
  | some req =>
    cases cb <;> rfl

theorem unbuffered_of {req : Del} {cb : Bool} (known : s.Since p [] 0 fun _ => []) (conserved : s.Conserved)
    (ordered : s.DelOrdered req cb) : s.Unbuffered req := by
  intro timed ⟨j, up⟩ r waits deleted
  have deletion := conserved.del (some req) cb
  have frame := del_frame s (some req) cb
  have ordered := ordered [.tick]
  generalize s.del (some req) cb = d at deletion frame ordered
  have up' : d.live j = true := by rw [frame]; exact up
  have timed' : d.pushoutTimer.isSome = true := by rw [frame]; exact timed
  have handed : d.handed = s.received j ++ s.waiting := by
    rw [frame]
    exact (conserved.forwarded.exactly j up).symm
  have ticked : exec step d [.tick] = some d.pushoutTick := by
    rw [exec_cons, show d.step .tick = some d.pushoutTick from if_pos timed']
    rfl
  have got := received_pushoutTick deletion up'
  rw [handed, List.append_assoc] at got
  have after : r ∈ (d.pushoutTick.received j).drop (s.received j).length := by
    rw [got, List.drop_left]
    exact List.mem_append_left _ waits
  have late := ordered d.pushoutTick ticked j up r after deleted
  have early : r.oldest < s.pushed := (known.packed timed r waits).1
  omega

/-- After any run of a started aggregator, a deletion comes after the earlier pushes of its names for
every target that gets it, whatever follows, exactly when none of their records waits in the packer. -/
theorem del_ordered_iff (p : Provenance w.aggregator) (options : AggregatorConfig) (found : String → Bool)
    (workflow : Bool) (before : List Op) (run : exec step (started w options found workflow) before = some s)
    (req : Del) (cb : Bool) : s.DelOrdered req cb ↔ s.Unbuffered req := by
  have known := exec_invariant since_step (started_since p options found workflow) run
  have conserved := exec_invariant conserved_step (started_conserved options found workflow) run
  exact ⟨unbuffered_of known conserved, delOrdered_of known⟩

/-! ### A deletion that is overtaken -/

/-- One open record for each name and second. A push of a later second hands the open record over. -/
def pushPerSecond (s : List Push) (req : Push) : List Push × List Push :=
  match s.find? fun r => r.name = req.name with
  | none => (s ++ [req], [])
  | some r =>
    if r.ts / 1000000 = req.ts / 1000000 then
      (s.map fun r => if r.name = req.name then { r with data := r.data ++ req.data } else r, [])
    else (s.filter (fun r => r.name ≠ req.name) ++ [req], [r])

def perSecond : MultiAggregator where
  State := List Push
  fresh := []
  push := pushPerSecond
  pushout s := ([], s)
  del s name := s.filter fun r => r.name ≠ name

def Among (s : List Push) (name : String) (i : Nat) : Prop := ∃ r ∈ s, r.name = name ∧ r.oldest = i

theorem among_pushPerSecond {s : List Push} {req r : Push}
    (member : r ∈ (pushPerSecond s req).1 ∨ r ∈ (pushPerSecond s req).2) :
    Among s r.name r.oldest ∨ (r.name = req.name ∧ r.oldest = req.oldest) := by
  have added : ∀ {kept : List Push}, kept ⊆ s → r ∈ kept ++ [req] →
      Among s r.name r.oldest ∨ (r.name = req.name ∧ r.oldest = req.oldest) := by
    intro kept sub member
    rcases List.mem_append.mp member with old | new
    · exact .inl ⟨r, sub old, rfl, rfl⟩
    · rw [List.mem_singleton.mp new]
      exact .inr ⟨rfl, rfl⟩
  unfold pushPerSecond at member
  split at member
  · rcases member with kept | handed
    · exact added (List.Subset.refl s) kept
    · contradiction
  · rename_i o found
    split at member
    · rcases member with kept | handed
      · obtain ⟨q, old, rfl⟩ := List.mem_map.mp kept
        refine .inl ⟨q, old, ?_⟩
        split <;> exact ⟨rfl, rfl⟩
      · contradiction
    · rcases member with kept | handed
      · exact added (List.filter_subset_self _) kept
      · rw [List.mem_singleton.mp handed]
        exact .inl ⟨o, List.mem_of_find?_eq_some found, rfl, rfl⟩

def perSecondProvenance : Provenance perSecond where
  holds := Among
  fresh := by
    rintro name i ⟨r, member, -⟩
    exact List.not_mem_nil member
  push_holds := by
    rintro s req name i ⟨r, member, rfl, rfl⟩
    exact among_pushPerSecond (.inl member)
  push_hands member := among_pushPerSecond (.inr member)
  pushout_holds := by
    rintro s name i ⟨r, member, -⟩
    exact absurd member List.not_mem_nil
  pushout_hands member := ⟨_, member, rfl, rfl⟩
  del_holds := by
    rintro s deleted name i ⟨r, member, rfl, rfl⟩
    obtain ⟨held, other⟩ := List.mem_filter.mp member
    exact ⟨⟨r, held, rfl, rfl⟩, of_decide_eq_true other⟩

def onePack : BatchQueue Push MultiPush MultiPush.data where
  State := List Push
  empty := []
  push s r := s ++ [r]
  pop s := if s = [] then none else some (⟨s⟩, [])
  waiting s := s
  waiting_empty := rfl
  waiting_push _ _ := rfl
  pop_none {s} popped := by
    by_contra some
    rw [if_neg some] at popped
    contradiction
  pop_some {s b t} popped := by
    split at popped
    · contradiction
    · rename_i some
      obtain ⟨rfl, rfl⟩ := Prod.mk.inj (Option.some.inj popped)
      exact ⟨some, (List.append_nil _).symm⟩

def packing : AggregatorDomain ⟨perSecond, onePack, .ok⟩ :=
  started _ { targets := ["log"], pushoutTimerMs := 1000, packer := { disabled := false } } (fun _ => true) true

def cpu (second : Int) : Op := .push (some ⟨"cpu", second * 1000000, [42], 0⟩) true 0

theorem flushed_deletion_ordered :
    ∃ s, exec step packing [cpu 1, cpu 2, .tick] = some s ∧ s.DelOrdered ⟨["cpu"]⟩ true := by
  have waits : (exec step packing [cpu 1, cpu 2, .tick]).map waiting = some [] := by decide
  obtain ⟨s, run, empty⟩ := Option.map_eq_some_iff.mp waits
  refine ⟨s, run, (del_ordered_iff perSecondProvenance _ _ _ _ run _ _).mpr ?_⟩
  intro _ _ r member
  rw [empty] at member
  contradiction

/-- The second push hands the record of the first to the packer; the deletion is forwarded, and the
tick then delivers the record. -/
theorem waiting_record_overtaken :
    ∃ s, exec step packing [cpu 1, cpu 2] = some s ∧ ¬ s.DelOrdered ⟨["cpu"]⟩ true := by
  have both : ((exec step packing [cpu 1, cpu 2]).bind fun s =>
      (exec step (s.del (some ⟨["cpu"]⟩) true) [.tick]).map fun t =>
        (s.received 0, s.live 0, s.pushed, t.received 0)) =
      some ([], true, 2, [⟨"cpu", 1000000, [42], 0⟩]) := by decide
  obtain ⟨s, run, later⟩ := Option.bind_eq_some_iff.mp both
  obtain ⟨t, ticked, eq⟩ := Option.map_eq_some_iff.mp later
  obtain ⟨none, up, two, got⟩ : s.received 0 = [] ∧ s.live 0 = true ∧ s.pushed = 2 ∧
      t.received 0 = [⟨"cpu", 1000000, [42], 0⟩] := by simpa using eq
  refine ⟨s, run, fun ordered => ?_⟩
  have late := ordered [.tick] t ticked 0 up ⟨"cpu", 1000000, [42], 0⟩ (by rw [none, got]; simp) (by simp)
  rw [two] at late
  contradiction

end AggregatorDomain

end WfcCore.Statistics

import WfcCore.Statistics.Deletion

/-!
# What a reconfiguration loses

`aggregator_domain::reconfigure` makes a new aggregator and a new packer. What has been delivered stays
delivered; what the old ones held is gone.
-/

namespace WfcCore.Statistics

open Foundation

/-- The records that an aggregator holds for delivery. A new one holds none. -/
structure Holdings (a : MultiAggregator) where
  held : a.State → List Push
  fresh : held a.fresh = []

/-- Aggregators in related states hand out the same records on every call, hold as much, and stay related. -/
structure Holdings.Bisimulation {a : MultiAggregator} (h : Holdings a) (alike : a.State → a.State → Prop) :
    Prop where
  held : ∀ {s t}, alike s t → (h.held s).Perm (h.held t)
  push : ∀ {s t}, alike s t → ∀ req, (a.push s req).2 = (a.push t req).2 ∧ alike (a.push s req).1 (a.push t req).1
  pushout : ∀ {s t}, alike s t → (a.pushout s).2 = (a.pushout t).2 ∧ alike (a.pushout s).1 (a.pushout t).1
  del : ∀ {s t}, alike s t → ∀ name, alike (a.del s name) (a.del t name)

/-- No use of the aggregator tells the two states apart. -/
def Holdings.Alike {a : MultiAggregator} (h : Holdings a) (s t : a.State) : Prop :=
  ∃ alike, h.Bisimulation alike ∧ alike s t

namespace AggregatorDomain

variable {w : Wrtstat} {s t : AggregatorDomain w}

/-- The records that have reached target `j` and those that are still held for delivery. -/
def accounted (h : Holdings w.aggregator) (s : AggregatorDomain w) (j : Nat) : List Push :=
  s.received j ++ s.waiting ++ h.held s.stat

def SameRecords (h : Holdings w.aggregator) (s t : AggregatorDomain w) : Prop :=
  ∀ j, (s.accounted h j).Perm (t.accounted h j)

/-! ### Domains that differ in nothing but how they hold it -/

structure Agree (alike : w.aggregator.State → w.aggregator.State → Prop) (s t : AggregatorDomain w) : Prop where
  options : s.options = t.options
  enabledPacker : s.enabledPacker = t.enabledPacker
  suspendPush : s.suspendPush = t.suspendPush
  targets : s.targets = t.targets
  pushoutTimer : s.pushoutTimer = t.pushoutTimer
  pushed : s.pushed = t.pushed
  relay : s.relay = t.relay
  stat : alike s.stat t.stat

variable {h : Holdings w.aggregator} {alike : w.aggregator.State → w.aggregator.State → Prop}

theorem Agree.withStat (agree : Agree alike s t) {stat stat' : w.aggregator.State} (pushed : Nat)
    (related : alike stat stat') :
    Agree alike { s with stat := stat, pushed := pushed } { t with stat := stat', pushed := pushed } :=
  { agree with pushed := rfl, stat := related }

/-- What only forwards and packs keeps domains in agreement, if it does the same to their relays. -/
theorem Agree.forwarded {s' t' : AggregatorDomain w} (agree : Agree alike s t)
    (frame : s' = { s with handed := s'.handed, packer := s'.packer, sent := s'.sent })
    (frame' : t' = { t with handed := t'.handed, packer := t'.packer, sent := t'.sent })
    (relayed : s'.relay = t'.relay) : Agree alike s' t' := by
  constructor
  case relay => exact relayed
  all_goals rw [frame, frame']
  · exact agree.options
  · exact agree.enabledPacker
  · exact agree.suspendPush
  · exact agree.targets
  · exact agree.pushoutTimer
  · exact agree.pushed
  · exact agree.stat

theorem Agree.pushNext (agree : Agree alike s t) (req : Push) : Agree alike (s.pushNext req) (t.pushNext req) := by
  refine agree.forwarded (pushNext_frame s req) (pushNext_frame t req) ?_
  rw [relay_pushNext, relay_pushNext, agree.enabledPacker, agree.relay]

theorem Agree.pushNextAll (agree : Agree alike s t) (reqs : List Push) :
    Agree alike (reqs.foldl AggregatorDomain.pushNext s) (reqs.foldl AggregatorDomain.pushNext t) := by
  induction reqs generalizing s t with
  | nil => exact agree
  | cons r rest ih => exact ih (agree.pushNext r)

theorem Agree.mulitPushNextMt (agree : Agree alike s t) : Agree alike s.mulitPushNextMt t.mulitPushNextMt := by
  have keeps (s : AggregatorDomain w) : s.mulitPushNextMt.handed = s.handed := by rw [mulitPushNextMt_frame]
  refine agree.forwarded ?_ ?_ ?_
  · rw [keeps]
    exact mulitPushNextMt_frame s
  · rw [keeps]
    exact mulitPushNextMt_frame t
  · rw [relay_mulitPushNextMt, relay_mulitPushNextMt, agree.targets, agree.relay]

theorem Agree.answer (agree : Agree alike s t) (cb : Bool) (res : Response) :
    Agree alike (s.answer cb res) (t.answer cb res) := by
  unfold AggregatorDomain.answer
  split
  · exact { agree with }
  · exact agree

theorem Agree.pushRecord (agree : Agree alike s t) (bisim : h.Bisimulation alike) (req : Push) (now : Int) :
    Agree alike (s.pushRecord req now) (t.pushRecord req now) := by
  unfold AggregatorDomain.pushRecord
  dsimp only
  by_cases suspended : s.suspendPush = true
  · rw [if_pos suspended, if_pos (agree.suspendPush ▸ suspended)]
    exact agree
  · have active : ¬ t.suspendPush = true := agree.suspendPush ▸ suspended
    rw [if_neg suspended, if_neg active, ← agree.pushed]
    have pushed := bisim.push agree.stat
    rw [← (pushed _).1]
    exact (agree.withStat _ (pushed _).2).pushNextAll _

theorem Agree.pushRecords (agree : Agree alike s t) (bisim : h.Bisimulation alike) (clock : Nat → Int)
    (records : List (Push × Nat)) :
    Agree alike (records.foldl (fun s p => s.pushRecord p.1 (clock p.2)) s)
      (records.foldl (fun s p => s.pushRecord p.1 (clock p.2)) t) := by
  induction records generalizing s t with
  | nil => exact agree
  | cons p rest ih => exact ih (agree.pushRecord bisim p.1 (clock p.2))

theorem Agree.push (agree : Agree alike s t) (bisim : h.Bisimulation alike) (req : Option Push) (cb : Bool)
    (now : Int) : Agree alike (s.push req cb now) (t.push req cb now) := by
  cases req with
  | none => exact agree
  | some req => exact (agree.pushRecord bisim req now).answer cb _

theorem Agree.multiPush (agree : Agree alike s t) (bisim : h.Bisimulation alike) (req : Option MultiPush)
    (cb : Bool) (clock : Nat → Int) : Agree alike (s.multiPush req cb clock) (t.multiPush req cb clock) := by
  cases req with
  | none => exact agree
  | some req =>
    unfold AggregatorDomain.multiPush
    dsimp only
    split
    · exact agree.answer cb _
    · exact (agree.pushRecords bisim clock _).answer cb _

theorem Agree.del (agree : Agree alike s t) (bisim : h.Bisimulation alike) (req : Option Del) (cb : Bool) :
    Agree alike (s.del req cb) (t.del req cb) := by
  cases req with
  | none => exact agree
  | some req =>
    have deleted {a b : w.aggregator.State} (names : List String) (related : alike a b) :
        alike (names.foldl w.aggregator.del a) (names.foldl w.aggregator.del b) := by
      induction names generalizing a b with
      | nil => exact related
      | cons name rest ih => exact ih (bisim.del related name)
    have cleared := agree.withStat s.pushed (deleted req.names agree.stat)
    have same := agree.pushed
    refine Agree.answer ?_ cb .created
    refine { agree with relay := ?_, stat := deleted req.names agree.stat }
    have first := relay_send_del { s with stat := req.names.foldl w.aggregator.del s.stat } req
    have second := relay_send_del { t with stat := req.names.foldl w.aggregator.del t.stat } req
    exact (first.trans cleared.relay).trans second.symm

theorem Agree.pushoutTick (agree : Agree alike s t) (bisim : h.Bisimulation alike) :
    Agree alike s.pushoutTick t.pushoutTick := by
  unfold AggregatorDomain.pushoutTick
  dsimp only
  obtain ⟨handed, related⟩ := bisim.pushout agree.stat
  rw [← handed]
  have next : Agree alike { s with stat := (w.aggregator.pushout s.stat).1 }
      { t with stat := (w.aggregator.pushout t.stat).1 } := { agree with stat := related }
  exact (next.pushNextAll _).mulitPushNextMt

theorem Agree.expire (agree : Agree alike s t) (j : Nat) : Agree alike (s.expire j) (t.expire j) := by
  refine { agree with targets := ?_, relay := ?_ }
  · show s.targets.set j false = t.targets.set j false
    rw [agree.targets]
  · rw [relay_expire, relay_expire, agree.relay]

theorem Agree.step (bisim : h.Bisimulation alike) (s t : AggregatorDomain w) (op : Op) (s' : AggregatorDomain w)
    (agree : Agree alike s t) (taken : s.step op = some s') : ∃ t', t.step op = some t' ∧ Agree alike s' t' := by
  cases op with
  | push req cb now =>
    obtain rfl := Option.some.inj taken
    exact ⟨_, rfl, agree.push bisim req cb now⟩
  | multiPush req cb clock =>
    obtain rfl := Option.some.inj taken
    exact ⟨_, rfl, agree.multiPush bisim req cb clock⟩
  | del req cb =>
    obtain rfl := Option.some.inj taken
    exact ⟨_, rfl, agree.del bisim req cb⟩
  | tick =>
    obtain ⟨timed, rfl⟩ := step_tick taken
    refine ⟨t.pushoutTick, ?_, agree.pushoutTick bisim⟩
    show (if t.pushoutTimer.isSome then some t.pushoutTick else none) = _
    rw [← agree.pushoutTimer, if_pos timed]
  | expire j =>
    obtain rfl := Option.some.inj taken
    exact ⟨_, rfl, agree.expire j⟩

theorem Agree.sameRecords (agree : Agree alike s t) (bisim : h.Bisimulation alike) : SameRecords h s t := by
  intro j
  unfold accounted
  have received : s.received j = t.received j := congrFun (congrArg Relay.received agree.relay) j
  have waiting : s.waiting = t.waiting := congrArg Relay.waiting agree.relay
  rw [received, waiting]
  exact (bisim.held agree.stat).append_left _

/-! ### Reconfiguring a started domain -/

/-- The switches that `reconfigure` computes are up to date. -/
structure Configured (s : AggregatorDomain w) : Prop where
  suspendPush : s.suspendPush = s.options.suspendPush
  enabledPacker : s.enabledPacker = !s.options.packer.disabled

theorem started_configured (options : AggregatorConfig) (found : String → Bool) (workflow : Bool) :
    (started w options found workflow).Configured := by
  unfold started restart
  split <;> exact ⟨rfl, rfl⟩

theorem configured_step : ∀ (s : AggregatorDomain w) (op : Op) (t : AggregatorDomain w),
    s.Configured → s.step op = some t → t.Configured := by
  apply step_preserves_parts
  · exact fun s stat pushed c => ⟨c.suspendPush, c.enabledPacker⟩
  · intro s reqs c
    rw [pushNextAll_frame]
    exact ⟨c.suspendPush, c.enabledPacker⟩
  · intro s c
    rw [mulitPushNextMt_frame]
    exact ⟨c.suspendPush, c.enabledPacker⟩
  · intro s cb res c
    unfold AggregatorDomain.answer
    split
    · exact ⟨c.suspendPush, c.enabledPacker⟩
    · exact c
  · intro s req cb c
    rw [del_frame]
    exact ⟨c.suspendPush, c.enabledPacker⟩
  · exact fun s j c => ⟨c.suspendPush, c.enabledPacker⟩

theorem reconfigure_accounted (h : Holdings w.aggregator) (s : AggregatorDomain w) (j : Nat) :
    s.reconfigure.accounted h j = s.received j := by
  show s.received j ++ w.packer.waiting w.packer.empty ++ h.held w.aggregator.fresh = _
  rw [w.packer.waiting_empty, h.fresh, List.append_nil, List.append_nil]

theorem reconfigure_agree (configured : s.Configured) (nothing : s.waiting = [])
    (related : alike s.stat w.aggregator.fresh) : Agree alike s s.reconfigure := by
  refine ⟨rfl, configured.enabledPacker, configured.suspendPush, rfl, rfl, rfl, ?_, related⟩
  have emptied : s.reconfigure.waiting = [] := w.packer.waiting_empty
  show Relay.mk _ s.waiting _ _ = Relay.mk _ s.reconfigure.waiting _ _
  rw [nothing, emptied]
  rfl

/-- A reconfiguration with unchanged options leaves what was delivered and drops what is held, so that the
records are the same afterwards exactly if nothing is held. If moreover nothing tells the aggregator from a
new one, they are the same at the end of every continuation. -/
theorem reconfigure_drops_held (w : Wrtstat) (h : Holdings w.aggregator) (options : AggregatorConfig)
    (found : String → Bool) (workflow : Bool) (before : List Op) (s : AggregatorDomain w)
    (run : exec step (started w options found workflow) before = some s) :
    (∀ j, s.reconfigure.accounted h j = s.received j) ∧
    (SameRecords h s s.reconfigure ↔ s.waiting = [] ∧ h.held s.stat = []) ∧
    (s.waiting = [] → h.Alike s.stat w.aggregator.fresh →
      ∀ after t, exec step s after = some t →
        ∃ t', exec step s.reconfigure after = some t' ∧ SameRecords h t t') := by
  refine ⟨reconfigure_accounted h s, ?_, ?_⟩
  · constructor
    · intro same
      have size := (same 0).length_eq
      rw [reconfigure_accounted] at size
      simp only [accounted, List.length_append] at size
      exact ⟨List.eq_nil_of_length_eq_zero (by omega), List.eq_nil_of_length_eq_zero (by omega)⟩
    · rintro ⟨nothing, none⟩ j
      rw [reconfigure_accounted, accounted, nothing, none, List.append_nil, List.append_nil]
  · rintro nothing ⟨alike, bisim, related⟩ after t continued
    have configured := exec_invariant configured_step (started_configured options found workflow) run
    obtain ⟨t', run', agree⟩ := exec_simulates (Agree alike) (Agree.step bisim)
      (reconfigure_agree configured nothing related) continued
    exact ⟨t', run', agree.sameRecords bisim⟩

def perSecondHoldings : Holdings perSecond := ⟨fun s => s, rfl⟩

/-- Two pushes leave a record in the packer and one in the aggregator. -/
theorem reconfigure_holding : ∃ s, exec step packing [cpu 1, cpu 2] = some s ∧
    s.waiting = [⟨"cpu", 1000000, [42], 0⟩] ∧ perSecondHoldings.held s.stat = [⟨"cpu", 2000000, [42], 1⟩] ∧
    ¬ SameRecords perSecondHoldings s s.reconfigure ∧
    ∀ j, s.reconfigure.accounted perSecondHoldings j = s.received j := by
  have run : exec step packing [cpu 1, cpu 2] = some _ := rfl
  obtain ⟨left, same, -⟩ := reconfigure_drops_held _ perSecondHoldings _ _ _ [cpu 1, cpu 2] _ run
  refine ⟨_, run, by decide, by decide, fun kept => ?_, left⟩
  have nothing := (same.mp kept).1
  revert nothing
  decide

/-- The record of one push waits in the packer and that of another is in the aggregator. Without the
reconfiguration the tick delivers the first and the second is still held. -/
theorem reconfigure_loses :
    ((exec step packing [cpu 1, cpu 2, .tick]).map (accounted perSecondHoldings · 0) =
      some [⟨"cpu", 1000000, [42], 0⟩, ⟨"cpu", 2000000, [42], 1⟩]) ∧
    (((exec step packing [cpu 1, cpu 2]).bind fun s => exec step s.reconfigure [.tick]).map
      (accounted perSecondHoldings · 0) = some []) ∧
    ¬ ∀ before s, exec step packing before = some s → ∀ after t, exec step s after = some t →
      ∃ t', exec step s.reconfigure after = some t' ∧ SameRecords perSecondHoldings t t' := by
  refine ⟨by decide, by decide, fun same => ?_⟩
  obtain ⟨t', ran, records⟩ := same [cpu 1] _ rfl [] _ rfl
  obtain rfl := Option.some.inj ran
  have size := (records 0).length_eq
  contradiction

end AggregatorDomain

end WfcCore.Statistics

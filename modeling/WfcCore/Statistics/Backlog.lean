import WfcCore.Statistics.Deletion

/-!
# What waits in the packer

`push_next_` fills the packer when the packer is enabled. What empties it is the pushout timer, and only when
there are targets. The two go by different settings.
-/

namespace WfcCore.Statistics

open Foundation

namespace AggregatorDomain

variable {w : Wrtstat} {s t : AggregatorDomain w}

/-- What waits in `t` was handed over since `s`. -/
def Drained (s t : AggregatorDomain w) : Prop :=
  ∃ since, t.handed = s.handed ++ since ∧ t.waiting <:+ since

/-- In every state of the run the pushout timer is there, after each of its ticks only what the tick itself
handed over may wait, and later only what was handed over since that tick began. -/
structure NeverStuck (s : AggregatorDomain w) (ops : List Op) : Prop where
  timed : Always step (fun s => s.pushoutTimer.isSome = true) s ops
  drained : Meets step (fun s op => op = .tick → Drained s s.pushoutTick) s ops
  bounded : ∀ first rest m t, first ++ .tick :: rest <+: ops → exec step s first = some m →
    exec step m (.tick :: rest) = some t → Drained m t

/-- What no step changes. -/
structure Settled (options : AggregatorConfig) (s : AggregatorDomain w) : Prop where
  packing : s.enabledPacker = !options.packer.disabled
  targets : s.targets.length = options.targets.length
  timer : s.pushoutTimer.isSome = decide (options.pushoutTimerMs ≠ 0)

theorem started_settled (w : Wrtstat) (options : AggregatorConfig) (found : String → Bool) :
    Settled options (started w options found true) := by
  refine ⟨rfl, ?_, ?_⟩
  · exact List.length_map _
  · unfold started restart
    by_cases timed : options.pushoutTimerMs = 0
    · simp [timed, resolveTargets, reconfigure, created]
    · simp [timed, resolveTargets, reconfigure, created]

variable {options : AggregatorConfig}

theorem settled_step : ∀ (s : AggregatorDomain w) (op : Op) (t : AggregatorDomain w),
    Settled options s → s.step op = some t → Settled options t := by
  apply step_preserves_parts
  · exact fun s stat pushed h => ⟨h.packing, h.targets, h.timer⟩
  · intro s reqs h
    rw [pushNextAll_frame]
    exact ⟨h.packing, h.targets, h.timer⟩
  · intro s h
    rw [mulitPushNextMt_frame]
    exact ⟨h.packing, h.targets, h.timer⟩
  · intro s cb res h
    unfold AggregatorDomain.answer
    split
    · exact ⟨h.packing, h.targets, h.timer⟩
    · exact h
  · intro s req cb h
    rw [del_frame]
    exact ⟨h.packing, h.targets, h.timer⟩
  · exact fun s j h => ⟨h.packing, (List.length_set ..).trans h.targets, h.timer⟩

/-! ### One tick -/

theorem waiting_pushNextAll (s : AggregatorDomain w) (packing : s.enabledPacker = true) (reqs : List Push) :
    (reqs.foldl AggregatorDomain.pushNext s).waiting = s.waiting ++ reqs := by
  induction reqs generalizing s with
  | nil => exact (List.append_nil _).symm
  | cons r rest ih =>
    have relayed := relay_pushNext s r
    rw [packing, if_pos rfl] at relayed
    have first : (s.pushNext r).waiting = s.waiting ++ [r] := congrArg Relay.waiting relayed
    have still : (s.pushNext r).enabledPacker = true := by
      rw [pushNext_frame]
      exact packing
    rw [List.foldl_cons, ih _ still, first, List.append_assoc]
    rfl

/-- A tick hands over what the aggregator pushes out, and then empties the packer, unless there are no
targets. -/
theorem pushoutTick_relay (packing : s.enabledPacker = true) :
    s.pushoutTick.handed = s.handed ++ (w.aggregator.pushout s.stat).2 ∧
      s.pushoutTick.waiting =
        if s.targets.isEmpty then s.waiting ++ (w.aggregator.pushout s.stat).2 else [] := by
  generalize popped : w.aggregator.pushout s.stat = pop
  have tick : s.pushoutTick =
      (pop.2.foldl AggregatorDomain.pushNext { s with stat := pop.1 }).mulitPushNextMt := by
    unfold pushoutTick
    rw [popped]
  have handed := handed_pushNextAll { s with stat := pop.1 } pop.2
  have waiting : (pop.2.foldl AggregatorDomain.pushNext { s with stat := pop.1 }).waiting = s.waiting ++ pop.2 :=
    waiting_pushNextAll { s with stat := pop.1 } packing pop.2
  have targets : (pop.2.foldl AggregatorDomain.pushNext { s with stat := pop.1 }).targets = s.targets := by
    rw [pushNextAll_frame]
  have relayed := relay_mulitPushNextMt (pop.2.foldl AggregatorDomain.pushNext { s with stat := pop.1 })
  rw [targets] at relayed
  rw [tick]
  split at relayed
  · rename_i none
    rw [if_pos none]
    exact ⟨(congrArg Relay.handed relayed).trans handed, (congrArg Relay.waiting relayed).trans waiting⟩
  · rename_i some
    rw [if_neg some]
    exact ⟨(congrArg Relay.handed relayed).trans handed, congrArg Relay.waiting relayed⟩

theorem drained_iff (packing : s.enabledPacker = true) :
    Drained s s.pushoutTick ↔ s.targets ≠ [] ∨ s.waiting = [] := by
  obtain ⟨handed, waiting⟩ := pushoutTick_relay packing
  unfold Drained
  rw [handed, waiting]
  by_cases none : s.targets = []
  · rw [none, List.isEmpty_nil, if_pos rfl]
    constructor
    · rintro ⟨since, equal, suffix⟩
      obtain rfl := List.append_cancel_left equal
      have short := suffix.length_le
      rw [List.length_append] at short
      exact Or.inr (List.eq_nil_of_length_eq_zero (by omega))
    · intro found
      have empty := found.resolve_left (fun some => some rfl)
      exact ⟨_, rfl, [], by rw [empty, List.nil_append, List.nil_append]⟩
  · have some : s.targets.isEmpty ≠ true := fun empty => none (List.isEmpty_iff.mp empty)
    rw [if_neg some]
    exact iff_of_true ⟨_, rfl, List.nil_suffix⟩ (Or.inl none)

/-! ### Between two ticks -/

/-- With the packer enabled, what waits is what waited before or came since. -/
structure Grown (s t : AggregatorDomain w) : Prop where
  packing : t.enabledPacker = true
  since : ∃ since, t.handed = s.handed ++ since ∧ t.waiting <:+ s.waiting ++ since

theorem Grown.pushNextAll (h : Grown s t) (reqs : List Push) :
    Grown s (reqs.foldl AggregatorDomain.pushNext t) := by
  obtain ⟨packing, since, handed, suffix⟩ := h
  refine ⟨?_, since ++ reqs, ?_, ?_⟩
  · rw [pushNextAll_frame]
    exact packing
  · rw [handed_pushNextAll, handed, List.append_assoc]
  · rw [waiting_pushNextAll t packing, ← List.append_assoc]
    exact List.suffix_append_self_iff.mpr suffix

theorem Grown.mulitPushNextMt (h : Grown s t) : Grown s t.mulitPushNextMt := by
  obtain ⟨packing, since, handed, suffix⟩ := h
  have relayed := relay_mulitPushNextMt t
  refine ⟨?_, since, ?_, ?_⟩
  · rw [mulitPushNextMt_frame]
    exact packing
  · rw [mulitPushNextMt_frame]
    exact handed
  · split at relayed
    · have still : t.mulitPushNextMt.waiting = t.waiting := congrArg Relay.waiting relayed
      rw [still]
      exact suffix
    · have empty : t.mulitPushNextMt.waiting = [] := congrArg Relay.waiting relayed
      rw [empty]
      exact List.nil_suffix

theorem grown_step (s : AggregatorDomain w) : ∀ (t : AggregatorDomain w) (op : Op) (u : AggregatorDomain w),
    Grown s t → t.step op = some u → Grown s u := by
  apply step_preserves_parts
  · exact fun t stat pushed h => ⟨h.packing, h.since⟩
  · exact fun t reqs h => h.pushNextAll reqs
  · exact fun t h => h.mulitPushNextMt
  · intro t cb res h
    unfold AggregatorDomain.answer
    split
    · exact ⟨h.packing, h.since⟩
    · exact h
  · intro t req cb h
    rw [del_frame]
    exact ⟨h.packing, h.since⟩
  · exact fun t j h => ⟨h.packing, h.since⟩

/-- What is drained at a tick bounds what waits later. -/
theorem Drained.run {m : AggregatorDomain w} {ops : List Op} (drained : Drained s m) (packing : m.enabledPacker = true)
    (run : exec step m ops = some t) : Drained s t := by
  have start : Grown m m := ⟨packing, [], (List.append_nil _).symm, [], by rw [List.append_nil, List.nil_append]⟩
  obtain ⟨-, since, handed, suffix⟩ := exec_invariant (grown_step m) start run
  obtain ⟨before, kept, waiting⟩ := drained
  refine ⟨before ++ since, ?_, ?_⟩
  · rw [handed, kept, List.append_assoc]
  · exact suffix.trans (List.suffix_append_self_iff.mpr waiting)

/-! ### Runs -/

/-- With the packer enabled, a run of the started aggregator leaves nothing behind exactly if the pushout timer
is configured and either there are targets or no tick finds a record waiting. -/
theorem neverStuck_iff (w : Wrtstat) (options : AggregatorConfig) (found : String → Bool)
    (packing : options.packer.disabled = false) (ops : List Op) :
    NeverStuck (started w options found true) ops ↔
      options.pushoutTimerMs ≠ 0 ∧
        (options.targets ≠ [] ∨
          Meets step (fun s op => op = .tick → s.waiting = []) (started w options found true) ops) := by
  have start := started_settled w options found
  have each : Meets step (fun s op => op = .tick → Drained s s.pushoutTick) (started w options found true) ops ↔
      Meets step (fun s op => op = .tick → options.targets ≠ [] ∨ s.waiting = []) (started w options found true) ops := by
    apply meets_congr settled_step ?_ start
    intro s op settled
    have on : s.enabledPacker = true := by rw [settled.packing, packing]; rfl
    have same : s.targets ≠ [] ↔ options.targets ≠ [] := by
      rw [← List.length_pos_iff, ← List.length_pos_iff, settled.targets]
    rw [drained_iff on, same]
  have split : Meets step (fun s op => op = .tick → options.targets ≠ [] ∨ s.waiting = [])
      (started w options found true) ops ↔
      options.targets ≠ [] ∨
        Meets step (fun s op => op = .tick → s.waiting = []) (started w options found true) ops := by
    by_cases none : options.targets = []
    · simp only [none, ne_eq, not_true_eq_false, false_or]
    · exact iff_of_true (meets_of_forall (fun _ _ _ => Or.inl none) _ _) (Or.inl none)
  constructor
  · rintro ⟨timed, drained, -⟩
    refine ⟨?_, split.mp (each.mp drained)⟩
    have first := timed.head
    rw [start.timer] at first
    exact of_decide_eq_true first
  · rintro ⟨configured, fine⟩
    have drained := each.mpr (split.mpr fine)
    refine ⟨?_, drained, ?_⟩
    · have settled := always_invariant settled_step start ops
      apply settled.mono
      intro s h
      rw [h.timer]
      exact decide_eq_true configured
    · rintro first rest m t ⟨more, rfl⟩ before after
      obtain ⟨ticked, taken, later⟩ := exec_cons_some after
      have settled := settled_step m .tick ticked (exec_invariant settled_step start before) taken
      rw [List.append_assoc] at drained
      have tick := (drained.rest before ticked taken).1 rfl
      obtain ⟨-, rfl⟩ := step_tick taken
      exact tick.run (by rw [settled.packing, packing]; rfl) later

theorem neverStuck_packing : NeverStuck packing [cpu 1, cpu 2, .tick] :=
  (neverStuck_iff _ { targets := ["log"], pushoutTimerMs := 1000, packer := { disabled := false } } _ rfl
    [cpu 1, cpu 2, .tick]).mpr ⟨by decide, Or.inl (by decide)⟩

/-- The packer is enabled and the timer runs, but there are no targets. -/
def unheard : AggregatorDomain ⟨perSecond, onePack, .ok⟩ :=
  started _ { pushoutTimerMs := 1000, packer := { disabled := false } } (fun _ => true) true

/-- The packer is enabled and there is a target, but the timer is left at its default. -/
def untimed : AggregatorDomain ⟨perSecond, onePack, .ok⟩ :=
  started _ { targets := ["log"], packer := { disabled := false } } (fun _ => true) true

theorem records_stuck :
    (exec step unheard [cpu 1, cpu 2, .tick, .tick]).map waiting = 
      some [⟨"cpu", 1000000, [42], 0⟩, ⟨"cpu", 2000000, [42], 1⟩] ∧
    untimed.pushoutTimer = none ∧
    ¬ ∀ (w : Wrtstat) (options : AggregatorConfig) (found : String → Bool) (ops : List Op),
      options.packer.disabled = false → NeverStuck (started w options found true) ops := by
  refine ⟨by decide, by decide, fun never => ?_⟩
  have timed := (never ⟨perSecond, onePack, .ok⟩ { targets := ["log"], packer := { disabled := false } }
    (fun _ => true) [] rfl).timed.head
  revert timed
  decide

end AggregatorDomain

end WfcCore.Statistics

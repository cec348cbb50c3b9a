import Mathlib.Data.List.GetD
import Mathlib.Data.List.Nodup
import WfcCore.Statistics.Aggregator

/-!
# No record is lost, doubled or reordered on the way to the targets

Each delivery path of the aggregator is one operation of a relay, so that what a relay conserves is
conserved along every run.
-/

namespace WfcCore.Statistics

open Foundation

/-- With the packer records travel in batches only, without it one by one. -/
def Request.CarriedBy (batched : Bool) : Request → Prop
  | .push _ => batched = false
  | .multiPush _ => batched = true
  | .del _ => True

namespace AggregatorDomain

variable {w : Wrtstat} {s : AggregatorDomain w}

/-! ### The delivery paths are relay operations -/

theorem received_send (s : AggregatorDomain w) (request : Request) {indices : List Nat}
    (distinct : indices.Nodup) (j : Nat) :
    (s.send request indices).received j =
      s.received j ++ if j ∈ indices ∧ s.live j = true then request.records else [] := by
  show List.flatMap _ (s.sent ++ _) = _
  rw [List.flatMap_append, List.flatMap_map]
  exact congrArg _ (flatMap_filter_once distinct s.live request.records j)

theorem forward_eq_send (s : AggregatorDomain w) (request : Request) :
    s.forward request = s.send request (fanOut s.targets.length) := by
  unfold forward fanOut
  by_cases none_ : s.targets = []
  · rw [if_pos (List.isEmpty_iff.mpr none_), if_pos (List.length_eq_zero_iff.mpr none_)]
    simp [send]
  · have some_ : s.targets.length ≠ 0 := mt List.length_eq_zero_iff.mp none_
    rw [if_neg (mt List.isEmpty_iff.mp none_), if_neg some_]
    unfold send
    rw [List.filter_append, List.map_append, ← List.append_assoc]
    rfl

theorem relay_forward (s : AggregatorDomain w) (request : Request) :
    (s.forward request).relay = s.relay.deliver request.records := by
  have got : (s.forward request).received = (s.relay.deliver request.records).received := by
    funext j
    show _ = s.received j ++ if s.live j then request.records else []
    rw [forward_eq_send, received_send _ _ (fanOut_nodup _)]
    cases up : s.live j with
    | false => simp
    | true => simp [mem_fanOut, lt_of_getD up]
  have others : (s.forward request).relay = { s.relay with received := (s.forward request).received } := by
    rw [forward_eq_send]
    rfl
  rw [others, got]
  rfl

theorem relay_forwardAll (s : AggregatorDomain w) (batches : List MultiPush) :
    (batches.foldl (fun s next => s.forward (.multiPush next)) s).relay =
      s.relay.deliver (batches.flatMap MultiPush.data) := by
  induction batches generalizing s with
  | nil => exact (Relay.deliver_nil _).symm
  | cons b rest ih =>
    rw [List.foldl_cons, ih, relay_forward, List.flatMap_cons, Relay.deliver_append]
    rfl

theorem relay_pushNext (s : AggregatorDomain w) (req : Push) :
    (s.pushNext req).relay = if s.enabledPacker then s.relay.keep req else s.relay.pass req := by
  unfold pushNext
  split
  · show Relay.mk _ (w.packer.waiting (w.packer.push s.packer req)) _ _ = _
    rw [w.packer.waiting_push]
    rfl
  · exact relay_forward _ (.push req)

theorem relay_mulitPushNextMt (s : AggregatorDomain w) :
    s.mulitPushNextMt.relay = if s.targets.isEmpty then s.relay else s.relay.flush := by
  unfold mulitPushNextMt
  split
  · rfl
  · rw [relay_forwardAll, w.packer.popAll_parts]
    show Relay.mk _ (w.packer.waiting (w.packer.popAll s.packer).2) _ _ = _
    rw [w.packer.waiting_popAll]
    rfl

theorem relay_send_del (s : AggregatorDomain w) (req : Del) :
    (s.send (.del req) (List.range s.targets.length)).relay = s.relay := by
  have got : (s.send (.del req) (List.range s.targets.length)).received = s.received := by
    funext j
    rw [received_send _ _ List.nodup_range]
    simp [Request.records]
  show Relay.mk _ _ (AggregatorDomain.received _) _ = _
  rw [got]
  rfl

theorem relay_expire (s : AggregatorDomain w) (j : Nat) : (s.expire j).relay = s.relay.drop j := by
  have gone : (s.expire j).live = fun i => decide (i ≠ j) && s.live i := by
    funext i
    show (s.targets.set j false).getD i false = _
    by_cases here : i = j
    · subst here
      simp only [List.getD, List.getElem?_set, if_pos]
      split <;> simp
    · have elsewhere : j ≠ i := fun h => here h.symm
      simp only [List.getD, List.getElem?_set, if_neg elsewhere]
      simp [here, AggregatorDomain.live]
  show Relay.mk _ _ _ (s.expire j).live = _
  rw [gone]
  rfl

/-! ### What the forwarding functions leave alone -/

theorem forward_frame (s : AggregatorDomain w) (request : Request) :
    s.forward request = { s with sent := (s.forward request).sent } := by
  unfold forward
  split <;> rfl

theorem forwardAll_frame (s : AggregatorDomain w) (batches : List MultiPush) :
    batches.foldl (fun s next => s.forward (.multiPush next)) s =
      { s with sent := (batches.foldl (fun s next => s.forward (.multiPush next)) s).sent } := by
  induction batches generalizing s with
  | nil => rfl
  | cons b rest ih =>
    rw [List.foldl_cons, ih, forward_frame]

theorem pushNext_frame (s : AggregatorDomain w) (req : Push) :
    s.pushNext req = { s with
      handed := (s.pushNext req).handed
      packer := (s.pushNext req).packer
      sent := (s.pushNext req).sent } := by
  unfold pushNext
  split
  · rfl
  · rw [forward_frame]
    rfl

theorem pushNextAll_frame (s : AggregatorDomain w) (reqs : List Push) :
    reqs.foldl pushNext s = { s with
      handed := (reqs.foldl pushNext s).handed
      packer := (reqs.foldl pushNext s).packer
      sent := (reqs.foldl pushNext s).sent } := by
  induction reqs generalizing s with
  | nil => rfl
  | cons r rest ih =>
    rw [List.foldl_cons, ih, pushNext_frame]

theorem mulitPushNextMt_frame (s : AggregatorDomain w) :
    s.mulitPushNextMt = { s with packer := s.mulitPushNextMt.packer, sent := s.mulitPushNextMt.sent } := by
  unfold mulitPushNextMt
  split
  · rfl
  · rw [forwardAll_frame]

/-! ### What a step preserves -/

theorem step_tick {t : AggregatorDomain w} (taken : s.step .tick = some t) :
    s.pushoutTimer.isSome = true ∧ t = s.pushoutTick := by
  have guarded : (if s.pushoutTimer.isSome then some s.pushoutTick else none) = some t := taken
  split at guarded
  · rename_i timed
    exact ⟨timed, (Option.some.inj guarded).symm⟩
  · contradiction

/-- A property of the domain that each request and each timer tick preserves is preserved by all steps;
a batch is so many records and an answer. -/
theorem step_preserves {P : AggregatorDomain w → Prop}
    (record : ∀ s req now, P s → P (s.pushRecord req now))
    (answered : ∀ s cb res, P s → P (s.answer cb res))
    (deleted : ∀ s req cb, P s → P (s.del req cb))
    (ticked : ∀ s, s.pushoutTimer.isSome = true → P s → P s.pushoutTick)
    (expired : ∀ s j, P s → P (s.expire j))
    (s : AggregatorDomain w) (op : Op) (t : AggregatorDomain w) (h : P s) (taken : s.step op = some t) : P t := by
  cases op with
  | push req cb now =>
    obtain rfl := Option.some.inj taken
    cases req with
    | none => exact h
    | some req => exact answered _ cb _ (record s req now h)
  | multiPush req cb clock =>
    obtain rfl := Option.some.inj taken
    unfold multiPush
    split
    · exact h
    · split
      · exact answered s cb _ h
      · apply answered
        exact List.foldlRecOn _ _ h fun t holds p _ => record t p.1 (clock p.2) holds
  | del req cb =>
    obtain rfl := Option.some.inj taken
    exact deleted s req cb h
  | tick =>
    obtain ⟨timed, rfl⟩ := step_tick taken
    exact ticked s timed h
  | expire j =>
    obtain rfl := Option.some.inj taken
    exact expired s j h

/-- The same by the parts that a push and a tick share: the aggregator runs, its records are handed on one by
one, and at a tick the packer is emptied. -/
theorem step_preserves_parts {P : AggregatorDomain w → Prop}
    (ran : ∀ (s : AggregatorDomain w) stat pushed, P s → P { s with stat := stat, pushed := pushed })
    (handed : ∀ (s : AggregatorDomain w) (reqs : List Push), P s → P (reqs.foldl pushNext s))
    (flushed : ∀ s : AggregatorDomain w, P s → P s.mulitPushNextMt)
    (answered : ∀ s cb res, P s → P (s.answer cb res))
    (deleted : ∀ s req cb, P s → P (s.del req cb))
    (expired : ∀ s j, P s → P (s.expire j)) :
    ∀ (s : AggregatorDomain w) (op : Op) (t : AggregatorDomain w), P s → s.step op = some t → P t := by
  apply step_preserves
  · intro s req now h
    unfold pushRecord
    dsimp only
    split
    · exact h
    · exact handed _ _ (ran s _ _ h)
  · exact answered
  · exact deleted
  · exact fun s _ h => flushed _ (handed _ _ (ran s _ s.pushed h))
  · exact expired

/-! ### What is conserved -/

/-- What the aggregator handed over has reached every live target or waits in the packer, and
nothing waits when the packer is disabled. -/
structure Conserved (s : AggregatorDomain w) : Prop where
  forwarded : s.relay.Conserved
  direct : s.enabledPacker = false → s.waiting = []
  carried : ∀ m ∈ s.sent, m.request.CarriedBy s.enabledPacker

theorem carried_send {indices : List Nat} {request : Request} {P : Request → Prop}
    (before : ∀ m ∈ s.sent, P m.request) (fits : P request) :
    ∀ m ∈ (s.send request indices).sent, P m.request := by
  intro m member
  rcases List.mem_append.mp member with old | new
  · exact before m old
  · obtain ⟨j, _, rfl⟩ := List.mem_map.mp new
    exact fits

theorem carried_forward {request : Request} {P : Request → Prop}
    (before : ∀ m ∈ s.sent, P m.request) (fits : P request) :
    ∀ m ∈ (s.forward request).sent, P m.request := by
  unfold forward
  split
  · exact before
  · exact carried_send (carried_send before fits) fits

theorem carried_forwardAll {batches : List MultiPush} {P : Request → Prop}
    (before : ∀ m ∈ s.sent, P m.request) (fits : ∀ b, P (.multiPush b)) :
    ∀ m ∈ (batches.foldl (fun s next => s.forward (.multiPush next)) s).sent, P m.request := by
  induction batches generalizing s with
  | nil => exact before
  | cons b rest ih => exact ih (carried_forward before (fits b))

theorem started_conserved (options : AggregatorConfig) (found : String → Bool) (workflow : Bool) :
    (started w options found workflow).Conserved := by
  have empty : (started w options found workflow).relay = ⟨[], [], fun _ => [],
      (started w options found workflow).live⟩ := by
    have none : w.packer.waiting w.packer.empty = [] := w.packer.waiting_empty
    unfold started restart
    split <;> (show Relay.mk _ (w.packer.waiting w.packer.empty) _ _ = _; rw [none]; rfl)
  have nothing : (started w options found workflow).sent = [] := by
    unfold started restart
    split <;> rfl
  constructor
  · rw [empty]
    exact ⟨fun _ _ => rfl, fun _ => List.prefix_rfl⟩
  · intro _
    exact congrArg Relay.waiting empty
  · rw [nothing]
    simp

theorem Conserved.pushNext (h : s.Conserved) (req : Push) : (s.pushNext req).Conserved := by
  have same : (s.pushNext req).enabledPacker = s.enabledPacker := by rw [pushNext_frame]
  have relayed := relay_pushNext s req
  cases packing : s.enabledPacker with
  | true =>
    rw [packing, if_pos rfl] at relayed
    refine ⟨relayed ▸ h.forwarded.keep, ?_, ?_⟩
    · intro off
      rw [same, packing] at off
      contradiction
    · rw [same]
      have sent : (s.pushNext req).sent = s.sent := by
        unfold AggregatorDomain.pushNext
        rw [packing]
        rfl
      rw [sent]
      exact h.carried
  | false =>
    rw [packing, if_neg Bool.false_ne_true] at relayed
    have nothing := h.direct packing
    refine ⟨relayed ▸ h.forwarded.pass nothing, ?_, ?_⟩
    · intro _
      exact (congrArg Relay.waiting relayed).trans nothing
    · rw [same]
      unfold AggregatorDomain.pushNext
      rw [packing]
      have before : ∀ m ∈ (s.hand req).sent, m.request.CarriedBy false := packing ▸ h.carried
      exact carried_forward before rfl

theorem Conserved.pushNextAll (h : s.Conserved) (reqs : List Push) : (reqs.foldl AggregatorDomain.pushNext s).Conserved := by
  induction reqs generalizing s with
  | nil => exact h
  | cons r rest ih => exact ih (h.pushNext r)

theorem Conserved.mulitPushNextMt (h : s.Conserved) : s.mulitPushNextMt.Conserved := by
  have same : s.mulitPushNextMt.enabledPacker = s.enabledPacker := by rw [mulitPushNextMt_frame]
  have relayed := relay_mulitPushNextMt s
  cases none : s.targets.isEmpty with
  | true =>
    have unchanged : s.mulitPushNextMt = s := if_pos none
    rw [unchanged]
    exact h
  | false =>
    rw [none, if_neg Bool.false_ne_true] at relayed
    refine ⟨relayed ▸ h.forwarded.flush, fun _ => congrArg Relay.waiting relayed, ?_⟩
    rw [same]
    unfold AggregatorDomain.mulitPushNextMt
    rw [none, if_neg Bool.false_ne_true]
    cases packing : s.enabledPacker with
    | true =>
      have before : ∀ m ∈ s.sent, m.request.CarriedBy true := packing ▸ h.carried
      exact carried_forwardAll before fun _ => rfl
    | false =>
      dsimp only
      rw [w.packer.popAll_nothing (h.direct packing)]
      exact packing ▸ h.carried

theorem Conserved.withStat (h : s.Conserved) (stat : w.aggregator.State) (pushed : Nat) :
    ({ s with stat := stat, pushed := pushed } : AggregatorDomain w).Conserved :=
  ⟨h.forwarded, h.direct, h.carried⟩

theorem Conserved.answer (h : s.Conserved) (cb : Bool) (res : Response) : (s.answer cb res).Conserved := by
  unfold AggregatorDomain.answer
  split
  · exact ⟨h.forwarded, h.direct, h.carried⟩
  · exact h

theorem Conserved.del (h : s.Conserved) (req : Option Del) (cb : Bool) : (s.del req cb).Conserved := by
  cases req with
  | none => exact h
  | some req =>
    refine Conserved.answer ?_ cb .created
    have cleared := h.withStat (req.names.foldl w.aggregator.del s.stat) s.pushed
    exact ⟨(relay_send_del _ req).symm ▸ cleared.forwarded, cleared.direct,
      carried_send cleared.carried trivial⟩

theorem handed_pushNextAll (s : AggregatorDomain w) (reqs : List Push) :
    (reqs.foldl AggregatorDomain.pushNext s).handed = s.handed ++ reqs := by
  induction reqs generalizing s with
  | nil => exact (List.append_nil _).symm
  | cons r rest ih =>
    have first : (s.pushNext r).handed = s.handed ++ [r] := by
      have relayed := congrArg Relay.handed (relay_pushNext s r)
      split at relayed <;> exact relayed
    rw [List.foldl_cons, ih, first, List.append_assoc]
    rfl

theorem received_pushoutTick (h : s.Conserved) {j : Nat} (up : s.live j = true) :
    s.pushoutTick.received j = s.handed ++ (w.aggregator.pushout s.stat).2 := by
  generalize popped : w.aggregator.pushout s.stat = pop
  have passed := (h.withStat pop.1 s.pushed).pushNextAll pop.2
  have handed := handed_pushNextAll { s with stat := pop.1 } pop.2
  have frame := pushNextAll_frame { s with stat := pop.1 } pop.2
  have tick : s.pushoutTick = (pop.2.foldl AggregatorDomain.pushNext { s with stat := pop.1 }).mulitPushNextMt := by
    unfold pushoutTick
    rw [popped]
  generalize pop.2.foldl AggregatorDomain.pushNext { s with stat := pop.1 } = m at passed handed frame tick
  have still : m.live j = true := by
    rw [frame]
    exact up
  have some : m.targets.isEmpty = false := by
    have bound := lt_of_getD still
    cases eq : m.targets with
    | nil => rw [eq] at bound; exact absurd bound (Nat.not_lt_zero _)
    | cons first rest => rfl
  have relayed := relay_mulitPushNextMt m
  rw [some, if_neg Bool.false_ne_true] at relayed
  calc s.pushoutTick.received j
      = m.relay.flush.received j := by rw [tick]; exact congrArg (fun r => r.received j) relayed
    _ = m.received j ++ m.waiting := by
        show m.received j ++ (if m.live j then m.waiting else []) = _
        rw [if_pos still]
    _ = m.handed := passed.forwarded.exactly j still
    _ = s.handed ++ pop.2 := handed

theorem conserved_step : ∀ (s : AggregatorDomain w) (op : Op) (t : AggregatorDomain w),
    s.Conserved → s.step op = some t → t.Conserved := by
  apply step_preserves_parts
  · exact fun s stat pushed h => h.withStat stat pushed
  · exact fun s reqs h => h.pushNextAll reqs
  · exact fun s h => h.mulitPushNextMt
  · exact fun s cb res h => h.answer cb res
  · exact fun s req cb h => h.del req cb
  · exact fun s j h => ⟨(relay_expire s j).symm ▸ h.forwarded.drop j, h.direct, h.carried⟩

/-- In every state of every run of a started aggregator, whatever its targets and whichever of them
are gone, each record handed to `push_next_` has reached every live target exactly once and in
order, or waits in the packer; and nothing else has reached any target. -/
theorem handed_records_conserved (w : Wrtstat) (options : AggregatorConfig) (found : String → Bool)
    (workflow : Bool) (ops : List Op) :
    Always step Conserved (started w options found workflow) ops :=
  always_invariant conserved_step (started_conserved options found workflow) ops

end AggregatorDomain

end WfcCore.Statistics

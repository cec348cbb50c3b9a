import WfcCore.Foundation.Relay

/-!
# The statistics tick

The timer of `statistics_domain` hands the aggregated records that `wrtstat` has ready on to the targets. The
aggregators of `wrtstat` are slots with a name and the records that can be popped; what is in a record besides
its name is of no concern here.
-/

namespace WfcCore.Statistics.Tick

open Foundation

variable {α : Type}

structure Slot (α : Type) where
  name : String
  ready : List α

/-- `wrtstat::request::push`. -/
structure Push (α : Type) where
  name : String
  data : α

/-- What a slot has ready, as requests under its name. -/
def Slot.requests (slot : Slot α) : List (Push α) :=
  slot.ready.map (Push.mk slot.name)

def Slot.emptied (slot : Slot α) : Slot α := { slot with ready := [] }

structure StatisticsConfig where
  targets : List String := []
  aggregateTimeoutMs : Int := 1000
  startupIgnoreMs : Int := 1000
  suspendPush : Bool := false

structure Delivered (α : Type) where
  target : Nat
  request : Push α

/-- `targets` tells which weak pointers can be locked, the clock counts milliseconds, and `delivered` is the
history of the calls of `push` of the targets. -/
structure StatisticsDomain (α : Type) where
  options : StatisticsConfig
  started : Bool
  startPoint : Int
  targets : List Bool
  stat : List (Slot α)
  delivered : List (Delivered α)

/-! ### Aggregators -/

def getName (stat : List (Slot α)) (i : Nat) : String :=
  match stat[i]? with
  | some slot => slot.name
  | none => ""

def ready (stat : List (Slot α)) (i : Nat) : List α :=
  match stat[i]? with
  | some slot => slot.ready
  | none => []

def pop (stat : List (Slot α)) (i : Nat) : Option (α × List (Slot α)) :=
  match stat[i]? with
  | some ⟨name, ag :: rest⟩ => some (ag, stat.set i ⟨name, rest⟩)
  | _ => none

theorem ready_of_getElem? {stat : List (Slot α)} {i : Nat} {slot : Slot α} (there : stat[i]? = some slot) :
    ready stat i = slot.ready := by
  unfold ready
  rw [there]

theorem pop_some {stat stat' : List (Slot α)} {i : Nat} {ag : α} (popped : pop stat i = some (ag, stat')) :
    ready stat i = ag :: ready stat' i := by
  unfold pop at popped
  split at popped
  · rename_i name ag' rest there
    obtain ⟨rfl, rfl⟩ := Prod.mk.inj (Option.some.inj popped)
    have bound : i < stat.length := (List.getElem?_eq_some_iff.mp there).1
    rw [ready_of_getElem? there, ready_of_getElem? (List.getElem?_set_self bound)]
  · contradiction

namespace StatisticsDomain

def live (s : StatisticsDomain α) (j : Nat) : Bool := s.targets.getD j false

/-- Copies go to targets 1, 2, … and the request itself is moved to target 0. -/
def forward (s : StatisticsDomain α) (req : Push α) : StatisticsDomain α :=
  { s with delivered := s.delivered ++ ((fanOut s.targets.length).filter s.live).map fun j => ⟨j, req⟩ }

/-- The inner loop: all that aggregator `i` has ready. -/
def drain (sname : String) (i : Nat) (s : StatisticsDomain α) : StatisticsDomain α :=
  match _popped : pop s.stat i with
  | none => s
  | some (ag, stat) => drain sname i (forward { s with stat := stat } ⟨sname, ag⟩)
termination_by (ready s.stat i).length
decreasing_by
  rw [pop_some _popped]
  exact Nat.lt_succ_self _

def drainSlot (s : StatisticsDomain α) (i : Nat) : StatisticsDomain α :=
  s.drain (getName s.stat i) i

/-- The values of `i` from `offset` up to `count` in steps; `step` is never zero. -/
def indices (offset step count : Nat) : List Nat :=
  List.range' offset ((count - offset + step - 1) / step) step

/-- `handler_`, with its result. -/
def handler (s : StatisticsDomain α) (now : Int) (offset step : Nat) : StatisticsDomain α × Bool :=
  let s := if !s.started then { s with started := decide (now - s.startPoint > s.options.startupIgnoreMs) } else s
  if !s.started then (s, true)
  else ((indices offset step s.stat.length).foldl drainSlot s, true)

/-- What `restart` binds to the timer. -/
def timerHandler (s : StatisticsDomain α) (now : Int) : StatisticsDomain α × Bool :=
  s.handler now 0 1

def received (s : StatisticsDomain α) (j : Nat) : List (Push α) :=
  s.delivered.flatMap fun d => if d.target = j then [d.request] else []

/-- From one state to another each live target got the requests, once and in order, and the others nothing. -/
structure Delivers (s t : StatisticsDomain α) (requests : List (Push α)) : Prop where
  targets : t.targets = s.targets
  received : ∀ j, t.received j = s.received j ++ if s.live j then requests else []

variable {s t u : StatisticsDomain α}

theorem Delivers.refl (s : StatisticsDomain α) : Delivers s s [] := ⟨rfl, by simp⟩

theorem Delivers.trans {first second : List (Push α)} (before : Delivers s t first) (later : Delivers t u second) :
    Delivers s u (first ++ second) where
  targets := later.targets.trans before.targets
  received j := by
    have live : t.live j = s.live j := congrArg (List.getD · j false) before.targets
    rw [later.received, before.received, live]
    cases s.live j with
    | false => simp
    | true => simp

/-! ### One slot -/

theorem forward_delivers (s : StatisticsDomain α) (stat : List (Slot α)) (req : Push α) :
    Delivers s (forward { s with stat := stat } req) [req] where
  targets := rfl
  received j := by
    show List.flatMap _ (s.delivered ++ _) = _
    rw [List.flatMap_append, List.flatMap_map]
    exact congrArg _ (flatMap_fanOut (fun _ => lt_of_getD) [req] j)

theorem pop_cons {stat : List (Slot α)} {i : Nat} {name : String} {ag : α} {rest : List α}
    (there : stat[i]? = some ⟨name, ag :: rest⟩) : pop stat i = some (ag, stat.set i ⟨name, rest⟩) := by
  unfold pop
  rw [there]

theorem pop_nil {stat : List (Slot α)} {i : Nat} {name : String} (there : stat[i]? = some ⟨name, []⟩) :
    pop stat i = none := by
  unfold pop
  rw [there]

theorem drain_nil (sname : String) {i : Nat} {name : String} (there : s.stat[i]? = some ⟨name, []⟩) :
    s.drain sname i = s := by
  rw [drain]
  split
  · rfl
  · rename_i popped
    rw [pop_nil there] at popped
    contradiction

theorem drain_cons (sname : String) {i : Nat} {name : String} {ag : α} {rest : List α}
    (there : s.stat[i]? = some ⟨name, ag :: rest⟩) :
    s.drain sname i = (forward { s with stat := s.stat.set i ⟨name, rest⟩ } ⟨sname, ag⟩).drain sname i := by
  rw [drain]
  split
  · rename_i popped
    rw [pop_cons there] at popped
    contradiction
  · rename_i popped
    rw [pop_cons there] at popped
    obtain ⟨rfl, rfl⟩ := Prod.mk.inj (Option.some.inj popped)
    rfl

/-- The inner loop empties a slot and delivers its records as they were popped. -/
theorem drain_delivers (sname : String) {i : Nat} {name : String} {records : List α}
    (there : s.stat[i]? = some ⟨name, records⟩) :
    Delivers s (s.drain sname i) (records.map (Push.mk sname)) ∧
      (s.drain sname i).stat = s.stat.set i ⟨name, []⟩ := by
  have bound : i < s.stat.length := (List.getElem?_eq_some_iff.mp there).1
  induction records generalizing s with
  | nil =>
    rw [drain_nil sname there]
    refine ⟨Delivers.refl s, ?_⟩
    rw [← (List.getElem?_eq_some_iff.mp there).2, List.set_getElem_self]
  | cons ag rest ih =>
    have passed := forward_delivers s (s.stat.set i ⟨name, rest⟩) ⟨sname, ag⟩
    rw [drain_cons sname there]
    obtain ⟨later, emptied⟩ := ih (s := forward { s with stat := s.stat.set i ⟨name, rest⟩ } ⟨sname, ag⟩)
      (List.getElem?_set_self bound) (by simpa [forward] using bound)
    refine ⟨passed.trans later, emptied.trans ?_⟩
    exact List.set_set ..

/-! ### The tick -/

theorem drainSlot_delivers {i : Nat} {slot : Slot α} (there : s.stat[i]? = some slot) :
    Delivers s (s.drainSlot i) slot.requests ∧ (s.drainSlot i).stat = s.stat.set i slot.emptied := by
  have named : getName s.stat i = slot.name := by
    unfold getName
    rw [there]
  unfold drainSlot
  rw [named]
  exact drain_delivers slot.name there

/-- The outer loop, with the slots before it done. -/
theorem slots_deliver (before rest : List (Slot α)) (s : StatisticsDomain α) (slots : s.stat = before ++ rest) :
    let t := (List.range' before.length rest.length).foldl drainSlot s
    Delivers s t (rest.flatMap Slot.requests) ∧ t.stat = before ++ rest.map Slot.emptied := by
  induction rest generalizing before s with
  | nil => exact ⟨Delivers.refl s, slots⟩
  | cons slot rest ih =>
    have there : s.stat[before.length]? = some slot := by
      rw [slots]
      simp
    obtain ⟨first, emptied⟩ := drainSlot_delivers there
    have stepped : (s.drainSlot before.length).stat = (before ++ [slot.emptied]) ++ rest := by
      rw [emptied, slots, List.set_append_right _ _ (Nat.le_refl _), Nat.sub_self, List.set_cons_zero,
        List.append_assoc]
      rfl
    have later := ih (before ++ [slot.emptied]) (s.drainSlot before.length) stepped
    rw [List.length_append, List.length_singleton] at later
    rw [List.length_cons, List.range'_succ, List.foldl_cons]
    refine ⟨first.trans later.1, later.2.trans ?_⟩
    rw [List.append_assoc]
    rfl

theorem handler_of_started (up : s.started = true) (now : Int) (offset step : Nat) :
    s.handler now offset step = ((indices offset step s.stat.length).foldl drainSlot s, true) := by
  simp [handler, up]

theorem handler_of_delay_over {now : Int} (over_ : now - s.startPoint > s.options.startupIgnoreMs) (offset step : Nat) :
    s.handler now offset step = handler { s with started := true } now offset step := by
  obtain ⟨options, started, startPoint, targets, stat, delivered⟩ := s
  cases started with
  | true => rfl
  | false => simp [handler, over_]

/-- A tick within the startup delay leaves the records where they are. -/
theorem handler_of_delayed {now : Int} (down : s.started = false)
    (early : ¬ now - s.startPoint > s.options.startupIgnoreMs) (offset step : Nat) :
    s.handler now offset step = (s, true) := by
  obtain ⟨options, started, startPoint, targets, stat, delivered⟩ := s
  obtain rfl : started = false := down
  simp [handler, early]

theorem indices_all (count : Nat) : indices 0 1 count = List.range' 0 count := by
  simp [indices]

theorem started_delivers (up : s.started = true) (now : Int) :
    (s.timerHandler now).2 = true ∧
    (s.timerHandler now).1.stat = s.stat.map Slot.emptied ∧
    Delivers s (s.timerHandler now).1 (s.stat.flatMap Slot.requests) := by
  unfold timerHandler
  rw [handler_of_started up, indices_all]
  obtain ⟨delivers, emptied⟩ := slots_deliver [] s.stat s rfl
  exact ⟨rfl, emptied, delivers⟩

/-- Once started, a tick delivers all that the slots have ready, in their order and under their names, once to
each live target, and leaves nothing ready. -/
theorem timerHandler_delivers (s : StatisticsDomain α) (now : Int)
    (running : s.started = true ∨ now - s.startPoint > s.options.startupIgnoreMs) :
    (s.timerHandler now).2 = true ∧
    (s.timerHandler now).1.stat = s.stat.map Slot.emptied ∧
    ∀ j, (s.timerHandler now).1.received j =
      s.received j ++ if s.live j then s.stat.flatMap Slot.requests else [] := by
  rcases running with up | over_
  · obtain ⟨result, emptied, delivers⟩ := started_delivers up now
    exact ⟨result, emptied, delivers.received⟩
  · have same : s.timerHandler now = timerHandler { s with started := true } now := handler_of_delay_over over_ 0 1
    have up : StatisticsDomain.started { s with started := true } = true := rfl
    obtain ⟨result, emptied, delivers⟩ := started_delivers up now
    rw [same]
    exact ⟨result, emptied, delivers.received⟩

/-- Two slots, and three targets of which the second is gone. -/
def threeTargets : StatisticsDomain Nat where
  options := { targets := ["log", "gone", "prometheus"] }
  started := false
  startPoint := 0
  targets := [true, false, true]
  stat := [⟨"cpu", [1, 2]⟩, ⟨"mem", [3]⟩]
  delivered := []

theorem threeTargets_delivers :
    (threeTargets.timerHandler 1001).2 = true ∧
    (threeTargets.timerHandler 1001).1.stat = threeTargets.stat.map Slot.emptied ∧
    ∀ j, (threeTargets.timerHandler 1001).1.received j =
      threeTargets.received j ++ if threeTargets.live j then threeTargets.stat.flatMap Slot.requests else [] :=
  timerHandler_delivers threeTargets 1001 (Or.inr (by decide))

end StatisticsDomain

end WfcCore.Statistics.Tick

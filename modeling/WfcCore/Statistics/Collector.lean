import WfcCore.Foundation.Feeds
import WfcCore.Foundation.Run
import WfcCore.Statistics.Tick

/-!
# The life of the statistics collector

Each `reconfigure` of `statistics_domain` makes a new collector and registers it for the clients; the timer keeps
the collector that it was bound to until `restart` binds the new one. Clients may hold on to the old one.
-/

namespace WfcCore.Statistics.Collector

open Foundation Tick

variable {β : Type}

/-- A record with the collector and the slot in which it became ready, which the source does not keep. -/
abbrev Record (β : Type) := (Nat × Nat) × β

structure AggregateTimer where
  periodMs : Int
  collector : Nat
  deriving DecidableEq

/-- `statistics_domain`. `collectors` are the `stat_impl`s made so far, the last one is `_stat`. The object keeps
its workflow, so there is at most one timer, and `release_timer` ends it. -/
structure Domain (β : Type) where
  options : StatisticsConfig
  suspendPush : Bool
  started : Bool
  startPoint : Int
  targets : List Bool
  collectors : List (List (Slot (Record β)))
  timer : Option AggregateTimer
  delivered : List (Delivered (Record β))

namespace Domain

/-- The constructor leaves `_started` and `_start_point` unset. -/
def created (options : StatisticsConfig) (started : Bool) (startPoint : Int) : Domain β where
  options := options
  suspendPush := false
  started := started
  startPoint := startPoint
  targets := []
  collectors := []
  timer := none
  delivered := []

def reconfigure (s : Domain β) (options : StatisticsConfig) : Domain β :=
  { s with
    options := options
    suspendPush := options.suspendPush
    collectors := s.collectors ++ [[]] }

/-- `initialize`. `found` tells which names `get_target` resolves. -/
def resolveTargets (s : Domain β) (found : String → Bool) : Domain β :=
  { s with targets := s.options.targets.map found }

def restart (s : Domain β) (workflow : Bool) : Domain β :=
  if workflow then { s with timer := some ⟨s.options.aggregateTimeoutMs, s.collectors.length - 1⟩ } else s

def start (s : Domain β) (now : Int) (workflow : Bool) : Domain β :=
  { s with startPoint := now }.restart workflow

/-- What `handler_` sees when it is called with a collector. -/
def bound (s : Domain β) (c : Nat) : StatisticsDomain (Record β) where
  options := s.options
  started := s.started
  startPoint := s.startPoint
  targets := s.targets
  stat := s.collectors.getD c []
  delivered := s.delivered

def handle (s : Domain β) (c : Nat) (now : Int) : Domain β :=
  let t := ((s.bound c).timerHandler now).1
  { s with started := t.started, collectors := s.collectors.set c t.stat, delivered := t.delivered }

def slot (s : Domain β) (feed : Nat × Nat) : Option (Slot (Record β)) :=
  s.collectors[feed.1]?.bind fun stat => stat[feed.2]?

/-- A client creates a meter in a collector. -/
def addSlot (s : Domain β) (c : Nat) (name : String) : Domain β :=
  { s with collectors := s.collectors.modify c fun stat => stat ++ [⟨name, []⟩] }

/-- What clients measured under a name has been aggregated and can be popped. -/
def addReady (s : Domain β) (feed : Nat × Nat) (value : β) : Domain β :=
  { s with collectors := s.collectors.modify feed.1 fun stat =>
      stat.modify feed.2 fun slot => { slot with ready := slot.ready ++ [(feed, value)] } }

def expire (s : Domain β) (j : Nat) : Domain β := { s with targets := s.targets.set j false }

inductive Op (β : Type) where
  | reconfigure (options : StatisticsConfig)
  | resolveTargets (found : String → Bool)
  | start (now : Int) (workflow : Bool)
  | restart (workflow : Bool)
  | stop
  | addSlot (collector : Nat) (name : String)
  | addReady (feed : Nat × Nat) (value : β)
  | tick (now : Int)
  | expire (target : Nat)

/-- The framework configures an object before it starts it. `stop` takes the collector out of the registry and
leaves the timer running. -/
def step (s : Domain β) : Op β → Option (Domain β)
  | .reconfigure options => some (s.reconfigure options)
  | .resolveTargets found => some (s.resolveTargets found)
  | .start now workflow => if s.collectors.isEmpty then none else some (s.start now workflow)
  | .restart workflow => if s.collectors.isEmpty then none else some (s.restart workflow)
  | .stop => some s
  | .addSlot c name => some (s.addSlot c name)
  | .addReady feed value => if (s.slot feed).isSome then some (s.addReady feed value) else none
  | .tick now => s.timer.map fun timer => s.handle timer.collector now
  | .expire j => some (s.expire j)

def Op.isTick : Op β → Bool
  | .tick _ => true
  | _ => false

/-- What became ready on which feed. -/
def Op.arrival : Op β → List (Record β)
  | .addReady feed value => [(feed, value)]
  | _ => []

def arrivals (ops : List (Op β)) : List (Record β) := ops.flatMap Op.arrival

/-! ### Slots -/

variable {s t : Domain β}

def readyValues (slot : Option (Slot (Record β))) : List β := slot.elim [] fun slot => slot.ready.map Prod.snd

def waiting (s : Domain β) (feed : Nat × Nat) : List β := readyValues (s.slot feed)

def live (s : Domain β) (j : Nat) : Bool := s.targets.getD j false

/-- The requests that target `j` has got. -/
def received (s : Domain β) (j : Nat) : List (Tick.Push (Record β)) := (s.bound 0).received j

def feeds (s : Domain β) (j : Nat) : Feeds (Nat × Nat) β where
  waiting := s.waiting
  out := (s.received j).map Tick.Push.data

/-- Every record waits on its own feed. -/
def Stamped (s : Domain β) : Prop := ∀ feed slot, s.slot feed = some slot → ∀ r ∈ slot.ready, r.1 = feed

theorem slot_set {c : Nat} {stat : List (Slot (Record β))} (inside : c < s.collectors.length) (feed : Nat × Nat) :
    slot { s with collectors := s.collectors.set c stat } feed =
      if feed.1 = c then stat[feed.2]? else s.slot feed := by
  unfold slot
  by_cases here : feed.1 = c
  · rw [if_pos here, here, List.getElem?_set_self inside]
    rfl
  · rw [if_neg here, List.getElem?_set_ne fun h => here h.symm]

theorem slot_bound {c : Nat} (i : Nat) : (s.bound c).stat[i]? = s.slot (c, i) := by
  unfold slot bound
  cases there : s.collectors[c]? with
  | none => simp [List.getD, there]
  | some stat => simp [List.getD, there]

theorem slot_reconfigure (options : StatisticsConfig) (feed : Nat × Nat) :
    (s.reconfigure options).slot feed = s.slot feed := by
  unfold slot reconfigure
  rcases Nat.lt_trichotomy feed.1 s.collectors.length with before | here | after
  · rw [List.getElem?_append_left before]
  · rw [here, List.getElem?_concat_length, List.getElem?_eq_none (Nat.le_refl _)]
    rfl
  · rw [List.getElem?_eq_none (Nat.le_of_lt after), List.getElem?_eq_none]
    rw [List.length_append, List.length_singleton]
    omega

theorem slot_modify (c : Nat) (f : List (Slot (Record β)) → List (Slot (Record β))) (feed : Nat × Nat) :
    slot { s with collectors := s.collectors.modify c f } feed =
      if feed.1 = c then s.collectors[c]?.bind fun stat => (f stat)[feed.2]? else s.slot feed := by
  unfold slot
  by_cases here : feed.1 = c
  · rw [if_pos here, here, List.getElem?_modify_eq]
    cases s.collectors[c]? <;> rfl
  · rw [if_neg here, List.getElem?_modify_ne f _ fun h => here h.symm]

theorem slot_addSlot (c : Nat) (name : String) (feed : Nat × Nat) :
    (s.addSlot c name).slot feed = s.slot feed ∨
      s.slot feed = none ∧ (s.addSlot c name).slot feed = some ⟨name, []⟩ := by
  unfold addSlot
  rw [slot_modify]
  by_cases here : feed.1 = c
  · rw [if_pos here]
    unfold slot
    rw [here]
    cases s.collectors[c]? with
    | none => exact Or.inl rfl
    | some stat =>
      show (stat ++ [_])[feed.2]? = stat[feed.2]? ∨ stat[feed.2]? = none ∧ (stat ++ [_])[feed.2]? = _
      rcases Nat.lt_trichotomy feed.2 stat.length with before | last | after
      · exact Or.inl (List.getElem?_append_left before)
      · rw [last, List.getElem?_concat_length, List.getElem?_eq_none (Nat.le_refl _)]
        exact Or.inr ⟨rfl, rfl⟩
      · rw [List.getElem?_eq_none (Nat.le_of_lt after), List.getElem?_eq_none]
        · exact Or.inl rfl
        · rw [List.length_append, List.length_singleton]
          omega
  · rw [if_neg here]
    exact Or.inl rfl

theorem slot_addReady (feed : Nat × Nat) (value : β) (other : Nat × Nat) :
    (s.addReady feed value).slot other =
      if other = feed then (s.slot feed).map fun slot => { slot with ready := slot.ready ++ [(feed, value)] }
      else s.slot other := by
  unfold addReady
  rw [slot_modify]
  by_cases here : other.1 = feed.1
  · rw [if_pos here]
    unfold slot
    rw [here]
    cases s.collectors[feed.1]? with
    | none => simp
    | some stat =>
      show (stat.modify feed.2 _)[other.2]? = if _ then stat[feed.2]?.map _ else stat[other.2]?
      by_cases same : other.2 = feed.2
      · rw [if_pos (Prod.ext here same), same, List.getElem?_modify_eq]
        rfl
      · rw [if_neg fun h => same (congrArg Prod.snd h), List.getElem?_modify_ne _ _ fun h => same h.symm]
  · rw [if_neg here, if_neg fun h => here (congrArg Prod.fst h)]

/-! ### One tick -/

/-- The requests that the timer finds in a collector. -/
def pending (s : Domain β) (c : Nat) : List (Tick.Push (Record β)) := (s.bound c).stat.flatMap Slot.requests

/-- `handler_` goes past the startup delay. -/
def Running (s : Domain β) (now : Int) : Prop := s.started = true ∨ now - s.startPoint > s.options.startupIgnoreMs

theorem slot_of_outside {c : Nat} (outside : ¬ c < s.collectors.length) (i : Nat) : s.slot (c, i) = none := by
  unfold slot
  rw [List.getElem?_eq_none (Nat.le_of_not_lt outside)]
  rfl

/-- A tick past the startup delay empties the slots of the collector and gives what they had to the live
targets. -/
theorem handle_running {c : Nat} {now : Int} (running : s.Running now) :
    (s.handle c now).targets = s.targets ∧
      (∀ j, (s.handle c now).received j = s.received j ++ if s.live j then s.pending c else []) ∧
      ∀ feed, (s.handle c now).slot feed = if feed.1 = c then (s.slot feed).map Slot.emptied else s.slot feed := by
  have ticked : StatisticsDomain.Delivers (s.bound c) ((s.bound c).timerHandler now).1 (s.pending c) ∧
      ((s.bound c).timerHandler now).1.stat = (s.bound c).stat.map Slot.emptied := by
    rcases running with up | over_
    · obtain ⟨-, emptied, delivers⟩ := StatisticsDomain.started_delivers (s := s.bound c) up now
      exact ⟨delivers, emptied⟩
    · have same : (s.bound c).timerHandler now = StatisticsDomain.timerHandler { s.bound c with started := true } now :=
        StatisticsDomain.handler_of_delay_over (s := s.bound c) over_ 0 1
      obtain ⟨-, emptied, delivers⟩ :=
        StatisticsDomain.started_delivers (s := { s.bound c with started := true }) rfl now
      rw [same]
      exact ⟨⟨delivers.targets, delivers.received⟩, emptied⟩
  refine ⟨rfl, ticked.1.received, fun feed => ?_⟩
  by_cases inside : c < s.collectors.length
  · have written : (s.handle c now).slot feed = _ := slot_set (s := s) inside feed
    rw [written]
    by_cases here : feed.1 = c
    · rw [if_pos here, if_pos here, ticked.2, List.getElem?_map, slot_bound, ← here]
    · rw [if_neg here, if_neg here]
  · have nowhere : (s.handle c now).collectors = s.collectors := List.set_eq_of_length_le (Nat.le_of_not_lt inside)
    have same : (s.handle c now).slot feed = s.slot feed := by
      unfold slot
      rw [nowhere]
    rw [same]
    by_cases here : feed.1 = c
    · have none_ : s.slot feed = none := by
        have := slot_of_outside inside feed.2
        rwa [← here] at this
      rw [if_pos here, none_]
      rfl
    · rw [if_neg here]

/-- A tick within the startup delay does nothing. -/
theorem handle_delayed {c : Nat} {now : Int} (delayed : ¬ s.Running now) : s.handle c now = s := by
  obtain ⟨down, early⟩ := not_or.mp delayed
  have down : s.started = false := by simpa using down
  have same : (s.bound c).timerHandler now = (s.bound c, true) :=
    StatisticsDomain.handler_of_delayed (s := s.bound c) down early 0 1
  have kept : s.collectors.set c (s.bound c).stat = s.collectors := by
    by_cases inside : c < s.collectors.length
    · have there : (s.bound c).stat = s.collectors[c] := by simp [bound, List.getD, inside]
      rw [there, List.set_getElem_self]
    · exact List.set_eq_of_length_le (Nat.le_of_not_lt inside)
  unfold handle
  rw [same]
  dsimp only
  rw [kept]
  rfl

/-! ### Feeds -/

def feedsOf (s : Domain β) (c : Nat) : List (Nat × Nat) := (List.range (s.bound c).stat.length).map (Prod.mk c)

theorem feedsOf_nodup (s : Domain β) (c : Nat) : (s.feedsOf c).Nodup :=
  List.nodup_range.map fun _ _ same => (Prod.mk.inj same).2

theorem mem_feedsOf {c : Nat} {feed : Nat × Nat} : feed ∈ s.feedsOf c ↔ feed.1 = c ∧ feed.2 < (s.bound c).stat.length := by
  unfold feedsOf
  rw [List.mem_map]
  constructor
  · rintro ⟨i, member, rfl⟩
    exact ⟨rfl, List.mem_range.mp member⟩
  · rintro ⟨rfl, small⟩
    exact ⟨feed.2, List.mem_range.mpr small, rfl⟩

theorem stamped_ready (stamped : s.Stamped) (feed : Nat × Nat) :
    (s.waiting feed).map (Prod.mk feed) = (s.slot feed).elim [] Slot.ready := by
  unfold waiting readyValues
  cases there : s.slot feed with
  | none => rfl
  | some slot =>
    show (slot.ready.map Prod.snd).map (Prod.mk feed) = slot.ready
    rw [List.map_map]
    refine (List.map_congr_left fun r member => ?_).trans (List.map_id _)
    exact Prod.ext (stamped feed slot there r member).symm rfl

/-- What a tick hands on, read as the waiting records of the feeds of its collector. -/
theorem pending_data (stamped : s.Stamped) (c : Nat) :
    (s.pending c).map Tick.Push.data = (s.feedsOf c).flatMap fun feed => (s.waiting feed).map (Prod.mk feed) := by
  have each (slot : Slot (Record β)) : slot.requests.map Tick.Push.data = (some slot).elim [] Slot.ready := by
    show (slot.ready.map _).map _ = slot.ready
    rw [List.map_map]
    exact List.map_id _
  unfold pending feedsOf
  rw [List.map_flatMap, List.flatMap_map, funext each,
    ← flatMap_positions (s.bound c).stat fun slot => slot.elim [] Slot.ready]
  refine List.flatMap_congr fun i _ => ?_
  rw [stamped_ready stamped, slot_bound]

theorem waiting_handle {c : Nat} {now : Int} (running : s.Running now) (feed : Nat × Nat) :
    (s.handle c now).waiting feed = if feed.1 = c then [] else s.waiting feed := by
  unfold waiting
  rw [(handle_running running).2.2]
  split
  · cases s.slot feed <;> rfl
  · rfl

/-- To a live target a tick past the startup delay passes on the feeds of its collector. -/
theorem feeds_handle (stamped : s.Stamped) {c : Nat} {now : Int} (running : s.Running now) {j : Nat}
    (up : s.live j = true) : (s.handle c now).feeds j = (s.feeds j).pass (s.feedsOf c) := by
  have out : ((s.handle c now).received j).map Tick.Push.data =
      (s.received j).map Tick.Push.data ++ (s.feedsOf c).flatMap fun feed => (s.waiting feed).map (Prod.mk feed) := by
    rw [(handle_running running).2.1 j, if_pos up, List.map_append, pending_data stamped]
  have left : (s.handle c now).waiting = ((s.feeds j).pass (s.feedsOf c)).waiting := by
    funext feed
    rw [waiting_handle running]
    by_cases member : feed ∈ s.feedsOf c
    · rw [if_pos (mem_feedsOf.mp member).1]
      exact (if_pos member).symm
    · refine Eq.trans ?_ (if_neg member).symm
      split
      · rename_i here
        have outside : ¬ feed.2 < (s.bound c).stat.length := fun inside => member (mem_feedsOf.mpr ⟨here, inside⟩)
        have nothing : s.slot feed = none := by
          have := slot_bound (s := s) (c := c) feed.2
          rw [List.getElem?_eq_none (Nat.le_of_not_lt outside), ← here] at this
          exact this.symm
        show [] = readyValues (s.slot feed)
        rw [nothing]
        rfl
      · rfl
  show Feeds.mk _ _ = Feeds.mk _ _
  rw [left, out]
  rfl

/-! ### What a step does -/

/-- Slots are as they were, but for new ones. -/
def SlotsKept (s t : Domain β) : Prop :=
  ∀ feed, t.slot feed = s.slot feed ∨ s.slot feed = none ∧ ∃ name, t.slot feed = some ⟨name, []⟩

theorem slotsKept_of_collectors (same : t.collectors = s.collectors) : SlotsKept s t := by
  intro feed
  unfold slot
  rw [same]
  exact Or.inl rfl

/-- What a step does that is neither a tick nor a record becoming ready. It may bind the timer, to the latest
collector. -/
structure Quiet (op : Op β) (s t : Domain β) : Prop where
  silent : op.isTick = false
  nothing : op.arrival = []
  delivered : t.delivered = s.delivered
  slots : SlotsKept s t
  collectors : s.collectors.length ≤ t.collectors.length
  timer : t.timer = s.timer ∨ ∃ timer, t.timer = some timer ∧ timer.collector + 1 = s.collectors.length

theorem quiet_of_collectors {op : Op β} (silent : op.isTick = false) (nothing : op.arrival = [])
    (delivered : t.delivered = s.delivered) (same : t.collectors = s.collectors)
    (timer : t.timer = s.timer ∨ ∃ timer, t.timer = some timer ∧ timer.collector + 1 = s.collectors.length) :
    Quiet op s t :=
  ⟨silent, nothing, delivered, slotsKept_of_collectors same, Nat.le_of_eq (congrArg List.length same).symm, timer⟩

theorem restart_quiet {op : Op β} (silent : op.isTick = false) (nothing : op.arrival = [])
    (made : ¬ s.collectors.isEmpty = true) (startPoint : Int) (workflow : Bool) :
    Quiet op s ({ s with startPoint := startPoint }.restart workflow) := by
  have pos := List.length_pos_iff.mpr fun none_ => made (List.isEmpty_iff.mpr none_)
  cases workflow with
  | false => exact quiet_of_collectors silent nothing rfl rfl (Or.inl rfl)
  | true => exact quiet_of_collectors silent nothing rfl rfl (Or.inr ⟨_, rfl, Nat.sub_add_cancel pos⟩)

theorem step_cases {op : Op β} (taken : s.step op = some t) :
    Quiet op s t ∨
      (∃ feed value, op = .addReady feed value ∧ (s.slot feed).isSome = true ∧ t = s.addReady feed value) ∨
      ∃ now timer, op = .tick now ∧ s.timer = some timer ∧ t = s.handle timer.collector now := by
  cases op with
  | reconfigure options =>
    obtain rfl := Option.some.inj taken
    refine Or.inl ⟨rfl, rfl, rfl, fun feed => Or.inl (slot_reconfigure options feed), ?_, Or.inl rfl⟩
    show s.collectors.length ≤ (s.collectors ++ [[]]).length
    rw [List.length_append]
    exact Nat.le_add_right _ _
  | resolveTargets found =>
    obtain rfl := Option.some.inj taken
    exact Or.inl (quiet_of_collectors rfl rfl rfl rfl (Or.inl rfl))
  | start now workflow =>
    obtain ⟨made, taken⟩ := Option.ite_none_left_eq_some.mp taken
    obtain rfl := Option.some.inj taken
    exact Or.inl (restart_quiet rfl rfl made now workflow)
  | restart workflow =>
    obtain ⟨made, taken⟩ := Option.ite_none_left_eq_some.mp taken
    obtain rfl := Option.some.inj taken
    exact Or.inl (restart_quiet rfl rfl made s.startPoint workflow)
  | stop =>
    obtain rfl := Option.some.inj taken
    exact Or.inl (quiet_of_collectors rfl rfl rfl rfl (Or.inl rfl))
  | addSlot c name =>
    obtain rfl := Option.some.inj taken
    refine Or.inl ⟨rfl, rfl, rfl, fun feed => ?_, Nat.le_of_eq (List.length_modify ..).symm, Or.inl rfl⟩
    rcases slot_addSlot (s := s) c name feed with same | ⟨nothing, fresh⟩
    · exact Or.inl same
    · exact Or.inr ⟨nothing, name, fresh⟩
  | addReady feed value =>
    obtain ⟨there, taken⟩ := Option.ite_none_right_eq_some.mp taken
    obtain rfl := Option.some.inj taken
    exact Or.inr (Or.inl ⟨feed, value, rfl, there, rfl⟩)
  | tick now =>
    obtain ⟨timer, bound, rfl⟩ := Option.map_eq_some_iff.mp taken
    exact Or.inr (Or.inr ⟨now, timer, rfl, bound, rfl⟩)
  | expire j =>
    obtain rfl := Option.some.inj taken
    exact Or.inl (quiet_of_collectors rfl rfl rfl rfl (Or.inl rfl))

theorem SlotsKept.waiting (kept : SlotsKept s t) (feed : Nat × Nat) : t.waiting feed = s.waiting feed := by
  unfold Domain.waiting
  rcases kept feed with same | ⟨nothing, name, fresh⟩
  · rw [same]
  · rw [nothing, fresh]
    rfl

theorem waiting_addReady {feed : Nat × Nat} (there : (s.slot feed).isSome = true) (value : β) (other : Nat × Nat) :
    (s.addReady feed value).waiting other = s.waiting other ++ onFeed other [(feed, value)] := by
  unfold waiting
  rw [slot_addReady]
  by_cases same : other = feed
  · subst same
    obtain ⟨slot, found⟩ := Option.isSome_iff_exists.mp there
    rw [if_pos rfl, found]
    simp [readyValues, onFeed]
  · have elsewhere : ¬ feed = other := fun h => same h.symm
    rw [if_neg same, onFeed, List.filterMap_cons, if_neg elsewhere]
    exact (List.append_nil _).symm

theorem received_of_delivered (same : t.delivered = s.delivered) (j : Nat) : t.received j = s.received j := by
  unfold received StatisticsDomain.received bound
  rw [same]

/-- A step that is not a tick sends nothing and only adds what becomes ready to what waits. -/
theorem step_quiet {op : Op β} (taken : s.step op = some t) (quiet : op.isTick = false) :
    (∀ j, t.received j = s.received j) ∧ ∀ feed, t.waiting feed = s.waiting feed ++ onFeed feed op.arrival := by
  rcases step_cases taken with did | ⟨into, value, rfl, there, rfl⟩ | ⟨now, timer, rfl, -, rfl⟩
  · refine ⟨received_of_delivered did.delivered, fun feed => ?_⟩
    rw [did.nothing, did.slots.waiting]
    exact (List.append_nil _).symm
  · exact ⟨received_of_delivered rfl, waiting_addReady there value⟩
  · contradiction

theorem step_tick {op : Op β} (taken : s.step op = some t) (ticks : op.isTick = true) :
    ∃ now timer, op = .tick now ∧ s.timer = some timer ∧ t = s.handle timer.collector now := by
  rcases step_cases taken with did | ⟨into, value, rfl, -⟩ | tick
  · rw [did.silent] at ticks
    contradiction
  · contradiction
  · exact tick

/-- What a target has got it keeps. -/
theorem received_grown {op : Op β} (taken : s.step op = some t) (j : Nat) :
    ∃ new, t.received j = s.received j ++ new := by
  cases ticks : op.isTick with
  | false => exact ⟨[], by rw [(step_quiet taken ticks).1, List.append_nil]⟩
  | true =>
    obtain ⟨now, timer, rfl, -, rfl⟩ := step_tick taken ticks
    by_cases running : s.Running now
    · exact ⟨_, (handle_running running).2.1 j⟩
    · exact ⟨[], by rw [handle_delayed running, List.append_nil]⟩

/-- Slots stay, under their names. -/
theorem step_names {op : Op β} (taken : s.step op = some t) {feed : Nat × Nat} {name : String}
    (named : (s.slot feed).map Slot.name = some name) : (t.slot feed).map Slot.name = some name := by
  rcases step_cases taken with did | ⟨into, value, -, -, rfl⟩ | ⟨now, timer, -, -, rfl⟩
  · rcases did.slots feed with same | ⟨nothing, -⟩
    · rw [same]
      exact named
    · rw [nothing] at named
      contradiction
  · rw [slot_addReady]
    split
    · rename_i here
      rw [Option.map_map, ← here]
      exact named
    · exact named
  · by_cases running : s.Running now
    · rw [(handle_running running).2.2]
      split
      · rw [Option.map_map]
        exact named
      · exact named
    · rw [handle_delayed running]
      exact named

/-- Every record waits on its own feed, and was sent under the name of its slot. -/
structure Tracked (s : Domain β) : Prop where
  stamped : s.Stamped
  named : ∀ j, ∀ req ∈ s.received j, (s.slot req.data.1).map Slot.name = some req.name

theorem created_tracked (options : StatisticsConfig) (started : Bool) (startPoint : Int) :
    (created (β := β) options started startPoint).Tracked where
  stamped := by
    intro feed slot there
    contradiction
  named := by
    intro j req member
    contradiction

theorem stamped_step (stamped : s.Stamped) {op : Op β} (taken : s.step op = some t) : t.Stamped := by
  intro feed slot there
  rcases step_cases taken with did | ⟨into, value, -, -, rfl⟩ | ⟨now, timer, -, -, rfl⟩
  · rcases did.slots feed with same | ⟨-, name, fresh⟩
    · exact stamped feed slot (same ▸ there)
    · obtain rfl := Option.some.inj (fresh.symm.trans there)
      intro r member
      contradiction
  · rw [slot_addReady] at there
    split at there
    · rename_i here
      subst here
      obtain ⟨before, found, rfl⟩ := Option.map_eq_some_iff.mp there
      intro r member
      rcases List.mem_append.mp member with old | new
      · exact stamped feed before found r old
      · rw [List.mem_singleton.mp new]
    · exact stamped feed slot there
  · by_cases running : s.Running now
    · rw [(handle_running running).2.2] at there
      split at there
      · obtain ⟨before, -, rfl⟩ := Option.map_eq_some_iff.mp there
        intro r member
        contradiction
      · exact stamped feed slot there
    · rw [handle_delayed running] at there
      exact stamped feed slot there

theorem pending_named (stamped : s.Stamped) {c : Nat} {req : Tick.Push (Record β)} (member : req ∈ s.pending c) :
    (s.slot req.data.1).map Slot.name = some req.name := by
  obtain ⟨slot, inside, member⟩ := List.mem_flatMap.mp member
  obtain ⟨i, there⟩ := List.mem_iff_getElem?.mp inside
  obtain ⟨r, ready, rfl⟩ := List.mem_map.mp member
  rw [slot_bound] at there
  rw [stamped (c, i) slot there r ready, there]
  rfl

theorem tracked_step (tracked : s.Tracked) {op : Op β} (taken : s.step op = some t) : t.Tracked := by
  refine ⟨stamped_step tracked.stamped taken, fun j req member => step_names taken ?_⟩
  cases ticks : op.isTick with
  | false =>
    rw [(step_quiet taken ticks).1] at member
    exact tracked.named j req member
  | true =>
    obtain ⟨now, timer, rfl, -, rfl⟩ := step_tick taken ticks
    by_cases running : s.Running now
    · rw [(handle_running running).2.1] at member
      rcases List.mem_append.mp member with old | new
      · exact tracked.named j req old
      · split at new
        · exact pending_named tracked.stamped new
        · contradiction
    · rw [handle_delayed running] at member
      exact tracked.named j req member

/-- With target `j` live at the ticks, a step adds what becomes ready to what came on a feed, and nothing else. -/
theorem all_step (tracked : s.Tracked) {op : Op β} (taken : s.step op = some t) {j : Nat}
    (up : op.isTick = true → s.live j = true) (feed : Nat × Nat) :
    (t.feeds j).all feed = (s.feeds j).all feed ++ onFeed feed op.arrival := by
  cases ticks : op.isTick with
  | false =>
    obtain ⟨same, grown⟩ := step_quiet taken ticks
    show onFeed feed ((t.received j).map _) ++ t.waiting feed = _
    rw [same, grown, ← List.append_assoc]
    rfl
  | true =>
    obtain ⟨now, timer, rfl, -, rfl⟩ := step_tick taken ticks
    have nothing : onFeed feed (Op.arrival (.tick now : Op β)) = [] := rfl
    rw [nothing, List.append_nil]
    by_cases running : s.Running now
    · rw [feeds_handle tracked.stamped running (up rfl), Feeds.all_pass _ (feedsOf_nodup s _)]
    · rw [handle_delayed running]

/-! ### Runs -/

theorem all_run (tracked : s.Tracked) {ops : List (Op β)} (run : exec step s ops = some t) {j : Nat}
    (up : Meets step (fun s op => op.isTick = true → s.live j = true) s ops) (feed : Nat × Nat) :
    (t.feeds j).all feed = (s.feeds j).all feed ++ onFeed feed (arrivals ops) := by
  induction ops generalizing s with
  | nil =>
    obtain rfl := Option.some.inj run
    exact (List.append_nil _).symm
  | cons op rest ih =>
    obtain ⟨m, taken, run⟩ := exec_cons_some run
    obtain ⟨now, later⟩ := up m taken
    rw [ih (tracked_step tracked taken) run later, all_step tracked taken now, List.append_assoc, ← onFeed_append]
    rfl

/-- A target that is live at the ticks has got, of each slot of each collector, all that became ready there once
and in order, up to what still waits in the slot, under the name of the slot. -/
theorem records_delivered_once (options : StatisticsConfig) (started : Bool) (startPoint : Int) (ops : List (Op β))
    (run : exec step (created options started startPoint) ops = some t) (j : Nat)
    (up : Meets step (fun s op => op.isTick = true → s.live j = true) (created options started startPoint) ops) :
    (∀ feed, onFeed feed ((t.received j).map Tick.Push.data) ++ t.waiting feed = onFeed feed (arrivals ops)) ∧
      ∀ req ∈ t.received j, (t.slot req.data.1).map Slot.name = some req.name := by
  have tracked := created_tracked (β := β) options started startPoint
  refine ⟨fun feed => ?_, ?_⟩
  · have total := all_run tracked run up feed
    have empty : ((created (β := β) options started startPoint).feeds j).all feed = [] := rfl
    rwa [empty, List.nil_append] at total
  · exact (exec_invariant (fun _ _ _ now taken => tracked_step now taken) tracked run).named j

/-- A collector with one slot and one target. -/
def oneSlot : List (Op Nat) :=
  [.reconfigure { targets := ["log"] }, .resolveTargets fun _ => true, .start 0 true, .addSlot 0 "cpu",
    .addReady (0, 0) 7]

theorem oneSlot_delivered :
    ∃ t, exec step (created {} false 0) (oneSlot ++ [.tick 1001]) = some t ∧
      onFeed (0, 0) ((t.received 0).map Tick.Push.data) ++ t.waiting (0, 0) = [7] :=
  ⟨_, rfl, (records_delivered_once {} false 0 (oneSlot ++ [.tick 1001]) rfl 0 (by decide)).1 (0, 0)⟩

/-! ### Replaced collectors -/

/-- The timer is bound to a collector that was made after collector `c`. -/
def PastCollector (c : Nat) (s : Domain β) : Prop :=
  ∃ timer, s.timer = some timer ∧ c < timer.collector ∧ timer.collector < s.collectors.length

/-- A bound collector exists. -/
def Bound (s : Domain β) : Prop := ∀ timer, s.timer = some timer → timer.collector < s.collectors.length

theorem step_timer {op : Op β} (taken : s.step op = some t) :
    s.collectors.length ≤ t.collectors.length ∧
      (t.timer = s.timer ∨ ∃ timer, t.timer = some timer ∧ timer.collector + 1 = s.collectors.length) := by
  rcases step_cases taken with did | ⟨into, value, -, -, rfl⟩ | ⟨now, timer, -, -, rfl⟩
  · exact ⟨did.collectors, did.timer⟩
  · exact ⟨Nat.le_of_eq (List.length_modify ..).symm, Or.inl rfl⟩
  · exact ⟨Nat.le_of_eq (List.length_set ..).symm, Or.inl rfl⟩

theorem bound_step (s : Domain β) (op : Op β) (t : Domain β) (bound : s.Bound) (taken : s.step op = some t) :
    t.Bound := by
  obtain ⟨grown, same | ⟨latest, now, last⟩⟩ := step_timer taken
  · intro timer there
    exact Nat.lt_of_lt_of_le (bound timer (same ▸ there)) grown
  · intro timer there
    obtain rfl := Option.some.inj (now.symm.trans there)
    omega

theorem pastCollector_step {c : Nat} {op : Op β} (past : PastCollector c s) (taken : s.step op = some t) :
    PastCollector c t := by
  obtain ⟨timer, there, later, inside⟩ := past
  obtain ⟨grown, same | ⟨latest, now, last⟩⟩ := step_timer taken
  · exact ⟨timer, same.trans there, later, Nat.lt_of_lt_of_le inside grown⟩
  · exact ⟨latest, now, by omega, by omega⟩

/-- What a step leaves alone of a collector that the timer is past. -/
theorem replaced_step {c : Nat} {op : Op β} (stamped : s.Stamped) (past : PastCollector c s)
    (taken : s.step op = some t) (i : Nat) :
    (∀ j, onFeed (c, i) ((t.received j).map Tick.Push.data) = onFeed (c, i) ((s.received j).map Tick.Push.data)) ∧
      t.waiting (c, i) = s.waiting (c, i) ++ onFeed (c, i) op.arrival := by
  cases ticks : op.isTick with
  | false =>
    obtain ⟨same, grown⟩ := step_quiet taken ticks
    exact ⟨fun j => by rw [same], grown (c, i)⟩
  | true =>
    obtain ⟨now, timer, rfl, bound, rfl⟩ := step_tick taken ticks
    obtain ⟨timer', there, later, -⟩ := past
    obtain rfl := Option.some.inj (bound.symm.trans there)
    have nothing : onFeed (c, i) (Op.arrival (.tick now : Op β)) = [] := rfl
    rw [nothing, List.append_nil]
    by_cases running : s.Running now
    · have elsewhere : (c, i) ∉ s.feedsOf timer.collector :=
        fun member => absurd (mem_feedsOf.mp member).1 (Nat.ne_of_lt later)
      have others : onFeed (c, i) ((s.pending timer.collector).map Tick.Push.data) = [] := by
        rw [pending_data stamped, onFeed_flatMap (feedsOf_nodup s _), if_neg elsewhere]
      refine ⟨fun j => ?_, ?_⟩
      · rw [(handle_running running).2.1, List.map_append, onFeed_append]
        split
        · rw [others, List.append_nil]
        · exact List.append_nil _
      · rw [waiting_handle running, if_neg (Nat.ne_of_lt later)]
    · rw [handle_delayed running]
      exact ⟨fun _ => rfl, rfl⟩

theorem replaced_run {c : Nat} {ops : List (Op β)} (stamped : s.Stamped) (past : PastCollector c s)
    (run : exec step s ops = some t) (i : Nat) :
    (∀ j, onFeed (c, i) ((t.received j).map Tick.Push.data) = onFeed (c, i) ((s.received j).map Tick.Push.data)) ∧
      t.waiting (c, i) = s.waiting (c, i) ++ onFeed (c, i) (arrivals ops) := by
  induction ops generalizing s with
  | nil =>
    obtain rfl := Option.some.inj run
    exact ⟨fun _ => rfl, (List.append_nil _).symm⟩
  | cons op rest ih =>
    obtain ⟨m, taken, run⟩ := exec_cons_some run
    obtain ⟨sent, kept⟩ := replaced_step stamped past taken i
    obtain ⟨later, last⟩ := ih (stamped_step stamped taken) (pastCollector_step past taken) run
    refine ⟨fun j => (later j).trans (sent j), ?_⟩
    rw [last, kept, List.append_assoc, ← onFeed_append]
    rfl

/-- Once the timer has been bound to a later collector, nothing that is ready in an earlier one or becomes ready
there is ever sent to any target. -/
theorem replaced_never_sent (options : StatisticsConfig) (started : Bool) (startPoint : Int) {m : Domain β}
    (before after : List (Op β)) (reached : exec step (created options started startPoint) before = some m)
    (run : exec step m after = some t) {timer : AggregateTimer} (bound : m.timer = some timer) {c : Nat}
    (replaced : c < timer.collector) (i : Nat) :
    (∀ j, onFeed (c, i) ((t.received j).map Tick.Push.data) = onFeed (c, i) ((m.received j).map Tick.Push.data)) ∧
      t.waiting (c, i) = m.waiting (c, i) ++ onFeed (c, i) (arrivals after) := by
  have none_ : (created (β := β) options started startPoint).Bound := by
    intro timer there
    contradiction
  have stamped := (exec_invariant (fun _ _ _ now taken => tracked_step now taken)
    (created_tracked options started startPoint) reached).stamped
  have inside := exec_invariant bound_step none_ reached timer bound
  exact replaced_run stamped ⟨timer, bound, replaced, inside⟩ run i

/-- The collector is replaced while a record is ready in it. -/
theorem oneSlot_lost :
    ∃ m t, exec step (created {} false 0) (oneSlot ++ [.reconfigure { targets := ["log"] }, .restart true]) = some m ∧
      exec step m [.tick 2000] = some t ∧ t.waiting (0, 0) = [7] :=
  ⟨_, _, rfl, rfl, (replaced_never_sent {} false 0 (oneSlot ++ [.reconfigure { targets := ["log"] }, .restart true])
    [.tick 2000] rfl rfl rfl (c := 0) (by decide) 0).2⟩

end Domain

end WfcCore.Statistics.Collector

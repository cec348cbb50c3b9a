import WfcCore.Foundation.TimerSlots

/-!
# The timers of the domain objects

What `initialize`, `start`, `restart` and `stop` of `config`, `aggregator_domain`, `statistics_domain`,
`system_statistics_domain` and `workflow_domain` do with their timer ids: the calls of `release_timer` and
`create_timer` and the assignments of the members, in program order.
-/

namespace WfcCore.Wfc.Timers

open Foundation

inductive Call where
  | initialise | start | restart | stop
deriving DecidableEq

/-- A class with its timer members. `constructed` are the values that its constructor gives them, if any, and
`Inputs` is what a call reads: options, and whether the workflow and the statistics are there. A call that does not
come to a member has no value in `leaves`. Another releases the timer of the member, and then leaves a new one or
none. -/
structure Component where
  Slot : Type
  decEq : DecidableEq Slot
  Inputs : Type
  constructed : Slot → Option Int
  body : Call → Inputs → List (TimerOp Slot)
  leaves : Call → Inputs → Slot → Option Bool
  constructed_none : ∀ k value, constructed k = some value → NoTimer value
  disciplined : ∀ call inputs, Disciplined [] (body call inputs)
  releases : ∀ call inputs k, .release k ∈ body call inputs ↔ (leaves call inputs k).isSome
  creates : ∀ call inputs k, .create k ∈ body call inputs ↔ leaves call inputs k = some true

attribute [instance] Component.decEq

/-- The only timer of a class. -/
inductive TimerId where
  | timerId
deriving DecidableEq

/-! ### `config` -/

structure ConfigInputs where
  reloadChangedMs : Int

def Config.restart (inputs : ConfigInputs) : List (TimerOp TimerId) :=
  [.release .timerId, .reset .timerId 0] ++ if inputs.reloadChangedMs ≠ 0 then [.create .timerId] else []

def Config.body : Call → ConfigInputs → List (TimerOp TimerId)
  | .initialise, _ => []
  | .start, inputs => Config.restart inputs
  | .restart, inputs => Config.restart inputs
  | .stop, _ => [.release .timerId]

def Config.leaves : Call → ConfigInputs → TimerId → Option Bool
  | .initialise, _, _ => none
  | .start, inputs, _ | .restart, inputs, _ => some (inputs.reloadChangedMs ≠ 0)
  | .stop, _, _ => some false

theorem Config.restart_disciplined (inputs : ConfigInputs) : Disciplined [] (Config.restart inputs) := by
  unfold Config.restart
  split <;> simp [Disciplined, TimerOp.Allowed, TimerOp.frees, NoTimer]

def config : Component where
  Slot := TimerId
  decEq := inferInstance
  Inputs := ConfigInputs
  constructed := fun _ => some 0
  body := Config.body
  leaves := Config.leaves
  constructed_none := by
    rintro k value ⟨⟩
    exact Or.inl rfl
  disciplined := by
    intro call inputs
    cases call with
    | initialise => trivial
    | start => exact Config.restart_disciplined inputs
    | restart => exact Config.restart_disciplined inputs
    | stop => exact ⟨trivial, trivial⟩
  releases call inputs k := by
    cases call <;> simp [Config.body, Config.leaves, Config.restart]
  creates call inputs k := by
    cases call <;> simp [Config.body, Config.leaves, Config.restart]

/-! ### `aggregator_domain` -/

inductive AggregatorTimer where
  | timerId | statTimerId
deriving DecidableEq

structure AggregatorInputs where
  workflow : Bool
  pushoutTimerMs : Int
  statistics : Bool
  statTimerMs : Int

def AggregatorDomain.restart (inputs : AggregatorInputs) : List (TimerOp AggregatorTimer) :=
  if inputs.workflow then
    [.release .timerId, if inputs.pushoutTimerMs ≠ 0 then .create .timerId else .reset .timerId (-1)] ++
      if inputs.statistics then
        [.release .statTimerId, if inputs.statTimerMs ≠ 0 then .create .statTimerId else .reset .statTimerId (-1)]
      else []
  else []

def AggregatorDomain.body : Call → AggregatorInputs → List (TimerOp AggregatorTimer)
  | .initialise, _ => []
  | .start, inputs => AggregatorDomain.restart inputs
  | .restart, inputs => AggregatorDomain.restart inputs
  | .stop, _ => []

def AggregatorDomain.restartLeaves (inputs : AggregatorInputs) : AggregatorTimer → Option Bool
  | .timerId => if inputs.workflow then some (inputs.pushoutTimerMs ≠ 0) else none
  | .statTimerId => if inputs.workflow ∧ inputs.statistics then some (inputs.statTimerMs ≠ 0) else none

def AggregatorDomain.leaves : Call → AggregatorInputs → AggregatorTimer → Option Bool
  | .initialise, _, _ => none
  | .start, inputs, k | .restart, inputs, k => AggregatorDomain.restartLeaves inputs k
  | .stop, _, _ => none

theorem AggregatorDomain.restart_disciplined (inputs : AggregatorInputs) :
    Disciplined [] (AggregatorDomain.restart inputs) := by
  unfold AggregatorDomain.restart
  repeat' split
  all_goals simp [Disciplined, TimerOp.Allowed, TimerOp.frees, NoTimer]

theorem AggregatorDomain.restart_releases (inputs : AggregatorInputs) (k : AggregatorTimer) :
    .release k ∈ AggregatorDomain.restart inputs ↔ (AggregatorDomain.restartLeaves inputs k).isSome := by
  obtain ⟨workflow, pushoutTimerMs, statistics, statTimerMs⟩ := inputs
  unfold AggregatorDomain.restart AggregatorDomain.restartLeaves
  by_cases push : pushoutTimerMs = 0 <;> by_cases stat : statTimerMs = 0 <;>
    cases k <;> cases workflow <;> cases statistics <;> simp [push, stat]

theorem AggregatorDomain.restart_creates (inputs : AggregatorInputs) (k : AggregatorTimer) :
    .create k ∈ AggregatorDomain.restart inputs ↔ AggregatorDomain.restartLeaves inputs k = some true := by
  obtain ⟨workflow, pushoutTimerMs, statistics, statTimerMs⟩ := inputs
  unfold AggregatorDomain.restart AggregatorDomain.restartLeaves
  by_cases push : pushoutTimerMs = 0 <;> by_cases stat : statTimerMs = 0 <;>
    cases k <;> cases workflow <;> cases statistics <;> simp [push, stat]

def aggregatorDomain : Component where
  Slot := AggregatorTimer
  decEq := inferInstance
  Inputs := AggregatorInputs
  constructed := fun _ => none
  body := AggregatorDomain.body
  leaves := AggregatorDomain.leaves
  constructed_none := by
    rintro k value ⟨⟩
  disciplined := by
    intro call inputs
    cases call with
    | initialise => trivial
    | start => exact AggregatorDomain.restart_disciplined inputs
    | restart => exact AggregatorDomain.restart_disciplined inputs
    | stop => trivial
  releases call inputs k := by
    cases call with
    | start => exact AggregatorDomain.restart_releases inputs k
    | restart => exact AggregatorDomain.restart_releases inputs k
    | _ => simp [AggregatorDomain.body, AggregatorDomain.leaves]
  creates call inputs k := by
    cases call with
    | start => exact AggregatorDomain.restart_creates inputs k
    | restart => exact AggregatorDomain.restart_creates inputs k
    | _ => simp [AggregatorDomain.body, AggregatorDomain.leaves]

/-! ### `statistics_domain` -/

structure StatisticsInputs where
  workflow : Bool

def StatisticsDomain.restart (inputs : StatisticsInputs) : List (TimerOp TimerId) :=
  if inputs.workflow then [.release .timerId, .create .timerId] else []

def StatisticsDomain.body : Call → StatisticsInputs → List (TimerOp TimerId)
  | .initialise, _ => []
  | .start, inputs => StatisticsDomain.restart inputs
  | .restart, inputs => StatisticsDomain.restart inputs
  | .stop, _ => []

def StatisticsDomain.leaves : Call → StatisticsInputs → TimerId → Option Bool
  | .initialise, _, _ => none
  | .start, inputs, _ | .restart, inputs, _ => if inputs.workflow then some true else none
  | .stop, _, _ => none

theorem StatisticsDomain.restart_disciplined (inputs : StatisticsInputs) :
    Disciplined [] (StatisticsDomain.restart inputs) := by
  unfold StatisticsDomain.restart
  split <;> simp [Disciplined, TimerOp.Allowed, TimerOp.frees]

def statisticsDomain : Component where
  Slot := TimerId
  decEq := inferInstance
  Inputs := StatisticsInputs
  constructed := fun _ => none
  body := StatisticsDomain.body
  leaves := StatisticsDomain.leaves
  constructed_none := by
    rintro k value ⟨⟩
  disciplined := by
    intro call inputs
    cases call with
    | initialise => trivial
    | start => exact StatisticsDomain.restart_disciplined inputs
    | restart => exact StatisticsDomain.restart_disciplined inputs
    | stop => trivial
  releases call inputs k := by
    cases call <;> simp [StatisticsDomain.body, StatisticsDomain.leaves, StatisticsDomain.restart]
  creates call inputs k := by
    cases call <;> simp [StatisticsDomain.body, StatisticsDomain.leaves, StatisticsDomain.restart]

/-! ### `system_statistics_domain` -/

/-- `start` is that of the base class, which may call `restart` or not. -/
structure SystemStatisticsInputs where
  statistics : Bool
  startRestarts : Bool

def SystemStatisticsDomain.restart (inputs : SystemStatisticsInputs) : List (TimerOp TimerId) :=
  [.release .timerId, .reset .timerId (-1)] ++ if inputs.statistics then [.create .timerId] else []

def SystemStatisticsDomain.body : Call → SystemStatisticsInputs → List (TimerOp TimerId)
  | .initialise, _ => []
  | .start, inputs => if inputs.startRestarts then SystemStatisticsDomain.restart inputs else []
  | .restart, inputs => SystemStatisticsDomain.restart inputs
  | .stop, _ => [.release .timerId]

def SystemStatisticsDomain.leaves : Call → SystemStatisticsInputs → TimerId → Option Bool
  | .initialise, _, _ => none
  | .start, inputs, _ => if inputs.startRestarts then some inputs.statistics else none
  | .restart, inputs, _ => some inputs.statistics
  | .stop, _, _ => some false

theorem SystemStatisticsDomain.restart_disciplined (inputs : SystemStatisticsInputs) :
    Disciplined [] (SystemStatisticsDomain.restart inputs) := by
  unfold SystemStatisticsDomain.restart
  split <;> simp [Disciplined, TimerOp.Allowed, TimerOp.frees, NoTimer]

def systemStatisticsDomain : Component where
  Slot := TimerId
  decEq := inferInstance
  Inputs := SystemStatisticsInputs
  constructed := fun _ => some (-1)
  body := SystemStatisticsDomain.body
  leaves := SystemStatisticsDomain.leaves
  constructed_none := by
    rintro k value ⟨⟩
    exact Or.inr rfl
  disciplined := by
    intro call inputs
    cases call with
    | initialise => trivial
    | start =>
      simp only [SystemStatisticsDomain.body]
      split
      · exact SystemStatisticsDomain.restart_disciplined inputs
      · trivial
    | restart => exact SystemStatisticsDomain.restart_disciplined inputs
    | stop => exact ⟨trivial, trivial⟩
  releases call inputs k := by
    cases call <;> simp [SystemStatisticsDomain.body, SystemStatisticsDomain.leaves, SystemStatisticsDomain.restart]
  creates call inputs k := by
    cases call <;> simp [SystemStatisticsDomain.body, SystemStatisticsDomain.leaves, SystemStatisticsDomain.restart]

/-! ### `workflow_domain` -/

inductive WorkflowTimer where
  | statTimer
deriving DecidableEq

structure WorkflowInputs where
  commonWorkflow : Bool
  queue : String
  dropped : String
  statistics : Bool

def WorkflowDomain.initialise (inputs : WorkflowInputs) : List (TimerOp WorkflowTimer) :=
  if inputs.commonWorkflow then
    .release .statTimer ::
      if inputs.queue = "" ∨ inputs.dropped = "" then []
      else if inputs.statistics then [.create .statTimer]
      else []
  else []

def WorkflowDomain.body : Call → WorkflowInputs → List (TimerOp WorkflowTimer)
  | .initialise, inputs => WorkflowDomain.initialise inputs
  | .start, _ => []
  | .restart, _ => []
  | .stop, inputs => if inputs.commonWorkflow then [.release .statTimer] else []

def WorkflowDomain.leaves : Call → WorkflowInputs → WorkflowTimer → Option Bool
  | .initialise, inputs, _ =>
    if inputs.commonWorkflow then some (inputs.queue ≠ "" ∧ inputs.dropped ≠ "" ∧ inputs.statistics) else none
  | .start, _, _ | .restart, _, _ => none
  | .stop, inputs, _ => if inputs.commonWorkflow then some false else none

theorem WorkflowDomain.initialise_disciplined (inputs : WorkflowInputs) :
    Disciplined [] (WorkflowDomain.initialise inputs) := by
  unfold WorkflowDomain.initialise
  repeat' split
  all_goals simp [Disciplined, TimerOp.Allowed, TimerOp.frees]

def workflowDomain : Component where
  Slot := WorkflowTimer
  decEq := inferInstance
  Inputs := WorkflowInputs
  constructed := fun _ => none
  body := WorkflowDomain.body
  leaves := WorkflowDomain.leaves
  constructed_none := by
    rintro k value ⟨⟩
  disciplined := by
    intro call inputs
    cases call with
    | initialise => exact WorkflowDomain.initialise_disciplined inputs
    | start => trivial
    | restart => trivial
    | stop =>
      simp only [WorkflowDomain.body]
      split
      · exact ⟨trivial, trivial⟩
      · trivial
  releases call inputs k := by
    cases call <;> simp [WorkflowDomain.body, WorkflowDomain.leaves, WorkflowDomain.initialise]
  creates call inputs k := by
    cases call <;> simp [WorkflowDomain.body, WorkflowDomain.leaves, WorkflowDomain.initialise, and_assoc]

/-! ### Runs -/

inductive Class where
  | config | aggregatorDomain | statisticsDomain | systemStatisticsDomain | workflowDomain
deriving DecidableEq

def Class.component : Class → Component
  | .config => Timers.config
  | .aggregatorDomain => Timers.aggregatorDomain
  | .statisticsDomain => Timers.statisticsDomain
  | .systemStatisticsDomain => Timers.systemStatisticsDomain
  | .workflowDomain => Timers.workflowDomain

/-- A call of the component, a timer that is created for somebody else, or a timer that ends by itself. -/
inductive Event (ι : Type) where
  | call (call : Call) (inputs : ι)
  | elsewhere
  | ended (id : Int)

variable (c : Component) (service : TimerService)

abbrev Component.State := Foundation.Timers c.Slot

/-- `memory` is what the members happen to hold that the constructor leaves unset. -/
def Component.construct (memory : c.Slot → Int) : c.State where
  slots := fun k => (c.constructed k).getD (memory k)
  unset := fun k => (c.constructed k).isNone
  got := []
  elsewhere := []
  live := fun _ => []
  foreign := []

def Component.apply (s : c.State) : Event c.Inputs → c.State
  | .call call inputs => applyOps service s (c.body call inputs)
  | .elsewhere => { s with elsewhere := s.elsewhere ++ [service.next s] }
  | .ended id => { s with live := fun k => (s.live k).filter (· ≠ id) }

def Component.step (s : c.State) (e : Event c.Inputs) : Option c.State := some (c.apply service s e)

/-- What an event keeps: at any time during a call nothing foreign has been released and each purpose has at most
one live timer, no operation ends a timer of another component, and after `stop` no timer is live. -/
def Component.Keeps (s : c.State) : Event c.Inputs → Prop
  | .call call inputs =>
    Always (opStep service) Owned s (c.body call inputs) ∧ Meets (opStep service) Spares s (c.body call inputs) ∧
      (call = .stop → ∀ k, (c.apply service s (.call call inputs)).live k = [])
  | e => Owned (c.apply service s e)

def Component.TimersOwned (memory : c.Slot → Int) (events : List (Event c.Inputs)) : Prop :=
  Owned (c.construct memory) ∧ Meets (c.step service) (c.Keeps service) (c.construct memory) events

def Component.leavesAt : Event c.Inputs → c.Slot → Option Bool
  | .call call inputs, k => c.leaves call inputs k
  | .elsewhere, _ => none
  | .ended _, _ => none

/-- Whether the last call that came to a member left a timer. -/
def Component.leftOn (events : List (Event c.Inputs)) (k : c.Slot) : Bool :=
  events.foldl (fun on e => (c.leavesAt e k).getD on) false

/-- A member that a call comes to is constructed or happens to hold a value for no timer, and a `stop` comes when
the calls before and the `stop` itself leave no timer. -/
structure Component.Condition (memory : c.Slot → Int) (events : List (Event c.Inputs)) : Prop where
  memory : ∀ k, (c.constructed k).isSome ∨ NoTimer (memory k) ∨ ∀ e ∈ events, c.leavesAt e k = none
  stopped : ∀ before inputs, before ++ [.call .stop inputs] <+: events →
    ∀ k, c.leftOn (before ++ [.call .stop inputs]) k = false

variable {c service} {s t : c.State} {e : Event c.Inputs} {memory : c.Slot → Int}
  {before events : List (Event c.Inputs)}

theorem Component.leftOn_append (before : List (Event c.Inputs)) (e : Event c.Inputs) (k : c.Slot) :
    c.leftOn (before ++ [e]) k = (c.leavesAt e k).getD (c.leftOn before k) := by
  rw [leftOn, List.foldl_append]
  rfl

/-- The state after some events. A member that nothing has been written to holds what the memory held. -/
structure Component.Sound (memory : c.Slot → Int) (before : List (Event c.Inputs)) (s : c.State) : Prop where
  held : Held s
  foreign : s.foreign = []
  unset : ∀ k, s.unset k = true → c.constructed k = none ∧ s.slots k = memory k
  idle : ∀ k, c.leftOn before k = false → s.live k = []

theorem Component.construct_sound (memory : c.Slot → Int) : Component.Sound memory [] (c.construct memory) where
  held := by
    refine ⟨fun k => Or.inl rfl, fun k set => ?_, fun id other => by contradiction⟩
    obtain ⟨value, given⟩ := Option.isSome_iff_exists.mp (Option.isNone_eq_false_iff.mp set)
    have holds : (c.construct memory).slots k = value := by
      simp only [construct]
      rw [given, Option.getD_some]
    rw [holds]
    exact Or.inr (c.constructed_none k value given)
  foreign := rfl
  unset k unset := by
    have none : c.constructed k = none := Option.isNone_iff_eq_none.mp unset
    refine ⟨none, ?_⟩
    simp only [construct]
    rw [none, Option.getD_none]
  idle k _ := rfl

/-- By the condition a call releases no member with a value that is somebody else's. -/
theorem Component.Sound.ready {call : Call} {inputs : c.Inputs} (sound : Component.Sound memory before s)
    (condition : c.Condition memory events) (next : before ++ [.call call inputs] <+: events) :
    Ready s [] (c.body call inputs) where
  held := sound.held
  foreign := sound.foreign
  idle k h := by contradiction
  disciplined := c.disciplined call inputs
  settled k released unset := by
    obtain ⟨unconstructed, same⟩ := sound.unset k unset
    rw [same]
    rcases condition.memory k with constructed | none | untouched
    · rw [unconstructed] at constructed
      contradiction
    · exact none
    · have leaves := untouched _ (next.subset (List.mem_append_right _ (List.mem_singleton_self _)))
      have comes := (c.releases call inputs k).mp released
      rw [show c.leaves call inputs k = none from leaves] at comes
      contradiction

theorem Component.Sound.elsewhere (sound : Component.Sound memory before s) :
    Component.Sound memory (before ++ [.elsewhere]) (c.apply service s .elsewhere) where
  held := by
    refine ⟨sound.held.running, sound.held.own, fun id issued own => ?_⟩
    rcases List.mem_append.mp issued with old | new
    · exact sound.held.apart id old own
    · obtain rfl := List.mem_singleton.mp new
      rcases own with got | none
      · exact service.new _ (List.mem_append_left _ got)
      · exact service.valid _ none
  foreign := sound.foreign
  unset := sound.unset
  idle k off := by
    rw [leftOn_append] at off
    exact sound.idle k off

theorem Component.Sound.ended (sound : Component.Sound memory before s) (id : Int) :
    Component.Sound memory (before ++ [.ended id]) (c.apply service s (.ended id)) where
  held := ⟨fun k => filter_running _ (sound.held.running k), sound.held.own, sound.held.apart⟩
  foreign := sound.foreign
  unset := sound.unset
  idle k off := by
    rw [leftOn_append] at off
    show (s.live k).filter _ = []
    rw [sound.idle k off, List.filter_nil]

/-- What a call leaves live is what the table says. -/
theorem Component.Sound.idle_call {call : Call} {inputs : c.Inputs} (sound : Component.Sound memory before s)
    (ready : Ready s [] (c.body call inputs)) {k : c.Slot} (off : c.leftOn (before ++ [.call call inputs]) k = false) :
    (c.apply service s (.call call inputs)).live k = [] := by
  rw [leftOn_append] at off
  change (c.leaves call inputs k).getD (c.leftOn before k) = false at off
  have creates : .create k ∉ c.body call inputs := by
    rw [c.creates]
    intro on
    rw [on] at off
    contradiction
  apply ready.released_idle creates
  cases leaves : c.leaves call inputs k with
  | none =>
    rw [leaves] at off
    exact Or.inr (sound.idle k off)
  | some on =>
    refine Or.inl ((c.releases call inputs k).mpr ?_)
    rw [leaves]
    rfl

theorem Component.Sound.call {call : Call} {inputs : c.Inputs} (sound : Component.Sound memory before s)
    (ready : Ready s [] (c.body call inputs)) :
    Component.Sound memory (before ++ [.call call inputs]) (c.apply service s (.call call inputs)) := by
  obtain ⟨held, foreign⟩ : Held (applyOps service s (c.body call inputs)) ∧ _ := ready.applyOps
  refine ⟨held, foreign, fun k unset => ?_, fun k off => sound.idle_call ready off⟩
  obtain ⟨earlier, same⟩ := unset_of_applyOps unset
  obtain ⟨unconstructed, memory⟩ := sound.unset k earlier
  exact ⟨unconstructed, same.trans memory⟩

theorem Component.Sound.step (sound : Component.Sound memory before s) (condition : c.Condition memory events)
    (next : before ++ [e] <+: events) : Component.Sound memory (before ++ [e]) (c.apply service s e) := by
  cases e with
  | call call inputs => exact sound.call (sound.ready condition next)
  | elsewhere => exact sound.elsewhere
  | ended id => exact sound.ended id

theorem Component.Sound.keeps (sound : Component.Sound memory before s) (condition : c.Condition memory events)
    (next : before ++ [e] <+: events) : c.Keeps service s e := by
  cases e with
  | call call inputs =>
    have ready := sound.ready condition next
    refine ⟨ready.always, ready.spares, ?_⟩
    rintro rfl k
    exact sound.idle_call ready (condition.stopped before inputs next k)
  | elsewhere =>
    have after : Component.Sound memory _ (c.apply service s .elsewhere) := sound.elsewhere
    exact after.held.owned after.foreign
  | ended id =>
    have after : Component.Sound memory _ (c.apply service s (.ended id)) := sound.ended id
    exact after.held.owned after.foreign

theorem timersOwned_of_condition (condition : c.Condition memory events) : c.TimersOwned service memory events := by
  have start := Component.construct_sound (c := c) memory
  refine ⟨start.held.owned start.foreign, meets_history (Component.Sound memory) start ?_⟩
  intro before s e t next sound taken
  obtain rfl := Option.some.inj taken
  exact ⟨sound.keeps condition next, sound.step condition next⟩

/-! ### Classes that need no condition -/

/-- The constructor writes to every member and `stop` releases every one. -/
structure Component.Careful (c : Component) : Prop where
  constructed : ∀ k, (c.constructed k).isSome
  stop : ∀ inputs k, c.leaves .stop inputs k = some false

theorem Component.Careful.condition (careful : c.Careful) (memory : c.Slot → Int) (events : List (Event c.Inputs)) :
    c.Condition memory events where
  memory k := Or.inl (careful.constructed k)
  stopped before inputs _ k := by
    rw [leftOn_append]
    show (c.leaves .stop inputs k).getD _ = false
    rw [careful.stop, Option.getD_some]

theorem config_careful : config.Careful where
  constructed _ := rfl
  stop _ _ := rfl

theorem systemStatisticsDomain_careful : systemStatisticsDomain.Careful where
  constructed _ := rfl
  stop _ _ := rfl

/-! ### The five classes -/

/-- `config` and `system_statistics_domain` own their timers in every run, the other classes in every run that meets
the condition. -/
theorem timers_owned {k : Class} {service : TimerService} {memory : k.component.Slot → Int}
    {events : List (Event k.component.Inputs)}
    (condition : k = .config ∨ k = .systemStatisticsDomain ∨ k.component.Condition memory events) :
    k.component.TimersOwned service memory events := by
  rcases condition with rfl | rfl | met
  · exact timersOwned_of_condition (config_careful.condition memory events)
  · exact timersOwned_of_condition (systemStatisticsDomain_careful.condition memory events)
  · exact timersOwned_of_condition met

theorem le_largest {issued : List Int} {id : Int} (h : id ∈ issued) : id ≤ issued.foldr max 0 := by
  induction issued with
  | nil => contradiction
  | cons first rest ih =>
    rw [List.foldr_cons]
    rcases List.mem_cons.mp h with rfl | later
    · exact Int.le_max_left ..
    · exact Int.le_trans (ih later) (Int.le_max_right ..)

theorem largest_nonneg (issued : List Int) : 0 ≤ issued.foldr max 0 := by
  induction issued with
  | nil => exact Int.le_refl 0
  | cons first rest ih => exact Int.le_trans ih (Int.le_max_right ..)

def counting : TimerService where
  fresh := fun issued => issued.foldr max 0 + 1
  new issued h := by
    have := le_largest h
    omega
  valid issued h := by
    have := largest_nonneg issued
    rcases h with zero | minus <;> omega

/-- An aggregator whose members happen to be zero, with a push timer that is switched off before `stop`. -/
def switchedOff : List (Event AggregatorInputs) :=
  [.call .start ⟨true, 1000, false, 0⟩, .elsewhere, .call .restart ⟨true, 0, false, 0⟩, .call .stop ⟨true, 0, false, 0⟩]

theorem timers_owned_switchedOff : aggregatorDomain.TimersOwned counting (fun _ => 0) switchedOff := by
  apply timers_owned (k := .aggregatorDomain)
  refine Or.inr (Or.inr ⟨fun k => Or.inr (Or.inl (Or.inl rfl)), ?_⟩)
  rintro before inputs ⟨rest, cut⟩ k
  rcases before with _ | ⟨first, _ | ⟨second, _ | ⟨third, _ | ⟨fourth, more⟩⟩⟩⟩
  · cases cut
  · cases cut
  · cases cut
  · cases cut
    cases k <;> rfl
  · have length : _ = 4 := congrArg List.length cut
    simp only [List.length_append, List.length_cons] at length
    omega

theorem timers_not_owned :
    ¬ aggregatorDomain.TimersOwned counting (fun _ => 1) [.elsewhere, .call .start ⟨true, 1000, false, 0⟩] ∧
      ¬ statisticsDomain.TimersOwned counting (fun _ => 0) [.call .start ⟨true⟩, .call .stop ⟨true⟩] ∧
      ¬ workflowDomain.TimersOwned counting (fun _ => 1)
        [.elsewhere, .call .initialise ⟨true, "queue", "dropped", true⟩] := by
  refine ⟨?_, ?_, ?_⟩
  · rintro ⟨-, meets⟩
    obtain ⟨-, meets⟩ := meets _ rfl
    obtain ⟨⟨always, -⟩, -⟩ := meets _ rfl
    exact absurd (always.last rfl).foreign (by decide)
  · rintro ⟨-, meets⟩
    obtain ⟨-, meets⟩ := meets _ rfl
    obtain ⟨⟨-, -, stopped⟩, -⟩ := meets _ rfl
    exact absurd (stopped rfl .timerId) (by decide)
  · rintro ⟨-, meets⟩
    obtain ⟨-, meets⟩ := meets _ rfl
    obtain ⟨⟨always, -⟩, -⟩ := meets _ rfl
    exact absurd (always.last rfl).foreign (by decide)

end WfcCore.Wfc.Timers

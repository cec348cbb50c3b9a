import WfcCore.Core.Stopping
import WfcCore.Foundation.Round

/-!
# The order of the lifecycle

An observer beside the machine keeps what the four phases choose, which calls they make, and what the flags were
at the two checks that a start depends on. It takes part in nothing. In every state of every run what it has
seen is in order, whatever the priorities are and wherever a stop or an abort comes between.
-/

namespace WfcCore.Core

open Foundation Wfc

/-! ### The observer -/

/-- What has been seen of the sunrise that began last. -/
structure Sunrise where
  initialization : Round Instance
  start : Round Instance
  /-- Neither flag was up when the start phase began. -/
  startQuiet : Bool
  /-- Neither flag was up when the start phase had ended. -/
  endQuiet : Bool
  running : Bool

structure Shutdown where
  loopEnded : Bool
  beforeStop : Bool
  stop : Round Instance
  afterStop : Bool

def Sunrise.fresh : Sunrise := ⟨.fresh, .fresh, false, false, false⟩

def Shutdown.fresh : Shutdown := ⟨false, false, .fresh, false⟩

/-- The flags and registrations that the main thread reads with its next step. -/
def Sunrise.read (s : State) (r : Sunrise) : Sunrise :=
  match s.pc with
  | .collect _ .initializing =>
    let selected := if s.dirty then s.instances else s.instances.filter Instance.isReconfigured
    { r with initialization := r.initialization.choose selected }
  | .checkStop _ .starting => { r with startQuiet := !s.stopFlag && !s.abortFlag }
  | .collect _ .starting => { r with start := r.start.choose s.instances }
  | .checkStop _ .finishing => { r with endQuiet := !s.stopFlag && !s.abortFlag }
  | _ => r

def Sunrise.note (r : Sunrise) : Event → Sunrise
  | .sunrise => .fresh
  | .initialized m => { r with initialization := r.initialization.call m }
  | .started m => { r with start := r.start.call m }
  | .stage .isRun => { r with running := true }
  | _ => r

def Shutdown.read (s : State) (r : Shutdown) : Shutdown :=
  match s.pc with
  | .stopCollect => { r with stop := r.stop.choose s.instances }
  | _ => r

def Shutdown.note (r : Shutdown) : Event → Shutdown
  | .idle false => { r with loopEnded := true }
  | .beforeStop => { r with beforeStop := true }
  | .stop m => { r with stop := r.stop.call m }
  | .afterStop => { r with afterStop := true }
  | _ => r

structure Observed where
  state : State
  sunrise : Sunrise
  shutdown : Shutdown

def observed (s : State) : Observed := ⟨s, .fresh, .fresh⟩

/-- The events of a step from `s` to `t`. -/
def news (s t : State) : List Event := t.events.drop s.events.length

def observedStep (p : Program) (o : Observed) (a : Action) : Option Observed :=
  (step p o.state a).map fun t =>
    match a with
    | .call _ | .write _ | .registry .. => { o with state := t }
    | _ =>
      { state := t
        sunrise := (news o.state t).foldl Sunrise.note (o.sunrise.read o.state)
        shutdown := (news o.state t).foldl Shutdown.note (o.shutdown.read o.state) }

/-! ### What is in order -/

/-- The main thread is in the loop of the phase. -/
def Pc.inPhase (phase : Phase) : Pc → Bool
  | .each _ current _ | .invoke _ current _ _ => decide (current = phase)
  | _ => false

structure SunriseOrder (s : State) (r : Sunrise) : Prop where
  initialization : r.initialization.Ordered Instance.startupPriority
  start : r.start.Ordered Instance.startupPriority
  /-- Only an abort leaves a phase incomplete. -/
  initialized : r.initialization.chosen ≠ none → s.pc.inPhase .initializing = false →
    r.initialization.Complete ∨ s.abortFlag = true
  started : r.start.chosen ≠ none → s.pc.inPhase .starting = false → r.start.Complete ∨ s.abortFlag = true
  afterInitialize : r.start.chosen ≠ none → r.initialization.Complete ∧ r.startQuiet = true
  running : r.running = true → r.start.Complete ∧ r.endQuiet = true
  /-- Only a stop or an abort keeps a sunrise from going through all its phases. -/
  finished : ∀ caller, s.pc = .sunriseReturn caller →
    r.running = true ∨ s.stopFlag = true ∨ s.abortFlag = true

structure ShutdownOrder (s : State) (r : Shutdown) : Prop where
  stop : r.stop.Ordered Instance.shutdownPriority
  afterLoop : r.stop.chosen ≠ none → r.loopEnded = true ∧ r.beforeStop = true
  complete : r.afterStop = true → r.stop.Complete
  returned : ∀ code, s.pc = .returned code → r.afterStop = true

/-- The main loop has ended, and `core::run` has not returned yet. -/
def Pc.inStop : Pc → Bool
  | .stop | .stopCollect | .stopEach _ | .stopAfter | .result => true
  | _ => false

/-- The end of the core never waits, and `core::run` returns in every fair run. -/
structure StopEnds (p : Program) (s : State) : Prop where
  enabled : ∃ a t, a.advances ∧ step p s a = some t
  returns : ∀ run : FairRun (step p) Action.advances, run.states 0 = s →
    ∃ n code, (run.states n).pc = .returned code

variable {p : Program} {s t : State} {r : Sunrise} {d : Shutdown}

/-! ### What a sunrise has done, by where it is -/

/-- The initialize phase is over. -/
structure Initialized (s : State) (r : Sunrise) : Prop where
  ordered : r.initialization.Ordered Instance.startupPriority
  ended : r.initialization.Complete ∨ s.abortFlag = true
  start : r.start = .fresh
  running : r.running = false

structure Starting (r : Sunrise) : Prop where
  ordered : r.initialization.Ordered Instance.startupPriority
  complete : r.initialization.Complete
  quiet : r.startQuiet = true
  running : r.running = false

/-- Both phases are over, or the sunrise has left them out. -/
structure Over (s : State) (r : Sunrise) : Prop where
  initialization : r.initialization.Ordered Instance.startupPriority
  start : r.start.Ordered Instance.startupPriority
  initialized : r.initialization.chosen ≠ none → r.initialization.Complete ∨ s.abortFlag = true
  started : r.start.chosen ≠ none → r.start.Complete ∨ s.abortFlag = true
  afterInitialize : r.start.chosen ≠ none → r.initialization.Complete ∧ r.startQuiet = true
  running : r.running = true → r.start.Complete ∧ r.endQuiet = true

/-- What is left of a phase, or an abort that has ended it. -/
def Left (s : State) (r : Round Instance) (rest : List Instance) : Prop :=
  r.Working Instance.startupPriority rest ∨ r.Ordered Instance.startupPriority ∧ s.abortFlag = true

def SunriseAt (s : State) (r : Sunrise) : Prop :=
  match s.pc with
  | .configureNext .. | .getConfig .. | .configure .. | .configureFailed .. | .checkStop _ .initializing
  | .checkAbort _ .initializing | .collect _ .initializing => r = .fresh
  | .each _ .initializing rest => Left s r.initialization rest ∧ r.start = .fresh ∧ r.running = false
  | .invoke _ .initializing m rest =>
    r.initialization.Working Instance.startupPriority (m :: rest) ∧ r.start = .fresh ∧ r.running = false
  | .checkStop _ .starting => Initialized s r
  | .checkAbort _ .starting => Initialized s r ∧ (r.startQuiet = true ∨ s.abortFlag = true)
  | .collect _ .starting => Starting r ∧ r.start = .fresh
  | .each _ .starting rest => Starting r ∧ Left s r.start rest
  | .invoke _ .starting m rest => Starting r ∧ r.start.Working Instance.startupPriority (m :: rest)
  | .checkStop _ .finishing => Over s r ∧ r.running = false ∧ (r.start.Complete ∨ s.abortFlag = true)
  | .checkAbort _ .finishing =>
    Over s r ∧ r.running = false ∧ (r.start.Complete ∨ s.abortFlag = true) ∧ (r.endQuiet = true ∨ s.abortFlag = true)
  | .collect _ .finishing | .each _ .finishing _ | .invoke _ .finishing _ _ => False
  | .sunriseReturn _ => Over s r ∧ (r.running = true ∨ s.stopFlag = true ∨ s.abortFlag = true)
  | _ => Over s r

theorem fresh_over : Over s .fresh where
  initialization := Round.fresh_ordered
  start := Round.fresh_ordered
  initialized := fun some_ => absurd rfl some_
  started := fun some_ => absurd rfl some_
  afterInitialize := fun some_ => absurd rfl some_
  running := fun running => nomatch running

theorem Over.mono (ended : Over s r) (abort : s.abortFlag = true → t.abortFlag = true) : Over t r :=
  { ended with
    initialized := fun some_ => Or.imp_right abort (ended.initialized some_)
    started := fun some_ => Or.imp_right abort (ended.started some_) }

theorem Initialized.mono (initialized : Initialized s r) (abort : s.abortFlag = true → t.abortFlag = true) :
    Initialized t r :=
  { initialized with ended := Or.imp_right abort initialized.ended }

theorem Initialized.toOver (initialized : Initialized s r) : Over s r where
  initialization := initialized.ordered
  start := by
    rw [initialized.start]
    exact Round.fresh_ordered
  initialized := fun _ => initialized.ended
  started := fun some_ => by
    rw [initialized.start] at some_
    exact absurd rfl some_
  afterInitialize := fun some_ => by
    rw [initialized.start] at some_
    exact absurd rfl some_
  running := fun running => by
    rw [initialized.running] at running
    contradiction

theorem Left.mono {round : Round Instance} {rest : List Instance} (left : Left s round rest)
    (abort : s.abortFlag = true → t.abortFlag = true) : Left t round rest :=
  Or.imp_right (And.imp_right abort) left

theorem Left.ordered {round : Round Instance} {rest : List Instance} (left : Left s round rest) :
    round.Ordered Instance.startupPriority := by
  rcases left with working | ⟨ordered, _⟩
  · exact working.ordered
  · exact ordered

theorem Left.ended {round : Round Instance} (left : Left s round []) : round.Complete ∨ s.abortFlag = true := by
  rcases left with working | ⟨_, aborted⟩
  · exact Or.inl working.complete
  · exact Or.inr aborted

/-- The start phase is over, or has not begun. -/
theorem Starting.ended (starting : Starting r) (ordered : r.start.Ordered Instance.startupPriority)
    (ended : r.start.chosen ≠ none → r.start.Complete ∨ s.abortFlag = true) : Over s r where
  initialization := starting.ordered
  start := ordered
  initialized := fun _ => Or.inl starting.complete
  started := ended
  afterInitialize := fun _ => ⟨starting.complete, starting.quiet⟩
  running := fun running => by
    rw [starting.running] at running
    contradiction

/-! ### Where a sunrise is tells that it is in order -/

theorem Over.order (ended : Over s r) (finished : ∀ caller, s.pc = .sunriseReturn caller →
    r.running = true ∨ s.stopFlag = true ∨ s.abortFlag = true) : SunriseOrder s r where
  initialization := ended.initialization
  start := ended.start
  initialized := fun some_ _ => ended.initialized some_
  started := fun some_ _ => ended.started some_
  afterInitialize := ended.afterInitialize
  running := ended.running
  finished := finished

/-- Inside the initialize phase. -/
theorem initializing_order (ordered : r.initialization.Ordered Instance.startupPriority) (start : r.start = .fresh)
    (running : r.running = false) (inside : s.pc.inPhase .initializing = true) : SunriseOrder s r where
  initialization := ordered
  start := start ▸ Round.fresh_ordered
  initialized := fun _ left => by
    rw [inside] at left
    contradiction
  started := fun some_ => by
    rw [start] at some_
    exact absurd rfl some_
  afterInitialize := fun some_ => by
    rw [start] at some_
    exact absurd rfl some_
  running := fun up => by
    rw [running] at up
    contradiction
  finished := fun caller pc => by
    rw [pc] at inside
    contradiction

/-- Inside the start phase. -/
theorem Starting.order (starting : Starting r) (ordered : r.start.Ordered Instance.startupPriority)
    (inside : s.pc.inPhase .starting = true) : SunriseOrder s r where
  initialization := starting.ordered
  start := ordered
  initialized := fun _ _ => Or.inl starting.complete
  started := fun _ left => by
    rw [inside] at left
    contradiction
  afterInitialize := fun _ => ⟨starting.complete, starting.quiet⟩
  running := fun up => by
    rw [starting.running] at up
    contradiction
  finished := fun caller pc => by
    rw [pc] at inside
    contradiction

theorem sunriseAt_order (located : SunriseAt s r) : SunriseOrder s r := by
  unfold SunriseAt at located
  cases pc : s.pc with rw [pc] at located
  | configureNext | getConfig | configure | configureFailed =>
    obtain rfl := located
    exact fresh_over.order (by simp [pc])
  | checkStop caller next =>
    cases next with
    | initializing =>
      obtain rfl := located
      exact fresh_over.order (by simp [pc])
    | starting => exact (Initialized.toOver located).order (by simp [pc])
    | finishing => exact located.1.order (by simp [pc])
  | checkAbort caller next =>
    cases next with
    | initializing =>
      obtain rfl := located
      exact fresh_over.order (by simp [pc])
    | starting => exact located.1.toOver.order (by simp [pc])
    | finishing => exact located.1.order (by simp [pc])
  | collect caller phase =>
    cases phase with
    | initializing =>
      obtain rfl := located
      exact fresh_over.order (by simp [pc])
    | starting =>
      obtain ⟨starting, start⟩ := located
      apply Over.order (starting.ended _ _) (by simp [pc])
      · rw [start]
        exact Round.fresh_ordered
      · intro some_
        rw [start] at some_
        exact absurd rfl some_
    | finishing => exact located.elim
  | each caller phase rest =>
    cases phase with
    | initializing => exact initializing_order located.1.ordered located.2.1 located.2.2 (by rw [pc]; rfl)
    | starting => exact located.1.order located.2.ordered (by rw [pc]; rfl)
    | finishing => exact located.elim
  | invoke caller phase m rest =>
    cases phase with
    | initializing => exact initializing_order located.1.ordered located.2.1 located.2.2 (by rw [pc]; rfl)
    | starting => exact located.1.order located.2.ordered (by rw [pc]; rfl)
    | finishing => exact located.elim
  | sunriseReturn caller => exact located.1.order fun _ _ => located.2
  | _ => exact Over.order located (by simp [pc])

/-! ### A sunrise goes on -/

@[simp] theorem news_goto (s : State) (pc : Pc) : news s (s.goto pc) = [] := List.drop_length

@[simp] theorem news_emit (s : State) (e : Event) (pc : Pc) : news s ((s.emit e).goto pc) = [e] :=
  List.drop_left

theorem sunriseAt_beside (beside : Beside s t) (located : SunriseAt s r) : SunriseAt t r := by
  unfold SunriseAt at located ⊢
  rw [beside.pc]
  cases pc : s.pc with rw [pc] at located
  | configureNext | getConfig | configure | configureFailed => exact located
  | checkStop caller next =>
    cases next with
    | initializing => exact located
    | starting => exact Initialized.mono located beside.abort
    | finishing =>
      obtain ⟨ended, down, complete⟩ := located
      exact ⟨ended.mono beside.abort, down, Or.imp_right beside.abort complete⟩
  | checkAbort caller next =>
    cases next with
    | initializing => exact located
    | starting => exact ⟨located.1.mono beside.abort, Or.imp_right beside.abort located.2⟩
    | finishing =>
      obtain ⟨ended, down, complete, quiet⟩ := located
      exact ⟨ended.mono beside.abort, down, Or.imp_right beside.abort complete, Or.imp_right beside.abort quiet⟩
  | collect caller phase => cases phase <;> exact located
  | each caller phase rest =>
    cases phase with
    | initializing => exact ⟨Left.mono located.1 beside.abort, located.2⟩
    | starting => exact ⟨located.1, Left.mono located.2 beside.abort⟩
    | finishing => exact located
  | invoke caller phase => cases phase <;> exact located
  | sunriseReturn caller =>
    exact ⟨located.1.mono beside.abort, Or.imp_right (Or.imp beside.stop beside.abort) located.2⟩
  | _ => exact Over.mono located beside.abort

theorem sunriseAt_checkStop {caller : Caller} {next : Phase} (pc : s.pc = .checkStop caller next)
    (located : SunriseAt s r) :
    SunriseAt (s.goto (if s.stopFlag then .sunriseReturn caller else .checkAbort caller next)) (r.read s) := by
  unfold SunriseAt at located
  unfold Sunrise.read
  simp only [pc] at located ⊢
  cases next with
  | initializing =>
    obtain rfl := located
    split
    · rename_i stopped
      exact ⟨fresh_over, Or.inr (Or.inl stopped)⟩
    · rfl
  | starting =>
    have still : Initialized s { r with startQuiet := !s.stopFlag && !s.abortFlag } :=
      ⟨located.ordered, located.ended, located.start, located.running⟩
    split
    · rename_i stopped
      exact ⟨still.toOver.mono id, Or.inr (Or.inl stopped)⟩
    · rename_i going
      refine ⟨still.mono id, ?_⟩
      by_cases aborted : s.abortFlag = true
      · exact Or.inr aborted
      · exact Or.inl (by simp [going, aborted])
  | finishing =>
    obtain ⟨ended, down, complete⟩ := located
    have still : Over s { r with endQuiet := !s.stopFlag && !s.abortFlag } :=
      { ended with running := fun up => absurd up (by simp [down]) }
    split
    · rename_i stopped
      exact ⟨still.mono id, Or.inr (Or.inl stopped)⟩
    · rename_i going
      refine ⟨still.mono id, down, complete, ?_⟩
      by_cases aborted : s.abortFlag = true
      · exact Or.inr aborted
      · exact Or.inl (by simp [going, aborted])

/-- An abort that comes before a phase leaves it out. -/
theorem sunriseAt_aborted {caller : Caller} {next : Phase} (pc : s.pc = .checkAbort caller next)
    (located : SunriseAt s r) (aborted : s.abortFlag = true) :
    SunriseAt (s.goto (if next = .finishing then .sunriseReturn caller else .checkStop caller next.following)) r := by
  unfold SunriseAt at located
  simp only [pc] at located
  cases next with
  | initializing =>
    obtain rfl := located
    exact ⟨Round.fresh_ordered, Or.inr aborted, rfl, rfl⟩
  | starting =>
    obtain ⟨initialized, _⟩ := located
    exact ⟨initialized.toOver.mono id, initialized.running, Or.inr aborted⟩
  | finishing => exact ⟨located.1.mono id, Or.inr (Or.inr aborted)⟩

theorem sunriseAt_entered {caller : Caller} {next : Phase} (pc : s.pc = .checkAbort caller next)
    (other : next ≠ .finishing) (located : SunriseAt s r) (going : ¬ s.abortFlag = true) :
    SunriseAt ((s.emit (.stage next.stage)).goto (.collect caller next)) (r.note (.stage next.stage)) := by
  unfold SunriseAt at located
  simp only [pc] at located
  cases next with
  | initializing => exact located
  | starting =>
    obtain ⟨initialized, quiet⟩ := located
    have complete := initialized.ended.resolve_right going
    exact ⟨⟨initialized.ordered, complete, quiet.resolve_right going, initialized.running⟩, initialized.start⟩
  | finishing => exact absurd rfl other

theorem sunriseAt_running {caller : Caller} (pc : s.pc = .checkAbort caller .finishing)
    (located : SunriseAt s r) (going : ¬ s.abortFlag = true) :
    SunriseAt ((s.emit (.stage .isRun)).goto (.sunriseReturn caller)) (r.note (.stage .isRun)) := by
  unfold SunriseAt at located
  simp only [pc] at located
  obtain ⟨ended, _, complete, quiet⟩ := located
  have still : Over s { r with running := true } :=
    { ended with running := fun _ => ⟨complete.resolve_right going, quiet.resolve_right going⟩ }
  exact ⟨still.mono id, Or.inl rfl⟩

theorem selected_initializing : s.selected .initializing =
    if s.dirty then s.instances else s.instances.filter Instance.isReconfigured := by
  unfold State.selected
  by_cases dirty : s.dirty = true <;> simp [dirty]

/-- What a phase has chosen is worked off in the order in which the sort has left it. -/
theorem sunriseAt_sorted {caller : Caller} {phase : Phase} {order : List Instance} (pc : s.pc = .collect caller phase)
    (all : order.Perm (s.selected phase))
    (sorted : order.Pairwise fun a b => a.startupPriority ≤ b.startupPriority) (located : SunriseAt s r) :
    SunriseAt (s.goto (.each caller phase order)) (r.read s) := by
  unfold SunriseAt at located
  unfold Sunrise.read
  simp only [pc] at located ⊢
  cases phase with
  | initializing =>
    obtain rfl := located
    rw [selected_initializing] at all
    exact ⟨Or.inl (Round.fresh_working all sorted), rfl, rfl⟩
  | starting =>
    obtain ⟨starting, start⟩ := located
    refine ⟨⟨starting.ordered, starting.complete, starting.quiet, starting.running⟩, Or.inl ?_⟩
    rw [start]
    exact Round.fresh_working all sorted
  | finishing => exact located.elim

/-- A phase ends where nothing is left to call. -/
theorem sunriseAt_ended {caller : Caller} {phase : Phase} (pc : s.pc = .each caller phase [])
    (located : SunriseAt s r) : SunriseAt (s.goto (.checkStop caller phase.following)) r := by
  unfold SunriseAt at located
  simp only [pc] at located
  cases phase with
  | initializing =>
    obtain ⟨left, start, running⟩ := located
    exact ⟨left.ordered, left.ended, start, running⟩
  | starting =>
    obtain ⟨starting, left⟩ := located
    exact ⟨(starting.ended left.ordered fun _ => left.ended).mono id, starting.running, left.ended⟩
  | finishing => exact located.elim

theorem sunriseAt_skipped {caller : Caller} {phase : Phase} {m : Instance} {rest : List Instance}
    (pc : s.pc = .each caller phase (m :: rest)) (located : SunriseAt s r) (aborted : s.abortFlag = true) :
    SunriseAt (s.goto (.each caller phase rest)) r := by
  unfold SunriseAt at located
  simp only [pc] at located
  cases phase with
  | initializing => exact ⟨Or.inr ⟨located.1.ordered, aborted⟩, located.2⟩
  | starting => exact ⟨located.1, Or.inr ⟨located.2.ordered, aborted⟩⟩
  | finishing => exact located.elim

theorem sunriseAt_next {caller : Caller} {phase : Phase} {m : Instance} {rest : List Instance}
    (pc : s.pc = .each caller phase (m :: rest)) (located : SunriseAt s r) (going : ¬ s.abortFlag = true) :
    SunriseAt (s.goto (.invoke caller phase m rest)) r := by
  unfold SunriseAt at located
  simp only [pc] at located
  cases phase with
  | initializing => exact ⟨located.1.resolve_right fun ended => going ended.2, located.2⟩
  | starting => exact ⟨located.1, located.2.resolve_right fun ended => going ended.2⟩
  | finishing => exact located.elim

theorem sunriseAt_called {caller : Caller} {phase : Phase} {m : Instance} {rest : List Instance}
    (pc : s.pc = .invoke caller phase m rest) (located : SunriseAt s r) :
    SunriseAt ((s.emit (phase.event m)).goto (.each caller phase rest)) (r.note (phase.event m)) := by
  unfold SunriseAt at located
  simp only [pc] at located
  cases phase with
  | initializing => exact ⟨Or.inl located.1.call, located.2⟩
  | starting =>
    obtain ⟨starting, working⟩ := located
    exact ⟨⟨starting.ordered, starting.complete, starting.quiet, starting.running⟩, Or.inl working.call⟩
  | finishing => exact located.elim

theorem sunriseAt_main (h : mainStep p s = some t) (located : SunriseAt s r) :
    SunriseAt t ((news s t).foldl Sunrise.note (r.read s)) := by
  have abort : s.abortFlag = true → t.abortFlag = true := (effect_main h).abort
  unfold mainStep at h
  split at h <;> rename_i pc
  case h_7 =>
    obtain rfl := Option.some.inj h
    rw [news_goto]
    exact sunriseAt_checkStop pc located
  case h_10 phase =>
    -- with nothing chosen the phase ends where it has begun
    split at h
    · rename_i nothing
      obtain rfl := Option.some.inj h
      have begun := sunriseAt_sorted pc (nothing ▸ List.Perm.refl []) List.Pairwise.nil located
      have ended := sunriseAt_ended rfl begun
      rw [news_goto]
      exact ended
    · contradiction
  all_goals
    unfold Sunrise.read
    simp only [pc]
    try split at h
  all_goals first
    | contradiction
    | obtain rfl := Option.some.inj h
  case h_8.isTrue aborted =>
    rw [news_goto]
    exact sunriseAt_aborted pc located aborted
  case h_8.isFalse going =>
    rw [news_emit]
    exact sunriseAt_running pc located going
  case h_9.isTrue next other aborted =>
    have later := sunriseAt_aborted pc located aborted
    rw [if_neg fun same => other same] at later
    rw [news_goto]
    exact later
  case h_9.isFalse next other going =>
    rw [news_emit]
    exact sunriseAt_entered pc (fun same => other same) located going
  case h_11 caller =>
    have ended := sunriseAt_ended pc located
    have silent : news s ({ s with dirty := false }.goto (.checkStop caller .starting)) = [] := List.drop_length
    have same : Beside (s.goto (.checkStop caller .starting)) ({ s with dirty := false }.goto (.checkStop caller .starting)) :=
      ⟨rfl, rfl, id, id, id⟩
    rw [silent]
    exact sunriseAt_beside same ended
  case h_12 phase other =>
    have ended := sunriseAt_ended pc located
    rw [news_goto]
    cases phase with
    | initializing => exact absurd rfl other
    | starting => exact ended
    | finishing => exact ended
  case h_13.isTrue aborted =>
    rw [news_goto]
    exact sunriseAt_skipped pc located aborted
  case h_13.isFalse going =>
    rw [news_goto]
    exact sunriseAt_next pc located going
  case h_14 =>
    rw [news_emit]
    exact sunriseAt_called pc located
  all_goals
    unfold SunriseAt at located
    simp only [pc] at located
    simp only [news, goto_events, State.emit, List.drop_length, List.append_assoc, List.drop_left]
  case h_5 => split <;> exact located
  case h_15.isTrue => exact located.1.mono abort
  case h_15.isFalse => exact located.1.mono abort
  all_goals first
    | exact located.mono abort
    | exact located
    | rfl

theorem sunriseAt_guided {a : Action} (guided : Guided s t a) (located : SunriseAt s r) :
    SunriseAt t ((news s t).foldl Sunrise.note (r.read s)) := by
  cases guided with
  | tick pc same =>
    unfold SunriseAt at located
    unfold Sunrise.read
    simp only [pc] at located ⊢
    rw [same, news_emit]
    exact located.mono id
  | configured ok caller component section_ rest pc same =>
    unfold SunriseAt at located
    unfold Sunrise.read
    simp only [pc] at located ⊢
    rw [same, news_emit]
    cases ok <;> exact located
  | sorted order caller phase pc all sorted same =>
    rw [same, news_goto]
    exact sunriseAt_sorted pc all sorted located
  | stopSorted order pc _ _ same =>
    unfold SunriseAt at located
    unfold Sunrise.read
    simp only [pc] at located ⊢
    rw [same, news_goto]
    exact located.mono id

/-! ### What the end of the core has done, by where it is -/

def ShutdownAt (s : State) (d : Shutdown) : Prop :=
  match s.pc with
  | .stop => d = { Shutdown.fresh with loopEnded := true }
  | .stopCollect => d = { Shutdown.fresh with loopEnded := true, beforeStop := true }
  | .stopEach rest =>
    d.loopEnded = true ∧ d.beforeStop = true ∧ d.stop.Working Instance.shutdownPriority rest ∧ d.afterStop = false
  | .stopAfter =>
    d.loopEnded = true ∧ d.beforeStop = true ∧ d.stop.Working Instance.shutdownPriority [] ∧ d.afterStop = false
  | .result | .returned _ =>
    d.loopEnded = true ∧ d.beforeStop = true ∧ d.stop.Working Instance.shutdownPriority [] ∧ d.afterStop = true
  | _ => d = .fresh

theorem shutdownAt_order (located : ShutdownAt s d) : ShutdownOrder s d := by
  have unbegun (none_ : d.stop = .fresh) (before : d.afterStop = false) (running : ∀ code, s.pc ≠ .returned code) :
      ShutdownOrder s d := by
    refine ⟨none_ ▸ Round.fresh_ordered, fun some_ => ?_, fun after => ?_, fun code pc => absurd pc (running code)⟩
    · rw [none_] at some_
      exact absurd rfl some_
    · rw [before] at after
      contradiction
  have working {rest : List Instance} (loopEnded : d.loopEnded = true) (beforeStop : d.beforeStop = true)
      (working : d.stop.Working Instance.shutdownPriority rest) (complete : d.afterStop = true → d.stop.Complete)
      (returned : ∀ code, s.pc = .returned code → d.afterStop = true) : ShutdownOrder s d :=
    ⟨working.ordered, fun _ => ⟨loopEnded, beforeStop⟩, complete, returned⟩
  unfold ShutdownAt at located
  split at located <;> rename_i pc
  case h_1 =>
    obtain rfl := located
    exact unbegun rfl rfl (by simp [pc])
  case h_2 =>
    obtain rfl := located
    exact unbegun rfl rfl (by simp [pc])
  case h_3 rest =>
    obtain ⟨loopEnded, beforeStop, left, before⟩ := located
    exact working loopEnded beforeStop left (by simp [before]) (by simp [pc])
  case h_4 =>
    obtain ⟨loopEnded, beforeStop, left, before⟩ := located
    exact working loopEnded beforeStop left (by simp [before]) (by simp [pc])
  case h_7 =>
    obtain rfl := located
    exact unbegun rfl rfl fun code same => pc code same
  all_goals
    obtain ⟨loopEnded, beforeStop, left, after⟩ := located
    exact working loopEnded beforeStop left (fun _ => left.complete) fun _ _ => after

theorem shutdownAt_beside (beside : Beside s t) (located : ShutdownAt s d) : ShutdownAt t d := by
  unfold ShutdownAt
  rw [beside.pc]
  exact located

theorem shutdownAt_main (h : mainStep p s = some t) (located : ShutdownAt s d) :
    ShutdownAt t ((news s t).foldl Shutdown.note (d.read s)) := by
  unfold ShutdownAt at located
  unfold mainStep at h
  split at h <;> rename_i pc <;> simp only [pc] at located
  all_goals
    unfold Shutdown.read
    simp only [pc]
    try split at h
  all_goals first
    | contradiction
    | obtain rfl := Option.some.inj h
  all_goals simp only [news, goto_events, State.emit, List.drop_length, List.append_assoc, List.drop_left]
  case h_5 => split <;> exact located
  case h_9.isFalse next _ _ => cases next <;> exact located
  case h_14 phase m _ => cases phase <;> exact located
  case h_21 =>
    obtain rfl := located
    rfl
  case h_25 =>
    obtain rfl := located
    rfl
  case h_27 =>
    obtain ⟨loopEnded, beforeStop, left, before⟩ := located
    exact ⟨loopEnded, beforeStop, left.call, before⟩
  case h_28 =>
    obtain ⟨loopEnded, beforeStop, left, _⟩ := located
    exact ⟨loopEnded, beforeStop, left, rfl⟩
  all_goals exact located

theorem shutdownAt_guided {a : Action} (guided : Guided s t a) (located : ShutdownAt s d) :
    ShutdownAt t ((news s t).foldl Shutdown.note (d.read s)) := by
  unfold ShutdownAt at located
  cases guided with
  | tick pc same =>
    unfold Shutdown.read
    simp only [pc] at located ⊢
    rw [same, news_emit]
    exact located
  | configured ok caller component section_ rest pc same =>
    unfold Shutdown.read
    simp only [pc] at located ⊢
    rw [same, news_emit]
    cases ok <;> exact located
  | sorted order caller phase pc _ _ same =>
    unfold Shutdown.read
    simp only [pc] at located ⊢
    rw [same, news_goto]
    exact located
  | stopSorted order pc all sorted same =>
    unfold Shutdown.read
    simp only [pc] at located ⊢
    obtain rfl := located
    rw [same, news_goto]
    exact ⟨rfl, rfl, Round.fresh_working all sorted, rfl⟩

/-! ### The end comes -/

def State.stopRank (s : State) : Nat × Nat :=
  match s.pc with
  | .stop => (4, 0)
  | .stopCollect => (3, 0)
  | .stopEach rest => (2, rest.length)
  | .stopAfter => (1, 0)
  | _ => (0, 0)

theorem stop_enabled (p : Program) (inside : s.pc.inStop = true) : ∃ a t, a.advances ∧ step p s a = some t := by
  cases pc : s.pc with
  | stopCollect =>
    obtain ⟨order, sorts⟩ := exists_ordered Instance.shutdownPriority s.instances
    have sorted : (step p s (.sorted order)).isSome = true := by simp [step, sortStep, pc, sorts]
    obtain ⟨t, h⟩ := Option.isSome_iff_exists.mp sorted
    exact ⟨.sorted order, t, trivial, h⟩
  | stopEach rest => exact main_advances (by cases rest <;> simp [mainStep, pc])
  | _ => first
    | (rw [pc] at inside; contradiction)
    | exact main_advances (by simp [mainStep, pc])

/-- A step of `_stop` comes nearer to the end, or it is the return of `core::run`. -/
theorem stop_main (inside : s.pc.inStop = true) (h : mainStep p s = some t) :
    t.pc.inStop = true ∧ rankLess t.stopRank s.stopRank ∨ ∃ code, t.pc = .returned code := by
  rw [rankLess_iff]
  unfold mainStep at h
  split at h <;> rename_i pc <;> rw [pc] at inside
  all_goals first
    | contradiction
    | obtain rfl := Option.some.inj h
  case h_29 => exact Or.inr ⟨_, rfl⟩
  all_goals exact Or.inl ⟨rfl, by simp [State.stopRank, pc]⟩

theorem stop_guided {a : Action} (inside : s.pc.inStop = true) (guided : Guided s t a) :
    t.pc.inStop = true ∧ rankLess t.stopRank s.stopRank := by
  rw [rankLess_iff]
  cases guided with
  | tick pc _ =>
    rw [pc] at inside
    contradiction
  | configured ok caller component section_ rest pc _ =>
    rw [pc] at inside
    contradiction
  | sorted order caller phase pc _ _ _ =>
    rw [pc] at inside
    contradiction
  | stopSorted order pc _ _ same =>
    rw [same]
    exact ⟨rfl, by simp [State.stopRank, pc]⟩

theorem stopRank_beside (beside : Beside s t) : t.stopRank = s.stopRank := by
  unfold State.stopRank
  rw [beside.pc]

theorem stop_ends (p : Program) (inside : s.pc.inStop = true) : StopEnds p s := by
  refine ⟨stop_enabled p inside, ?_⟩
  intro run starts
  have lowers (s t : State) (inside : s.pc.inStop = true) (h : mainStep p s = some t) (stays : t.pc.inStop = true) :
      rankLess t.stopRank s.stopRank := by
    rcases stop_main inside h with ⟨_, nearer⟩ | ⟨code, pc⟩
    · exact nearer
    · rw [pc] at stays
      contradiction
  obtain ⟨n, last, out⟩ := ranked_leaves Pc.inStop State.stopRank (fun _ inside => stop_enabled p inside)
    (fun _ _ beside => Or.inl (stopRank_beside beside)) lowers
    (fun _ _ _ inside guided => (stop_guided inside guided).2) run (starts ▸ inside)
  rcases step_cases (run.follows n) with ⟨_, beside⟩ | ⟨_, main⟩ | guided
  · rw [beside.pc] at out
    exact absurd last out
  · rcases stop_main last main with ⟨stays, _⟩ | returned
    · exact absurd stays out
    · exact ⟨n + 1, returned⟩
  · exact absurd (stop_guided last guided).1 out

/-! ### Every run is in order -/

structure InPlace (o : Observed) : Prop where
  sunrise : SunriseAt o.state o.sunrise
  shutdown : ShutdownAt o.state o.shutdown

variable {o q : Observed} {a : Action}

theorem inPlace_step (inPlace : InPlace o) (h : observedStep p o a = some q) : InPlace q := by
  obtain ⟨t, taken, rfl⟩ := Option.map_eq_some_iff.mp h
  rcases step_cases taken with ⟨aside, beside⟩ | ⟨rfl, main⟩ | guided
  · have sunrise := sunriseAt_beside beside inPlace.sunrise
    have shutdown := shutdownAt_beside beside inPlace.shutdown
    cases a with
    | call c => exact ⟨sunrise, shutdown⟩
    | write i => exact ⟨sunrise, shutdown⟩
    | registry dirty instances => exact ⟨sunrise, shutdown⟩
    | _ => contradiction
  · exact ⟨sunriseAt_main main inPlace.sunrise, shutdownAt_main main inPlace.shutdown⟩
  · have sunrise := sunriseAt_guided guided inPlace.sunrise
    have shutdown := shutdownAt_guided guided inPlace.shutdown
    cases guided <;> exact ⟨sunrise, shutdown⟩

/-- The observer takes part in nothing: it sees every run of the machine. -/
theorem observed_run {as : List Action} (run : exec (step p) s as = some t) :
    ∃ q, exec (observedStep p) (observed s) as = some q ∧ q.state = t := by
  have matched (s : State) (o : Observed) (a : Action) (t : State) (same : o.state = s) (h : step p s a = some t) :
      ∃ q, observedStep p o a = some q ∧ q.state = t := by
    obtain rfl := same
    unfold observedStep
    rw [h, Option.map_some]
    cases a <;> exact ⟨_, rfl, rfl⟩
  exact exec_simulates (fun (s : State) (o : Observed) => o.state = s) matched rfl run

/-- The observer sees every run, and in every state of it both phases of the last sunrise and the end of the core
have made their calls in order, as far as they have got; once the main loop has ended, `_stop` goes through. -/
theorem lifecycle_order (p : Program) (restartFlag : Bool) (mainconf : Configuration) (dirty : Bool)
    (instances : List Instance) (as : List Action) :
    (∀ s, exec (step p) (initial restartFlag mainconf dirty instances) as = some s →
      ∃ o, exec (observedStep p) (observed (initial restartFlag mainconf dirty instances)) as = some o ∧
        o.state = s) ∧
    Always (observedStep p)
      (fun o => SunriseOrder o.state o.sunrise ∧ ShutdownOrder o.state o.shutdown ∧
        (o.state.pc.inStop = true → StopEnds p o.state))
      (observed (initial restartFlag mainconf dirty instances)) as := by
  have begins : InPlace (observed (initial restartFlag mainconf dirty instances)) := ⟨fresh_over, rfl⟩
  have inPlace : Always (observedStep p) InPlace (observed (initial restartFlag mainconf dirty instances)) as :=
    always_invariant (fun _ _ _ now h => inPlace_step now h) begins as
  refine ⟨fun s run => observed_run run, ?_⟩
  apply inPlace.mono
  intro o now
  exact ⟨sunriseAt_order now.sunrise, shutdownAt_order now.shutdown, stop_ends p⟩

end WfcCore.Core

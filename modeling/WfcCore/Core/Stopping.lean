import Mathlib.Data.Prod.Lex
import WfcCore.Core.Calls
import WfcCore.Foundation.Fair

/-!
# A stop request wins

Once `core::run` has reset `gs_stop_signal`, nothing lowers a flag that asks for a stop. So a tick that
begins after a request ends the main loop, whatever reconfigurations are pending, and each call of `_idle`
comes to an end by a rank that every statement of it lowers.
-/

namespace WfcCore.Core

open Foundation Wfc

/-- What `_idle` takes for a stop. -/
def Stopping (s : State) : Prop := s.gsStopSignal = true ∨ s.stopFlag = true

def Write.stops : Write → Bool
  | .gsStopSignal | .stopFlag => true
  | _ => false

/-- A request that was started after `enter` has raised a flag that `_idle` takes for a stop. -/
def Asked (enter during : List Action) : Prop :=
  ∃ i w, (callsOf enter).length ≤ i ∧ w.stops = true ∧ Passed i w (enter ++ during)

/-- The tick that began in `v` has stopped the io_context and returned false before anything else, or is on
its way to it, and no sunrise has begun since. -/
def LastTick (v t : State) : Prop :=
  ∃ es, t.events = v.events ++ es ∧ .sunrise ∉ es ∧ (es = [] ∨ ∃ rest, es = .ioStop :: .idle false :: rest)

/-- The main thread is inside a call of `_idle`. -/
def Pc.inIdle : Pc → Bool
  | .sunrise caller | .configureNext caller _ | .getConfig caller _ _ | .configure caller _ _ _
  | .configureFailed caller _ | .checkStop caller _ | .checkAbort caller _ | .collect caller _
  | .each caller _ _ | .invoke caller _ _ _ | .sunriseReturn caller => decide (caller = .idle)
  | .idleSignal | .idleSetStop | .idleStop | .idleIoStop | .idleReconfigure | .idleClear | .idleFinal => true
  | _ => false

/-- A call of `_idle` that is running in `s` never waits, and it returns in every fair run. -/
structure IdleEnds (p : Program) (s : State) : Prop where
  enabled : ∃ a t, a.advances ∧ step p s a = some t
  returns : ∀ run : FairRun (step p) Action.advances, run.states 0 = s →
    ∃ n es again, (run.states n).events = s.events ++ es ++ [.idle again]

variable {p : Program} {s t v : State} {enter during as : List Action}

/-! ### Stop requests -/

theorem mainStep_stopping (h : mainStep p s = some t) (begun : s.pc ≠ .run) (stopping : Stopping s) :
    Stopping t := by
  have effect := mainStep_effect h
  rcases stopping with signal | flag
  · exact Or.inl ((effect.signal begun).trans signal)
  · exact Or.inr (by rw [effect.stop, flag, Bool.or_true])

theorem mainStep_begun (h : mainStep p s = some t) : t.pc ≠ .run := by
  unfold mainStep at h
  split at h
  all_goals try split at h
  all_goals first
    | contradiction
    | (obtain rfl := Option.some.inj h
       simp only [goto_pc, ne_eq, reduceCtorEq, not_false_eq_true]
       done)
    | (obtain rfl := Option.some.inj h
       simp only [goto_pc]
       split <;> simp)

theorem step_begun {a : Action} (h : step p s a = some t) (begun : s.pc ≠ .run) : t.pc ≠ .run := by
  rcases step_cases h with ⟨_, beside⟩ | ⟨_, main⟩ | guided
  · rw [beside.pc]
    exact begun
  · exact mainStep_begun main
  · cases guided with
    | tick _ same => simp [same]
    | configured ok caller component section_ rest _ same => cases ok <;> simp [same]
    | sorted order caller phase _ _ _ same => simp [same]
    | stopSorted order _ _ _ same => simp [same]

theorem step_stopping {a : Action} (h : step p s a = some t) (begun : s.pc ≠ .run) (stopping : Stopping s) :
    Stopping t := by
  rcases step_cases h with ⟨_, beside⟩ | ⟨_, main⟩ | guided
  · exact Or.imp beside.signal beside.stop stopping
  · exact mainStep_stopping main begun stopping
  · obtain ⟨_, _, rfl⟩ := guided_moves guided
    exact stopping

theorem perform_stops {w : Write} (stops : w.stops = true) (calls : List (List Write)) :
    Stopping { s.perform w with calls := calls } := by
  cases w <;> first | contradiction | exact Or.inl rfl | exact Or.inr rfl

/-- From the entry of the main loop on, a request that has got as far as raising a flag keeps it raised. -/
theorem asked_stopping {m : State} (aligned : Aligned enter m) (begun : m.pc ≠ .run)
    (run : exec (step p) m during = some s) (asked : Asked enter during) : Stopping s := by
  have history : Aligned (enter ++ during) s ∧ s.pc ≠ .run ∧ (Asked enter during → Stopping s) := by
    refine exec_history (fun during s => Aligned (enter ++ during) s ∧ s.pc ≠ .run ∧
      (Asked enter during → Stopping s)) ⟨?_, begun, ?_⟩ ?_ run
    · rw [List.append_nil]
      exact aligned
    · rintro ⟨i, w, new, _, c, found, _⟩
      rw [List.append_nil, List.getElem?_eq_none new] at found
      contradiction
    · rintro before m a next ⟨aligned, begun, stopping⟩ h
      have later := aligned_step aligned h
      rw [List.append_assoc] at later
      refine ⟨later, step_begun h begun, ?_⟩
      rintro ⟨i, w, new, stops, passed⟩
      rw [← List.append_assoc] at passed
      by_cases write : ∃ j, a = .write j
      · obtain ⟨j, rfl⟩ := write
        obtain ⟨v, rest, read, rfl⟩ := writeStep_some h
        rcases (passed_write aligned read i w).mp passed with old | ⟨_, rfl⟩
        · exact step_stopping h begun (stopping ⟨i, w, new, stops, old⟩)
        · exact perform_stops stops _
      · have old := (passed_silent aligned (fun j same => write ⟨j, same⟩) i w).mp passed
        exact step_stopping h begun (stopping ⟨i, w, new, stops, old⟩)
  exact history.2.2 asked

/-! ### The last tick -/

/-- Where the main thread can be after a tick that began in `v` with a stop in force. -/
def Leaving (v s : State) : Prop :=
  match s.pc with
  | .idleSignal => Stopping s ∧ s.events = v.events
  | .idleSetStop => s.events = v.events
  | .idleStop => s.stopFlag = true ∧ s.events = v.events
  | .idleIoStop => s.events = v.events
  | .stop | .stopCollect | .stopEach _ | .stopAfter | .result | .returned _ =>
    ∃ rest, s.events = v.events ++ .ioStop :: .idle false :: rest ∧ .sunrise ∉ rest
  | _ => False

theorem leaving_beside (beside : Beside s t) (leaving : Leaving v s) : Leaving v t := by
  unfold Leaving at leaving ⊢
  rw [beside.pc, beside.events]
  split at leaving
  · exact ⟨Or.imp beside.signal beside.stop leaving.1, leaving.2⟩
  · exact leaving
  · exact ⟨beside.stop leaving.1, leaving.2⟩
  all_goals exact leaving

theorem leaving_more {rest : List Event} (es : List Event)
    (events : s.events = v.events ++ .ioStop :: .idle false :: rest) (quiet : .sunrise ∉ rest) (more : .sunrise ∉ es) :
    ∃ rest, s.events ++ es = v.events ++ .ioStop :: .idle false :: rest ∧ .sunrise ∉ rest := by
  refine ⟨rest ++ es, by rw [events]; simp, ?_⟩
  rw [List.mem_append]
  exact not_or.mpr ⟨quiet, more⟩

theorem leaving_main (h : mainStep p s = some t) (leaving : Leaving v s) : Leaving v t := by
  unfold Leaving at leaving
  split at leaving <;> rename_i pc <;> first | contradiction | simp only [mainStep, pc] at h
  · obtain rfl := Option.some.inj h
    obtain ⟨stopping, events⟩ := leaving
    cases signal : s.gsStopSignal with
    | true => exact events
    | false =>
      refine ⟨?_, events⟩
      rcases stopping with up | up
      · rw [signal] at up
        contradiction
      · exact up
  · obtain rfl := Option.some.inj h
    exact ⟨rfl, leaving⟩
  · obtain rfl := Option.some.inj h
    rw [if_pos leaving.1]
    exact leaving.2
  · obtain rfl := Option.some.inj h
    refine ⟨[], ?_, by simp⟩
    show s.events ++ [Event.ioStop] ++ [Event.idle false] = _
    rw [leaving, List.append_assoc]
    rfl
  · obtain rfl := Option.some.inj h
    obtain ⟨rest, events, quiet⟩ := leaving
    have more := leaving_more [.stage .stopping, .beforeStop] events quiet (by simp)
    rw [List.append_cons] at more
    exact more
  · contradiction
  · rename_i order
    obtain ⟨rest, events, quiet⟩ := leaving
    cases order with
    | nil =>
      obtain rfl := Option.some.inj h
      exact ⟨rest, events, quiet⟩
    | cons m left =>
      obtain rfl := Option.some.inj h
      exact leaving_more [.stop m] events quiet (by simp)
  · obtain rfl := Option.some.inj h
    obtain ⟨rest, events, quiet⟩ := leaving
    exact leaving_more [.afterStop] events quiet (by simp)
  · obtain rfl := Option.some.inj h
    obtain ⟨rest, events, quiet⟩ := leaving
    exact ⟨rest, events, quiet⟩
  · contradiction

theorem leaving_guided {a : Action} (guided : Guided s t a) (leaving : Leaving v s) : Leaving v t := by
  unfold Leaving at leaving
  cases guided with
  | tick pc _ =>
    rw [pc] at leaving
    contradiction
  | configured ok caller component section_ rest pc _ =>
    rw [pc] at leaving
    contradiction
  | sorted order caller phase pc _ _ _ =>
    rw [pc] at leaving
    contradiction
  | stopSorted order pc _ _ same =>
    rw [pc] at leaving
    exact same ▸ leaving

theorem leaving_step {a : Action} (h : step p s a = some t) (leaving : Leaving v s) : Leaving v t := by
  rcases step_cases h with ⟨_, beside⟩ | ⟨_, main⟩ | guided
  · exact leaving_beside beside leaving
  · exact leaving_main main leaving
  · exact leaving_guided guided leaving

theorem leaving_last (leaving : Leaving v s) : LastTick v s := by
  have still (events : s.events = v.events) : LastTick v s :=
    ⟨[], by rw [events, List.append_nil], by simp, Or.inl rfl⟩
  unfold Leaving at leaving
  split at leaving
  · exact still leaving.2
  · exact still leaving
  · exact still leaving.2
  · exact still leaving
  all_goals first
    | contradiction
    | (obtain ⟨rest, events, quiet⟩ := leaving
       exact ⟨_, events, by simpa using quiet, Or.inr ⟨rest, rfl⟩⟩)

/-! ### Every call of `_idle` ends -/

/-- The statements of a call of `_idle`, counted down; lists that are worked off count in the second place.
A stop in force shortens the way. -/
def State.rank (s : State) : Nat × Nat :=
  match s.pc with
  | .idleSignal => (if s.stopFlag then 4 else 22, 0)
  | .idleStop => (if s.stopFlag then 2 else 21, 0)
  | .idleReconfigure => (20, 0)
  | .idleClear => (19, 0)
  | .sunrise _ => (18, 0)
  | .configureNext _ rest => (17, 4 * rest.length)
  | .getConfig _ _ rest => (17, 4 * rest.length + 3)
  | .configure _ _ _ rest => (17, 4 * rest.length + 2)
  | .configureFailed _ rest => (17, 4 * rest.length + 1)
  | .checkStop _ .initializing => (16, 0)
  | .checkAbort _ .initializing => (15, 0)
  | .collect _ .initializing => (14, 0)
  | .each _ .initializing rest => (13, 2 * rest.length)
  | .invoke _ .initializing _ rest => (13, 2 * rest.length + 1)
  | .checkStop _ .starting => (12, 0)
  | .checkAbort _ .starting => (11, 0)
  | .collect _ _ => (10, 0)
  | .each _ _ rest => (9, 2 * rest.length)
  | .invoke _ _ _ rest => (9, 2 * rest.length + 1)
  | .checkStop _ .finishing => (8, 0)
  | .checkAbort _ .finishing => (7, 0)
  | .sunriseReturn _ => (6, 0)
  | .idleFinal => (5, 0)
  | .idleSetStop => (3, 0)
  | .idleIoStop => (1, 0)
  | _ => (0, 0)

def rankLess : Nat × Nat → Nat × Nat → Prop := Prod.Lex (fun a b => a < b) (fun a b => a < b)

theorem rankLess_iff {a b : Nat × Nat} : rankLess a b ↔ a.1 < b.1 ∨ a.1 = b.1 ∧ a.2 < b.2 := Prod.lex_def

theorem rank_beside (beside : Beside s t) : t.rank = s.rank ∨ rankLess t.rank s.rank := by
  rw [rankLess_iff]
  unfold State.rank
  rw [beside.pc]
  split
  · have raised := beside.stop
    cases before : s.stopFlag with
    | true => simp [raised before]
    | false => cases after : t.stopFlag <;> simp
  · have raised := beside.stop
    cases before : s.stopFlag with
    | true => simp [raised before]
    | false => cases after : t.stopFlag <;> simp
  all_goals exact Or.inl rfl

theorem rank_main (inside : s.pc.inIdle = true) (h : mainStep p s = some t) (stays : t.pc.inIdle = true) :
    rankLess t.rank s.rank := by
  rw [rankLess_iff]
  unfold mainStep at h
  split at h <;> rename_i pc <;> rw [pc] at inside
  all_goals try split at h
  all_goals first
    | contradiction
    | obtain rfl := Option.some.inj h
  all_goals simp only [goto_pc] at stays
  all_goals simp only [State.rank, goto_pc, pc]
  case h_5 component rest =>
    by_cases empty : Config.getConfig component s.mainconf = "" <;> simp [empty]
  case h_7.isTrue next _ => cases next <;> simp
  case h_7.isFalse next _ => cases next <;> simp
  case h_9.isTrue next other _ =>
    cases next with
    | initializing => simp [Phase.following]
    | starting => simp [Phase.following]
    | finishing => exact absurd rfl other
  case h_9.isFalse next other _ =>
    cases next with
    | initializing => simp
    | starting => simp
    | finishing => exact absurd rfl other
  case h_10.isTrue phase _ => cases phase <;> simp [Phase.following]
  case h_13.isTrue phase _ _ _ => cases phase <;> simp
  case h_13.isFalse phase _ _ _ => cases phase <;> simp <;> omega
  case h_14 phase _ _ => cases phase <;> simp
  case h_18.isTrue => split <;> simp
  case h_18.isFalse => cases down : s.stopFlag <;> simp [State.goto, down]
  case h_19 => simp [State.goto]
  case h_20.isTrue up => simp [up]
  case h_20.isFalse down => simp [down]
  case h_24.isTrue up => simp [State.goto, up]
  all_goals first
    | contradiction
    | omega
    | (simp; done)
    | (simp; omega)

theorem rank_guided {a : Action} (inside : s.pc.inIdle = true) (guided : Guided s t a) :
    rankLess t.rank s.rank := by
  rw [rankLess_iff]
  cases guided with
  | tick pc _ =>
    rw [pc] at inside
    contradiction
  | configured ok caller component section_ rest pc same =>
    rw [same]
    cases ok <;> simp [State.rank, State.goto, pc]
  | sorted order caller phase pc _ _ same =>
    rw [same]
    cases phase <;> simp [State.rank, State.goto, pc]
  | stopSorted order pc _ _ _ =>
    rw [pc] at inside
    contradiction

theorem exists_ordered (priority : Instance → Int) (instances : List Instance) :
    ∃ order, ordered priority order instances = true := by
  refine ⟨instances.mergeSort fun a b => decide (priority a ≤ priority b), ordered_iff.mpr ⟨?_, ?_⟩⟩
  · exact List.mergeSort_perm _ _
  · have sorted : (instances.mergeSort fun a b => decide (priority a ≤ priority b)).Pairwise
        fun a b => decide (priority a ≤ priority b) = true :=
      List.pairwise_mergeSort (by simp only [decide_eq_true_eq]; omega)
        (by simp only [Bool.or_eq_true, decide_eq_true_eq]; omega) instances
    simpa only [decide_eq_true_eq] using sorted

/-- The main thread never waits inside a call of `_idle`. -/
theorem idle_enabled (p : Program) (inside : s.pc.inIdle = true) : ∃ a t, a.advances ∧ step p s a = some t := by
  cases pc : s.pc with
  | configure caller component section_ rest =>
    have answers : (step p s (.configured true)).isSome = true := by simp [step, configuredStep, pc]
    obtain ⟨t, h⟩ := Option.isSome_iff_exists.mp answers
    exact ⟨.configured true, t, trivial, h⟩
  | collect caller phase =>
    by_cases nothing : s.selected phase = []
    · exact main_advances (by simp [mainStep, pc, nothing])
    · obtain ⟨order, sorts⟩ := exists_ordered Instance.startupPriority (s.selected phase)
      have sorted : (step p s (.sorted order)).isSome = true := by simp [step, sortStep, pc, nothing, sorts]
      obtain ⟨t, h⟩ := Option.isSome_iff_exists.mp sorted
      exact ⟨.sorted order, t, trivial, h⟩
  | configureNext caller rest => exact main_advances (by cases rest <;> simp [mainStep, pc])
  | checkAbort caller next => exact main_advances (by cases next <;> simp [mainStep, pc])
  | each caller phase rest => exact main_advances (by cases phase <;> cases rest <;> simp [mainStep, pc])
  | _ => first
    | (rw [pc] at inside; contradiction)
    | exact main_advances (by simp [mainStep, pc])

/-- What leaves a call of `_idle` is its return. -/
theorem idle_returns {a : Action} (inside : s.pc.inIdle = true) (h : step p s a = some t)
    (left : ¬ t.pc.inIdle = true) : ∃ es again, t.events = s.events ++ es ++ [.idle again] := by
  rcases step_cases h with ⟨_, beside⟩ | ⟨_, main⟩ | guided
  · rw [beside.pc] at left
    exact absurd inside left
  · unfold mainStep at main
    split at main <;> rename_i pc <;> rw [pc] at inside
    all_goals try split at main
    all_goals first
      | contradiction
      | obtain rfl := Option.some.inj main
    all_goals simp only [goto_pc] at left
    case h_5 component _ =>
      by_cases empty : Config.getConfig component s.mainconf = ""
      · rw [if_pos empty] at left
        exact absurd inside left
      · rw [if_neg empty] at left
        exact absurd inside left
    case h_15.isTrue run =>
      rw [run] at inside
      contradiction
    case h_21 => exact ⟨[.ioStop], false, rfl⟩
    case h_24.isFalse => exact ⟨[], true, by rw [List.append_nil]; rfl⟩
    all_goals first
      | exact absurd inside left
      | exact absurd rfl left
  · cases guided with
    | tick pc _ =>
      rw [pc] at inside
      contradiction
    | configured ok caller component section_ rest pc same =>
      rw [pc] at inside
      rw [same] at left
      cases ok <;> exact absurd inside left
    | sorted order caller phase pc _ _ same =>
      rw [pc] at inside
      rw [same] at left
      exact absurd inside left
    | stopSorted order pc _ _ _ =>
      rw [pc] at inside
      contradiction

theorem fairRun_events (run : FairRun (step p) Action.advances) (n : Nat) :
    (run.states 0).events <+: (run.states n).events := by
  induction n with
  | zero => exact List.prefix_refl _
  | succ n ih => exact ih.trans (step_events (run.follows n))

/-- A part of the program in which every statement lowers a rank is left in every fair run. -/
theorem ranked_leaves (inside : Pc → Bool) (rank : State → Nat × Nat)
    (enabled : ∀ s, inside s.pc = true → ∃ a t, a.advances ∧ step p s a = some t)
    (keeps : ∀ s t, Beside s t → rank t = rank s ∨ rankLess (rank t) (rank s))
    (lowers : ∀ s t, inside s.pc = true → mainStep p s = some t → inside t.pc = true → rankLess (rank t) (rank s))
    (guides : ∀ s a t, inside s.pc = true → Guided s t a → rankLess (rank t) (rank s))
    (run : FairRun (step p) Action.advances) (begins : inside (run.states 0).pc = true) :
    ∃ n, inside (run.states n).pc = true ∧ ¬ inside (run.states (n + 1)).pc = true := by
  have advancing (s : State) (a : Action) (t : State) (within : inside s.pc = true) (h : step p s a = some t)
      (advances : a.advances) (stays : inside t.pc = true) : rankLess (rank t) (rank s) := by
    rcases step_cases h with ⟨aside, _⟩ | ⟨_, main⟩ | guided
    · exact absurd aside (advances_aside advances)
    · exact lowers s t within main stays
    · exact guides s a t within guided
  have other (s : State) (a : Action) (t : State) (within : inside s.pc = true) (h : step p s a = some t)
      (_ : ¬ a.advances) (stays : inside t.pc = true) : rank t = rank s ∨ rankLess (rank t) (rank s) := by
    rcases step_cases h with ⟨_, beside⟩ | ⟨_, main⟩ | guided
    · exact keeps s t beside
    · exact Or.inr (lowers s t within main stays)
    · exact Or.inr (guides s a t within guided)
  obtain ⟨d, within, out⟩ := run.leaves (WellFounded.prod_lex Nat.lt_wfRel.wf Nat.lt_wfRel.wf)
    (fun s => inside s.pc = true) rank enabled advancing other 0 begins
  exact ⟨0 + d, within d (Nat.le_refl d), out⟩

theorem idle_ends (p : Program) (inside : s.pc.inIdle = true) : IdleEnds p s := by
  refine ⟨idle_enabled p inside, ?_⟩
  intro run starts
  obtain ⟨n, last, out⟩ := ranked_leaves Pc.inIdle State.rank (fun _ inside => idle_enabled p inside)
    (fun _ _ beside => rank_beside beside) (fun _ _ inside h stays => rank_main inside h stays)
    (fun _ _ _ inside guided => rank_guided inside guided) run (starts ▸ inside)
  obtain ⟨es, again, events⟩ := idle_returns last (run.follows n) out
  obtain ⟨before, earlier⟩ := fairRun_events run n
  refine ⟨n + 1, before ++ es, again, ?_⟩
  rw [events, ← earlier, starts]
  simp only [List.append_assoc]

/-- Along every run, from the entry of the main loop on: a call of `_idle`, by a tick or by `_idle` itself, that
begins after a stop request has raised a flag stops the io_context and returns false, and no sunrise begins from
there on; and every call of `_idle` ends. -/
theorem stop_wins (p : Program) (restartFlag : Bool) (mainconf : Configuration) (dirty : Bool)
    (instances : List Instance) (enter during : List Action) (m s : State)
    (entered : exec (step p) (initial restartFlag mainconf dirty instances) enter = some m)
    (loop : m.pc = .mainLoop) (run : exec (step p) m during = some s) :
    (Asked enter during → ∀ a v, step p s a = some v → v.pc = .idleSignal →
      ∀ after t, exec (step p) v after = some t → LastTick v t) ∧
    (s.pc.inIdle = true → IdleEnds p s) := by
  refine ⟨?_, idle_ends p⟩
  intro asked a v begins pc after t continued
  have enteredBegun : m.pc ≠ .run := by simp [loop]
  have keeps (s : State) (a : Action) (t : State) (begun : s.pc ≠ .run) (h : step p s a = some t) : t.pc ≠ .run :=
    step_begun h begun
  have begun : s.pc ≠ .run := exec_invariant keeps enteredBegun run
  have stopping := asked_stopping (aligned_run entered) enteredBegun run asked
  have leaving : Leaving v v := by
    unfold Leaving
    rw [pc]
    exact ⟨step_stopping begins begun stopping, rfl⟩
  exact leaving_last (exec_invariant (fun _ _ _ now h => leaving_step h now) leaving continued)

/-- A reload has returned and is still to be handled when a stop comes. -/
def stoppedReloaded : List Action :=
  [.call (.reload [("logger", "[]")]), .write 0, .write 0, .call .coreStop, .write 1]

theorem stop_wins_reloaded : ∃ m s v,
    exec (step ⟨["logger"], true⟩) (initial false [] false []) (List.replicate 16 .main) = some m ∧
    exec (step ⟨["logger"], true⟩) m stoppedReloaded = some s ∧ s.reconfigureFlag = true ∧
    step ⟨["logger"], true⟩ s .tick = some v ∧
    ∀ after t, exec (step ⟨["logger"], true⟩) v after = some t → LastTick v t := by
  refine ⟨_, _, _, rfl, rfl, rfl, rfl, ?_⟩
  have asked : Asked (List.replicate 16 .main) stoppedReloaded :=
    ⟨1, .stopFlag, by decide, rfl, .coreStop, rfl, by decide⟩
  exact (stop_wins ⟨["logger"], true⟩ false [] false [] (List.replicate 16 .main) stoppedReloaded _ _ rfl rfl rfl).1
    asked .tick _ rfl rfl

end WfcCore.Core

import WfcCore.Core.Lifecycle

/-!
# The core returns exactly if it is asked to stop

Once the main thread has reset `gs_stop_signal`, a stop in force leads it out of whatever it is doing: of a
sunrise of either caller, of the main loop, of a call of `_idle`, through `_stop` to the return of `core::run`.
-/

namespace WfcCore.Core

open Foundation Wfc

/-- A step of the main thread, the tick of the core timer included. -/
def Action.drives (a : Action) : Prop := a.advances ∨ a = .tick

def Pc.ended : Pc → Bool
  | .returned _ => true
  | _ => false

/-- After these nothing but `_stop` is left. -/
def Pc.leaves : Pc → Bool
  | .idleIoStop | .stop | .stopCollect | .stopEach _ | .stopAfter | .result | .returned _ => true
  | _ => false

/-- The way to the end with a stop in force, lists that are worked off in the second place. -/
def State.endRank (s : State) : Nat × Nat :=
  match s.pc with
  | .returned _ => (0, 0)
  | .result => (1, 0)
  | .stopAfter => (2, 0)
  | .stopEach rest => (3, rest.length)
  | .stopCollect => (4, 0)
  | .stop => (5, 0)
  | .idleIoStop => (6, 0)
  | .idleStop => (if s.stopFlag then 7 else 29, 0)
  | .idleSetStop => (8, 0)
  | .idleSignal => (9, 0)
  | .mainLoop => (10, 0)
  | .idleFinal => (11, 0)
  | .afterStart => (12, 0)
  | .checkStarted => (13, 0)
  | .sunriseReturn _ => (14, 0)
  | .checkAbort _ .finishing => (15, 0)
  | .checkStop _ .finishing => (16, 0)
  | .each _ .initializing rest => (21, 2 * rest.length)
  | .invoke _ .initializing _ rest => (21, 2 * rest.length + 1)
  | .each _ _ rest => (17, 2 * rest.length)
  | .invoke _ _ _ rest => (17, 2 * rest.length + 1)
  | .collect _ .initializing => (22, 0)
  | .collect _ _ => (18, 0)
  | .checkAbort _ .starting => (19, 0)
  | .checkStop _ .starting => (20, 0)
  | .checkAbort _ .initializing => (23, 0)
  | .checkStop _ .initializing => (24, 0)
  | .configureNext _ rest => (25, 4 * rest.length)
  | .getConfig _ _ rest => (25, 4 * rest.length + 3)
  | .configure _ _ _ rest => (25, 4 * rest.length + 2)
  | .configureFailed _ rest => (25, 4 * rest.length + 1)
  | .sunrise _ => (26, 0)
  | .idleClear => (27, 0)
  | .idleReconfigure => (28, 0)
  | .run => (30, 0)

variable {p : Program} {s t : State}

theorem endRank_beside (beside : Beside s t) : t.endRank = s.endRank ∨ rankLess t.endRank s.endRank := by
  rw [rankLess_iff]
  unfold State.endRank
  rw [beside.pc]
  split
  case h_8 =>
    have raised := beside.stop
    cases before : s.stopFlag with
    | true => simp [raised before]
    | false => cases after : t.stopFlag <;> simp
  all_goals exact Or.inl rfl

/-- A statement lowers the rank, where a call of `_idle` that finds no stop is not its beginning. -/
theorem endRank_main (signalled : s.pc = .idleSignal → Stopping s) (h : mainStep p s = some t) :
    rankLess t.endRank s.endRank := by
  rw [rankLess_iff]
  unfold mainStep at h
  split at h <;> rename_i pc
  all_goals try split at h
  all_goals first
    | contradiction
    | obtain rfl := Option.some.inj h
  all_goals simp only [State.endRank, goto_pc, pc]
  case h_5 component rest =>
    by_cases empty : Config.getConfig component s.mainconf = "" <;> simp [empty]
  case h_7.isTrue next _ => cases next <;> simp
  case h_7.isFalse next _ => cases next <;> simp
  case h_9.isTrue next other _ =>
    cases next with
    | initializing => simp [Phase.following]
    | starting => simp [Phase.following]
    | finishing => exact absurd rfl other
  case h_9.isFalse next other _ =>
    cases next with
    | initializing => simp
    | starting => simp
    | finishing => exact absurd rfl other
  case h_10.isTrue phase _ => cases phase <;> simp [Phase.following]
  case h_13.isTrue phase _ _ _ => cases phase <;> simp
  case h_13.isFalse phase _ _ _ => cases phase <;> simp <;> omega
  case h_14 phase _ _ => cases phase <;> simp
  case h_18.isFalse down =>
    -- the signal is not up, so the flag is
    have up : s.stopFlag = true := (signalled pc).resolve_left (by simpa using down)
    simp [State.goto, up]
  case h_19 => simp [State.goto]
  case h_20.isTrue up => simp [up]
  case h_20.isFalse down => simp [down]
  all_goals first
    | contradiction
    | omega
    | (simp; done)
    | (simp; omega)

theorem endRank_guided {a : Action} (guided : Guided s t a) : rankLess t.endRank s.endRank := by
  rw [rankLess_iff]
  cases guided with
  | tick pc same =>
    rw [same]
    simp [State.endRank, State.goto, pc]
  | configured ok caller component section_ rest pc same =>
    rw [same]
    cases ok <;> simp [State.endRank, State.goto, pc]
  | sorted order caller phase pc _ _ same =>
    rw [same]
    cases phase <;> simp [State.endRank, State.goto, pc]
  | stopSorted order pc _ _ same =>
    rw [same]
    simp [State.endRank, State.goto, pc]

/-- Until it returns, the main thread can always go on. -/
theorem drives_enabled (p : Program) (running : s.pc.ended = false) : ∃ a t, a.drives ∧ step p s a = some t := by
  have advancing (enabled : ∃ a t, a.advances ∧ step p s a = some t) : ∃ a t, a.drives ∧ step p s a = some t := by
    obtain ⟨a, t, advances, h⟩ := enabled
    exact ⟨a, t, Or.inl advances, h⟩
  cases pc : s.pc with
  | returned code =>
    rw [pc] at running
    contradiction
  | mainLoop => exact ⟨.tick, _, Or.inr rfl, if_pos pc⟩
  | configure caller component section_ rest =>
    have answers : (step p s (.configured true)).isSome = true := by simp [step, configuredStep, pc]
    obtain ⟨t, h⟩ := Option.isSome_iff_exists.mp answers
    exact advancing ⟨.configured true, t, trivial, h⟩
  | collect caller phase =>
    by_cases nothing : s.selected phase = []
    · exact advancing (main_advances (by simp [mainStep, pc, nothing]))
    · obtain ⟨order, sorts⟩ := exists_ordered Instance.startupPriority (s.selected phase)
      have sorted : (step p s (.sorted order)).isSome = true := by simp [step, sortStep, pc, nothing, sorts]
      obtain ⟨t, h⟩ := Option.isSome_iff_exists.mp sorted
      exact advancing ⟨.sorted order, t, trivial, h⟩
  | stopCollect => exact advancing (stop_enabled p (by rw [pc]; rfl))
  | configureNext caller rest => exact advancing (main_advances (by cases rest <;> simp [mainStep, pc]))
  | checkAbort caller next => exact advancing (main_advances (by cases next <;> simp [mainStep, pc]))
  | each caller phase rest => exact advancing (main_advances (by cases phase <;> cases rest <;> simp [mainStep, pc]))
  | stopEach rest => exact advancing (main_advances (by cases rest <;> simp [mainStep, pc]))
  | _ => exact advancing (main_advances (by simp [mainStep, pc]))

/-- A step of a larger system that the core is part of: one of the core, or one beside it. -/
def Moves {τ α : Type} (p : Program) (core : τ → State) (helpful : α → Prop) (u : τ) (a : α) (v : τ) : Prop :=
  (∃ b, step p (core u) b = some (core v) ∧ (helpful a ↔ b.drives)) ∨ ¬ helpful a ∧ Beside (core u) (core v)

theorem Moves.cases {τ α : Type} {core : τ → State} {helpful : α → Prop} {u v : τ} {a : α}
    (moves : Moves p core helpful u a v) :
    ¬ helpful a ∧ Beside (core u) (core v) ∨ mainStep p (core u) = some (core v) ∨ ∃ b, Guided (core u) (core v) b := by
  rcases moves with ⟨b, taken, same⟩ | beside
  · rcases step_cases taken with ⟨aside, beside⟩ | ⟨_, main⟩ | guided
    · refine Or.inl ⟨fun helps => ?_, beside⟩
      rcases same.mp helps with advances | rfl
      · exact advances_aside advances aside
      · exact aside
    · exact Or.inr (Or.inl main)
    · exact Or.inr (Or.inr ⟨b, guided⟩)
  · exact Or.inl beside

theorem Moves.endRank {τ α : Type} {core : τ → State} {helpful : α → Prop} {u v : τ} {a : α}
    (moves : Moves p core helpful u a v) (signalled : (core u).pc = .idleSignal → Stopping (core u)) :
    rankLess (core v).endRank (core u).endRank ∨ ¬ helpful a ∧ Beside (core u) (core v) := by
  rcases moves.cases with beside | main | ⟨b, guided⟩
  · exact Or.inr beside
  · exact Or.inl (endRank_main signalled main)
  · exact Or.inl (endRank_guided guided)

/-- With a stop in force and the signal reset behind it, the core returns in every fair run of a system that it is
part of. -/
theorem stopping_returns {τ α : Type} {step' : τ → α → Option τ} {helpful : α → Prop} (core : τ → State)
    (moves : ∀ u a v, step' u a = some v → Moves p core helpful u a v)
    (enabled : ∀ u, (core u).pc.ended = false → ∃ a v, helpful a ∧ step' u a = some v)
    (run : FairRun step' helpful) (n : Nat) (begun : (core (run.states n)).pc ≠ .run)
    (stopping : Stopping (core (run.states n))) : ∃ m, n ≤ m ∧ (core (run.states m)).pc.ended = true := by
  by_cases running : (core (run.states n)).pc.ended = false
  · let inside (u : τ) : Prop := (core u).pc.ended = false ∧ (core u).pc ≠ .run ∧ Stopping (core u)
    have ranked (u : τ) (a : α) (v : τ) (within : inside u) (h : step' u a = some v) :
        rankLess (core v).endRank (core u).endRank ∨ ¬ helpful a ∧ Beside (core u) (core v) :=
      (moves u a v h).endRank fun _ => within.2.2
    obtain ⟨d, within, out⟩ := run.leaves (WellFounded.prod_lex Nat.lt_wfRel.wf Nat.lt_wfRel.wf) inside
      (fun u => (core u).endRank) (fun u within => enabled u within.1)
      (fun u a v within h helps _ => (ranked u a v within h).resolve_right fun beside => beside.1 helps)
      (fun u a v within h _ _ => (ranked u a v within h).elim Or.inr fun beside => endRank_beside beside.2)
      n ⟨running, begun, stopping⟩
    obtain ⟨_, begun, stopping⟩ := within d (Nat.le_refl d)
    refine ⟨n + d + 1, by omega, ?_⟩
    by_contra still
    apply out
    rcases moves _ _ _ (run.follows (n + d)) with ⟨b, taken, _⟩ | ⟨_, beside⟩
    · exact ⟨by simpa using still, step_begun taken begun, step_stopping taken begun stopping⟩
    · exact ⟨by simpa using still, beside.pc ▸ begun, Or.imp beside.signal beside.stop stopping⟩
  · exact ⟨n, Nat.le_refl n, by simpa using running⟩

/-! ### Only a stop ends the core -/

theorem leaves_main (stopped : s.pc.leaves = true → s.stopFlag = true) (h : mainStep p s = some t)
    (leaves : t.pc.leaves = true) : t.stopFlag = true := by
  rw [(mainStep_effect h).stop]
  by_cases before : s.pc.leaves = true
  · rw [stopped before, Bool.or_true]
  · unfold mainStep at h
    split at h <;> rename_i pc <;> rw [pc] at before
    all_goals try split at h
    all_goals first
      | contradiction
      | obtain rfl := Option.some.inj h
    all_goals simp only [goto_pc] at leaves
    case h_20.isTrue up => rw [up, Bool.or_true]
    all_goals first
      | exact absurd rfl before
      | contradiction
      | cases leaves
      | (split at leaves <;> cases leaves)

theorem leaves_step {a : Action} (stopped : s.pc.leaves = true → s.stopFlag = true) (h : step p s a = some t)
    (leaves : t.pc.leaves = true) : t.stopFlag = true := by
  rcases step_cases h with ⟨_, beside⟩ | ⟨_, main⟩ | guided
  · rw [beside.pc] at leaves
    exact beside.stop (stopped leaves)
  · exact leaves_main stopped main leaves
  · cases guided with
    | tick pc same =>
      rw [same] at leaves
      contradiction
    | configured ok caller component section_ rest pc same =>
      rw [same] at leaves
      cases ok <;> contradiction
    | sorted order caller phase pc _ _ same =>
      rw [same] at leaves
      contradiction
    | stopSorted order pc _ _ same =>
      rw [same]
      exact stopped (by rw [pc]; rfl)

theorem leaves_fair (run : FairRun (step p) Action.drives) (begins : (run.states 0).pc.leaves = false) (n : Nat) :
    (run.states n).pc.leaves = true → (run.states n).stopFlag = true := by
  refine run.invariant (I := fun s => s.pc.leaves = true → s.stopFlag = true) ?_ ?_ n
  · intro leaves
    rw [begins] at leaves
    contradiction
  · intro s a t stopped h
    exact leaves_step stopped h

theorem ended_iff (pc : Pc) : pc.ended = true ↔ ∃ code, pc = .returned code := by
  cases pc <;> simp [Pc.ended]

theorem ended_quiet {a : Action} (ended : s.pc.ended = true) (drives : a.drives) : step p s a = none := by
  obtain ⟨code, pc⟩ := (ended_iff _).mp ended
  cases a with
  | tick => simp [step, pc]
  | main => simp [step, mainStep, pc]
  | configured ok => simp [step, configuredStep, pc]
  | sorted order => simp [step, sortStep, pc]
  | _ => rcases drives with advances | tick <;> contradiction

/-- In every fair run, from the start of the core on, `core::run` returns exactly if at some time after the reset
of `gs_stop_signal` a stop is in force. -/
theorem returns_iff_stopped (p : Program) (restartFlag : Bool) (mainconf : Configuration) (dirty : Bool)
    (instances : List Instance) (run : FairRun (step p) Action.drives)
    (starts : run.states 0 = initial restartFlag mainconf dirty instances) :
    (∃ n code, (run.states n).pc = .returned code) ↔ ∃ n, (run.states n).pc ≠ .run ∧ Stopping (run.states n) := by
  constructor
  · rintro ⟨n, code, returned⟩
    have stopped := leaves_fair run (by rw [starts]; rfl) n (by rw [returned]; rfl)
    exact ⟨n, by simp [returned], Or.inr stopped⟩
  · rintro ⟨n, begun, stopping⟩
    obtain ⟨m, _, ended⟩ := stopping_returns id (fun _ a _ h => Or.inl ⟨a, h, Iff.rfl⟩)
      (fun _ running => drives_enabled p running) run n begun stopping
    exact ⟨m, (ended_iff _).mp ended⟩

/-- A program without components is started and told to stop in the main loop. -/
def startedStopped : List Action :=
  List.replicate 14 .main ++ [.call .coreStop, .write 0, .tick] ++ List.replicate 4 .main ++ [.sorted []] ++
    List.replicate 3 .main

def stoppedEnd : State :=
  (exec (step ⟨[], true⟩) (initial false [] false []) startedStopped).getD (initial false [] false [])

theorem returns_iff_stopped_asked : ∃ run : FairRun (step ⟨[], true⟩) Action.drives,
    run.states 0 = initial false [] false [] ∧ Stopping (run.states 16) ∧
      ∃ n code, (run.states n).pc = .returned code := by
  have ends : exec (step ⟨[], true⟩) (initial false [] false []) startedStopped = some stoppedEnd := rfl
  have quiet (a : Action) (u : State) (helps : a.drives) : step ⟨[], true⟩ stoppedEnd a ≠ some u := by
    rw [ended_quiet rfl helps]
    simp
  let run : FairRun (step ⟨[], true⟩) Action.drives :=
    FairRun.ofExec startedStopped ends (.registry false []) rfl quiet (fun a last => by
      obtain rfl := Option.some.inj last
      exact Or.inl trivial)
  have stopping : Stopping (run.states 16) := Or.inr rfl
  exact ⟨run, rfl, stopping, (returns_iff_stopped ⟨[], true⟩ false [] false [] run rfl).mpr
    ⟨16, (fun h => by cases h), stopping⟩⟩

end WfcCore.Core

import WfcCore.Core.Steps

/-!
# Abort implies stop

`core_abort` raises `_stop_flag` before `_abort_flag`, but a component that rejects its section in
`_configure` raises `_abort_flag` alone. The property at stake, `AbortStops`, holds along a run exactly
when every such rejection finds `_stop_flag` already raised.
-/

namespace WfcCore.Core

open Foundation Wfc

variable {p : Program} {s t : State}

/-! ### What holds of a state -/

/-- How many statements the main thread is from the end of the main loop, inside a tick that stops it
and after it. -/
def Pc.toLoopEnd : Pc → Option Nat
  | .idleSignal => some 4
  | .idleSetStop => some 3
  | .idleStop => some 2
  | .idleIoStop => some 1
  | .stop | .stopCollect | .stopEach _ | .stopAfter | .result | .returned _ => some 0
  | _ => none

/-- The main loop has ended, or the next statement of the main thread brings its end nearer. -/
def EndsLoop (p : Program) (s : State) : Prop :=
  ∃ n, s.pc.toLoopEnd = some n ∧
    (0 < n → ∃ t m, step p s .main = some t ∧ t.pc.toLoopEnd = some m ∧ m < n)

/-- An abort is a stop: the flags say so, no after_start handler runs after a sunrise that aborted,
and a core tick that begins with the abort flag raised is the last one. -/
structure AbortStops (p : Program) (s : State) : Prop where
  stops : s.abortFlag = true → s.stopFlag = true
  notStarted : s.events.Pairwise fun a b => ¬ (a = .sunriseEnd true ∧ b = .afterStart)
  ends : .tick true ∈ s.events → EndsLoop p s

/-- A component that rejected its section is reported in a state that is already stopping. -/
def StoppedFirst (s : State) (a : Action) : Prop :=
  a = .main → s.pc.isConfigureFailed = true → s.stopFlag = true

/-! ### What one step does -/

theorem emitted_quiet (s : State) :
    .tick true ∉ s.emitted ∧ (.sunriseEnd true ∈ s.emitted → s.abortFlag = true) ∧
      (.afterStart ∉ s.emitted ∨ s.pc = .afterStart ∧ s.emitted = [.afterStart]) := by
  unfold State.emitted
  split <;> rename_i pc
  case h_4 phase _ _ => cases phase <;> simp [Phase.event]
  all_goals try split
  all_goals simp [pc]

theorem mainStep_fires (h : mainStep p s = some t) (fires : t.pc = .afterStart) :
    s.stopFlag = false ∧ t.events = s.events := by
  unfold mainStep at h
  split at h
  all_goals try split at h
  all_goals first
    | contradiction
    | (obtain rfl := Option.some.inj h; simp at fires; done)
    | (obtain rfl := Option.some.inj h; simp only [goto_pc] at fires; split at fires <;> contradiction)
    | skip
  rename_i running
  obtain rfl := Option.some.inj h
  exact ⟨by simpa using running, rfl⟩

theorem mainStep_leaves {n : Nat} (h : mainStep p s = some t) (leaving : s.pc.toLoopEnd = some n)
    (stopped : s.pc = .idleStop → s.stopFlag = true) :
    ∃ m, t.pc.toLoopEnd = some m ∧ (0 < n → m < n) := by
  unfold mainStep at h
  split at h <;> rename_i pc <;> rw [pc] at leaving <;> simp only [Pc.toLoopEnd, reduceCtorEq] at leaving
  all_goals first
    | contradiction
    | (obtain rfl := Option.some.inj h
       obtain rfl := Option.some.inj leaving
       first
         | exact ⟨_, rfl, by omega⟩
         | (rw [if_pos (stopped pc)]; exact ⟨_, rfl, by omega⟩)
         | (split <;> exact ⟨_, rfl, by omega⟩))

structure Effect (s t : State) : Prop where
  stop : s.stopFlag = true → t.stopFlag = true
  abort : s.abortFlag = true → t.abortFlag = true
  events : ∃ es, t.events = s.events ++ es ∧
    (.tick true ∈ es → s.abortFlag = true ∧ t.pc = .idleSignal) ∧ (.sunriseEnd true ∈ es → s.abortFlag = true) ∧
    (.afterStart ∉ es ∨ s.pc = .afterStart ∧ es = [.afterStart])
  fires : t.pc = .afterStart → (s.pc = .afterStart ∨ s.stopFlag = false) ∧ t.events = s.events
  leaves : ∀ n, s.pc.toLoopEnd = some n → (s.pc = .idleStop → s.stopFlag = true) →
    ∃ m, t.pc.toLoopEnd = some m

theorem effect_beside (beside : Beside s t) : Effect s t where
  stop := beside.stop
  abort := beside.abort
  events := ⟨[], by simp [beside.events]⟩
  fires := fun fires => ⟨Or.inl (beside.pc ▸ fires), beside.events⟩
  leaves := fun n leaving _ => ⟨n, beside.pc ▸ leaving⟩

theorem effect_main (h : mainStep p s = some t) : Effect s t where
  stop := fun up => by simp [(mainStep_effect h).stop, up]
  abort := fun up => by simp [(mainStep_effect h).abort, up]
  events := by
    obtain ⟨noTick, ended, fired⟩ := emitted_quiet s
    exact ⟨s.emitted, (mainStep_effect h).events, fun member => absurd member noTick, ended, fired⟩
  fires := fun fires => ⟨Or.inr (mainStep_fires h fires).1, (mainStep_fires h fires).2⟩
  leaves := fun n leaving stopped => by
    obtain ⟨m, next, _⟩ := mainStep_leaves h leaving stopped
    exact ⟨m, next⟩

theorem effect_guided {a : Action} (guided : Guided s t a) : Effect s t := by
  cases guided with
  | tick pc same =>
    rw [same]
    refine ⟨id, id, ⟨[_], rfl, ?_⟩, ?_, ?_⟩
    · simp
    · simp
    · simp [pc, Pc.toLoopEnd]
  | configured ok caller component section_ rest pc same =>
    rw [same]
    refine ⟨id, id, ⟨[_], rfl, by simp⟩, ?_, by simp [pc, Pc.toLoopEnd]⟩
    cases ok <;> simp
  | sorted order caller phase pc _ _ same =>
    rw [same]
    exact ⟨id, id, ⟨[], by simp⟩, by simp, by simp [pc, Pc.toLoopEnd]⟩
  | stopSorted order pc _ _ same =>
    rw [same]
    exact ⟨id, id, ⟨[], by simp⟩, by simp, by simp [Pc.toLoopEnd]⟩

theorem step_effect {a : Action} (h : step p s a = some t) : Effect s t := by
  rcases step_cases h with ⟨_, beside⟩ | ⟨_, main⟩ | guided
  · exact effect_beside beside
  · exact effect_main main
  · exact effect_guided guided

theorem step_events {a : Action} (h : step p s a = some t) : s.events <+: t.events := by
  obtain ⟨es, added, _⟩ := (step_effect h).events
  exact ⟨es, added.symm⟩

theorem exec_events {as : List Action} (run : exec (step p) s as = some t) : s.events <+: t.events :=
  have keeps (m : State) (a : Action) (t : State) (earlier : s.events <+: m.events) (h : step p m a = some t) :
      s.events <+: t.events := earlier.trans (step_events h)
  exec_invariant keeps (List.prefix_refl _) run

/-! ### Calls in flight -/

/-- The abort flag is written only after the stop flag, which is up already or stands before it. -/
def Guarded : Bool → List Write → Prop
  | _, [] => True
  | up, w :: rest => (w = .abortFlag → up = true) ∧ Guarded (up || w == .stopFlag) rest

theorem guarded_up {ws : List Write} {up up' : Bool} (h : Guarded up ws) (raised : up = true → up' = true) :
    Guarded up' ws := by
  induction ws generalizing up up' with
  | nil => trivial
  | cons w rest ih =>
    refine ⟨fun same => raised (h.1 same), ih h.2 ?_⟩
    simp only [Bool.or_eq_true]
    exact Or.imp_left raised

theorem call_guarded (c : Call) (up : Bool) : Guarded up c.writes := by
  cases c <;> simp [Call.writes, Guarded]

theorem step_calls {a : Action} (h : step p s a = some t) (guarded : ∀ ws ∈ s.calls, Guarded s.stopFlag ws) :
    ∀ ws ∈ t.calls, Guarded t.stopFlag ws := by
  have stop := (step_effect h).stop
  by_cases silent : a.silent = true
  · intro ws member
    rw [(silent_kept silent h).calls] at member
    exact guarded_up (guarded ws member) stop
  · cases a with
    | call c =>
      obtain rfl := Option.some.inj h
      intro ws member
      rcases List.mem_append.mp member with old | new
      · exact guarded ws old
      · obtain rfl := List.mem_singleton.mp new
        exact call_guarded c _
    | write i =>
      obtain ⟨w, rest, read, rfl⟩ := writeStep_some h
      intro ws member
      rcases List.mem_or_eq_of_mem_set member with old | rfl
      · exact guarded_up (guarded ws old) stop
      · have before := guarded _ (List.mem_of_getElem? read)
        refine guarded_up before.2 ?_
        cases w <;> simp [State.perform]
    | _ => exact absurd rfl silent

theorem step_abort {a : Action} (h : step p s a = some t) (guarded : ∀ ws ∈ s.calls, Guarded s.stopFlag ws)
    (raised : t.abortFlag = true) :
    s.abortFlag = true ∨ t.stopFlag = true ∨ (a = .main ∧ s.pc.isConfigureFailed = true) := by
  rcases step_cases h with ⟨aside, _⟩ | ⟨rfl, main⟩ | guided
  · cases a with
    | call c =>
      obtain rfl := Option.some.inj h
      exact Or.inl raised
    | write i =>
      obtain ⟨w, rest, read, rfl⟩ := writeStep_some h
      have before := guarded _ (List.mem_of_getElem? read)
      cases w with
      | abortFlag => exact Or.inr (Or.inl (before.1 rfl))
      | _ => exact Or.inl raised
    | registry dirty instances =>
      obtain rfl := Option.some.inj h
      exact Or.inl raised
    | _ => contradiction
  · rw [(mainStep_effect main).abort, Bool.or_eq_true] at raised
    rcases raised with failed | up
    · exact Or.inr (Or.inr ⟨rfl, failed⟩)
    · exact Or.inl up
  · obtain ⟨_, _, rfl⟩ := guided_moves guided
    exact Or.inl raised

/-! ### From steps to runs -/

structure Traced (s : State) : Prop where
  calls : ∀ ws ∈ s.calls, Guarded s.stopFlag ws
  ended : .sunriseEnd true ∈ s.events → s.abortFlag = true
  ticked : .tick true ∈ s.events → s.abortFlag = true
  firing : s.pc = .afterStart → .sunriseEnd true ∉ s.events

theorem traced_step {a : Action} (traced : Traced s) (now : AbortStops p s) (h : step p s a = some t) :
    Traced t := by
  have effect := step_effect h
  obtain ⟨es, added, newTick, newEnd, _⟩ := effect.events
  refine ⟨step_calls h traced.calls, ?_, ?_, ?_⟩
  · intro member
    rcases List.mem_append.mp (added ▸ member) with old | new
    · exact effect.abort (traced.ended old)
    · exact effect.abort (newEnd new)
  · intro member
    rcases List.mem_append.mp (added ▸ member) with old | new
    · exact effect.abort (traced.ticked old)
    · exact effect.abort (newTick new).1
  · intro fires
    obtain ⟨cause, same⟩ := effect.fires fires
    rw [same]
    rcases cause with already | running
    · exact traced.firing already
    · intro member
      have stopped := now.stops (traced.ended member)
      rw [running] at stopped
      contradiction

theorem endsLoop_of {n : Nat} (leaving : s.pc.toLoopEnd = some n) (stopped : s.stopFlag = true) :
    EndsLoop p s := by
  refine ⟨n, leaving, fun inside => ?_⟩
  have enabled : ∃ t, mainStep p s = some t := by
    cases pc : s.pc <;> simp [pc, Pc.toLoopEnd] at leaving <;> first | omega | simp [mainStep, pc]
  obtain ⟨t, h⟩ := enabled
  obtain ⟨m, next, nearer⟩ := mainStep_leaves h leaving (fun _ => stopped)
  exact ⟨t, m, h, next, nearer inside⟩

/-- A step keeps the property exactly if it does not report a rejected section to a running core. -/
theorem abortStops_step {a : Action} (traced : Traced s) (now : AbortStops p s) (h : step p s a = some t) :
    AbortStops p t ↔ StoppedFirst s a := by
  have effect := step_effect h
  constructor
  · rintro later rfl failed
    have raised : t.abortFlag = true := by simp [(mainStep_effect h).abort, failed]
    have stopped := later.stops raised
    rw [(mainStep_effect h).stop] at stopped
    cases pc : s.pc <;> simp [pc, Pc.isConfigureFailed] at failed stopped
    exact stopped
  · intro cond
    have stops : t.abortFlag = true → t.stopFlag = true := by
      intro raised
      rcases step_abort h traced.calls raised with before | stopped | ⟨main, failed⟩
      · exact effect.stop (now.stops before)
      · exact stopped
      · exact effect.stop (cond main failed)
    obtain ⟨es, added, newTick, newEnd, newStart⟩ := effect.events
    refine ⟨stops, ?_, ?_⟩
    · rw [added, List.pairwise_append]
      rcases newStart with silent | ⟨fires, rfl⟩
      · refine ⟨now.notStarted, ?_, ?_⟩
        · exact List.Pairwise.imp_of_mem (fun _ member _ same => silent (same.2 ▸ member))
            (List.pairwise_of_forall (R := fun _ _ => True) (fun _ _ => trivial))
        · rintro _ _ _ member ⟨_, rfl⟩
          exact silent member
      · refine ⟨now.notStarted, List.pairwise_singleton _ _, ?_⟩
        rintro _ member _ _ ⟨rfl, _⟩
        exact traced.firing fires member
    · intro member
      rcases List.mem_append.mp (added ▸ member) with old | new
      · obtain ⟨n, leaving, _⟩ := now.ends old
        have stopped := now.stops (traced.ticked old)
        obtain ⟨m, next⟩ := effect.leaves n leaving (fun _ => stopped)
        exact endsLoop_of next (effect.stop stopped)
      · obtain ⟨aborted, pc⟩ := newTick new
        exact endsLoop_of (by rw [pc]; rfl) (effect.stop (now.stops aborted))

variable {restartFlag dirty : Bool} {mainconf : Configuration} {instances : List Instance}

theorem initial_traced : Traced (initial restartFlag mainconf dirty instances) := by
  constructor <;> simp [initial]

theorem initial_abortStops : AbortStops p (initial restartFlag mainconf dirty instances) := by
  constructor <;> simp [initial]

/-- Along any run, with any calls beside the main thread, an abort is a stop in every state exactly if
no component rejects its section while the stop flag is down. -/
theorem abort_stops_iff (p : Program) (restartFlag : Bool) (mainconf : Configuration) (dirty : Bool)
    (instances : List Instance) (as : List Action) :
    Always (step p) (AbortStops p) (initial restartFlag mainconf dirty instances) as ↔
      Meets (step p) StoppedFirst (initial restartFlag mainconf dirty instances) as :=
  always_iff_meets Traced (fun _ _ _ traced now h => traced_step traced now h)
    (fun _ _ _ traced now h => abortStops_step traced now h) initial_traced initial_abortStops as

/-- The logger rejects its section at the first start; nothing stops the core, and one tick passes. -/
def rejectedStart : List Action :=
  List.replicate 4 .main ++ [.configured false] ++ List.replicate 11 .main ++ [.tick] ++ List.replicate 4 .main

theorem rejected_start_runs :
    (exec (step ⟨["logger"], true⟩) (initial false [("logger", "{}")] true []) rejectedStart).map
        (fun t => (t.abortFlag, t.stopFlag, t.pc, t.events)) =
      some (true, false, .mainLoop, [.sunrise, .stage .configuring, .configure "logger" "{}" false,
        .sunriseEnd true, .afterStart, .tick true, .idle true]) ∧
    ¬ Always (step ⟨["logger"], true⟩) (AbortStops ⟨["logger"], true⟩)
      (initial false [("logger", "{}")] true []) rejectedStart := by
  refine ⟨by decide, fun always => ?_⟩
  have flags : (exec (step ⟨["logger"], true⟩) (initial false [("logger", "{}")] true []) rejectedStart).map
      (fun t => (t.abortFlag, t.stopFlag)) = some (true, false) := by decide
  obtain ⟨t, reached, seen⟩ := Option.map_eq_some_iff.mp flags
  obtain ⟨aborted, running⟩ := Prod.mk.inj seen
  have stopped := (always.last reached).stops aborted
  rw [running] at stopped
  contradiction

end WfcCore.Core

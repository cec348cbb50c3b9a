import WfcCore.Core.Machine

/-!
# What a step can do

A step is one beside the main thread, which leaves program counter and events alone and lowers no flag,
or one of the main thread: a tick, a statement, the answer of a component, or the outcome of a sort.
-/

namespace WfcCore.Core

open Foundation Wfc

/-- A step of the main thread, once a tick has begun. -/
def Action.advances : Action → Prop
  | .main | .configured _ | .sorted _ => True
  | _ => False

/-- A step beside the main thread. -/
def Action.aside : Action → Prop
  | .call _ | .write _ | .registry .. => True
  | _ => False

/-- A label that starts no call and makes no write of one. -/
def Action.silent : Action → Bool
  | .call _ | .write _ => false
  | _ => true

structure Beside (s t : State) : Prop where
  pc : t.pc = s.pc
  events : t.events = s.events
  signal : s.gsStopSignal = true → t.gsStopSignal = true
  stop : s.stopFlag = true → t.stopFlag = true
  abort : s.abortFlag = true → t.abortFlag = true

/-- What a step of the main thread does where `mainStep` leaves it open, and the start of a tick. -/
inductive Guided (s t : State) : Action → Prop where
  | tick : s.pc = .mainLoop → t = (s.emit (.tick s.abortFlag)).goto .idleSignal → Guided s t .tick
  | configured (ok : Bool) (caller : Caller) (component section_ : String) (rest : List String) :
      s.pc = .configure caller component section_ rest →
      t = (s.emit (.configure component section_ ok)).goto
        (if ok then .configureNext caller rest else .configureFailed caller rest) →
      Guided s t (.configured ok)
  | sorted (order : List Instance) (caller : Caller) (phase : Phase) :
      s.pc = .collect caller phase → order.Perm (s.selected phase) →
      order.Pairwise (fun a b => a.startupPriority ≤ b.startupPriority) →
      t = s.goto (.each caller phase order) → Guided s t (.sorted order)
  | stopSorted (order : List Instance) :
      s.pc = .stopCollect → order.Perm s.instances →
      order.Pairwise (fun a b => a.shutdownPriority ≤ b.shutdownPriority) →
      t = s.goto (.stopEach order) → Guided s t (.sorted order)

/-- What only the writes of a call change. -/
structure Kept (s t : State) : Prop where
  calls : t.calls = s.calls
  mainconf : t.mainconf = s.mainconf
  restartFlag : t.restartFlag = s.restartFlag

def Pc.isConfigureFailed : Pc → Bool
  | .configureFailed .. => true
  | _ => false

/-- The events of the statement that the main thread has come to. -/
def State.emitted (s : State) : List Event :=
  match s.pc with
  | .sunrise _ => [.sunrise, .stage .configuring]
  | .checkAbort _ .finishing => if s.abortFlag then [] else [.stage .isRun]
  | .checkAbort _ next => if s.abortFlag then [] else [.stage next.stage]
  | .invoke _ phase m _ => [phase.event m]
  | .sunriseReturn _ => [.sunriseEnd s.abortFlag]
  | .afterStart => [.afterStart]
  | .idleIoStop => [.ioStop, .idle false]
  | .idleFinal => if s.stopFlag then [] else [.idle true]
  | .stop => [.stage .stopping, .beforeStop]
  | .stopEach (m :: _) => [.stop m]
  | .stopAfter => [.afterStop]
  | _ => []

/-- What a statement of the main thread does to the flags and the events. -/
structure Statement (s t : State) : Prop where
  kept : Kept s t
  signal : s.pc ≠ .run → t.gsStopSignal = s.gsStopSignal
  stop : t.stopFlag = (decide (s.pc = .idleSetStop) || s.stopFlag)
  abort : t.abortFlag = (s.pc.isConfigureFailed || s.abortFlag)
  reconfigure : s.pc ≠ .idleClear → t.reconfigureFlag = s.reconfigureFlag
  events : t.events = s.events ++ s.emitted

variable {p : Program} {s t : State} {a : Action}

@[simp] theorem goto_pc (s : State) (pc : Pc) : (s.goto pc).pc = pc := rfl
@[simp] theorem goto_events (s : State) (pc : Pc) : (s.goto pc).events = s.events := rfl

/-! ### One kind of step each -/

theorem writeStep_some {i : Nat} (h : writeStep s i = some t) :
    ∃ w rest, s.calls[i]? = some (w :: rest) ∧ t = { s.perform w with calls := s.calls.set i rest } := by
  unfold writeStep at h
  split at h
  · rename_i w rest read
    exact ⟨w, rest, read, (Option.some.inj h).symm⟩
  · contradiction

theorem tick_guided (h : step p s .tick = some t) : Guided s t .tick := by
  simp only [step] at h
  split at h
  · rename_i loop
    exact .tick loop (Option.some.inj h).symm
  · contradiction

theorem configuredStep_guided {ok : Bool} (h : configuredStep s ok = some t) : Guided s t (.configured ok) := by
  unfold configuredStep at h
  split at h
  · rename_i caller component section_ rest pc
    exact .configured ok caller component section_ rest pc (Option.some.inj h).symm
  · contradiction

theorem ordered_iff {priority : Instance → Int} {order instances : List Instance} :
    ordered priority order instances = true ↔
      order.Perm instances ∧ order.Pairwise fun a b => priority a ≤ priority b := by
  unfold ordered
  rw [Bool.and_eq_true, decide_eq_true_eq, decide_eq_true_eq]

theorem sortStep_guided {order : List Instance} (h : sortStep s order = some t) : Guided s t (.sorted order) := by
  unfold sortStep at h
  split at h
  · rename_i caller phase pc
    split at h
    · rename_i some_
      obtain ⟨permuted, sorted⟩ := ordered_iff.mp some_.2
      exact .sorted order caller phase pc permuted sorted (Option.some.inj h).symm
    · contradiction
  · rename_i pc
    split at h
    · rename_i all
      obtain ⟨permuted, sorted⟩ := ordered_iff.mp all
      exact .stopSorted order pc permuted sorted (Option.some.inj h).symm
    · contradiction
  · contradiction

theorem perform_beside (s : State) (w : Write) (calls : List (List Write)) :
    Beside s { s.perform w with calls := calls } := by
  cases w <;> exact ⟨rfl, rfl, by simp [State.perform], by simp [State.perform], by simp [State.perform]⟩

/-! ### All of them -/

theorem step_cases (h : step p s a = some t) :
    (a.aside ∧ Beside s t) ∨ (a = .main ∧ mainStep p s = some t) ∨ Guided s t a := by
  cases a with
  | call c =>
    obtain rfl := Option.some.inj h
    exact Or.inl ⟨trivial, rfl, rfl, id, id, id⟩
  | write i =>
    obtain ⟨w, rest, read, rfl⟩ := writeStep_some h
    exact Or.inl ⟨trivial, perform_beside s w _⟩
  | registry dirty instances =>
    obtain rfl := Option.some.inj h
    exact Or.inl ⟨trivial, rfl, rfl, id, id, id⟩
  | tick => exact Or.inr (Or.inr (tick_guided h))
  | main => exact Or.inr (Or.inl ⟨rfl, h⟩)
  | configured ok => exact Or.inr (Or.inr (configuredStep_guided h))
  | sorted order => exact Or.inr (Or.inr (sortStep_guided h))

theorem advances_aside (advances : a.advances) : ¬ a.aside := by
  cases a <;> first | exact id | exact absurd advances id

/-- A statement of the main thread that is enabled lets the main thread advance. -/
theorem main_advances (enabled : (mainStep p s).isSome = true) : ∃ a t, a.advances ∧ step p s a = some t := by
  obtain ⟨t, h⟩ := Option.isSome_iff_exists.mp enabled
  exact ⟨.main, t, trivial, h⟩

theorem mainStep_effect (h : mainStep p s = some t) : Statement s t := by
  unfold mainStep at h
  split at h <;> rename_i pc
  all_goals try split at h
  all_goals first
    | contradiction
    | obtain rfl := Option.some.inj h
  case h_9.isFalse next other going =>
    refine ⟨⟨rfl, rfl, rfl⟩, fun _ => rfl, by rw [pc]; rfl, by rw [pc]; rfl, fun _ => rfl, ?_⟩
    cases next with
    | finishing => exact absurd rfl other
    | _ => simp [State.emitted, pc, going, State.emit]
  all_goals
    refine ⟨⟨rfl, rfl, rfl⟩, ?_, by rw [pc]; rfl, by rw [pc]; rfl, ?_, ?_⟩
    · first
        | exact fun _ => rfl
        | exact fun begun => absurd pc begun
    · first
        | exact fun _ => rfl
        | exact fun other => absurd pc other
    · simp_all [State.emitted, State.emit]

/-- A guided step writes nothing but events and the program counter. -/
theorem guided_moves (guided : Guided s t a) : ∃ es pc, t = { s with events := s.events ++ es, pc := pc } := by
  cases guided with
  | tick _ same => exact ⟨_, _, same⟩
  | configured ok caller component section_ rest _ same => exact ⟨_, _, same⟩
  | sorted order caller phase _ _ _ same => exact ⟨[], _, by rw [same, List.append_nil]; rfl⟩
  | stopSorted order _ _ _ same => exact ⟨[], _, by rw [same, List.append_nil]; rfl⟩

theorem guided_kept (guided : Guided s t a) : Kept s t := by
  obtain ⟨es, pc, rfl⟩ := guided_moves guided
  exact ⟨rfl, rfl, rfl⟩

theorem silent_kept (silent : a.silent = true) (h : step p s a = some t) : Kept s t := by
  rcases step_cases h with ⟨aside, _⟩ | ⟨_, main⟩ | guided
  · cases a with
    | registry dirty instances =>
      obtain rfl := Option.some.inj h
      exact ⟨rfl, rfl, rfl⟩
    | _ => contradiction
  · exact (mainStep_effect main).kept
  · exact guided_kept guided

/-- A call waits as it is until its own next write. -/
theorem call_waits {i : Nat} {ws : List Write} (h : step p s a = some t) (other : a ≠ .write i)
    (waiting : s.calls[i]? = some ws) : t.calls[i]? = some ws := by
  cases a with
  | write j =>
    obtain ⟨w, rest, _, rfl⟩ := writeStep_some h
    have different : j ≠ i := fun same => other (same ▸ rfl)
    show (s.calls.set j rest)[i]? = some ws
    rw [List.getElem?_set_ne different]
    exact waiting
  | call c =>
    obtain rfl := Option.some.inj h
    show (s.calls ++ [c.writes])[i]? = some ws
    rw [List.getElem?_append_left (List.getElem?_eq_some_iff.mp waiting).1]
    exact waiting
  | _ =>
    rw [(silent_kept rfl h).calls]
    exact waiting

end WfcCore.Core

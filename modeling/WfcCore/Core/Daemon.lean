import WfcCore.Config.Refinement
import WfcCore.Core.Reconfigure
import WfcCore.Core.Termination

/-!
# The daemon

`config` and the core together. `_mainconf` belongs to config and the core reads it there; a reload that stores it
calls `core_reconfigure`. The timers of both tick on their own.
-/

namespace WfcCore.Core

open Foundation Wfc Config

structure Daemon where
  config : Watch.State
  core : State

namespace Daemon

inductive Action where
  | config (a : Watch.Action)
  | core (a : Core.Action)

variable {ω : Type}

/-- The step that ends a reload and stores what it has read. -/
def reloads (x : External) (g : Global ω) (c : Watch.State) : Watch.Action → Bool
  | .main =>
    match c.pc with
    | .recording .reload confstr [] => (parseLoaded x g confstr).isSome
    | _ => false
  | _ => false

/-- `load_and_configure` has returned `true`, so that the core may run. -/
def loaded : Watch.Pc → Bool
  | .boot | .failed | .reading .loadAndConfigure | .recording .loadAndConfigure _ _ => false
  | _ => true

def isReload : Core.Action → Bool
  | .call (.reload _) => true
  | _ => false

def step (x : External) (g : Global ω) (path : String) (p : Program) (s : Daemon) : Action → Option Daemon
  | .config a =>
    (Watch.step x g path s.config a).map fun c =>
      { config := c
        core := { s.core with
          mainconf := c.config.mainconf
          calls := s.core.calls ++ if reloads x g s.config a then [Call.coreReconfigure.writes] else [] } }
  -- the reloads are those of config
  | .core a =>
    if loaded s.config.pc ∧ isReload a = false then (Core.step p s.core a).map fun c => { s with core := c } else none

def start (files : Files) (clock : Int) (restartFlag dirty : Bool) (instances : List Instance) : Daemon where
  config := Watch.initial files clock
  core := initial restartFlag [] dirty instances

/-- The main thread and the timer of the core go on. -/
def Action.drives : Action → Prop
  | .core a => a.drives
  | .config _ => False

/-- The thread of config and its timer go on. -/
def Action.watches : Action → Prop
  | .config .main | .config .tick => True
  | _ => False

/-- No file and no option changes, and no signal asks for a reload. -/
def Action.quiet : Action → Bool
  | .core _ | .config .main | .config .tick | .config (.clock _) => true
  | _ => false

variable {x : External} {g : Global ω} {path : String} {p : Program} {components : List String} {s t : Daemon}
  {a : Action}

theorem step_cases (h : step x g path p s a = some t) :
    (∃ b, a = .core b ∧ loaded s.config.pc ∧ isReload b = false ∧ Core.step p s.core b = some t.core ∧
        t.config = s.config) ∨
      ∃ b, a = .config b ∧ Watch.step x g path s.config b = some t.config ∧
        t.core = { s.core with
          mainconf := t.config.config.mainconf
          calls := s.core.calls ++ if reloads x g s.config b then [Call.coreReconfigure.writes] else [] } := by
  cases a with
  | config b =>
    obtain ⟨c, taken, rfl⟩ := Option.map_eq_some_iff.mp h
    exact Or.inr ⟨b, rfl, taken, rfl⟩
  | core b =>
    obtain ⟨⟨ready, own⟩, h⟩ := Option.ite_none_right_eq_some.mp h
    obtain ⟨c, taken, rfl⟩ := Option.map_eq_some_iff.mp h
    exact Or.inl ⟨b, rfl, ready, own, taken, rfl⟩

theorem step_moves (h : step x g path p s a = some t) : Moves p Daemon.core Action.drives s a t := by
  rcases step_cases h with ⟨b, rfl, _, _, taken, _⟩ | ⟨b, rfl, _, core⟩
  · exact Or.inl ⟨b, taken, Iff.rfl⟩
  · refine Or.inr ⟨id, ?_⟩
    rw [core]
    exact ⟨rfl, rfl, id, id, id⟩

/-! ### The configuration in between -/

section Watch

variable {c d : Watch.State} {b : Watch.Action}

/-- What a load leaves behind is stored by its last step. -/
theorem mainStep_mainconf (h : Watch.mainStep x g path c = some d) :
    d.config.mainconf = c.config.mainconf ∨ reloads x g c .main = true ∨ loaded c.pc = false := by
  unfold Watch.mainStep at h
  split at h <;> rename_i pc
  case h_4 load confstr =>
    obtain rfl := Option.some.inj h
    unfold Watch.finishLoad
    cases load with
    | loadAndConfigure => exact Or.inr (Or.inr (by rw [pc]; rfl))
    | showConfig => exact Or.inl rfl
    | reload =>
      cases parsed : parseLoaded x g confstr with
      | none => exact Or.inl rfl
      | some mainconf => exact Or.inr (Or.inl (by simp [reloads, pc, parsed]))
  case h_8 =>
    split at h
    · obtain rfl := Option.some.inj h
      exact Or.inl rfl
    · split at h <;> obtain rfl := Option.some.inj h <;> exact Or.inl rfl
  all_goals first
    | contradiction
    | (obtain rfl := Option.some.inj h; exact Or.inl rfl)

theorem step_mainconf (h : Watch.step x g path c b = some d) :
    d.config.mainconf = c.config.mainconf ∨ reloads x g c b = true ∨ loaded c.pc = false := by
  rcases Watch.step_outside h with ⟨rfl, main⟩ | outside
  · exact mainStep_mainconf main
  · cases outside <;> rename_i same <;> exact Or.inl (congrArg (fun d => d.config.mainconf) same)

/-- `start` of config has been called. -/
def started (pc : Watch.Pc) : Bool := loaded pc && pc != .configured

theorem mainStep_still (h : Watch.mainStep x g path c = some d) :
    d.files = c.files ∧ d.config.options = c.config.options ∧ (loaded c.pc = true → started d.pc = true) := by
  unfold Watch.mainStep at h
  split at h <;> rename_i pc
  case h_4 load confstr =>
    obtain rfl := Option.some.inj h
    unfold Watch.finishLoad
    rw [pc]
    cases load with
    | loadAndConfigure => cases parseLoaded x g confstr <;> exact ⟨rfl, rfl, fun ready => by contradiction⟩
    | _ => cases parseLoaded x g confstr <;> exact ⟨rfl, rfl, fun _ => rfl⟩
  case h_5 =>
    obtain rfl := Option.some.inj h
    refine ⟨rfl, rfl, fun _ => ?_⟩
    show started (if c.config.options.showConfig then _ else _) = true
    split <;> rfl
  case h_8 file rest =>
    split at h
    · obtain rfl := Option.some.inj h
      exact ⟨rfl, rfl, fun _ => rfl⟩
    · split at h <;> obtain rfl := Option.some.inj h <;> exact ⟨rfl, rfl, fun _ => rfl⟩
  all_goals first
    | contradiction
    | (obtain rfl := Option.some.inj h; rw [pc]; refine ⟨rfl, rfl, ?_⟩)
  case h_1 => exact fun ready => by contradiction
  case h_2 load => cases load <;> first | exact fun _ => rfl | exact fun ready => by contradiction
  case h_3 load _ _ _ => cases load <;> first | exact fun _ => rfl | exact fun ready => by contradiction
  case h_6 => exact fun _ => rfl
  case h_7 => exact fun _ => rfl

theorem step_loaded (h : Watch.step x g path c b = some d) (ready : loaded c.pc = true) : loaded d.pc = true := by
  rcases Watch.step_outside h with ⟨rfl, main⟩ | outside
  · have begun := (mainStep_still main).2.2 ready
    exact (Bool.and_eq_true_iff.mp begun).1
  · cases outside with
    | tick _ _ same => rw [same]; rfl
    | sighup _ _ same => rw [same]; rfl
    | reconfigured _ same => rw [same]; exact ready
    | write _ _ same => rw [same]; exact ready
    | clock _ same => rw [same]; exact ready

end Watch

/-! ### What is on its way -/

def Pending (c : State) : Prop := ∃ (i : Nat) (rest : List Write), c.calls[i]? = some (.reconfigureFlag :: rest)

/-- No call has a configuration of its own to store. -/
def Storeless (calls : List (List Write)) : Prop := ∀ ws ∈ calls, ∀ conf, Write.mainconf conf ∉ ws

structure Linked (s : Daemon) : Prop where
  mainconf : s.core.mainconf = s.config.config.mainconf
  waits : loaded s.config.pc = false → s.core.pc = .run
  calls : Storeless s.core.calls
  leaves : s.core.pc.leaves = true → s.core.stopFlag = true
  ordered : Watch.Ordered s.config

/-- Why a component may not have its present section yet. -/
def Coming (components : List String) (c : State) : Prop :=
  c.abortFlag = true ∨ c.reconfigureFlag = true ∨ Pending c ∨ Settling components c

section Core

variable {c d : State} {b : Core.Action}

theorem storeless_step (h : Core.step p c b = some d) (own : isReload b = false) (storeless : Storeless c.calls) :
    Storeless d.calls ∧ d.mainconf = c.mainconf := by
  cases b with
  | call call =>
    obtain rfl := Option.some.inj h
    refine ⟨fun ws member conf => ?_, rfl⟩
    rcases List.mem_append.mp member with known | new
    · exact storeless ws known conf
    · obtain rfl := List.mem_singleton.mp new
      cases call <;> first | contradiction | simp [Call.writes]
  | write i =>
    obtain ⟨w, rest, read, rfl⟩ := writeStep_some h
    have whole := storeless _ (List.mem_of_getElem? read)
    refine ⟨fun ws member conf => ?_, ?_⟩
    · rcases List.mem_or_eq_of_mem_set member with known | rfl
      · exact storeless ws known conf
      · exact fun stores => whole conf (List.mem_cons_of_mem _ stores)
    · cases w with
      | mainconf conf => exact absurd List.mem_cons_self (whole conf)
      | _ => rfl
  | _ =>
    have kept := silent_kept rfl h
    exact ⟨kept.calls ▸ storeless, kept.mainconf⟩

theorem coming_core (h : Core.step ⟨components, true⟩ c b = some d) (own : isReload b = false)
    (storeless : Storeless c.calls) (coming : Coming components c) : Coming components d := by
  rcases coming with aborted | raised | ⟨i, rest, waiting⟩ | settling
  · exact Or.inl ((step_effect h).abort aborted)
  · by_cases clears : b = .main ∧ c.pc = .idleClear
    · obtain ⟨rfl, pc⟩ := clears
      simp only [Core.step, mainStep, pc] at h
      obtain rfl := Option.some.inj h
      exact Or.inr (Or.inr (Or.inr trivial))
    · exact Or.inr (Or.inl (reconfigureFlag_kept h clears raised))
  · by_cases write : b = .write i
    · obtain rfl := write
      obtain ⟨w, more, read, rfl⟩ := writeStep_some h
      obtain rfl := (List.cons.inj (Option.some.inj (read.symm.trans waiting))).1
      exact Or.inr (Or.inl rfl)
    · exact Or.inr (Or.inr (Or.inl ⟨i, rest, call_waits h write waiting⟩))
  · rcases settling_step h (storeless_step h own storeless).2 settling with settled | aborted
    · exact Or.inr (Or.inr (Or.inr settled))
    · exact Or.inl aborted

end Core

theorem linked_start (files : Files) (clock : Int) (restartFlag dirty : Bool) (instances : List Instance) :
    Linked (start files clock restartFlag dirty instances) where
  mainconf := rfl
  waits := fun _ => rfl
  calls := by simp [Storeless, start, initial]
  leaves := fun leaves => by contradiction
  ordered := Watch.ordered_initial files clock

theorem linked_step (linked : Linked s) (h : step x g path p s a = some t) : Linked t := by
  rcases step_cases h with ⟨b, rfl, ready, own, taken, same⟩ | ⟨b, rfl, taken, core⟩
  · obtain ⟨storeless, mainconf⟩ := storeless_step taken own linked.calls
    refine ⟨?_, ?_, storeless, leaves_step linked.leaves taken, same ▸ linked.ordered⟩
    · rw [mainconf, same]
      exact linked.mainconf
    · rw [same, ready]
      exact fun contra => by contradiction
  · refine ⟨by rw [core], ?_, ?_, ?_, Watch.ordered_step linked.ordered taken⟩
    · intro before
      rw [core]
      apply linked.waits
      by_contra ready
      rw [step_loaded taken (by simpa using ready)] at before
      contradiction
    · rw [core]
      intro ws member conf
      rcases List.mem_append.mp member with known | new
      · exact linked.calls ws known conf
      · split at new
        · obtain rfl := List.mem_singleton.mp new
          simp [Call.writes]
        · contradiction
    · rw [core]
      exact linked.leaves

theorem call_kept {i : Nat} {ws : List Write} (h : step x g path p s a = some t) (other : a ≠ .core (.write i))
    (waiting : s.core.calls[i]? = some ws) : t.core.calls[i]? = some ws := by
  rcases step_cases h with ⟨b, rfl, _, _, taken, _⟩ | ⟨b, rfl, _, core⟩
  · exact call_waits taken (fun same => other (same ▸ rfl)) waiting
  · rw [core]
    show (s.core.calls ++ _)[i]? = some ws
    rw [List.getElem?_append_left (List.getElem?_eq_some_iff.mp waiting).1]
    exact waiting

theorem coming_step (linked : Linked s) (h : step x g path ⟨components, true⟩ s a = some t)
    (coming : Coming components s.core) : Coming components t.core := by
  rcases step_cases h with ⟨b, rfl, _, own, taken, _⟩ | ⟨b, rfl, taken, core⟩
  · exact coming_core taken own linked.calls coming
  · rcases step_mainconf taken with same | stored | before
    · have mainconf : t.core.mainconf = s.core.mainconf := by rw [core, linked.mainconf, ← same]
      rcases coming with aborted | raised | ⟨i, rest, waiting⟩ | settling
      · exact Or.inl (by rw [core]; exact aborted)
      · exact Or.inr (Or.inl (by rw [core]; exact raised))
      · exact Or.inr (Or.inr (Or.inl ⟨i, rest, call_kept h (fun write => by cases write) waiting⟩))
      · exact Or.inr (Or.inr (Or.inr (settling_congr (by rw [core]) mainconf (by rw [core]) settling)))
    · refine Or.inr (Or.inr (Or.inl ⟨s.core.calls.length, [], ?_⟩))
      rw [core, stored]
      exact List.getElem?_concat_length
    · have pc : t.core.pc = .run := by
        rw [core]
        exact linked.waits before
      exact Or.inr (Or.inr (Or.inr (by simp [Settling, pc])))

end Daemon

end WfcCore.Core

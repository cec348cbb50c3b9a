import WfcCore.Core.Calls

/-!
# What the exit code tells

`core::run` answers -1 when it finds `_restart_flag` up after the main loop. The constructor leaves that
flag unset, and `core_restart` raises it after `_stop_flag`, which is what ends the loop.
-/

namespace WfcCore.Core

open Foundation Wfc

def Call.isRestart : Call → Bool
  | .coreRestart => true
  | _ => false

/-- The run `before ++ .main :: after` ends with the reading of `_restart_flag` and answers `code`. In the
statement after `before`, the tick that ends the main loop reads `_stop_flag` as raised. -/
structure EndsWith (p : Program) (s₀ : State) (before after : List Action) (code : Int) : Prop where
  ticks : ∃ m, exec (step p) s₀ before = some m ∧ m.pc = .idleStop ∧ m.stopFlag = true
  reads : ∃ s t, exec (step p) s₀ (before ++ .main :: after) = some s ∧ s.pc = .result ∧
    step p s .main = some t ∧ t.pc = .returned code

/-- The run has a request to stop, and all its requests to stop are restarts. -/
def OnlyRestarts (as : List Action) : Prop :=
  (∃ c ∈ callsOf as, c.isRestart = true) ∧ ∀ c ∈ callsOf as, c.requestsStop = true → c.isRestart = true

def NoRestart (as : List Action) : Prop :=
  ∀ c ∈ callsOf as, c.isRestart = false

/-- The exit code tells a run that only restarts ended from a run without a restart. -/
structure Tells (before after : List Action) (code : Int) : Prop where
  restarted : OnlyRestarts before → code = -1
  stopped : NoRestart (before ++ .main :: after) → code = 0

/-- What the memory of `_restart_flag` held when the constructor left it, and which writes were made. -/
structure FlagTells (restartFlag : Bool) (before after : List Action) : Prop where
  restarted : OnlyRestarts before → restartFlag = true ∨ Written .restartFlag (before ++ .main :: after)
  stopped : NoRestart (before ++ .main :: after) → restartFlag = false

variable {p : Program} {s t : State} {as : List Action}

/-- `_restart_flag` is up if it was up from the start or a call has raised it. -/
theorem restartFlag_iff {restartFlag dirty : Bool} {mainconf : Configuration} {instances : List Instance}
    (run : exec (step p) (initial restartFlag mainconf dirty instances) as = some s) :
    s.restartFlag = true ↔ restartFlag = true ∨ Written .restartFlag as :=
  flag_iff_written State.restartFlag .restartFlag rfl (fun s v => by cases v <;> simp [State.perform])
    (fun _ _ => rfl) (fun _ _ _ silent h => (silent_kept silent h).restartFlag) run

theorem written_restart (written : Written .restartFlag as) : ¬ NoRestart as := by
  obtain ⟨i, c, found, member⟩ := written
  intro none
  have called := none c (List.mem_of_getElem? found)
  have writes : Write.restartFlag ∈ c.writes := List.mem_of_mem_take member
  cases c <;> simp [Call.writes, Call.isRestart] at called writes

theorem mainStep_result {code : Int} (pc : s.pc = .result) (h : step p s .main = some t)
    (returned : t.pc = .returned code) : code = if s.restartFlag then -1 else 0 := by
  simp only [step, mainStep, pc, Option.some.injEq] at h
  obtain rfl := h
  exact (Pc.returned.inj returned).symm

/-- The exit code tells a restart from a stop exactly if the memory of the flag and the writes do. -/
theorem exit_code_iff (p : Program) (restartFlag : Bool) (mainconf : Configuration) (dirty : Bool)
    (instances : List Instance) (before after : List Action) (code : Int)
    (ends : EndsWith p (initial restartFlag mainconf dirty instances) before after code) :
    Tells before after code ↔ FlagTells restartFlag before after := by
  obtain ⟨s, t, run, pc, h, returned⟩ := ends.reads
  have flag := restartFlag_iff run
  have value := mainStep_result pc h returned
  constructor
  · intro tells
    constructor
    · intro only
      apply flag.mp
      have answer := tells.restarted only
      rw [value] at answer
      cases up : s.restartFlag with
      | true => rfl
      | false =>
        rw [up] at answer
        contradiction
    · intro none
      have answer := tells.stopped none
      cases up : restartFlag with
      | false => rfl
      | true =>
        rw [value, flag.mpr (Or.inl up)] at answer
        contradiction
  · intro tells
    constructor
    · intro only
      rw [value, flag.mpr (tells.restarted only)]
      rfl
    · intro none
      have down : s.restartFlag = false := by
        rw [← Bool.not_eq_true, flag]
        rintro (up | written)
        · rw [tells.stopped none] at up
          contradiction
        · exact written_restart written none
      rw [value, down]
      rfl

/-- A run without components and instances, up to the tick that reads `_stop_flag` as raised by the first
write of `c`. -/
def bareRun (c : Call) : List Action :=
  List.replicate 14 .main ++ [.call c, .write 0, .tick, .main]

def bareEnd : List Action := [.main, .main, .sorted [], .main, .main]

theorem exit_code_restart : Tells (bareRun .coreRestart) (.write 0 :: bareEnd) (-1) ↔
    FlagTells false (bareRun .coreRestart) (.write 0 :: bareEnd) :=
  exit_code_iff ⟨[], true⟩ false [] false [] _ _ _
    ⟨⟨_, rfl, rfl, rfl⟩, ⟨_, _, rfl, rfl, rfl, rfl⟩⟩

/-- A plain stop answers -1 when the memory of the flag held true, and a restart answers 0 when its
second write comes after the main thread has read the flag. -/
theorem exit_code_confused :
    (EndsWith ⟨[], true⟩ (initial true [] false []) (bareRun .coreStop) bareEnd (-1) ∧
      ¬ Tells (bareRun .coreStop) bareEnd (-1)) ∧
    (EndsWith ⟨[], true⟩ (initial false [] false []) (bareRun .coreRestart) bareEnd 0 ∧
      ¬ Tells (bareRun .coreRestart) bareEnd 0) := by
  refine ⟨⟨⟨⟨_, rfl, rfl, rfl⟩, ⟨_, _, rfl, rfl, rfl, rfl⟩⟩, fun tells => ?_⟩,
    ⟨⟨⟨_, rfl, rfl, rfl⟩, ⟨_, _, rfl, rfl, rfl, rfl⟩⟩, fun tells => ?_⟩⟩
  · have answer := tells.stopped (by simp [NoRestart, callsOf, bareRun, bareEnd, Call.isRestart])
    contradiction
  · have answer := tells.restarted
      ⟨⟨.coreRestart, by simp [callsOf, bareRun], rfl⟩, by simp [callsOf, bareRun, Call.isRestart]⟩
    contradiction

end WfcCore.Core

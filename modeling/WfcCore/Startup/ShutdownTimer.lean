import WfcCore.Startup.Restart

/-!
# The shutdown timer of a restarted worker

The handlers of `after_start` fire in the order they were inserted. `init_shutdown_timer_` reads the shutdown
time and the handler of the second `autoup` callback clears it, but the first is inserted before `autoup` is
called. What the handlers write to the log is left out.
-/

namespace WfcCore.Startup

open Foundation Wfc Config

/-- What the handlers post to the common workflow. -/
inductive Post where
  | initWorkingTimer (time : String)
  | restart (workingTime : String)
  | exit (workingTime : String)
deriving DecidableEq

structure Fired where
  pa : ProgramArguments
  posted : List Post

def initWorkingTimer (pa : ProgramArguments) : Post :=
  if pa.restartByTimer then .restart pa.workingTime else .exit pa.workingTime

def initShutdownTimer (f : Fired) : Fired :=
  if f.pa.shutdownTime ≠ "" then { f with posted := f.posted ++ [.initWorkingTimer f.pa.shutdownTime] }
  else if f.pa.workingTime ≠ "" then { f with posted := f.posted ++ [initWorkingTimer f.pa] }
  else f

def resetShutdownTime (f : Fired) : Fired :=
  if f.pa.shutdownTime ≠ "" then { f with pa := { f.pa with shutdownTime := "" } } else f

def handle (f : Fired) : AfterStart → Fired
  | .initShutdownTimer => initShutdownTimer f
  | .restarted _ => resetShutdownTime f
  | .daemonized => f
  | .processIdentifier _ => f
  | .dumpable _ => f

/-- Every handler returns false, so each of them is called once. -/
def fire (d : Domain) : Fired := d.afterStart.foldl handle ⟨d.pa, []⟩

variable {lib : Libraries} {x : External} {sys : System} {files : Files} {g : Global Map2} {helpstring : String}
  {cl : CommandLine} {r : Restart} {d e w : Domain}

theorem initShutdownTimer_posted (f : Fired) : f.posted <+: (initShutdownTimer f).posted := by
  unfold initShutdownTimer
  split
  · exact List.prefix_append ..
  · split
    · exact List.prefix_append ..
    · exact List.prefix_rfl

theorem resetShutdownTime_posted (f : Fired) : (resetShutdownTime f).posted = f.posted := by
  unfold resetShutdownTime
  split <;> rfl

theorem handle_posted (f : Fired) (h : AfterStart) : f.posted <+: (handle f h).posted := by
  cases h with
  | initShutdownTimer => exact initShutdownTimer_posted f
  | restarted r => exact ⟨[], by rw [handle, resetShutdownTime_posted, List.append_nil]⟩
  | daemonized => exact List.prefix_rfl
  | processIdentifier pid => exact List.prefix_rfl
  | dumpable enable => exact List.prefix_rfl

/-- What one handler has posted, no later one takes back. -/
theorem foldl_handle_posted (handlers : List AfterStart) (f : Fired) :
    f.posted <+: (handlers.foldl handle f).posted := by
  induction handlers generalizing f with
  | nil => exact List.prefix_rfl
  | cons h rest ih => exact (handle_posted f h).trans (ih (handle f h))

theorem fire_initShutdownTimer {later : List AfterStart} (first : d.afterStart = .initShutdownTimer :: later)
    (time : d.pa.shutdownTime ≠ "") : .initWorkingTimer d.pa.shutdownTime ∈ (fire d).posted := by
  rw [fire, first, List.foldl_cons]
  apply (foldl_handle_posted later _).subset
  rw [handle, initShutdownTimer, if_pos time]
  exact List.mem_append_right _ (List.mem_singleton_self _)

/-! ### From the command line to the handlers -/

theorem performStart_handlers (idle : d.ready = false) (autoup : d.pa.autoup = true)
    (ready : (performStart x sys (.restarted r) files d).1.ready = true) :
    (performStart x sys (.restarted r) files d).1.pa.shutdownTime = d.pa.shutdownTime ∧
      ∃ later, (performStart x sys (.restarted r) files d).1.afterStart =
        d.afterStart ++ .initShutdownTimer :: later := by
  obtain ⟨e, pidFile, before, asleep, forked⟩ := performStart_forked idle autoup ready
  have left := beforeAutoup_ok before
  obtain ⟨daemonized, handlers⟩ := left.afterStart
  rw [forked] at ready ⊢
  have entered := enterWorker_ready asleep ready
  rw [entered.pa, entered.afterStart]
  have kept : e.pa.shutdownTime = d.pa.shutdownTime := congrArg ProgramArguments.shutdownTime left.pa
  refine ⟨kept, ?_⟩
  refine ⟨daemonized ++ .restarted r :: [.processIdentifier sys.getpid, .dumpable e.pa.coredump], ?_⟩
  show (e.afterStart ++ [.restarted r]) ++ _ = _
  rw [handlers]
  show ((d.afterStart ++ [.initShutdownTimer] ++ daemonized) ++ [.restarted r]) ++ _ = _
  simp only [List.append_assoc, List.cons_append, List.nil_append]
  rfl

theorem restartedWorker_handlers (restartedTo : restartedWorker lib x sys files g helpstring cl r = some w) :
    w.pa.shutdownTime = (parseArguments lib cl).shutdownTime ∧
      ∃ later, w.afterStart = .initShutdownTimer :: later := by
  obtain ⟨autoup, ready, rfl⟩ := restartedWorker_started restartedTo
  exact performStart_handlers rfl autoup ready

/-- Whichever restart it is, the restarted worker arms the timer before it clears the shutdown time. -/
theorem restartedWorker_arms (time : (parseArguments lib cl).shutdownTime ≠ "")
    (restartedTo : restartedWorker lib x sys files g helpstring cl r = some w) :
    .initWorkingTimer (parseArguments lib cl).shutdownTime ∈ (fire w).posted := by
  obtain ⟨kept, later, first⟩ := restartedWorker_handlers restartedTo
  rw [← kept] at time ⊢
  exact fire_initShutdownTimer first time

/-- `daemon -C conf/daemon.conf -a 60 -T 22:00:00`. -/
def nightly : CommandLine :=
  firstStart "/usr/bin/daemon" false { ModeOptions.default with config := "conf/daemon.conf" }
    { StartOptions.default with autoup := "60", shutdownTime := "22:00:00" } [] []

def nightlyWorker : Option Domain :=
  restartedWorker .absolute Reload.leveled .obliging (Reload.levelFiles "a.ini" "1") (.new default default Reload.logging)
    "" nightly ⟨1, 0, 100⟩

theorem restartedWorker_arms_nightly :
    ∃ w, nightlyWorker = some w ∧ .initWorkingTimer "22:00:00" ∈ (fire w).posted := by
  obtain ⟨w, worker⟩ := Option.isSome_iff_exists.mp (show nightlyWorker.isSome = true by decide)
  have time : (parseArguments .absolute nightly).shutdownTime ≠ "" := by decide
  exact ⟨w, worker, restartedWorker_arms time worker⟩

theorem nightly_armed : ¬ ∀ (lib : Libraries) (x : External) (sys : System) (files : Files) (g : Global Map2)
    (helpstring : String) (cl : CommandLine) (r : Restart) (w : Domain),
    (parseArguments lib cl).shutdownTime ≠ "" → restartedWorker lib x sys files g helpstring cl r = some w →
      .initWorkingTimer (parseArguments lib cl).shutdownTime ∉ (fire w).posted := by
  intro h
  obtain ⟨w, worker⟩ := Option.isSome_iff_exists.mp (show nightlyWorker.isSome = true by decide)
  have posted : nightlyWorker.map (fun w => (fire w).posted) = some [.initWorkingTimer "22:00:00"] := by decide
  rw [worker, Option.map_some] at posted
  apply h .absolute Reload.leveled .obliging _ _ "" nightly ⟨1, 0, 100⟩ w (by decide) worker
  rw [Option.some.inj posted]
  decide

end WfcCore.Startup

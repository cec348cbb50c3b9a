import WfcCore.Config.Reload
import WfcCore.Startup.Startup

/-!
# Restart by autoup

What a worker that `autoup` restarts has kept of the options for the first start only. The second callback
clears the startup options and the startup ini files, but `g->ini` and the configuration were filled from them
before `autoup` was called.
-/

namespace WfcCore.Startup

open Foundation Wfc Config

def firstStart (argv0 : String) (bare : Bool) (mode : ModeOptions) (o : StartOptions)
    (startupOptions startupIni : List String) : CommandLine where
  argv0 := argv0
  bare := bare
  options := .ok (mode, { o with startupOptions := startupOptions, startupIni := startupIni })

/-- The worker of a restart, which is forked from the state at the call of `autoup`. -/
def restartedWorker (lib : Libraries) (x : External) (sys : System) (files : Files) (g : Global Map2)
    (helpstring : String) (cl : CommandLine) (r : Restart) : Option Domain :=
  let outcome := startup lib x sys (.restarted r) files g helpstring cl
  if (parseArguments lib cl).autoup ∧ outcome.domain.ready then some outcome.domain else none

def mainconfAfter (x : External) (files : Files) (w : Domain) (events : List Reload.Action) : Option Configuration :=
  (exec (Reload.step x w.global) ⟨files, w.config, true, []⟩ events).map (·.config.mainconf)

structure SameFromNowOn (x : External) (files : Files) (w w' : Domain) : Prop where
  args : w.global.args = w'.global.args
  ini : w.global.ini = w'.global.ini
  mainconf : ∀ events, mainconfAfter x files w events = mainconfAfter x files w' events

variable {lib : Libraries} {x : External} {sys : System} {files : Files} {g : Global Map2} {helpstring : String}
  {cl : CommandLine} {r : Restart} {d e w : Domain}

def workingDirectory (sys : System) (pa : ProgramArguments) : String :=
  if pa.workingDirectory ≠ "" then pa.workingDirectory else sys.getWorkingDirectory

/-- The domain `e` at the call of `autoup`, when `d` has loaded its configuration. -/
structure BeforeAutoup (sys : System) (d e : Domain) : Prop where
  pa : e.pa = d.pa
  config : e.config = d.config
  ready : e.ready = d.ready
  global : e.global = { d.global with workingDirectory := workingDirectory sys d.pa }
  afterStart : ∃ daemonized, e.afterStart = d.afterStart ++ [.initShutdownTimer] ++ daemonized

theorem beforeAutoup_ok {pidFile : Int} (h : beforeAutoup sys d = .ok (e, pidFile)) : BeforeAutoup sys d e := by
  unfold beforeAutoup at h
  split at h
  · contradiction
  · dsimp only at h
    split at h
    · contradiction
    · split at h
      · contradiction
      · obtain ⟨rfl, _⟩ := Prod.mk.inj (Except.ok.inj h)
        exact ⟨rfl, rfl, rfl, rfl, _, rfl⟩

theorem beforeAutoup_error {code : Int} (h : beforeAutoup sys d = .error (e, code)) : e.ready = d.ready := by
  unfold beforeAutoup at h
  split at h
  · obtain ⟨rfl, _⟩ := Prod.mk.inj (Except.error.inj h)
    rfl
  · dsimp only at h
    split at h
    · obtain ⟨rfl, _⟩ := Prod.mk.inj (Except.error.inj h)
      rfl
    · split at h
      · obtain ⟨rfl, _⟩ := Prod.mk.inj (Except.error.inj h)
        rfl
      · contradiction

structure Works (x : External) (sys : System) (files : Files) (d w : Domain) : Prop where
  global : w.global = { d.global with
    ini := d.pa.iniList ++ d.pa.startupIniList
    workingDirectory := workingDirectory sys d.pa
    args := [[], d.pa.objectOptions] }
  config : w.config = (loadAndConfigure x { d.global with ini := d.pa.iniList ++ d.pa.startupIniList } files d.config
    d.pa.configPath).1

/-- The worker `e` that `d` becomes. -/
structure Entered (sys : System) (d e : Domain) : Prop where
  pa : e.pa = d.pa
  config : e.config = d.config
  global : e.global = { d.global with args := [d.pa.startupOptions, d.pa.objectOptions] }
  afterStart : e.afterStart = d.afterStart ++ [.processIdentifier sys.getpid, .dumpable d.pa.coredump]

theorem enterWorker_ready {pidFile : Int} (idle : d.ready = false) (ready : (enterWorker sys d pidFile).1.ready = true) :
    Entered sys d (enterWorker sys d pidFile).1 := by
  unfold enterWorker at ready ⊢
  split at ready
  · rw [idle] at ready
    contradiction
  · rename_i written
    rw [if_neg written]
    exact ⟨rfl, rfl, rfl, rfl⟩

theorem performStart_called {autoup : Autoup} (idle : d.ready = false)
    (ready : (performStart x sys autoup files d).1.ready = true) :
    ∃ e pidFile, beforeAutoup sys (loadStart x files d).1 = .ok (e, pidFile) ∧
      performStart x sys autoup files d = afterAutoup sys autoup e pidFile := by
  have kept : (loadStart x files d).1.ready = false := idle
  unfold performStart at ready ⊢
  dsimp only at ready ⊢
  split at ready
  · rw [kept] at ready
    contradiction
  · rename_i success
    rw [if_neg success]
    cases before : beforeAutoup sys (loadStart x files d).1 with
    | error returned =>
      obtain ⟨e, code⟩ := returned
      rw [before] at ready
      rw [← beforeAutoup_error before] at kept
      rw [kept] at ready
      contradiction
    | ok called => exact ⟨called.1, called.2, rfl, rfl⟩

/-- The domain at the call of `autoup`, in the process that a restart forks from it. -/
theorem performStart_forked (idle : d.ready = false) (autoup : d.pa.autoup = true)
    (ready : (performStart x sys (.restarted r) files d).1.ready = true) :
    ∃ e pidFile, beforeAutoup sys (loadStart x files d).1 = .ok (e, pidFile) ∧ (restarted r e).ready = false ∧
      performStart x sys (.restarted r) files d = enterWorker sys (restarted r e) pidFile := by
  obtain ⟨e, pidFile, before, after⟩ := performStart_called idle ready
  have left := beforeAutoup_ok before
  refine ⟨e, pidFile, before, left.ready.trans idle, ?_⟩
  rw [after, afterAutoup, if_pos (by rw [left.pa]; exact autoup)]

theorem performStart_restarted (idle : d.ready = false) (autoup : d.pa.autoup = true)
    (ready : (performStart x sys (.restarted r) files d).1.ready = true) :
    Works x sys files d (performStart x sys (.restarted r) files d).1 := by
  obtain ⟨e, pidFile, before, asleep, forked⟩ := performStart_forked idle autoup ready
  have left := beforeAutoup_ok before
  rw [forked] at ready ⊢
  have entered := enterWorker_ready asleep ready
  refine ⟨?_, ?_⟩
  · rw [entered.global]
    show { e.global with args := [[], e.pa.objectOptions] } = _
    rw [left.global, left.pa]
    rfl
  · rw [entered.config]
    show e.config = _
    rw [left.config]
    rfl

/-! ### The restarted worker of a command line -/

theorem startup_ready {autoup : Autoup} (ready : (startup lib x sys autoup files g helpstring cl).domain.ready = true) :
    (startup lib x sys autoup files g helpstring cl).domain =
      (performStart x sys autoup files (prepared lib x files g cl)).1 := by
  have idle : (prepared lib x files g cl).ready = false := rfl
  unfold startup at ready ⊢
  dsimp only at ready ⊢
  split at ready
  case h_11 => rfl
  case h_8 =>
    unfold generate at ready
    split at ready <;> contradiction
  all_goals contradiction

theorem restartedWorker_started (restartedTo : restartedWorker lib x sys files g helpstring cl r = some w) :
    (parseArguments lib cl).autoup = true ∧ w.ready = true ∧
      w = (performStart x sys (.restarted r) files (prepared lib x files g cl)).1 := by
  unfold restartedWorker at restartedTo
  dsimp only at restartedTo
  split at restartedTo
  · rename_i running
    obtain rfl := Option.some.inj restartedTo
    exact ⟨running.1, running.2, startup_ready running.2⟩
  · contradiction

theorem restartedWorker_works (restartedTo : restartedWorker lib x sys files g helpstring cl r = some w) :
    (parseArguments lib cl).autoup = true ∧ Works x sys files (prepared lib x files g cl) w := by
  obtain ⟨autoup, ready, rfl⟩ := restartedWorker_started restartedTo
  exact ⟨autoup, performStart_restarted rfl autoup ready⟩

variable {argv0 : String} {bare : Bool} {mode : ModeOptions} {o : StartOptions}

theorem autoup_parsed {startupOptions startupIni : List String}
    (autoup : (parseArguments lib (firstStart argv0 bare mode o startupOptions startupIni)).autoup = true) :
    ∃ timeout, autoupTimeout lib o.autoup = some timeout := by
  cases parsed : autoupTimeout lib o.autoup with
  | some timeout => exact ⟨timeout, rfl⟩
  | none =>
    simp only [parseArguments, firstStart, parsed] at autoup
    contradiction

theorem prepared_firstStart {timeout : Int} (parsed : autoupTimeout lib o.autoup = some timeout)
    (startupOptions startupIni : List String) :
    let base := prepared lib x files g (firstStart argv0 bare mode o [] [])
    prepared lib x files g (firstStart argv0 bare mode o startupOptions startupIni) =
      { base with
        pa := { base.pa with
          startupOptions := parseCustomOptions startupOptions
          startupIniList := startupIni } } := by
  simp only [prepared, parseArguments, firstStart, parsed]
  rfl

/-- Two restarted workers of command lines that differ only in the options for the first start are the same from
the restart on, whatever happens later, exactly if the startup ini lists are equal. -/
theorem first_start_cleaned_iff {startupOptions startupOptions' startupIni startupIni' : List String}
    {r r' : Restart} {w w' : Domain}
    (worker : restartedWorker lib x sys files g helpstring
      (firstStart argv0 bare mode o startupOptions startupIni) r = some w)
    (worker' : restartedWorker lib x sys files g helpstring
      (firstStart argv0 bare mode o startupOptions' startupIni') r' = some w') :
    SameFromNowOn x files w w' ↔ startupIni = startupIni' := by
  obtain ⟨autoup, works⟩ := restartedWorker_works worker
  obtain ⟨_, works'⟩ := restartedWorker_works worker'
  obtain ⟨timeout, parsed⟩ := autoup_parsed autoup
  have global := works.global
  have global' := works'.global
  have config := works.config
  have config' := works'.config
  rw [prepared_firstStart parsed] at global global' config config'
  constructor
  · intro same
    have ini := same.ini
    rw [global, global'] at ini
    exact List.append_cancel_left ini
  · rintro rfl
    have sameGlobal : w.global = w'.global := global.trans global'.symm
    have sameConfig : w.config = w'.config := config.trans config'.symm
    refine ⟨by rw [sameGlobal], by rw [sameGlobal], fun events => ?_⟩
    rw [mainconfAfter, mainconfAfter, sameGlobal, sameConfig]

/-! ### A daemon under autoup -/

/-- `daemon -C conf/daemon.conf -a 60`, where `daemon.conf` names `a.ini` with the log level 1. -/
def levelWorker (startupOptions startupIni : List String) : Option Domain :=
  restartedWorker .absolute Reload.leveled .obliging (Reload.levelFiles "a.ini" "1") (.new default default Reload.logging)
    "" (firstStart "/usr/bin/daemon" false { ModeOptions.default with config := "conf/daemon.conf" }
      { StartOptions.default with autoup := "60" } startupOptions startupIni) ⟨1, 0, 100⟩

theorem startup_options_cleaned :
    ∃ w w', levelWorker ["logger:level=2"] ["b.ini"] = some w ∧ levelWorker [] ["b.ini"] = some w' ∧
      SameFromNowOn Reload.leveled (Reload.levelFiles "a.ini" "1") w w' := by
  obtain ⟨w, worker⟩ := Option.isSome_iff_exists.mp
    (show (levelWorker ["logger:level=2"] ["b.ini"]).isSome = true by decide)
  obtain ⟨w', worker'⟩ := Option.isSome_iff_exists.mp (show (levelWorker [] ["b.ini"]).isSome = true by decide)
  exact ⟨w, w', worker, worker', (first_start_cleaned_iff worker worker').mpr rfl⟩

theorem startup_ini_survives :
    (levelWorker [] ["b.ini"]).map (fun w => (w.global.ini, getConfig "logger" w.config.mainconf)) =
        some (["b.ini"], Reload.loggerSection "2") ∧
      (levelWorker [] []).map (fun w => (w.global.ini, getConfig "logger" w.config.mainconf)) =
        some ([], Reload.loggerSection "1") ∧
      ∀ w w', levelWorker [] ["b.ini"] = some w → levelWorker [] [] = some w' →
        ¬ SameFromNowOn Reload.leveled (Reload.levelFiles "a.ini" "1") w w' := by
  have first : (levelWorker [] ["b.ini"]).map (fun w => (w.global.ini, getConfig "logger" w.config.mainconf)) =
      some (["b.ini"], Reload.loggerSection "2") := by decide
  have second : (levelWorker [] []).map (fun w => (w.global.ini, getConfig "logger" w.config.mainconf)) =
      some ([], Reload.loggerSection "1") := by decide
  refine ⟨first, second, fun w w' worker worker' same => ?_⟩
  rw [worker] at first
  rw [worker'] at second
  have ini : w.global.ini = ["b.ini"] := (Prod.mk.inj (Option.some.inj first)).1
  have ini' : w'.global.ini = [] := (Prod.mk.inj (Option.some.inj second)).1
  have := same.ini
  rw [ini, ini'] at this
  contradiction

end WfcCore.Startup

import Mathlib.Data.List.Induction
import WfcCore.Core.Machine
import WfcCore.Foundation.CInteger
import WfcCore.Foundation.Window

/-!
# The status log

`detail/status_log.hpp` and the functions of `core.cpp` that use it. Every call is given the readings of
the system clock that it makes, in order, and `get_status` also the list of active threads. The clock counts
nanoseconds in 64 bits, and what a program gives where a computation leaves these is a parameter.
`core::reconfigure` puts a new log in the place of the old one.
-/

namespace WfcCore.Core

open Foundation

inductive CoreStatus where
  | ok | warining | error | abort | hang
deriving DecidableEq

/-- Ticks of the system clock in a millisecond. -/
def ticksPerMs : Int := 1000000

/-- Nanoseconds since 1970. -/
abbrev TimePoint := IntType.longInt.Value

abbrev Overflow := IntType.longInt.Overflow

structure StatusItem where
  status : CoreStatus
  timePoint : TimePoint
  message : String
deriving DecidableEq

def StatusItem.ticks (item : StatusItem) : Int := item.timePoint.val

structure StatusLogOptions where
  hangTimeoutMs : Int
  errorsTtlMs : Int
  warningsTtlMs : Int
  errorsLimit : Nat
  warningsLimit : Nat

def StatusLogOptions.default : StatusLogOptions where
  hangTimeoutMs := 60000
  errorsTtlMs := 60000
  warningsTtlMs := 10000
  errorsLimit := 10
  warningsLimit := 100

/-- No stage is `core_stage::UNDEFINED`. -/
structure StatusLog where
  stage : Option CoreStage
  warnings : List StatusItem
  errors : List StatusItem
  fatals : List StatusItem

def StatusLog.new : StatusLog where
  stage := none
  warnings := []
  errors := []
  fatals := []

structure ActiveThread where
  name : String
  lastActive : TimePoint

abbrev Clock := Nat → TimePoint

/-- A clock that stands. -/
def Clock.still (n : Int) : Clock := fun _ => IntType.longInt.convert n

/-- `now - std::chrono::milliseconds(ms)`. The milliseconds are first made nanoseconds. -/
def ago (overflow : Overflow) (now : TimePoint) (ms : Int) : TimePoint :=
  IntType.longInt.compute overflow (now.val - (IntType.longInt.compute overflow (ms * ticksPerMs)).val)

abbrev StatusList := List (CoreStatus × String)

structure Status where
  status : CoreStatus
  stage : Option CoreStage
  statusList : StatusList

/-- The static `remove_expired_`: only the newest `limit` items stay, and of these the oldest go as long
as they are too old. -/
def removeExpiredList (overflow : Overflow) (sl : List StatusItem) (now : TimePoint) (lifetimeMs : Int) (limit : Nat) :
    List StatusItem :=
  (sl.drop (sl.length - limit)).dropWhile fun item => item.ticks < (ago overflow now lifetimeMs).val

def StatusLog.removeExpired (overflow : Overflow) (opt : StatusLogOptions) (log : StatusLog)
    (first second : TimePoint) : StatusLog :=
  { log with
    warnings := removeExpiredList overflow log.warnings first opt.warningsTtlMs opt.warningsLimit
    errors := removeExpiredList overflow log.errors second opt.errorsTtlMs opt.errorsLimit }

def StatusLog.push (log : StatusLog) (item : StatusItem) : StatusLog :=
  match item.status with
  | .warining => { log with warnings := log.warnings ++ [item] }
  | .error => { log with errors := log.errors ++ [item] }
  | .abort => { log with fatals := log.fatals ++ [item] }
  | .ok | .hang => log

def StatusLog.setStatus (overflow : Overflow) (opt : StatusLogOptions) (log : StatusLog) (st : CoreStatus)
    (msg : String) (clock : Clock) : StatusLog :=
  (log.push ⟨st, clock 0, msg⟩).removeExpired overflow opt (clock 1) (clock 2)

def StatusLog.setStage (log : StatusLog) (cs : Option CoreStage) : StatusLog := { log with stage := cs }

/-- The loop over the active threads. Each thread found hanging takes one more reading of the clock. -/
def hangList (overflow : Overflow) (clock : Clock) (hangTime : TimePoint) : List ActiveThread → Nat → StatusList
  | [], _ => []
  | itm :: rest, reading =>
    if itm.lastActive.val < hangTime.val then
      let hangTimeout := IntType.longInt.compute overflow ((clock reading).val - itm.lastActive.val)
      (.hang, itm.name ++ " timeout " ++ toString (hangTimeout.val.tdiv ticksPerMs) ++ "ms") ::
        hangList overflow clock hangTime rest (reading + 1)
    else hangList overflow clock hangTime rest reading

def hung (overflow : Overflow) (opt : StatusLogOptions) (active : List ActiveThread) (clock : Clock) : StatusList :=
  if 0 < opt.hangTimeoutMs then hangList overflow clock (ago overflow (clock 0) opt.hangTimeoutMs) active 1 else []

/-- How many readings of the clock come before those of `remove_expired_`. -/
def hungReadings (overflow : Overflow) (opt : StatusLogOptions) (active : List ActiveThread) (clock : Clock) : Nat :=
  if 0 < opt.hangTimeoutMs then 1 + (hung overflow opt active clock).length else 0

def listed (st : CoreStatus) (items : List StatusItem) : StatusList :=
  items.map fun item => (st, item.message)

/-- The worst of what is held, but errors and warnings count only when their list is full. -/
def StatusLog.worst (opt : StatusLogOptions) (log : StatusLog) (status : CoreStatus) : CoreStatus :=
  if log.fatals ≠ [] then .abort
  else if log.errors ≠ [] ∧ status = .ok ∧ log.errors.length = opt.errorsLimit then .error
  else if log.warnings ≠ [] ∧ status = .ok ∧ log.warnings.length = opt.warningsLimit then .warining
  else status

/-- The log that `get_status` leaves, and what it answers when `statusList` is passed in. -/
def StatusLog.getStatus (overflow : Overflow) (opt : StatusLogOptions) (log : StatusLog) (active : List ActiveThread)
    (clock : Clock) (statusList : StatusList) : StatusLog × Status :=
  let hangs := hung overflow opt active clock
  let readings := hungReadings overflow opt active clock
  let left := log.removeExpired overflow opt (clock readings) (clock (readings + 1))
  (left,
    { status := left.worst opt (if hangs = [] then .ok else .hang)
      stage := left.stage
      statusList := statusList ++ hangs ++ listed .abort left.fatals ++ listed .error left.errors ++
        listed .warining left.warnings })

namespace StatusLog

inductive Action where
  | setStatus (st : CoreStatus) (msg : String) (clock : Clock)
  | setStage (cs : Option CoreStage)
  | getStatus (active : List ActiveThread) (clock : Clock)
  | reconfigure

def Action.isReconfigure : Action → Bool
  | .reconfigure => true
  | _ => false

def perform (overflow : Overflow) (opt : StatusLogOptions) (log : StatusLog) : Action → StatusLog
  | .setStatus st msg clock => log.setStatus overflow opt st msg clock
  | .setStage cs => log.setStage cs
  | .getStatus active clock => (log.getStatus overflow opt active clock []).1
  | .reconfigure => .new

/-- The log after a run that begins with the log that the first `core::reconfigure` makes. -/
def logAfter (overflow : Overflow) (opt : StatusLogOptions) (as : List Action) : StatusLog :=
  as.foldl (perform overflow opt) .new

def withoutReconfigure (as : List Action) : List Action := as.filter fun a => !a.isReconfigure

/-- Whenever and however it is called, `get_status` returns the stage and the list of the other log. -/
def SameHealth (overflow : Overflow) (opt : StatusLogOptions) (log other : StatusLog) : Prop :=
  ∀ active clock statusList,
    (log.getStatus overflow opt active clock statusList).2.stage =
        (other.getStatus overflow opt active clock statusList).2.stage ∧
      (log.getStatus overflow opt active clock statusList).2.statusList =
        (other.getStatus overflow opt active clock statusList).2.statusList

variable {overflow : Overflow} {opt : StatusLogOptions} {log : StatusLog}

theorem logAfter_append (first : List Action) (a : Action) :
    logAfter overflow opt (first ++ [a]) = perform overflow opt (logAfter overflow opt first) a := by
  unfold logAfter
  rw [List.foldl_append]
  rfl

/-! ### Trimming twice -/

theorem removeExpiredList_eq_trim (sl : List StatusItem) (now : TimePoint) (lifetimeMs : Int) (limit : Nat) :
    removeExpiredList overflow sl now lifetimeMs limit =
      Window.trim StatusItem.ticks limit (ago overflow now lifetimeMs).val sl := rfl

/-- What trimming has left, trimming at the same reading leaves. -/
theorem removeExpiredList_twice (sl : List StatusItem) (now : TimePoint) (lifetimeMs : Int) (limit : Nat) :
    removeExpiredList overflow (removeExpiredList overflow sl now lifetimeMs limit) now lifetimeMs limit =
      removeExpiredList overflow sl now lifetimeMs limit :=
  Window.trim_trim _ _

/-- Each list was last trimmed at some reading of the clock. -/
structure Trimmed (overflow : Overflow) (opt : StatusLogOptions) (log : StatusLog) : Prop where
  warnings : ∃ now, removeExpiredList overflow log.warnings now opt.warningsTtlMs opt.warningsLimit = log.warnings
  errors : ∃ now, removeExpiredList overflow log.errors now opt.errorsTtlMs opt.errorsLimit = log.errors

theorem new_trimmed : Trimmed overflow opt .new :=
  ⟨⟨IntType.longInt.convert 0, Window.trim_nil _⟩, ⟨IntType.longInt.convert 0, Window.trim_nil _⟩⟩

theorem removeExpired_trimmed (log : StatusLog) (first second : TimePoint) :
    Trimmed overflow opt (log.removeExpired overflow opt first second) :=
  ⟨⟨first, removeExpiredList_twice _ _ _ _⟩, ⟨second, removeExpiredList_twice _ _ _ _⟩⟩

theorem perform_trimmed {a : Action} (trimmed : Trimmed overflow opt log) :
    Trimmed overflow opt (perform overflow opt log a) := by
  cases a with
  | setStatus st msg clock => exact removeExpired_trimmed _ _ _
  | setStage cs => exact ⟨trimmed.warnings, trimmed.errors⟩
  | getStatus active clock => exact removeExpired_trimmed _ _ _
  | reconfigure => exact new_trimmed

theorem logAfter_trimmed (overflow : Overflow) (opt : StatusLogOptions) (as : List Action) :
    Trimmed overflow opt (logAfter overflow opt as) := by
  induction as using List.reverseRecOn with
  | nil => exact new_trimmed
  | append_singleton first a ih =>
    rw [logAfter_append]
    exact perform_trimmed ih

/-! ### What `get_status` can tell -/

/-- A log that is told from a new one by nothing is new. -/
theorem new_of_sameHealth (trimmed : Trimmed overflow opt log) (same : SameHealth overflow opt log .new) :
    log = .new := by
  obtain ⟨warningsRead, warningsLeft⟩ := trimmed.warnings
  obtain ⟨errorsRead, errorsLeft⟩ := trimmed.errors
  have quiet (clock : Clock) : hung overflow opt [] clock = [] := by
    unfold hung
    split <;> rfl
  -- With no active thread the two lists are trimmed by readings whose places are known.
  obtain ⟨before, readings⟩ : ∃ before, ∀ clock, hungReadings overflow opt [] clock = before := by
    refine ⟨if 0 < opt.hangTimeoutMs then 1 else 0, fun clock => ?_⟩
    rw [hungReadings, quiet, List.length_nil]
  obtain ⟨stage, list⟩ := same [] (fun reading => if reading = before then warningsRead else errorsRead) []
  simp only [StatusLog.getStatus, quiet, readings, if_true, Nat.succ_ne_self, if_false] at stage list
  have left : log.removeExpired overflow opt warningsRead errorsRead = log := by
    unfold StatusLog.removeExpired
    rw [warningsLeft, errorsLeft]
  rw [left] at stage list
  have nothing : listed .abort log.fatals ++ (listed .error log.errors ++ listed .warining log.warnings) = [] := by
    simpa [listed, StatusLog.removeExpired, removeExpiredList, StatusLog.new] using list
  obtain ⟨fatals, rest⟩ := List.append_eq_nil_iff.mp nothing
  obtain ⟨errors, warnings⟩ := List.append_eq_nil_iff.mp rest
  cases log
  simp only [listed, List.map_eq_nil_iff] at fatals errors warnings
  obtain rfl := fatals
  obtain rfl := errors
  obtain rfl := warnings
  obtain rfl := stage
  rfl

/-! ### Reconfiguring -/

theorem sameHealth_refl (overflow : Overflow) (opt : StatusLogOptions) (log : StatusLog) :
    SameHealth overflow opt log log :=
  fun _ _ _ => ⟨rfl, rfl⟩

theorem withoutReconfigure_skip (first : List Action) :
    withoutReconfigure (first ++ [.reconfigure]) = withoutReconfigure first := by
  unfold withoutReconfigure
  rw [List.filter_append]
  exact List.append_nil _

theorem withoutReconfigure_keep {a : Action} (first : List Action) (keep : a.isReconfigure = false) :
    withoutReconfigure (first ++ [a]) = withoutReconfigure first ++ [a] := by
  unfold withoutReconfigure
  rw [List.filter_append]
  simp [keep]

/-- While every `core::reconfigure` finds a new log, leaving them out changes nothing. -/
theorem logAfter_without {as : List Action}
    (fresh : ∀ before, before ++ [.reconfigure] <+: as → logAfter overflow opt before = .new) :
    logAfter overflow opt (withoutReconfigure as) = logAfter overflow opt as := by
  induction as using List.reverseRecOn with
  | nil => rfl
  | append_singleton first a ih =>
    have before := ih fun before isPrefix => fresh before (isPrefix.trans (List.prefix_append first [a]))
    cases a with
    | reconfigure =>
      rw [withoutReconfigure_skip, before, logAfter_append]
      exact fresh first (List.prefix_refl _)
    | _ => rw [withoutReconfigure_keep first rfl, logAfter_append, logAfter_append, before]

/-- `get_status` answers as in the run without the reconfigurations, after every part of the run, exactly
if each of them finds a log with no stage set and nothing held. -/
theorem health_kept_iff (overflow : Overflow) (opt : StatusLogOptions) (as : List Action) :
    (∀ before, before <+: as →
      SameHealth overflow opt (logAfter overflow opt before) (logAfter overflow opt (withoutReconfigure before))) ↔
      ∀ before, before ++ [.reconfigure] <+: as → logAfter overflow opt before = .new := by
  constructor
  · intro same before isPrefix
    have after := same _ isPrefix
    rw [logAfter_append, withoutReconfigure_skip] at after
    have lost : SameHealth overflow opt (logAfter overflow opt (withoutReconfigure before)) .new := by
      intro active clock statusList
      obtain ⟨stage, list⟩ := after active clock statusList
      exact ⟨stage.symm, list.symm⟩
    have bare := new_of_sameHealth (logAfter_trimmed overflow opt _) lost
    have now := same before ((List.prefix_append before [.reconfigure]).trans isPrefix)
    rw [bare] at now
    exact new_of_sameHealth (logAfter_trimmed overflow opt _) now
  · intro fresh before isPrefix
    rw [logAfter_without fun first earlier => fresh first (earlier.trans isPrefix)]
    exact sameHealth_refl overflow opt _

/-- While the components are configured one of them reports an error, and then the core is configured. -/
def reportedEarly : List Action :=
  [.setStage (some .configuring), .setStatus .error "disk is full" (.still 0), .reconfigure]

theorem health_forgotten :
    let wrap : Overflow := IntType.longInt.convert
    (let answer := ((logAfter wrap .default reportedEarly).getStatus wrap .default [] (.still 0) []).2
     answer.stage = none ∧ answer.statusList = []) ∧
    (let kept := logAfter wrap .default (withoutReconfigure reportedEarly)
     let answer := (kept.getStatus wrap .default [] (.still 0) []).2
     answer.stage = some .configuring ∧ answer.statusList = [(.error, "disk is full")]) ∧
    ¬ ∀ before, before <+: reportedEarly →
      SameHealth wrap .default (logAfter wrap .default before)
        (logAfter wrap .default (withoutReconfigure before)) := by
  intro wrap
  refine ⟨by decide, by decide, fun same => ?_⟩
  have stage := (same reportedEarly (List.prefix_refl _) [] (.still 0) []).1
  contradiction

end StatusLog

end WfcCore.Core

import WfcCore.Core.SlidingWindow
import WfcCore.Prometheus.Scrape

/-!
# What the gauges tell of the reports

The status log and the gauges together. Threads report statuses at any moment. An update resets the counters,
reads the log and counts what it has read, one write after another, and reports may come between any two of them.
-/

namespace WfcCore.Prometheus.Monitoring

open WfcCore.Core WfcCore.Core.StatusLog Foundation

/-- The update resets until it has called `get_status`, then it writes what that answered. -/
inductive Phase where
  | idle
  | resetting (pending : List Write)
  | counting (answer : Answer) (pending : List Write)

structure State where
  opt : StatusLogOptions
  log : StatusLog
  gauges : Gauges
  phase : Phase

def State.start (opt : StatusLogOptions) : State where
  opt := opt
  log := .new
  gauges := fun _ => 0
  phase := .idle

/-- `text` is any other caller of `get_status`, and `reconfigure` is `core::reconfigure` with its options. -/
inductive Action where
  | setStatus (st : CoreStatus) (msg : String) (clock : Clock)
  | setStage (cs : Option CoreStage)
  | text (active : List ActiveThread) (clock : Clock)
  | reconfigure (opt : StatusLogOptions)
  | update
  | write
  | getStatus (active : List ActiveThread) (clock : Clock)
  | finish

def shown (status : Status) : Answer := ⟨status.status, status.stage, status.statusList⟩

/-- The writes after `get_status`. -/
def countedWrites (answer : Answer) : List Write :=
  [.set .ok (okValue answer.status), .set .stage (stageValue answer.stage)] ++ answer.statusList.flatMap countWrites

def step (overflow : Overflow) (s : State) : Action → Option State
  | .setStatus st msg clock => some { s with log := s.log.setStatus overflow s.opt st msg clock }
  | .setStage cs => some { s with log := s.log.setStage cs }
  | .text active clock => some { s with log := (s.log.getStatus overflow s.opt active clock []).1 }
  | .reconfigure opt => some { s with opt := opt, log := .new }
  | .update =>
    match s.phase with
    | .idle => some { s with phase := .resetting resets }
    | _ => none
  | .write =>
    match s.phase with
    | .resetting (w :: rest) => some { s with gauges := w.apply s.gauges, phase := .resetting rest }
    | .counting answer (w :: rest) => some { s with gauges := w.apply s.gauges, phase := .counting answer rest }
    | _ => none
  | .getStatus active clock =>
    match s.phase with
    | .resetting [] =>
      let (left, status) := s.log.getStatus overflow s.opt active clock []
      some { s with log := left, phase := .counting (shown status) (countedWrites (shown status)) }
    | _ => none
  | .finish =>
    match s.phase with
    | .counting _ [] => some { s with phase := .idle }
    | _ => none

/-! ### The history of a run -/

/-- What an update read: the options of the log, the calls that it had seen, and what `get_status` was given. -/
structure Reading where
  opt : StatusLogOptions
  calls : List StatusLog.Action
  active : List ActiveThread
  clock : Clock

/-- The log is as old as the last `core::reconfigure`, so are the calls. -/
structure History where
  opt : StatusLogOptions
  calls : List StatusLog.Action
  updates : Nat
  reading : Option Reading

def History.call (h : History) (c : StatusLog.Action) : History := { h with calls := h.calls ++ [c] }

def History.next (h : History) : Action → History
  | .setStatus st msg clock => h.call (.setStatus st msg clock)
  | .setStage cs => h.call (.setStage cs)
  | .text active clock => h.call (.getStatus active clock)
  | .reconfigure opt => { h with opt := opt, calls := [] }
  | .update => { h with updates := h.updates + 1 }
  | .write => h
  | .getStatus active clock =>
    { h.call (.getStatus active clock) with reading := some ⟨h.opt, h.calls, active, clock⟩ }
  | .finish => h

def history (opt : StatusLogOptions) (as : List Action) : History :=
  as.foldl History.next ⟨opt, [], 0, none⟩

section Windows

variable (overflow : Overflow) (r : Reading)

/-- The call of `get_status` comes after the others in time. -/
def Reading.Steady (earliest : TimePoint) : Prop :=
  StatusLog.Steady overflow r.opt earliest (r.calls ++ [.getStatus r.active r.clock])

instance (earliest : TimePoint) : Decidable (r.Steady overflow earliest) :=
  inferInstanceAs (Decidable (StatusLog.Steady _ _ _ _))

def Reading.errors : List StatusItem :=
  window (r.clock (hungReadings overflow r.opt r.active r.clock + 1)) r.opt.errorsTtlMs r.opt.errorsLimit
    (reports .error r.calls)

def Reading.warnings : List StatusItem :=
  window (r.clock (hungReadings overflow r.opt r.active r.clock)) r.opt.warningsTtlMs r.opt.warningsLimit
    (reports .warining r.calls)

def Reading.hangs : Nat :=
  if 0 < r.opt.hangTimeoutMs then
    r.active.countP fun itm => r.opt.hangTimeoutMs * ticksPerMs < (r.clock 0).val - itm.lastActive.val
  else 0

/-- No abort, no thread hanging, and neither list full. -/
def Reading.Healthy : Prop :=
  reports .abort r.calls = [] ∧ r.hangs = 0 ∧
    ¬ (0 < r.opt.errorsLimit ∧ (r.errors overflow).length = r.opt.errorsLimit) ∧
    ¬ (0 < r.opt.warningsLimit ∧ (r.warnings overflow).length = r.opt.warningsLimit)

instance : Decidable (r.Healthy overflow) :=
  inferInstanceAs (Decidable (_ ∧ _))

end Windows

/-- The stage that was set last. -/
def stageSet (calls : List StatusLog.Action) : Option CoreStage :=
  calls.foldl (fun stage c => match c with
    | .setStage cs => cs
    | .reconfigure => none
    | _ => stage) none

structure Tells (overflow : Overflow) (r : Reading) (g : Gauges) : Prop where
  errors : g .errors = (r.errors overflow).length
  warnings : g .warnings = (r.warnings overflow).length
  fatals : g .fatals = (reports .abort r.calls).length
  hangs : g .hang = r.hangs
  ok : g .ok = if r.Healthy overflow then 1 else 0
  stage : g .stage = stageValue (stageSet r.calls)

/-! ### What `get_status` answers to an update -/

variable {overflow : Overflow} {opt : StatusLogOptions} {earliest : TimePoint}

def Reading.answer (overflow : Overflow) (r : Reading) : Answer :=
  shown ((logAfter overflow r.opt r.calls).getStatus overflow r.opt r.active r.clock []).2

theorem count_eq_length (status : CoreStatus) (list : StatusList) :
    count status list = (messages status list).length := by
  rw [count, messages, List.length_map, List.countP_eq_length_filter]

theorem hangList_length (clock : Clock) (hangTime : TimePoint) (active : List ActiveThread) (reading : Nat) :
    (hangList overflow clock hangTime active reading).length =
      active.countP fun itm => itm.lastActive.val < hangTime.val := by
  induction active generalizing reading with
  | nil => rfl
  | cons itm rest ih =>
    rw [hangList, List.countP_cons]
    split
    · rename_i late
      rw [List.length_cons, ih, if_pos (decide_eq_true late)]
    · rename_i inTime
      rw [ih, if_neg (by simpa using inTime), Nat.add_zero]

theorem hung_length {r : Reading} (fits : Fits earliest r.opt) (after : earliest.val ≤ (r.clock 0).val) :
    (hung overflow r.opt r.active r.clock).length = r.hangs := by
  unfold hung Reading.hangs
  split
  · rename_i timed
    rw [hangList_length, ago_of_exact (fits.hang timed) after]
    apply List.countP_congr
    intro itm _
    simp only [decide_eq_true_eq]
    omega
  · rfl

theorem count_hung {r : Reading} (fits : Fits earliest r.opt) (after : earliest.val ≤ (r.clock 0).val) :
    count .hang (hung overflow r.opt r.active r.clock) = r.hangs := by
  rw [← hung_length fits after, count, List.countP_eq_length.mpr]
  intro entry member
  unfold hung at member
  split at member
  · rw [hangList_hang _ _ _ _ _ entry member]
    rfl
  · cases member

theorem count_append (status : CoreStatus) (list more : StatusList) :
    count status (list ++ more) = count status list + count status more := by
  rw [count, List.countP_append]
  rfl

theorem count_listed_hang {status : CoreStatus} (other : status ≠ .hang) (items : List StatusItem) :
    count .hang (listed status items) = 0 := by
  rw [count_eq_length, messages_listed, if_neg other]
  rfl

theorem logAfter_stage (overflow : Overflow) (opt : StatusLogOptions) (calls : List StatusLog.Action) :
    (logAfter overflow opt calls).stage = stageSet calls := by
  induction calls using List.reverseRecOn with
  | nil => rfl
  | append_singleton first c ih =>
    rw [logAfter_append, stageSet, List.foldl_append, ← stageSet, ← ih]
    cases c with
    | setStatus st msg clock => cases st <;> rfl
    | _ => rfl

/-- What the answer to an update tells, from the lists that are left. -/
theorem answer_window {r : Reading} (fits : Fits earliest r.opt) (steady : r.Steady overflow earliest)
    (kept : ∀ c ∈ r.calls, c.isReconfigure = false) :
    count .error (r.answer overflow).statusList = (r.errors overflow).length ∧
      count .warining (r.answer overflow).statusList = (r.warnings overflow).length ∧
      count .abort (r.answer overflow).statusList = (reports .abort r.calls).length ∧
      count .hang (r.answer overflow).statusList = r.hangs ∧
      ((r.answer overflow).status = .ok ↔ r.Healthy overflow) ∧ (r.answer overflow).stage = stageSet r.calls := by
  obtain ⟨errors, warnings, fatals⟩ := getStatus_left fits steady kept
  obtain ⟨errorList, warningList, abortList⟩ :=
    messages_getStatus overflow r.opt (logAfter overflow r.opt r.calls) r.active r.clock
  have status := getStatus_status overflow r.opt (logAfter overflow r.opt r.calls) r.active r.clock
  have after := StatusLog.Steady.after steady (first_reading overflow r.opt r.active r.clock)
  refine ⟨?_, ?_, ?_, ?_, ?_, logAfter_stage overflow r.opt r.calls⟩
  · rw [count_eq_length, Reading.answer, shown, errorList, errors, List.length_map]
    rfl
  · rw [count_eq_length, Reading.answer, shown, warningList, warnings, List.length_map]
    rfl
  · rw [count_eq_length, Reading.answer, shown, abortList, fatals, List.length_map]
  · simp only [Reading.answer, shown, StatusLog.getStatus, count_append, count_hung fits after,
      count_listed_hang (show CoreStatus.abort ≠ .hang by decide),
      count_listed_hang (show CoreStatus.error ≠ .hang by decide),
      count_listed_hang (show CoreStatus.warining ≠ .hang by decide)]
    rw [count, List.countP_nil]
    omega
  · have hanging : hung overflow r.opt r.active r.clock = [] ↔ r.hangs = 0 := by
      rw [← hung_length fits after, List.length_eq_zero_iff]
    simp only [fatals, errors, warnings] at status
    rw [Reading.answer, shown, status]
    unfold Reading.Healthy Reading.errors Reading.warnings
    grind

/-! ### The writes of an update -/

theorem update_eq (answer : Answer) : Prometheus.update answer = resets ++ countedWrites answer := by
  rw [Prometheus.update, countedWrites, List.append_assoc]

theorem countWrites_other (g : Gauges) (i : CoreStatus × String) {gauge : Gauge}
    (other : ∀ status, counter status ≠ some gauge) : applyAll g (countWrites i) gauge = g gauge := by
  unfold countWrites
  cases own : counter i.1 with
  | none => rfl
  | some target =>
    apply Function.update_of_ne
    rintro rfl
    exact other i.1 own

theorem counted_other (g : Gauges) (list : StatusList) {gauge : Gauge} (other : ∀ status, counter status ≠ some gauge) :
    applyAll g (list.flatMap countWrites) gauge = g gauge := by
  induction list generalizing g with
  | nil => rfl
  | cons i rest ih => rw [List.flatMap_cons, applyAll_append, ih, countWrites_other g i other]

theorem update_stage (g : Gauges) (answer : Answer) :
    applyAll g (Prometheus.update answer) .stage = stageValue answer.stage := by
  rw [applyAll_update, counted_other _ _ (by rintro (_ | _ | _ | _ | _) <;> decide)]
  exact Function.update_self ..

theorem update_time (g : Gauges) (answer : Answer) : applyAll g (Prometheus.update answer) .time = g .time + 1 := by
  rw [applyAll_update, counted_other _ _ (by rintro (_ | _ | _ | _ | _) <;> decide)]
  rfl

theorem update_tells {r : Reading} (g : Gauges) (fits : Fits earliest r.opt) (steady : r.Steady overflow earliest)
    (kept : ∀ c ∈ r.calls, c.isReconfigure = false) :
    Tells overflow r (applyAll g (Prometheus.update (r.answer overflow))) := by
  obtain ⟨errors, warnings, fatals, hangs, ok, stage⟩ := answer_window fits steady kept
  have whole := update_whole g (r.answer overflow)
  refine ⟨?_, ?_, ?_, ?_, ?_, ?_⟩
  · exact (whole.counts .error .errors rfl).trans errors
  · exact (whole.counts .warining .warnings rfl).trans warnings
  · exact (whole.counts .abort .fatals rfl).trans fatals
  · exact (whole.counts .hang .hang rfl).trans hangs
  · rw [whole.ok, lastOk, Option.map_some, Option.getD_some, okValue]
    exact if_congr ok rfl rfl
  · rw [update_stage, stage]

/-! ### Runs -/

/-- Where the gauges stand, by the phase of the update. -/
def Writes (overflow : Overflow) (h : History) (g : Gauges) : Phase → Prop
  | .idle =>
    g .time = h.updates ∧
      ∀ r, h.reading = some r → ∃ base, g = applyAll base (Prometheus.update (r.answer overflow))
  | .resetting pending =>
    ∃ base done, base .time + 1 = (h.updates : Int) ∧ resets = done ++ pending ∧ g = applyAll base done
  | .counting answer pending =>
    ∃ r base done, h.reading = some r ∧ answer = r.answer overflow ∧ base .time + 1 = (h.updates : Int) ∧
      Prometheus.update answer = done ++ pending ∧ g = applyAll base done

structure Tracks (overflow : Overflow) (h : History) (s : State) : Prop where
  opt : s.opt = h.opt
  log : s.log = logAfter overflow h.opt h.calls
  kept : ∀ c ∈ h.calls, c.isReconfigure = false
  readKept : ∀ r, h.reading = some r → ∀ c ∈ r.calls, c.isReconfigure = false
  writes : Writes overflow h s.gauges s.phase

theorem tracks_start (overflow : Overflow) (opt : StatusLogOptions) :
    Tracks overflow (history opt []) (State.start opt) where
  opt := rfl
  log := rfl
  kept c member := by cases member
  readKept r read := by cases read
  writes := ⟨rfl, fun r read => by cases read⟩

theorem kept_append {h : History} {s : State} (tracks : Tracks overflow h s) {c : StatusLog.Action}
    (keep : c.isReconfigure = false) : ∀ other ∈ h.calls ++ [c], other.isReconfigure = false := by
  intro other member
  rcases List.mem_append.mp member with old | new
  · exact tracks.kept other old
  · obtain rfl := List.mem_singleton.mp new
    exact keep

/-- A call of a thread other than that of the update leaves the gauges. -/
theorem Tracks.call {h : History} {s : State} (tracks : Tracks overflow h s) {c : StatusLog.Action}
    (keep : c.isReconfigure = false) :
    Tracks overflow (h.call c) { s with log := perform overflow s.opt s.log c } where
  opt := tracks.opt
  log := by
    simp only [History.call]
    rw [logAfter_append, tracks.log, tracks.opt]
  kept := kept_append tracks keep
  readKept := tracks.readKept
  writes := tracks.writes

theorem applyAll_write {base g : Gauges} {done : List Write} (w : Write) (at_ : g = applyAll base done) :
    w.apply g = applyAll base (done ++ [w]) := by
  rw [applyAll_append, ← at_]
  rfl

theorem tracks_step {h : History} {s t : State} {a : Action} (tracks : Tracks overflow h s)
    (taken : step overflow s a = some t) : Tracks overflow (h.next a) t := by
  have writes := tracks.writes
  cases a with
  | setStatus st msg clock =>
    obtain rfl := Option.some.inj taken
    exact tracks.call (c := .setStatus st msg clock) rfl
  | setStage cs =>
    obtain rfl := Option.some.inj taken
    exact tracks.call (c := .setStage cs) rfl
  | text active clock =>
    obtain rfl := Option.some.inj taken
    exact tracks.call (c := .getStatus active clock) rfl
  | reconfigure opt =>
    obtain rfl := Option.some.inj taken
    exact ⟨rfl, rfl, List.forall_mem_nil _, tracks.readKept, tracks.writes⟩
  | update =>
    simp only [step] at taken
    split at taken
    · rename_i idle
      obtain rfl := Option.some.inj taken
      rw [idle] at writes
      obtain ⟨time, -⟩ := writes
      refine ⟨tracks.opt, tracks.log, tracks.kept, tracks.readKept, s.gauges, [], ?_, rfl, rfl⟩
      rw [time]
      rfl
    · cases taken
  | write =>
    simp only [step] at taken
    split at taken
    · rename_i w rest resetting
      obtain rfl := Option.some.inj taken
      rw [resetting] at writes
      obtain ⟨base, done, time, cut, gauges⟩ := writes
      refine ⟨tracks.opt, tracks.log, tracks.kept, tracks.readKept, base, done ++ [w], time, ?_, ?_⟩
      · rw [cut, List.append_cons]
      · exact applyAll_write w gauges
    · rename_i answer w rest counting
      obtain rfl := Option.some.inj taken
      rw [counting] at writes
      obtain ⟨r, base, done, read, same, time, cut, gauges⟩ := writes
      refine ⟨tracks.opt, tracks.log, tracks.kept, tracks.readKept, r, base, done ++ [w], read, same, time, ?_, ?_⟩
      · rw [cut, List.append_cons]
      · exact applyAll_write w gauges
    · cases taken
  | getStatus active clock =>
    simp only [step] at taken
    split at taken
    · rename_i resetting
      obtain rfl := Option.some.inj taken
      rw [resetting] at writes
      obtain ⟨base, done, time, cut, gauges⟩ := writes
      rw [List.append_nil] at cut
      have called := tracks.call (c := .getStatus active clock) rfl
      refine ⟨called.opt, called.log, called.kept, ?_, ⟨h.opt, h.calls, active, clock⟩, base, resets, rfl, ?_, time,
        update_eq _, ?_⟩
      · intro r read
        obtain rfl := Option.some.inj read
        exact tracks.kept
      · rw [Reading.answer, tracks.log, tracks.opt]
      · rw [cut]
        exact gauges
    · cases taken
  | finish =>
    simp only [step] at taken
    split at taken
    · rename_i answer counting
      obtain rfl := Option.some.inj taken
      rw [counting] at writes
      obtain ⟨r, base, done, read, rfl, time, cut, gauges⟩ := writes
      rw [List.append_nil] at cut
      refine ⟨tracks.opt, tracks.log, tracks.kept, tracks.readKept, ?_, ?_⟩
      · rw [gauges, ← cut, update_time, time]
        rfl
      · intro other same
        obtain rfl := Option.some.inj (read.symm.trans same)
        exact ⟨base, by rw [cut]; exact gauges⟩
    · cases taken

theorem Tracks.tells {h : History} {s : State} (tracks : Tracks overflow h s) (idle : s.phase = .idle) :
    s.gauges .time = h.updates ∧
      ∀ r earliest, h.reading = some r → Fits earliest r.opt → r.Steady overflow earliest →
        Tells overflow r s.gauges := by
  have writes := tracks.writes
  rw [idle] at writes
  obtain ⟨time, whole⟩ := writes
  refine ⟨time, fun r earliest read fits steady => ?_⟩
  obtain ⟨base, gauges⟩ := whole r read
  rw [gauges]
  exact update_tells base fits steady (tracks.readKept r read)

end WfcCore.Prometheus.Monitoring

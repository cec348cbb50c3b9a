import Mathlib.Data.Int.Order.Basic
import WfcCore.Core.StatusLog

/-!
# The status log as a sliding window

Every call trims the lists of the log by number and by age. What `get_status` answers is what it would answer if
the log kept every report and looked once, and time had no bound. That is so as far as the options leave every
time point that the log computes in 64 bits.
-/

namespace WfcCore.Core.StatusLog

open Foundation

variable {overflow : Overflow} {opt : StatusLogOptions} {earliest now : TimePoint} {log : StatusLog}
  {as : List Action} {active : List ActiveThread} {clock : Clock}

/-- The readings of the clock that a call makes, in order. -/
def readings (overflow : Overflow) (opt : StatusLogOptions) : Action → List TimePoint
  | .setStatus _ _ clock => [clock 0, clock 1, clock 2]
  | .setStage _ => []
  | .getStatus active clock => (List.range (hungReadings overflow opt active clock + 2)).map clock
  | .reconfigure => []

/-- What a call reports with a status. -/
def report (st : CoreStatus) : Action → List StatusItem
  | .setStatus reported msg clock => if reported = st then [⟨reported, clock 0, msg⟩] else []
  | .setStage _ => []
  | .getStatus _ _ => []
  | .reconfigure => []

def reports (st : CoreStatus) (as : List Action) : List StatusItem :=
  as.flatMap (report st)

/-- All readings of a run, after a time before which there is none. -/
def times (overflow : Overflow) (opt : StatusLogOptions) (earliest : TimePoint) (as : List Action) : List TimePoint :=
  earliest :: as.flatMap (readings overflow opt)

/-- The clock never goes back from one reading to a later one. -/
def Steady (overflow : Overflow) (opt : StatusLogOptions) (earliest : TimePoint) (as : List Action) : Prop :=
  (times overflow opt earliest as).Pairwise fun earlier later => earlier.val ≤ later.val

instance (overflow : Overflow) (opt : StatusLogOptions) (earliest : TimePoint) (as : List Action) :
    Decidable (Steady overflow opt earliest as) :=
  inferInstanceAs (Decidable (List.Pairwise _ _))

/-- The reports among the last `limit` that are not older than `lifetimeMs`. -/
def window (now : TimePoint) (lifetimeMs : Int) (limit : Nat) (reported : List StatusItem) : List StatusItem :=
  Window.recent StatusItem.ticks limit (now.val - lifetimeMs * ticksPerMs) reported

/-! ### Time points in 64 bits -/

/-- No time point `ms` milliseconds before a reading needs more than 64 bits, nor do the milliseconds. -/
def Exact (earliest : TimePoint) (ms : Int) : Prop :=
  0 ≤ ms ∧ ms * ticksPerMs ≤ IntType.longInt.greatest ∧ IntType.longInt.least ≤ earliest.val - ms * ticksPerMs

instance (earliest : TimePoint) (ms : Int) : Decidable (Exact earliest ms) :=
  inferInstanceAs (Decidable (_ ∧ _))

theorem ago_of_exact {ms : Int} (exact : Exact earliest ms) (after : earliest.val ≤ now.val) :
    (ago overflow now ms).val = now.val - ms * ticksPerMs := by
  obtain ⟨positive, fits, early⟩ := exact
  have ordered := IntType.longInt.ordered
  have least : IntType.longInt.least ≤ 0 := by decide
  have high := now.property.2
  have ticks : 0 ≤ ms * ticksPerMs := Int.mul_nonneg positive (by decide)
  have converted : (IntType.longInt.compute overflow (ms * ticksPerMs)).val = ms * ticksPerMs :=
    IntType.compute_of_holds ⟨by omega, fits⟩
  rw [ago, converted]
  exact IntType.compute_of_holds ⟨by omega, by omega⟩

/-- Where 64 bits are not enough some program is wrong about an item of the same moment. -/
theorem ago_wrong {ms : Int} (before : earliest.val < IntType.longInt.greatest) (inexact : ¬ Exact earliest ms) :
    ∃ (overflow : Overflow) (now : TimePoint), earliest.val ≤ now.val ∧
      ¬ (now.val < (ago overflow now ms).val ↔ ms < 0) := by
  have low := earliest.property.1
  by_cases negative : ms < 0
  · refine ⟨IntType.longInt.convert, ⟨IntType.longInt.greatest, by decide⟩, earliest.property.2, fun agree => ?_⟩
    exact absurd (ago _ _ ms).property.2 (Int.not_le.mpr (agree.mpr negative))
  · by_cases fits : ms * ticksPerMs ≤ IntType.longInt.greatest
    · -- The milliseconds can be made nanoseconds, but the difference is out of reach.
      have ticks : 0 ≤ ms * ticksPerMs := Int.mul_nonneg (by omega) (by decide)
      have least : IntType.longInt.least ≤ 0 := by decide
      let overflow : Overflow := fun _ => ⟨IntType.longInt.greatest, by decide⟩
      have converted : (IntType.longInt.compute overflow (ms * ticksPerMs)).val = ms * ticksPerMs :=
        IntType.compute_of_holds ⟨by omega, fits⟩
      have outside : ¬ IntType.longInt.Holds (earliest.val - ms * ticksPerMs) :=
        fun holds => inexact ⟨by omega, fits, holds.1⟩
      refine ⟨overflow, earliest, Int.le_refl _, fun agree => negative (agree.mp ?_)⟩
      rw [ago, converted, IntType.compute_of_not outside]
      exact before
    · let overflow : Overflow := fun _ => ⟨-1, by decide⟩
      have outside : ¬ IntType.longInt.Holds (ms * ticksPerMs) := fun holds => fits holds.2
      refine ⟨overflow, earliest, Int.le_refl _, fun agree => negative (agree.mp ?_)⟩
      have next : IntType.longInt.Holds (earliest.val - -1) := ⟨by omega, by omega⟩
      rw [ago, IntType.compute_of_not outside]
      show earliest.val < (IntType.longInt.compute overflow (earliest.val - -1)).val
      rw [IntType.compute_of_holds next]
      omega

theorem removeExpiredList_eq {lifetimeMs : Int} {limit : Nat} (exact : 0 < limit → Exact earliest lifetimeMs)
    (after : earliest.val ≤ now.val) (sl : List StatusItem) :
    removeExpiredList overflow sl now lifetimeMs limit =
      Window.trim StatusItem.ticks limit (now.val - lifetimeMs * ticksPerMs) sl := by
  rw [removeExpiredList_eq_trim]
  cases limit with
  | zero => rw [Window.trim_zero, Window.trim_zero]
  | succ limit => rw [ago_of_exact (exact (Nat.succ_pos limit)) after]

/-! ### Runs -/

/-- After readings of the clock, trimming a list is looking once at everything that was reported. -/
def Follows (lifetimeMs : Int) (limit : Nat) (times : List TimePoint) (held reported : List StatusItem) : Prop :=
  ∀ (now : TimePoint) more, (∀ time ∈ times, time.val ≤ now.val) →
    Window.Ordered StatusItem.ticks (reported ++ more) →
    Window.trim StatusItem.ticks limit (now.val - lifetimeMs * ticksPerMs) (held ++ more) =
      window now lifetimeMs limit (reported ++ more)

theorem Follows.nil (lifetimeMs : Int) (limit : Nat) (times : List TimePoint) :
    Follows lifetimeMs limit times [] [] :=
  fun _ _ _ ordered => Window.trim_eq_recent ordered

section Follows

variable {lifetimeMs : Int} {limit : Nat} {times further : List TimePoint} {held reported more : List StatusItem}

theorem Follows.later (follows : Follows lifetimeMs limit times held reported) (further : List TimePoint) :
    Follows lifetimeMs limit (times ++ further) held reported := by
  intro now more bound ordered
  apply follows now more ?_ ordered
  intro time member
  exact bound time (List.mem_append_left _ member)

theorem Follows.trimmed (follows : Follows lifetimeMs limit times held reported)
    (bound : ∀ time ∈ times, time.val ≤ now.val)
    (ordered : Window.Ordered StatusItem.ticks (reported ++ more)) (read : now ∈ further) :
    Follows lifetimeMs limit (times ++ further)
      (Window.trim StatusItem.ticks limit (now.val - lifetimeMs * ticksPerMs) (held ++ more)) (reported ++ more) := by
  intro next rest later longer
  have before : now.val ≤ next.val := later now (List.mem_append_right _ read)
  rw [follows now more bound ordered]
  apply Window.trim_recent longer
  omega

end Follows

theorem times_append (first : List Action) (a : Action) :
    times overflow opt earliest (first ++ [a]) = times overflow opt earliest first ++ readings overflow opt a := by
  rw [times, List.flatMap_append, List.flatMap_singleton]
  rfl

theorem report_sublist (overflow : Overflow) (opt : StatusLogOptions) (st : CoreStatus) (a : Action) :
    ((report st a).map StatusItem.timePoint).Sublist (readings overflow opt a) := by
  cases a with
  | setStatus reported msg clock =>
    by_cases same : reported = st
    · rw [report, if_pos same]
      exact List.Sublist.cons_cons _ (List.nil_sublist _)
    · rw [report, if_neg same]
      exact List.nil_sublist _
  | _ => exact List.nil_sublist _

theorem reports_sublist (overflow : Overflow) (opt : StatusLogOptions) (st : CoreStatus) (as : List Action) :
    ((reports st as).map StatusItem.timePoint).Sublist (as.flatMap (readings overflow opt)) := by
  induction as with
  | nil => exact List.Sublist.refl _
  | cons a as ih =>
    rw [reports, List.flatMap_cons, List.flatMap_cons, List.map_append]
    exact (report_sublist overflow opt st a).append ih

theorem reports_ordered (steady : Steady overflow opt earliest as) (st : CoreStatus) :
    Window.Ordered StatusItem.ticks (reports st as) := by
  have inside := (reports_sublist overflow opt st as).trans (List.sublist_cons_self earliest _)
  have sorted := List.Pairwise.sublist inside steady
  rw [List.pairwise_map] at sorted
  exact sorted

theorem reports_append (st : CoreStatus) (first : List Action) (a : Action) :
    reports st (first ++ [a]) = reports st first ++ report st a := by
  rw [reports, List.flatMap_append, List.flatMap_singleton]
  rfl

theorem Steady.before {first : List Action} {a : Action} (steady : Steady overflow opt earliest (first ++ [a])) :
    Steady overflow opt earliest first := by
  rw [Steady, times_append] at steady
  exact (List.pairwise_append.mp steady).1

/-- A reading of the last call is not earlier than those of the calls before. -/
theorem Steady.reading {first : List Action} {a : Action} (steady : Steady overflow opt earliest (first ++ [a]))
    (read : now ∈ readings overflow opt a) : ∀ time ∈ times overflow opt earliest first, time.val ≤ now.val := by
  rw [Steady, times_append] at steady
  intro time member
  exact (List.pairwise_append.mp steady).2.2 time member now read

theorem Steady.after {first : List Action} {a : Action} (steady : Steady overflow opt earliest (first ++ [a]))
    (read : now ∈ readings overflow opt a) : earliest.val ≤ now.val :=
  steady.reading read earliest List.mem_cons_self

/-- Every time point that the log computes at a reading from `earliest` on fits in 64 bits. -/
structure Fits (earliest : TimePoint) (opt : StatusLogOptions) : Prop where
  hang : 0 < opt.hangTimeoutMs → Exact earliest opt.hangTimeoutMs
  errors : 0 < opt.errorsLimit → Exact earliest opt.errorsTtlMs
  warnings : 0 < opt.warningsLimit → Exact earliest opt.warningsTtlMs

instance (earliest : TimePoint) (opt : StatusLogOptions) : Decidable (Fits earliest opt) :=
  decidable_of_iff ((0 < opt.hangTimeoutMs → Exact earliest opt.hangTimeoutMs) ∧
      (0 < opt.errorsLimit → Exact earliest opt.errorsTtlMs) ∧
      (0 < opt.warningsLimit → Exact earliest opt.warningsTtlMs))
    ⟨fun ⟨hang, errors, warnings⟩ => ⟨hang, errors, warnings⟩, fun fits => ⟨fits.hang, fits.errors, fits.warnings⟩⟩

/-- The lists of the log, each against the reports of its kind. -/
structure Windows (overflow : Overflow) (opt : StatusLogOptions) (earliest : TimePoint) (as : List Action)
    (log : StatusLog) : Prop where
  errors : Follows opt.errorsTtlMs opt.errorsLimit (times overflow opt earliest as) log.errors (reports .error as)
  warnings : Follows opt.warningsTtlMs opt.warningsLimit (times overflow opt earliest as) log.warnings
    (reports .warining as)
  fatals : log.fatals = reports .abort as

theorem push_errors (log : StatusLog) (st : CoreStatus) (msg : String) (clock : Clock) :
    (log.push ⟨st, clock 0, msg⟩).errors = log.errors ++ report .error (.setStatus st msg clock) := by
  cases st <;> simp [push, report]

theorem push_warnings (log : StatusLog) (st : CoreStatus) (msg : String) (clock : Clock) :
    (log.push ⟨st, clock 0, msg⟩).warnings = log.warnings ++ report .warining (.setStatus st msg clock) := by
  cases st <;> simp [push, report]

theorem push_fatals (log : StatusLog) (st : CoreStatus) (msg : String) (clock : Clock) :
    (log.push ⟨st, clock 0, msg⟩).fatals = log.fatals ++ report .abort (.setStatus st msg clock) := by
  cases st <;> simp [push, report]

/-- The readings with which `get_status` trims the warnings and the errors. -/
theorem getStatus_readings (overflow : Overflow) (opt : StatusLogOptions) (active : List ActiveThread) (clock : Clock) :
    clock (hungReadings overflow opt active clock) ∈ readings overflow opt (.getStatus active clock) ∧
      clock (hungReadings overflow opt active clock + 1) ∈ readings overflow opt (.getStatus active clock) := by
  constructor
  · apply List.mem_map_of_mem
    apply List.mem_range.mpr
    omega
  · apply List.mem_map_of_mem
    apply List.mem_range.mpr
    omega

theorem Windows.perform {a : Action} (windows : Windows overflow opt earliest as log) (fits : Fits earliest opt)
    (steady : Steady overflow opt earliest (as ++ [a])) (kept : a.isReconfigure = false) :
    Windows overflow opt earliest (as ++ [a]) (perform overflow opt log a) := by
  have ordered := fun st => reports_ordered steady st
  simp only [reports_append] at ordered
  cases a with
  | setStatus st msg clock =>
    have first : clock 1 ∈ readings overflow opt (.setStatus st msg clock) := by simp [readings]
    have second : clock 2 ∈ readings overflow opt (.setStatus st msg clock) := by simp [readings]
    refine ⟨?_, ?_, ?_⟩
    · rw [times_append, reports_append]
      simp only [StatusLog.perform, setStatus, removeExpired, push_errors,
        removeExpiredList_eq fits.errors (steady.after second)]
      exact windows.errors.trimmed (steady.reading second) (ordered .error) second
    · rw [times_append, reports_append]
      simp only [StatusLog.perform, setStatus, removeExpired, push_warnings,
        removeExpiredList_eq fits.warnings (steady.after first)]
      exact windows.warnings.trimmed (steady.reading first) (ordered .warining) first
    · rw [reports_append, ← windows.fatals]
      exact push_fatals log st msg clock
  | setStage cs =>
    refine ⟨?_, ?_, ?_⟩
    · rw [times_append, reports_append, report, List.append_nil]
      exact windows.errors.later _
    · rw [times_append, reports_append, report, List.append_nil]
      exact windows.warnings.later _
    · rw [reports_append, report, List.append_nil]
      exact windows.fatals
  | getStatus active clock =>
    obtain ⟨first, second⟩ := getStatus_readings overflow opt active clock
    refine ⟨?_, ?_, ?_⟩
    · have trimmed := windows.errors.trimmed (steady.reading second) (ordered .error) second
      rw [report, List.append_nil, List.append_nil] at trimmed
      rw [times_append, reports_append, report, List.append_nil]
      simp only [StatusLog.perform, getStatus, removeExpired, removeExpiredList_eq fits.errors (steady.after second)]
      exact trimmed
    · have trimmed := windows.warnings.trimmed (steady.reading first) (ordered .warining) first
      rw [report, List.append_nil, List.append_nil] at trimmed
      rw [times_append, reports_append, report, List.append_nil]
      simp only [StatusLog.perform, getStatus, removeExpired, removeExpiredList_eq fits.warnings (steady.after first)]
      exact trimmed
    · rw [reports_append, report, List.append_nil]
      exact windows.fatals
  | reconfigure => cases kept

theorem windows_logAfter (fits : Fits earliest opt) (steady : Steady overflow opt earliest as)
    (kept : ∀ a ∈ as, a.isReconfigure = false) : Windows overflow opt earliest as (logAfter overflow opt as) := by
  induction as using List.reverseRecOn with
  | nil => exact ⟨Follows.nil _ _ _, Follows.nil _ _ _, rfl⟩
  | append_singleton first a ih =>
    rw [logAfter_append]
    have before := ih steady.before fun other member => kept other (List.mem_append_left _ member)
    exact before.perform fits steady (kept a (List.mem_append_right _ (List.mem_singleton_self a)))

/-! ### What `get_status` answers -/

def messages (st : CoreStatus) (list : StatusList) : List String :=
  (list.filter (·.1 == st)).map (·.2)

def Hanging (opt : StatusLogOptions) (active : List ActiveThread) (clock : Clock) : Prop :=
  0 < opt.hangTimeoutMs ∧
    ∃ itm ∈ active, opt.hangTimeoutMs * ticksPerMs < (clock 0).val - itm.lastActive.val

instance (opt : StatusLogOptions) (active : List ActiveThread) (clock : Clock) :
    Decidable (Hanging opt active clock) :=
  inferInstanceAs (Decidable (_ ∧ _))

section Hangs

variable (overflow : Overflow) (clock : Clock) (hangTime : TimePoint) (active : List ActiveThread) (reading : Nat)

theorem hangList_hang : ∀ entry ∈ hangList overflow clock hangTime active reading, entry.1 = .hang := by
  induction active generalizing reading with
  | nil => exact fun entry member => by cases member
  | cons itm rest ih =>
    intro entry member
    rw [hangList] at member
    split at member
    · rcases List.mem_cons.mp member with rfl | later
      · rfl
      · exact ih _ entry later
    · exact ih _ entry member

theorem hangList_nil_iff :
    hangList overflow clock hangTime active reading = [] ↔ ∀ itm ∈ active, hangTime.val ≤ itm.lastActive.val := by
  induction active generalizing reading with
  | nil => simp [hangList]
  | cons itm rest ih =>
    rw [hangList, List.forall_mem_cons]
    split
    · rename_i late
      constructor
      · intro none
        cases none
      · intro quiet
        omega
    · rename_i inTime
      rw [ih]
      constructor
      · exact fun quiet => ⟨by omega, quiet⟩
      · exact fun quiet => quiet.2

end Hangs

theorem hung_nil_iff (exact : 0 < opt.hangTimeoutMs → Exact earliest opt.hangTimeoutMs)
    (after : earliest.val ≤ (clock 0).val) (active : List ActiveThread) :
    hung overflow opt active clock = [] ↔ ¬ Hanging opt active clock := by
  unfold hung Hanging
  split
  · rename_i timed
    rw [hangList_nil_iff, ago_of_exact (exact timed) after]
    constructor
    · rintro quiet ⟨-, itm, member, late⟩
      have inTime := quiet itm member
      omega
    · intro quiet itm member
      by_contra late
      apply quiet
      exact ⟨timed, itm, member, by omega⟩
  · rename_i untimed
    simp [untimed]

@[simp] theorem messages_nil (st : CoreStatus) : messages st [] = [] := rfl

theorem messages_append (st : CoreStatus) (list more : StatusList) :
    messages st (list ++ more) = messages st list ++ messages st more := by
  rw [messages, List.filter_append, List.map_append]
  rfl

theorem messages_listed (st other : CoreStatus) (items : List StatusItem) :
    messages st (listed other items) = if other = st then items.map (·.message) else [] := by
  unfold messages listed
  split
  · rename_i same
    subst same
    rw [List.filter_map, List.map_map, List.filter_eq_self.mpr]
    · rfl
    · intro item _
      exact beq_self_eq_true other
  · rename_i different
    simp [List.filter_map, Function.comp_def, different]

theorem messages_hung {st : CoreStatus} (other : st ≠ .hang) (active : List ActiveThread) (clock : Clock) :
    messages st (hung overflow opt active clock) = [] := by
  have none : (hung overflow opt active clock).filter (·.1 == st) = [] := by
    apply List.filter_eq_nil_iff.mpr
    intro entry member same
    unfold hung at member
    split at member
    · rw [hangList_hang _ _ _ _ _ entry member] at same
      exact other (eq_of_beq same).symm
    · cases member
  rw [messages, none]
  rfl

/-- What `get_status` leaves in the log. -/
theorem getStatus_left (fits : Fits earliest opt)
    (steady : Steady overflow opt earliest (as ++ [.getStatus active clock])) (kept : ∀ a ∈ as, a.isReconfigure = false) :
    let left := ((logAfter overflow opt as).getStatus overflow opt active clock []).1
    left.errors = window (clock (hungReadings overflow opt active clock + 1)) opt.errorsTtlMs opt.errorsLimit
        (reports .error as) ∧
      left.warnings = window (clock (hungReadings overflow opt active clock)) opt.warningsTtlMs opt.warningsLimit
        (reports .warining as) ∧
      left.fatals = reports .abort as := by
  have windows := windows_logAfter fits steady.before kept
  obtain ⟨first, second⟩ := getStatus_readings overflow opt active clock
  refine ⟨?_, ?_, windows.fatals⟩
  · have trimmed := windows.errors _ [] (steady.reading second)
    rw [List.append_nil, List.append_nil, ← removeExpiredList_eq fits.errors (steady.after second)] at trimmed
    exact trimmed (reports_ordered steady.before .error)
  · have trimmed := windows.warnings _ [] (steady.reading first)
    rw [List.append_nil, List.append_nil, ← removeExpiredList_eq fits.warnings (steady.after first)] at trimmed
    exact trimmed (reports_ordered steady.before .warining)

section Answer

variable (overflow : Overflow) (opt : StatusLogOptions) (log : StatusLog) (active : List ActiveThread) (clock : Clock)

/-- The lists of the answer are those that are left in the log. -/
theorem messages_getStatus :
    messages .error (log.getStatus overflow opt active clock []).2.statusList =
        (log.getStatus overflow opt active clock []).1.errors.map (·.message) ∧
      messages .warining (log.getStatus overflow opt active clock []).2.statusList =
        (log.getStatus overflow opt active clock []).1.warnings.map (·.message) ∧
      messages .abort (log.getStatus overflow opt active clock []).2.statusList =
        (log.getStatus overflow opt active clock []).1.fatals.map (·.message) := by
  simp [getStatus, messages_append, messages_listed, messages_hung]

theorem full_iff (items : List StatusItem) (limit : Nat) :
    items ≠ [] ∧ items.length = limit ↔ 0 < limit ∧ items.length = limit := by
  constructor
  · rintro ⟨some, full⟩
    exact ⟨full ▸ List.length_pos_iff.mpr some, full⟩
  · rintro ⟨positive, full⟩
    exact ⟨List.length_pos_iff.mp (by omega), full⟩

/-- A list is full only if the limit is not zero. -/
theorem worst_eq (status : CoreStatus) :
    log.worst opt status =
      if log.fatals ≠ [] then .abort
      else if status ≠ .ok then status
      else if 0 < opt.errorsLimit ∧ log.errors.length = opt.errorsLimit then .error
      else if 0 < opt.warningsLimit ∧ log.warnings.length = opt.warningsLimit then .warining
      else .ok := by
  have errors := full_iff log.errors opt.errorsLimit
  have warnings := full_iff log.warnings opt.warningsLimit
  unfold worst
  grind

/-- The answer's status, read from what is left in the log. -/
theorem getStatus_status :
    let left := (log.getStatus overflow opt active clock []).1
    (log.getStatus overflow opt active clock []).2.status =
      if left.fatals ≠ [] then .abort
      else if hung overflow opt active clock ≠ [] then .hang
      else if 0 < opt.errorsLimit ∧ left.errors.length = opt.errorsLimit then .error
      else if 0 < opt.warningsLimit ∧ left.warnings.length = opt.warningsLimit then .warining
      else .ok := by
  simp only [getStatus, worst_eq]
  by_cases quiet : hung overflow opt active clock = []
  · simp [quiet]
  · simp [quiet]

end Answer

/-- An answer with the last errors and warnings that are not too old, with every abort, and with the worst status
that these and the active threads give. -/
structure TellsWindow (overflow : Overflow) (opt : StatusLogOptions) (as : List Action) (active : List ActiveThread)
    (clock : Clock) (answer : Status) : Prop where
  errors : messages .error answer.statusList =
    (window (clock (hungReadings overflow opt active clock + 1)) opt.errorsTtlMs opt.errorsLimit
      (reports .error as)).map (·.message)
  warnings : messages .warining answer.statusList =
    (window (clock (hungReadings overflow opt active clock)) opt.warningsTtlMs opt.warningsLimit
      (reports .warining as)).map (·.message)
  aborts : messages .abort answer.statusList = (reports .abort as).map (·.message)
  status : answer.status =
    if reports .abort as ≠ [] then .abort
    else if Hanging opt active clock then .hang
    else if 0 < opt.errorsLimit ∧ (messages .error answer.statusList).length = opt.errorsLimit then .error
    else if 0 < opt.warningsLimit ∧ (messages .warining answer.statusList).length = opt.warningsLimit then .warining
    else .ok

theorem first_reading (overflow : Overflow) (opt : StatusLogOptions) (active : List ActiveThread) (clock : Clock) :
    clock 0 ∈ readings overflow opt (.getStatus active clock) := by
  apply List.mem_map_of_mem
  apply List.mem_range.mpr
  omega

theorem tellsWindow_of_fits (fits : Fits earliest opt)
    (steady : Steady overflow opt earliest (as ++ [.getStatus active clock]))
    (kept : ∀ a ∈ as, a.isReconfigure = false) :
    TellsWindow overflow opt as active clock
      ((logAfter overflow opt as).getStatus overflow opt active clock []).2 := by
  obtain ⟨errors, warnings, fatals⟩ := getStatus_left fits steady kept
  obtain ⟨errorList, warningList, abortList⟩ :=
    messages_getStatus overflow opt (logAfter overflow opt as) active clock
  have after := steady.after (first_reading overflow opt active clock)
  refine ⟨?_, ?_, ?_, ?_⟩
  · rw [errorList, errors]
  · rw [warningList, warnings]
  · rw [abortList, fatals]
  · rw [errorList, warningList, List.length_map, List.length_map, ← fatals, getStatus_status]
    simp only [Ne, hung_nil_iff fits.hang after active, not_not]

/-! ### Where 64 bits are not enough -/

/-- Every question is answered with the windows, whatever a program makes of what does not fit in 64 bits. -/
def Slides (earliest : TimePoint) (opt : StatusLogOptions) : Prop :=
  ∀ (overflow : Overflow) (as : List Action) (active : List ActiveThread) (clock : Clock),
    Steady overflow opt earliest (as ++ [.getStatus active clock]) → (∀ a ∈ as, a.isReconfigure = false) →
    TellsWindow overflow opt as active clock ((logAfter overflow opt as).getStatus overflow opt active clock []).2

theorem steady_standing (overflow : Overflow) (opt : StatusLogOptions) (after : earliest.val ≤ now.val)
    (standing : ∀ time ∈ as.flatMap (readings overflow opt), time = now) : Steady overflow opt earliest as := by
  refine List.pairwise_cons.mpr ⟨fun time member => ?_, ?_⟩
  · rw [standing time member]
    exact after
  · apply List.pairwise_of_forall_mem_list
    intro time member other later
    rw [standing time member, standing other later]

theorem Slides.hang (slides : Slides earliest opt) (before : earliest.val < IntType.longInt.greatest)
    (timed : 0 < opt.hangTimeoutMs) : Exact earliest opt.hangTimeoutMs := by
  by_contra inexact
  obtain ⟨overflow, now, after, wrong⟩ := ago_wrong before inexact
  let active : List ActiveThread := [⟨"thread", now⟩]
  have busy : hung overflow opt active (fun _ => now) ≠ [] := by
    intro none
    rw [hung, if_pos timed, hangList_nil_iff, List.forall_mem_singleton] at none
    exact wrong ⟨fun late => absurd late (Int.not_lt.mpr none), fun negative => by omega⟩
  have quiet : ¬ Hanging opt active fun _ => now := by
    rintro ⟨-, itm, member, late⟩
    obtain rfl := List.mem_singleton.mp member
    have ticks := Int.mul_pos timed (show 0 < ticksPerMs by decide)
    rw [Int.sub_self] at late
    omega
  have steady : Steady overflow opt earliest ([] ++ [.getStatus active fun _ => now]) :=
    steady_standing overflow opt after (by simp [readings])
  have status := (slides overflow [] active (fun _ => now) steady (List.forall_mem_nil _)).status
  have nothing : ((logAfter overflow opt []).getStatus overflow opt active (fun _ => now) []).1.fatals = [] := rfl
  simp only [getStatus_status, nothing, busy, quiet, reports, List.flatMap_nil, ne_eq, not_true_eq_false, if_false,
    not_false_eq_true, if_true] at status
  split at status
  · contradiction
  · split at status <;> contradiction

/-- A report, and the question at the same moment. -/
theorem Slides.single (slides : Slides earliest opt) (overflow : Overflow) (st : CoreStatus)
    (after : earliest.val ≤ now.val) :
    TellsWindow overflow opt [.setStatus st "disk is full" fun _ => now] [] (fun _ => now)
      ((logAfter overflow opt [.setStatus st "disk is full" fun _ => now]).getStatus overflow opt []
        (fun _ => now) []).2 := by
  apply slides
  · exact steady_standing overflow opt after (by simp [readings])
  · exact List.forall_mem_singleton.mpr rfl

/-- A single report, trimmed when it comes and when the question comes, against the window at that moment. -/
theorem ago_of_single (overflow : Overflow) (item : StatusItem) (lifetimeMs : Int) {limit : Nat} (positive : 0 < limit)
    (same : (removeExpiredList overflow (removeExpiredList overflow [item] item.timePoint lifetimeMs limit)
        item.timePoint lifetimeMs limit).length = (window item.timePoint lifetimeMs limit [item]).length) :
    item.timePoint.val < (ago overflow item.timePoint lifetimeMs).val ↔ lifetimeMs < 0 := by
  have few : 1 - limit = 0 := by omega
  have ticks : lifetimeMs * ticksPerMs = lifetimeMs * 1000000 := rfl
  rw [removeExpiredList_twice, removeExpiredList, window, Window.recent, List.length_singleton, few,
    List.drop_zero, List.dropWhile_cons, List.filter_singleton] at same
  have now : item.ticks = item.timePoint.val := rfl
  by_cases late : item.ticks < (ago overflow item.timePoint lifetimeMs).val <;>
    by_cases young : item.timePoint.val - lifetimeMs * ticksPerMs ≤ item.ticks <;>
    simp [late, young] at same <;> omega

theorem Slides.errors (slides : Slides earliest opt) (before : earliest.val < IntType.longInt.greatest)
    (some : 0 < opt.errorsLimit) : Exact earliest opt.errorsTtlMs := by
  by_contra inexact
  obtain ⟨overflow, now, after, wrong⟩ := ago_wrong before inexact
  have told := (slides.single overflow .error after).errors
  rw [(messages_getStatus _ _ _ _ _).1] at told
  have same := congrArg List.length told
  rw [List.length_map, List.length_map] at same
  exact wrong (ago_of_single overflow ⟨.error, now, "disk is full"⟩ opt.errorsTtlMs some same)

theorem Slides.warnings (slides : Slides earliest opt) (before : earliest.val < IntType.longInt.greatest)
    (some : 0 < opt.warningsLimit) : Exact earliest opt.warningsTtlMs := by
  by_contra inexact
  obtain ⟨overflow, now, after, wrong⟩ := ago_wrong before inexact
  have told := (slides.single overflow .warining after).warnings
  rw [(messages_getStatus _ _ _ _ _).2.1] at told
  have same := congrArg List.length told
  rw [List.length_map, List.length_map] at same
  exact wrong (ago_of_single overflow ⟨.warining, now, "disk is full"⟩ opt.warningsTtlMs some same)

/-- For a clock that may read any time from `earliest` on and never goes back, every question after every history of
calls is answered with the windows exactly if every time point that is computed fits in 64 bits. -/
theorem getStatus_window_iff (earliest : TimePoint) (opt : StatusLogOptions)
    (before : earliest.val < IntType.longInt.greatest) : Slides earliest opt ↔ Fits earliest opt := by
  constructor
  · intro slides
    exact ⟨slides.hang before, slides.errors before, slides.warnings before⟩
  · intro fits overflow as active clock steady kept
    exact tellsWindow_of_fits fits steady kept

/-- Two errors and a limit of one: the later is told, and the list is full. -/
def reportedTwice : List Action :=
  [.setStatus .error "disk is full" (.still 1), .setStatus .error "disk is gone" (.still 2)]

theorem getStatus_window_twice :
    let opt := { StatusLogOptions.default with errorsLimit := 1 }
    let wrap : Overflow := IntType.longInt.convert
    let answer := ((logAfter wrap opt reportedTwice).getStatus wrap opt [] (.still 3) []).2
    messages .error answer.statusList = ["disk is gone"] ∧ answer.status = .error := by
  intro opt wrap answer
  have slides := (getStatus_window_iff (IntType.longInt.convert 0) opt (by decide)).mpr (by decide)
  have answered := slides wrap reportedTwice [] (.still 3) (by decide) (by decide)
  exact ⟨answered.errors.trans (by decide), answered.status.trans (by decide)⟩

/-- Errors that should be kept for some 380 years are dropped as soon as they are reported, in the year 2023. -/
theorem getStatus_forgets :
    let opt := { StatusLogOptions.default with errorsTtlMs := 12000000000000 }
    let wrap : Overflow := IntType.longInt.convert
    let reported : List Action := [.setStatus .error "disk is full" (.still 1700000000000000000)]
    let answer := ((logAfter wrap opt reported).getStatus wrap opt [] (.still 1700000000000000000) []).2
    answer.statusList = [] ∧ ¬ Slides (IntType.longInt.convert 0) opt := by
  intro opt wrap reported answer
  refine ⟨by decide, fun slides => ?_⟩
  have answered := slides wrap reported [] (.still 1700000000000000000) (by decide) (by decide)
  have none := answered.errors
  revert none
  decide

end WfcCore.Core.StatusLog

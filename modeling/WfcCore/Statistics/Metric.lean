import WfcCore.Foundation.Scanf
import WfcCore.Statistics.Statlog

/-!
# The display modes of the statistics log

`write_log` prints a time in one of four units or as a rate. Here its arithmetic is in `long int`, and the
numbers of the modes are compared for one and the same time.
-/

namespace WfcCore.Statistics.Statlog

open Foundation

/-- The names of `enum_json` for `log_metric`. -/
inductive LogMetric where
  | hide | perseconds | nanoseconds | microseconds | milliseconds | seconds

def LogMetric.value : LogMetric → Int
  | hide => -1
  | perseconds => 0
  | nanoseconds => 1
  | microseconds => 1000
  | milliseconds => 1000000
  | seconds => 1000000000

/-- The values of `long int` that `write_log` and `write_metric` compute. -/
def longValues (fw : Framework) (val metric : Int) : List Int :=
  if metric < 0 then []
  else if metric = 0 then [if val ≠ 0 then (1000000000 : Int).tdiv val else -1]
  else [val * (1000000000 : Int).tdiv fw.statisticsDurationDen,
    (val * (1000000000 : Int).tdiv fw.statisticsDurationDen).tdiv metric]

/-- `write_log` in `long int`, without a result where a value leaves the type. -/
def writeLogLong (fw : Framework) (name : String) (val metric : Int) : Option String :=
  if ∀ n ∈ longValues fw val metric, IntType.longInt.Holds n then some (writeLog fw name val metric) else none

def numberLine (name : String) (n : Int) (unit : String) : String := name ++ ":" ++ (toString n ++ unit) ++ " "

/-- The numbers that `write_log` prints for one time are those of the number of nanoseconds. -/
structure AgreeOn (fw : Framework) (name : String) (val n : Int) : Prop where
  nanoseconds : writeLogLong fw name val LogMetric.nanoseconds.value = some (numberLine name n "ns")
  microseconds : writeLogLong fw name val LogMetric.microseconds.value = some (numberLine name (n / 1000) "μs")
  milliseconds : writeLogLong fw name val LogMetric.milliseconds.value = some (numberLine name (n / 1000000) "ms")
  seconds : writeLogLong fw name val LogMetric.seconds.value = some (numberLine name (n / 1000000000) "s")
  perseconds : writeLogLong fw name val LogMetric.perseconds.value = some (numberLine name (1000000000 / n) "ps")

def ModesAgree (fw : Framework) (name : String) (val : Int) : Prop := ∃ n, AgreeOn fw name val n

variable {fw : Framework} {name : String} {val : Int}

theorem numberLine_injective {unit : String} {m n : Int} (same : numberLine name m unit = numberLine name n unit) :
    m = n := by
  have number := (String.append_left_inj _).mp ((String.append_right_inj _).mp ((String.append_left_inj _).mp same))
  have spelled := congrArg String.toList number
  rw [Int.toString_eq_repr, Int.toString_eq_repr, Scanf.toList_repr, Scanf.toList_repr] at spelled
  exact Scanf.decimal_injective spelled

theorem writeLogLong_of_isSome {metric : Int} (within : (writeLogLong fw name val metric).isSome) :
    writeLogLong fw name val metric = some (writeLog fw name val metric) := by
  unfold writeLogLong at within ⊢
  split at within
  · rename_i holds
    rw [if_pos holds]
  · contradiction

/-- With microseconds as the unit of the records the modes of a duration are those of its nanoseconds. -/
theorem durations_printed (name : String) (unit : fw.statisticsDurationDen = 1000000) (positive : 0 < val) :
    writeLog fw name val LogMetric.nanoseconds.value = numberLine name (val * 1000) "ns" ∧
    writeLog fw name val LogMetric.microseconds.value = numberLine name (val * 1000 / 1000) "μs" ∧
    writeLog fw name val LogMetric.milliseconds.value = numberLine name (val * 1000 / 1000000) "ms" ∧
    writeLog fw name val LogMetric.seconds.value = numberLine name (val * 1000 / 1000000000) "s" := by
  have ratio : (1000000000 : Int).tdiv fw.statisticsDurationDen = 1000 := by
    rw [unit]
    rfl
  have rounds (metric : Int) : (val * 1000).tdiv metric = val * 1000 / metric :=
    Int.tdiv_eq_ediv_of_nonneg (by omega)
  simp [writeLog, writeMetric, LogMetric.value, numberLine, ratio, rounds]

theorem rate_printed (positive : 0 < val) :
    writeLog fw name val LogMetric.perseconds.value = numberLine name (1000000000 / val) "ps" := by
  have rounds : (1000000000 : Int).tdiv val = 1000000000 / val := Int.tdiv_eq_ediv_of_nonneg (by decide)
  have nonzero : val ≠ 0 := by omega
  simp [writeLog, LogMetric.value, numberLine, rounds, nonzero]

/-- The rates of a time in microseconds and in nanoseconds are equal only where both are 0. -/
theorem rates_equal_iff (positive : 0 < val) : 1000000000 / val = 1000000000 / (val * 1000) ↔ 1000000000 < val := by
  have nested : (1000000000 : Int) / (val * 1000) = 1000000000 / val / 1000 :=
    (Int.ediv_ediv_of_nonneg (Int.le_of_lt positive)).symm
  rw [nested]
  constructor
  · intro same
    by_contra small
    have whole : 1 ≤ 1000000000 / val := Int.le_ediv_of_mul_le positive (by omega)
    omega
  · intro large
    rw [Int.ediv_eq_zero_of_lt (by decide) large]
    rfl

/-- The durations agree, so it is for the rates to be equal. -/
theorem modesAgree_iff_rates (unit : fw.statisticsDurationDen = 1000000) (positive : 0 < val)
    (within : ∀ metric : LogMetric, (writeLogLong fw name val metric.value).isSome) :
    ModesAgree fw name val ↔ 1000000000 / val = 1000000000 / (val * 1000) := by
  obtain ⟨nanoseconds, microseconds, milliseconds, seconds⟩ := durations_printed name unit positive
  have prints (metric : LogMetric) := writeLogLong_of_isSome (within metric)
  constructor
  · rintro ⟨n, agree⟩
    have sameNumber := Option.some.inj ((prints .nanoseconds).symm.trans agree.nanoseconds)
    rw [nanoseconds] at sameNumber
    obtain rfl := numberLine_injective sameNumber
    have sameRate := Option.some.inj ((prints .perseconds).symm.trans agree.perseconds)
    rw [rate_printed positive] at sameRate
    exact numberLine_injective sameRate
  · intro same
    refine ⟨val * 1000, ?_, ?_, ?_, ?_, ?_⟩
    · rw [prints, nanoseconds]
    · rw [prints, microseconds]
    · rw [prints, milliseconds]
    · rw [prints, seconds]
    · rw [prints, rate_printed positive, same]

/-- The rate takes the microseconds for nanoseconds, which shows unless it is 0. -/
theorem modesAgree_iff (unit : fw.statisticsDurationDen = 1000000) (positive : 0 < val)
    (within : ∀ metric : LogMetric, (writeLogLong fw name val metric.value).isSome) :
    ModesAgree fw name val ↔ 1000000000 < val :=
  (modesAgree_iff_rates unit positive within).trans (rates_equal_iff positive)

theorem modesAgree_hour : ModesAgree nullTest "max" 3600000000 ↔ (1000000000 : Int) < 3600000000 :=
  @modesAgree_iff nullTest "max" 3600000000 rfl (by decide) (by intro metric; cases metric <;> decide)

/-- A millisecond is logged as a million nanoseconds, and as a million per second. -/
theorem rate_of_millisecond :
    writeLogLong nullTest "max" 1000 LogMetric.nanoseconds.value = some "max:1000000ns " ∧
    writeLogLong nullTest "max" 1000 LogMetric.perseconds.value = some "max:1000000ps " ∧
    ¬ ModesAgree nullTest "max" 1000 := by
  refine ⟨by decide, by decide, fun agree => ?_⟩
  have within (metric : LogMetric) : (writeLogLong nullTest "max" 1000 metric.value).isSome := by
    cases metric <;> decide
  have rates := (modesAgree_iff_rates rfl (by decide) within).mp agree
  contradiction

end WfcCore.Statistics.Statlog

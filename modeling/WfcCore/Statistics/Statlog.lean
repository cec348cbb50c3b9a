import WfcCore.Foundation.Run

/-!
# The statistics log

`statlog_domain` logs the records that it is pushed and hands the requests on to its target. Log lines are
kept with the name of the log they go to. What the framework supplies, `bad_request` and the unit of
`statistics_duration`, is a parameter, and so is the target.
-/

namespace WfcCore.Statistics.Statlog

open Foundation

/-- A record of a push request. -/
structure Aggregated where
  name : String
  ts : Int
  count : Int
  lossy : Int
  min : Int
  perc50 : Int
  perc80 : Int
  perc95 : Int
  perc99 : Int
  perc100 : Int
  max : Int
  avg : Int
  data : List Int
deriving DecidableEq

structure TableFormatOptions where
  tableLog : String
  showLegend : Bool
  sep : String
  defaultFieldWidth : Int
  sequenceOfList : List String
  widthMap : List (String × Int)

structure StatlogConfig where
  target : String
  commonLog : String
  logMetric : Int
  tableFormat : TableFormatOptions

def TableFormatOptions.default : TableFormatOptions where
  tableLog := ""
  showLegend := true
  sep := "|"
  defaultFieldWidth := 0
  sequenceOfList := []
  widthMap := []

def StatlogConfig.default : StatlogConfig where
  target := ""
  commonLog := ""
  logMetric := -1
  tableFormat := .default

/-- The smart pointers of the requests may be null. -/
inductive Request where
  | push (req : Option Aggregated)
  | multiPush (req : Option (List Aggregated))
  | del (req : Option (List String))
deriving DecidableEq

/-- `badRequest null` is what `bad_request` does with a request that is null or not: it lets the request
pass, or returns true after that many calls of a callback. -/
structure Framework where
  badRequest : Bool → Option Nat
  statisticsDurationDen : Int

/-- `bad_request` turns away the null requests and no others, and answers each once. -/
structure Framework.Documented (fw : Framework) : Prop where
  refuses : ∀ null, (fw.badRequest null).isSome = null
  answers : ∀ null times, fw.badRequest null = some times → times = 1

/-- `live` tells whether the weak pointer to the target can be locked. -/
structure StatlogDomain where
  options : StatlogConfig
  suspended : Bool
  live : Bool
  tableFormat : TableFormatOptions
  legend : List String
  logged : List (String × String)
  sent : List Request

/-! ### Log lines -/

def writeMetric (fw : Framework) (val metric : Int) : String :=
  toString ((val * (1000000000 : Int).tdiv fw.statisticsDurationDen).tdiv metric) ++
    (if metric = 1 then "ns"
    else if metric = 1000 then "μs"
    else if metric = 1000000 then "ms"
    else if metric = 1000000000 then "s"
    else "?s")

def writeLog (fw : Framework) (name : String) (val metric : Int) : String :=
  if metric < 0 then ""
  else
    name ++ ":" ++
      (if metric = 0 then toString (if val ≠ 0 then (1000000000 : Int).tdiv val else -1) ++ "ps"
      else writeMetric fw val metric) ++ " "

/-- `std::setw` with blanks, which counts bytes. -/
def setw (width : Int) (text : String) : String :=
  "".pushn ' ' (width.toNat - text.utf8ByteSize) ++ text

def writeField (format : TableFormatOptions) (logname text : String) : String :=
  if !format.sequenceOfList.contains logname then setw format.defaultFieldWidth "#" ++ " |"
  else setw ((format.widthMap.lookup logname).getD format.defaultFieldWidth) text ++ " |"

def Aggregated.column (ag : Aggregated) : String → Option String
  | "name" => some ag.name
  | "count" => some (toString ag.count)
  | "lossy" => some (toString ag.lossy)
  | "min" => some (toString ag.min)
  | "perc50" => some (toString ag.perc50)
  | "perc80" => some (toString ag.perc80)
  | "perc95" => some (toString ag.perc95)
  | "perc99" => some (toString ag.perc99)
  | "perc100" => some (toString ag.perc100)
  | "max" => some (toString ag.max)
  | "avg" => some (toString ag.avg)
  | "ts" => some (toString ag.ts)
  | _ => none

def commonLine (fw : Framework) (ag : Aggregated) (metric : Int) : String :=
  ag.name ++ " " ++ "count:" ++ toString ag.count ++ " " ++ writeLog fw "min" ag.min metric ++
    writeLog fw "perc80" ag.perc80 metric ++ writeLog fw "perc99" ag.perc99 metric ++
    writeLog fw "perc100" ag.perc100 metric ++ writeLog fw "max" ag.max metric ++
    "lossy:" ++ toString ag.lossy ++ " "

def legendLine (format : TableFormatOptions) : String :=
  "|" ++ String.join (format.sequenceOfList.map fun field => writeField format field field)

def tableLine (format : TableFormatOptions) (ag : Aggregated) : String :=
  String.join (format.sequenceOfList.filterMap fun field => (ag.column field).map (writeField format field))

namespace StatlogDomain

def log (s : StatlogDomain) (name line : String) : StatlogDomain :=
  { s with logged := s.logged ++ [(name, line)] }

def logCommon (fw : Framework) (s : StatlogDomain) (ag : Aggregated) : StatlogDomain :=
  if s.options.commonLog ≠ "" then s.log s.options.commonLog (commonLine fw ag s.options.logMetric) else s

/-- The legend is printed once for each record name, to the table log even when that has no name. -/
def logLegend (s : StatlogDomain) (ag : Aggregated) : StatlogDomain :=
  if s.options.tableFormat.showLegend ∧ ag.name ∉ s.legend then
    { s with legend := s.legend ++ [ag.name] }.log s.options.tableFormat.tableLog (legendLine s.tableFormat)
  else s

def logTable (s : StatlogDomain) (ag : Aggregated) : StatlogDomain :=
  if s.options.tableFormat.tableLog ≠ "" then
    s.log s.options.tableFormat.tableLog (tableLine s.tableFormat ag)
  else s

/-- `push_log_`. -/
def pushLog (fw : Framework) (s : StatlogDomain) (ag : Aggregated) : StatlogDomain :=
  ((s.logCommon fw ag).logLegend ag).logTable ag

/-! ### Requests -/

/-- What a call leaves: whether it handed request and callback to the target, and how often it called the
callback itself. -/
structure Handled where
  domain : StatlogDomain
  handed : Bool
  answers : Nat

def send (s : StatlogDomain) (request : Request) : Handled :=
  ⟨{ s with sent := s.sent ++ [request] }, true, 0⟩

/-- The body that `push` and `multi_push` share; `records` is what is logged, none for a null request. The
call has no result where the source would read through a null pointer. -/
def passOn (fw : Framework) (s : StatlogDomain) (request : Request) (records : Option (List Aggregated))
    (cb : Bool) : Option Handled :=
  if s.suspended then some (if s.live then s.send request else ⟨s, false, 0⟩)
  else
    match fw.badRequest records.isNone, records with
    | some times, _ => some ⟨s, false, if cb then times else 0⟩
    | none, none => none
    | none, some records =>
      let s := records.foldl (pushLog fw) s
      -- `create_response` makes nothing without a callback
      some (if s.live then s.send request else ⟨s, false, if cb then 1 else 0⟩)

def push (fw : Framework) (s : StatlogDomain) (req : Option Aggregated) (cb : Bool) : Option Handled :=
  s.passOn fw (.push req) (req.map fun ag => [ag]) cb

def multiPush (fw : Framework) (s : StatlogDomain) (req : Option (List Aggregated)) (cb : Bool) :
    Option Handled :=
  s.passOn fw (.multiPush req) req cb

/-- `del` reads neither the request nor the state. -/
def del (s : StatlogDomain) (_req : Option (List String)) (cb : Bool) : Option Handled :=
  some ⟨s, false, if cb then 1 else 0⟩

def perform (fw : Framework) (s : StatlogDomain) (cb : Bool) : Request → Option Handled
  | .push req => s.push fw req cb
  | .multiPush req => s.multiPush fw req cb
  | .del req => s.del req cb

inductive Op where
  | request (r : Request) (cb : Bool)
  | suspend (on : Bool)

def step (fw : Framework) (s : StatlogDomain) : Op → Option StatlogDomain
  | .request r cb => (s.perform fw cb r).map Handled.domain
  | .suspend on => some { s with suspended := on }

end StatlogDomain

def Request.nonNull : Request → Bool
  | .push req => req.isSome
  | .multiPush req => req.isSome
  | .del req => req.isSome

def Request.isDel : Request → Bool
  | .del _ => true
  | _ => false

def requestsOf (ops : List StatlogDomain.Op) : List Request :=
  ops.filterMap fun
    | .request r _ => some r
    | .suspend _ => none

variable {fw : Framework} {s t : StatlogDomain}

/-! ### Logging touches nothing else -/

structure OnlyLogs (s t : StatlogDomain) : Prop where
  suspended : t.suspended = s.suspended
  live : t.live = s.live
  sent : t.sent = s.sent

theorem OnlyLogs.refl (s : StatlogDomain) : OnlyLogs s s := ⟨rfl, rfl, rfl⟩

theorem OnlyLogs.trans {u : StatlogDomain} (first : OnlyLogs s t) (second : OnlyLogs t u) : OnlyLogs s u :=
  ⟨second.suspended.trans first.suspended, second.live.trans first.live, second.sent.trans first.sent⟩

theorem logCommon_onlyLogs (fw : Framework) (s : StatlogDomain) (ag : Aggregated) :
    OnlyLogs s (s.logCommon fw ag) := by
  unfold StatlogDomain.logCommon
  split <;> exact ⟨rfl, rfl, rfl⟩

theorem logLegend_onlyLogs (s : StatlogDomain) (ag : Aggregated) : OnlyLogs s (s.logLegend ag) := by
  unfold StatlogDomain.logLegend
  split <;> exact ⟨rfl, rfl, rfl⟩

theorem logTable_onlyLogs (s : StatlogDomain) (ag : Aggregated) : OnlyLogs s (s.logTable ag) := by
  unfold StatlogDomain.logTable
  split <;> exact ⟨rfl, rfl, rfl⟩

theorem pushLog_onlyLogs (fw : Framework) (s : StatlogDomain) (ag : Aggregated) :
    OnlyLogs s (s.pushLog fw ag) :=
  ((logCommon_onlyLogs fw s ag).trans (logLegend_onlyLogs _ ag)).trans (logTable_onlyLogs _ ag)

theorem pushLogs_onlyLogs (fw : Framework) (s : StatlogDomain) (records : List Aggregated) :
    OnlyLogs s (records.foldl (StatlogDomain.pushLog fw) s) := by
  induction records generalizing s with
  | nil => exact OnlyLogs.refl s
  | cons ag rest ih => exact (pushLog_onlyLogs fw s ag).trans (ih _)

/-! ### One request -/

/-- The ways of a push or multi_push request through the domain. -/
theorem passOn_cases (documented : fw.Documented) (s : StatlogDomain) (request : Request)
    (records : Option (List Aggregated)) (cb : Bool) :
    ∃ h, s.passOn fw request records cb = some h ∧
      ((s.live = true ∧ (s.suspended = true ∨ records.isSome = true) ∧ h.handed = true ∧ h.answers = 0 ∧
          h.domain.sent = s.sent ++ [request] ∧ h.domain.live = s.live) ∨
        (s.live = false ∧ s.suspended = true ∧ h.handed = false ∧ h.answers = 0) ∨
        (s.suspended = false ∧ (s.live = false ∨ records.isNone = true) ∧ h.handed = false ∧
          h.answers = if cb then 1 else 0)) := by
  unfold StatlogDomain.passOn
  split
  · rename_i suspended
    refine ⟨_, rfl, ?_⟩
    by_cases live : s.live = true
    · rw [if_pos live]
      exact Or.inl ⟨live, Or.inl suspended, rfl, rfl, rfl, rfl⟩
    · rw [if_neg live]
      exact Or.inr (Or.inl ⟨by simpa using live, suspended, rfl, rfl⟩)
  · rename_i active
    have active : s.suspended = false := by simpa using active
    have refuses := documented.refuses records.isNone
    cases refused : fw.badRequest records.isNone with
    | some times =>
      refine ⟨_, rfl, Or.inr (Or.inr ⟨active, Or.inr ?_, rfl, ?_⟩)⟩
      · rw [← refuses, refused]
        rfl
      · rw [documented.answers _ times refused]
    | none =>
      cases records with
      | none =>
        rw [refused] at refuses
        contradiction
      | some records =>
        have only := pushLogs_onlyLogs fw s records
        refine ⟨_, rfl, ?_⟩
        by_cases live : s.live = true
        · rw [if_pos (only.live.trans live)]
          refine Or.inl ⟨live, Or.inr rfl, rfl, rfl, ?_, only.live⟩
          show (records.foldl (StatlogDomain.pushLog fw) s).sent ++ [request] = _
          rw [only.sent]
        · rw [if_neg (only.live ▸ live)]
          exact Or.inr (Or.inr ⟨active, Or.inl (by simpa using live), rfl, rfl⟩)

/-- With the callbacks that the target makes for what it is handed, a callback is called so often. -/
def StatlogDomain.Handled.calls (h : StatlogDomain.Handled) (target : Request → Nat) (request : Request) : Nat :=
  h.answers + if h.handed then target request else 0

/-- The call returns, and its callback is called exactly once. -/
def AnsweredOnce (fw : Framework) (target : Request → Nat) (s : StatlogDomain) (request : Request) : Prop :=
  ∃ h, s.perform fw true request = some h ∧ h.calls target request = 1

theorem passOn_answered {target : Request → Nat} {request : Request} {records : Option (List Aggregated)}
    (documented : fw.Documented) (answers : target request = 1) :
    (∃ h, s.passOn fw request records true = some h ∧ h.calls target request = 1) ↔
      (s.suspended = true → s.live = true) := by
  obtain ⟨h, handled, ways⟩ := passOn_cases documented s request records true
  rw [handled]
  rcases ways with ⟨live, _, handed, silent, _, _⟩ | ⟨dead, suspended, handed, silent⟩ | ⟨active, _, handed, once⟩
  · refine iff_of_true ⟨h, rfl, ?_⟩ fun _ => live
    simp [StatlogDomain.Handled.calls, handed, silent, answers]
  · refine iff_of_false ?_ ?_
    · rintro ⟨_, same, called⟩
      obtain rfl := Option.some.inj same
      simp [StatlogDomain.Handled.calls, handed, silent] at called
    · rw [dead, suspended]
      simp
  · refine iff_of_true ⟨h, rfl, ?_⟩ fun suspended => ?_
    · simp [StatlogDomain.Handled.calls, handed, once]
    · rw [active] at suspended
      contradiction

/-- A callback is called exactly once unless a push or multi_push comes to a suspended domain whose
target cannot be locked. -/
theorem answered_once_iff (fw : Framework) (target : Request → Nat) (documented : fw.Documented)
    (answers : ∀ request, target request = 1) (s : StatlogDomain) (request : Request) :
    AnsweredOnce fw target s request ↔ (request.isDel = false → s.suspended = true → s.live = true) := by
  cases request with
  | push req =>
    have exactly : AnsweredOnce fw target s (.push req) ↔ _ := passOn_answered documented (answers _)
    rw [exactly]
    simp [Request.isDel]
  | multiPush req =>
    have exactly : AnsweredOnce fw target s (.multiPush req) ↔ _ := passOn_answered documented (answers _)
    rw [exactly]
    simp [Request.isDel]
  | del req => exact iff_of_true ⟨_, rfl, rfl⟩ (by simp [Request.isDel])

/-- `bad_request` as a plain test for null, with microseconds as the unit. -/
def nullTest : Framework where
  badRequest := fun null => if null then some 1 else none
  statisticsDurationDen := 1000000

theorem nullTest_documented : nullTest.Documented where
  refuses := by decide
  answers := by
    intro null times refused
    cases null <;> simp [nullTest] at refused
    exact refused.symm

/-- A domain with the default options, before its first request. -/
def idleDomain (suspended live : Bool) : StatlogDomain where
  options := .default
  suspended := suspended
  live := live
  tableFormat := .default
  legend := []
  logged := []
  sent := []

def cpuLoad (percent : Int) : Aggregated where
  name := "cpu"
  ts := 1000000
  count := 1
  lossy := 0
  min := percent
  perc50 := percent
  perc80 := percent
  perc95 := percent
  perc99 := percent
  perc100 := percent
  max := percent
  avg := percent
  data := [percent]

theorem answered_once_suspended :
    AnsweredOnce nullTest (fun _ => 1) (idleDomain true true) (.multiPush (some [cpuLoad 42, cpuLoad 43])) :=
  (answered_once_iff nullTest (fun _ => 1) nullTest_documented (fun _ => rfl) (idleDomain true true)
    (.multiPush (some [cpuLoad 42, cpuLoad 43]))).mpr fun _ _ => rfl

/-- Suspended and without a target, the domain drops a multi_push with its callback. -/
theorem dropped_silently :
    ((idleDomain true false).perform nullTest true (.multiPush (some []))).map
        (fun h => (h.handed, h.answers)) = some (false, 0) ∧
    ¬ AnsweredOnce nullTest (fun _ => 1) (idleDomain true false) (.multiPush (some [])) := by
  refine ⟨by decide, ?_⟩
  rintro ⟨h, handled, called⟩
  obtain rfl := Option.some.inj handled
  contradiction

/-! ### Sequences of requests -/

/-- A request that is not null reaches a live target as it came, except a del. -/
theorem perform_sent (documented : fw.Documented) (live : s.live = true) {request : Request} (cb : Bool)
    (nonNull : request.nonNull = true) :
    ∃ h, s.perform fw cb request = some h ∧ h.domain.live = true ∧
      h.domain.sent = s.sent ++ [request].filter fun r => !r.isDel := by
  have passed {request : Request} {records : Option (List Aggregated)} (some_ : records.isSome = true) :
      ∃ h, s.passOn fw request records cb = some h ∧ h.domain.live = true ∧
        h.domain.sent = s.sent ++ [request] := by
    obtain ⟨h, handled, ways⟩ := passOn_cases documented s request records cb
    rcases ways with ⟨_, _, _, _, sent, same⟩ | ⟨dead, _⟩ | ⟨_, dead | null, _⟩
    · exact ⟨h, handled, same.trans live, sent⟩
    · rw [live] at dead
      contradiction
    · rw [live] at dead
      contradiction
    · rw [Option.isNone_iff_eq_none.mp null] at some_
      contradiction
  cases request with
  | push req => exact passed (by simpa [Request.nonNull] using nonNull)
  | multiPush req => exact passed nonNull
  | del req => exact ⟨_, rfl, live, (List.append_nil _).symm⟩

theorem run_sent (documented : fw.Documented) (live : s.live = true) {ops : List StatlogDomain.Op}
    (nonNull : ∀ r ∈ requestsOf ops, r.nonNull = true) :
    ∃ t, exec (StatlogDomain.step fw) s ops = some t ∧
      t.sent = s.sent ++ (requestsOf ops).filter fun r => !r.isDel := by
  induction ops generalizing s with
  | nil => exact ⟨s, rfl, (List.append_nil _).symm⟩
  | cons op rest ih =>
    cases op with
    | request r cb =>
      obtain ⟨h, handled, stays, sent⟩ := perform_sent documented live cb (nonNull r List.mem_cons_self)
      obtain ⟨t, run, rest_sent⟩ := ih stays fun r member => nonNull r (List.mem_cons_of_mem _ member)
      refine ⟨t, ?_, ?_⟩
      · rw [exec_cons]
        show ((s.perform fw cb r).map StatlogDomain.Handled.domain).bind _ = _
        rw [handled]
        exact run
      · rw [rest_sent, sent, List.append_assoc, ← List.filter_append]
        rfl
    | suspend on =>
      exact ih (s := { s with suspended := on }) live nonNull

/-- The target has got the requests of the sequence, as they came and in order. -/
def Transparent (fw : Framework) (s : StatlogDomain) (ops : List StatlogDomain.Op) : Prop :=
  ∃ t, exec (StatlogDomain.step fw) s ops = some t ∧ t.sent = s.sent ++ requestsOf ops

/-- With a live target the domain is transparent to a sequence of requests exactly if it has no del. -/
theorem transparent_iff (fw : Framework) (documented : fw.Documented) (s : StatlogDomain) (live : s.live = true)
    (ops : List StatlogDomain.Op) (nonNull : ∀ r ∈ requestsOf ops, r.nonNull = true) :
    Transparent fw s ops ↔ ∀ r ∈ requestsOf ops, r.isDel = false := by
  obtain ⟨t, run, sent⟩ := run_sent documented live nonNull
  have exactly : Transparent fw s ops ↔ (requestsOf ops).filter (fun r => !r.isDel) = requestsOf ops := by
    constructor
    · rintro ⟨u, same, got⟩
      obtain rfl := Option.some.inj (run.symm.trans same)
      exact List.append_cancel_left (sent.symm.trans got)
    · intro all
      exact ⟨t, run, by rw [sent, all]⟩
  rw [exactly, List.filter_eq_self]
  simp

/-- Records come before, during and after a suspension. -/
def loads : List StatlogDomain.Op :=
  [.request (.push (some (cpuLoad 41))) true, .suspend true,
    .request (.multiPush (some [cpuLoad 42, cpuLoad 43])) true, .suspend false,
    .request (.push (some (cpuLoad 44))) false]

theorem transparent_loads : Transparent nullTest (idleDomain false true) loads :=
  (transparent_iff nullTest nullTest_documented (idleDomain false true) rfl loads (by decide)).mpr (by decide)

/-- A del is answered and not handed on. -/
theorem del_not_handed_on :
    (exec (StatlogDomain.step nullTest) (idleDomain false true) [.request (.del (some ["cpu"])) true]).map
        StatlogDomain.sent = some [] ∧
    ¬ Transparent nullTest (idleDomain false true) [.request (.del (some ["cpu"])) true] := by
  refine ⟨by decide, ?_⟩
  rintro ⟨t, run, sent⟩
  obtain rfl := Option.some.inj run
  contradiction

end WfcCore.Statistics.Statlog

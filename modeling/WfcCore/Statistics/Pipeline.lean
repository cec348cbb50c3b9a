import WfcCore.Statistics.Collector
import WfcCore.Statistics.Legend

/-!
# From the collector through the log

A collector has the statistics log among its targets, and the log hands on to a target of its own. Requests of
other clients of the log come between those of the collector.
-/

namespace WfcCore.Statistics.Statlog

open Foundation

/-- The request for a record: the aggregated data, under the name of the slot. -/
def asPush (req : Tick.Push (Collector.Record Aggregated)) : Aggregated := { req.data.2 with name := req.name }

inductive Source where
  | slot (req : Tick.Push (Collector.Record Aggregated))
  | client (request : Request)

def Source.request : Source → Request
  | .slot req => .push (some (asPush req))
  | .client request => request

def Source.slotRequest : Source → Option (Tick.Push (Collector.Record Aggregated))
  | .slot req => some req
  | .client _ => none

def Source.clientRequest : Source → Option Request
  | .slot _ => none
  | .client request => some request

/-- A request that came to the log, and whether the log was active then. -/
structure Passed where
  source : Source
  active : Bool

/-- `passed` records the history. -/
structure Chain where
  collector : Collector.Domain Aggregated
  statlog : StatlogDomain
  passed : List Passed

/-! ### The common log -/

variable {fw : Framework}

/-- What a request has to be logged. -/
def records : Request → List Aggregated
  | .push req => req.toList
  | .multiPush req => req.getD []
  | .del _ => []

/-- The common log has a name, and the table goes to another log. -/
structure CommonLog (options : StatlogConfig) : Prop where
  named : options.commonLog ≠ ""
  apart : options.tableFormat.tableLog ≠ options.commonLog

def commonLines (s : StatlogDomain) : List String :=
  (s.logged.filter fun line => line.1 = s.options.commonLog).map Prod.snd

theorem pushLog_commonLines (fw : Framework) {s : StatlogDomain} (common : CommonLog s.options) (ag : Aggregated) :
    (s.pushLog fw ag).options = s.options ∧
      commonLines (s.pushLog fw ag) = commonLines s ++ [commonLine fw ag s.options.logMetric] := by
  rw [pushLog_eq]
  refine ⟨rfl, ?_⟩
  have line : (s.logCommon fw ag).logged = s.logged ++ [(s.options.commonLog, commonLine fw ag s.options.logMetric)] := by
    unfold StatlogDomain.logCommon
    rw [if_pos common.named]
    rfl
  have table : ((s.printed ag).map fun line => (s.options.tableFormat.tableLog, line.text)).filter
      (fun line => line.1 = s.options.commonLog) = [] := by
    rw [List.filter_eq_nil_iff]
    intro line member
    obtain ⟨_, -, rfl⟩ := List.mem_map.mp member
    simpa using common.apart
  unfold commonLines
  dsimp only
  rw [line, List.filter_append, table, List.append_nil, List.filter_append, List.map_append]
  simp

theorem pushLogs_commonLines (fw : Framework) {s : StatlogDomain} (common : CommonLog s.options) (ags : List Aggregated) :
    (ags.foldl (StatlogDomain.pushLog fw) s).options = s.options ∧
      commonLines (ags.foldl (StatlogDomain.pushLog fw) s) =
        commonLines s ++ ags.map fun ag => commonLine fw ag s.options.logMetric := by
  induction ags generalizing s with
  | nil => exact ⟨rfl, (List.append_nil _).symm⟩
  | cons ag rest ih =>
    obtain ⟨same, line⟩ := pushLog_commonLines fw common ag
    obtain ⟨still, lines⟩ := ih (s := s.pushLog fw ag) (same.symm ▸ common)
    refine ⟨still.trans same, ?_⟩
    rw [List.foldl_cons, lines, line, same, List.append_assoc]
    rfl

/-- An active log writes a line for each record of a request, a suspended one nothing. -/
theorem perform_commonLines (documented : fw.Documented) {s : StatlogDomain} (common : CommonLog s.options)
    {request : Request} (nonNull : request.nonNull = true) {cb : Bool} {h : StatlogDomain.Handled}
    (handled : s.perform fw cb request = some h) :
    h.domain.options = s.options ∧ commonLines h.domain = commonLines s ++
      if s.suspended then [] else (records request).map fun ag => commonLine fw ag s.options.logMetric := by
  have passed {request : Request} {some_ : List Aggregated} {h : StatlogDomain.Handled}
      (handled : s.passOn fw request (some some_) cb = some h) :
      h.domain.options = s.options ∧ commonLines h.domain = commonLines s ++
        if s.suspended then [] else some_.map fun ag => commonLine fw ag s.options.logMetric := by
    unfold StatlogDomain.passOn at handled
    split at handled
    · rename_i suspended
      obtain rfl := Option.some.inj handled
      rw [if_pos suspended, List.append_nil]
      split <;> exact ⟨rfl, rfl⟩
    · rename_i active
      have accepted : fw.badRequest (some some_).isNone = none :=
        Option.not_isSome_iff_eq_none.mp (by rw [documented.refuses]; simp)
      rw [accepted] at handled
      obtain rfl := Option.some.inj handled
      obtain ⟨same, lines⟩ := pushLogs_commonLines fw common some_
      rw [if_neg active]
      split
      · exact ⟨same, lines⟩
      · exact ⟨same, lines⟩
  cases request with
  | push req =>
    obtain ⟨ag, rfl⟩ := Option.isSome_iff_exists.mp nonNull
    exact passed handled
  | multiPush req =>
    obtain ⟨ags, rfl⟩ := Option.isSome_iff_exists.mp nonNull
    exact passed handled
  | del req =>
    obtain rfl := Option.some.inj handled
    simp [records]

/-! ### The chain -/

namespace Chain

def pass (fw : Framework) (p : Chain) (source : Source) (cb : Bool) : Option Chain :=
  (p.statlog.perform fw cb source.request).map fun h =>
    { p with statlog := h.domain, passed := p.passed ++ [⟨source, !p.statlog.suspended⟩] }

/-- The collector passes no callback. -/
def passAll (fw : Framework) (p : Chain) (reqs : List (Tick.Push (Collector.Record Aggregated))) : Option Chain :=
  reqs.foldlM (fun p req => p.pass fw (.slot req) false) p

inductive Op where
  | collect (op : Collector.Domain.Op Aggregated)
  | client (request : Request) (cb : Bool)
  | suspend (on : Bool)
  | resolve (live : Bool)

/-- The log is target `j` of the collector. It is called from within the tick, so it sees the requests in the
order in which the collector sends them. -/
def step (fw : Framework) (j : Nat) (p : Chain) : Op → Option Chain
  | .collect op => (p.collector.step op).bind fun collector =>
    { p with collector := collector }.passAll fw ((collector.received j).drop (p.collector.received j).length)
  | .client request cb => p.pass fw (.client request) cb
  | .suspend on => some { p with statlog := { p.statlog with suspended := on } }
  | .resolve live => some { p with statlog := { p.statlog with live := live } }

/-- A collector and a log with nothing sent yet. -/
def opened (options : StatlogConfig) (format : TableFormatOptions) (suspended live : Bool)
    (collector : Tick.StatisticsConfig) (started : Bool) (startPoint : Int) : Chain where
  collector := .created collector started startPoint
  statlog := { idleDomain suspended live with options := options, tableFormat := format }
  passed := []

def slotRequests (p : Chain) : List (Tick.Push (Collector.Record Aggregated)) :=
  p.passed.filterMap fun passed => passed.source.slotRequest

def clientRequests (p : Chain) : List Request := p.passed.filterMap fun passed => passed.source.clientRequest

/-- What became ready in the collector. -/
def arrivals (ops : List Op) : List (Collector.Record Aggregated) :=
  ops.flatMap fun
    | .collect op => op.arrival
    | _ => []

def requests (ops : List Op) : List Request :=
  ops.filterMap fun
    | .client request _ => some request
    | _ => none

/-! ### One request -/

variable {options : StatlogConfig} {p q : Chain} {j : Nat}

/-- The target of the log has got what came to the log, but for the deletions, and the common log has a line for
each record that came while the log was active. -/
structure Carried (fw : Framework) (options : StatlogConfig) (p : Chain) : Prop where
  configured : p.statlog.options = options
  sent : p.statlog.sent = (p.passed.map fun passed => passed.source.request).filter fun request => !request.isDel
  logged : commonLines p.statlog =
    ((p.passed.filter Passed.active).flatMap fun passed => records passed.source.request).map
      fun ag => commonLine fw ag options.logMetric

theorem pass_carried (documented : fw.Documented) (common : CommonLog options) (carried : Carried fw options p)
    (live : p.statlog.live = true) (source : Source) (nonNull : source.request.nonNull = true) (cb : Bool) :
    ∃ q, p.pass fw source cb = some q ∧ Carried fw options q ∧ q.statlog.live = true ∧ q.collector = p.collector ∧
      q.passed = p.passed ++ [⟨source, !p.statlog.suspended⟩] := by
  obtain ⟨h, handled, stays, sent⟩ := perform_sent documented live cb nonNull
  obtain ⟨same, lines⟩ := perform_commonLines documented (carried.configured.symm ▸ common) nonNull handled
  refine ⟨{ p with statlog := h.domain, passed := p.passed ++ [⟨source, !p.statlog.suspended⟩] }, ?_, ?_, stays, rfl, rfl⟩
  · unfold pass
    rw [handled]
    rfl
  · refine ⟨same.trans carried.configured, ?_, ?_⟩
    · show h.domain.sent = ((p.passed ++ [_]).map _).filter _
      rw [sent, carried.sent, List.map_append, List.filter_append]
      rfl
    · show commonLines h.domain = (((p.passed ++ [_]).filter _).flatMap _).map _
      rw [lines, carried.logged, carried.configured, List.filter_append, List.flatMap_append, List.map_append]
      cases p.statlog.suspended with
      | true => rfl
      | false => simp

/-- The collector never sends a null request, so its requests are all passed on. -/
theorem passAll_carried (documented : fw.Documented) (common : CommonLog options) (carried : Carried fw options p)
    (live : p.statlog.live = true) (reqs : List (Tick.Push (Collector.Record Aggregated))) :
    ∃ q, p.passAll fw reqs = some q ∧ Carried fw options q ∧ q.statlog.live = true ∧ q.collector = p.collector ∧
      q.slotRequests = p.slotRequests ++ reqs ∧ q.clientRequests = p.clientRequests := by
  induction reqs generalizing p with
  | nil => exact ⟨p, rfl, carried, live, rfl, (List.append_nil _).symm, rfl⟩
  | cons req rest ih =>
    obtain ⟨m, passed, carried, live, collector, history⟩ :=
      pass_carried documented common carried live (.slot req) rfl false
    obtain ⟨q, others, carried, live, collector', slots, clients⟩ := ih carried live
    refine ⟨q, ?_, carried, live, collector'.trans collector, ?_, ?_⟩
    · show (p.pass fw (.slot req) false).bind (fun p => p.passAll fw rest) = some q
      rw [passed]
      exact others
    · have first : m.slotRequests = p.slotRequests ++ [req] := by
        unfold slotRequests
        rw [history, List.filterMap_append]
        rfl
      rw [slots, first, List.append_assoc]
      rfl
    · have first : m.clientRequests = p.clientRequests := by
        unfold clientRequests
        rw [history, List.filterMap_append]
        exact List.append_nil _
      exact clients.trans first

/-! ### One step -/

/-- The log is a live target of the collector at its ticks, its own target is live, and clients send no null
requests. -/
def Served (j : Nat) (p : Chain) : Op → Prop
  | .collect op => p.statlog.live = true ∧ (op.isTick = true → p.collector.live j = true)
  | .client request _ => p.statlog.live = true ∧ request.nonNull = true
  | _ => True

/-- What holds between the steps. -/
structure Linked (fw : Framework) (options : StatlogConfig) (j : Nat) (p : Chain) : Prop where
  carried : Carried fw options p
  slots : p.slotRequests = p.collector.received j
  tracked : p.collector.Tracked

/-- A step of the chain as the collector sees it, with the requests of clients beside. -/
structure Stepped (j : Nat) (p q : Chain) (op : Op) : Prop where
  all : ∀ feed, (q.collector.feeds j).all feed = (p.collector.feeds j).all feed ++ onFeed feed (arrivals [op])
  clients : q.clientRequests = p.clientRequests ++ requests [op]

theorem linked_step (documented : fw.Documented) (common : CommonLog options) (linked : Linked fw options j p)
    {op : Op} (served : Served j p op) (taken : p.step fw j op = some q) : Linked fw options j q ∧ Stepped j p q op := by
  cases op with
  | collect op =>
    obtain ⟨collector, moved, passed⟩ := Option.bind_eq_some_iff.mp taken
    obtain ⟨live, up⟩ := served
    obtain ⟨new, received⟩ := Collector.Domain.received_grown moved j
    rw [received, List.drop_left] at passed
    have before : Carried fw options { p with collector := collector } :=
      ⟨linked.carried.configured, linked.carried.sent, linked.carried.logged⟩
    obtain ⟨q', passed', carried, -, same, slots, clients⟩ := passAll_carried documented common before live new
    obtain rfl := Option.some.inj (passed.symm.trans passed')
    have here : q.collector = collector := same
    refine ⟨⟨carried, ?_, ?_⟩, ?_, ?_⟩
    · rw [slots, here, received, ← linked.slots]
      rfl
    · rw [here]
      exact Collector.Domain.tracked_step linked.tracked moved
    · intro feed
      rw [here, Collector.Domain.all_step linked.tracked moved up]
      simp [arrivals]
    · rw [clients]
      exact (List.append_nil _).symm
  | client request cb =>
    obtain ⟨live, nonNull⟩ := served
    obtain ⟨q', passed, carried, -, collector, history⟩ :=
      pass_carried documented common linked.carried live (.client request) nonNull cb
    obtain rfl := Option.some.inj (Eq.trans taken.symm passed)
    have slots : q.slotRequests = p.slotRequests := by
      unfold slotRequests
      rw [history, List.filterMap_append]
      exact List.append_nil _
    refine ⟨⟨carried, ?_, ?_⟩, ?_, ?_⟩
    · rw [slots, collector]
      exact linked.slots
    · rw [collector]
      exact linked.tracked
    · intro feed
      rw [collector]
      exact (List.append_nil _).symm
    · unfold clientRequests
      rw [history, List.filterMap_append]
      rfl
  | suspend on =>
    obtain rfl := Option.some.inj taken
    exact ⟨⟨⟨linked.carried.configured, linked.carried.sent, linked.carried.logged⟩, linked.slots, linked.tracked⟩,
      fun _ => (List.append_nil _).symm, (List.append_nil _).symm⟩
  | resolve live =>
    obtain rfl := Option.some.inj taken
    exact ⟨⟨⟨linked.carried.configured, linked.carried.sent, linked.carried.logged⟩, linked.slots, linked.tracked⟩,
      fun _ => (List.append_nil _).symm, (List.append_nil _).symm⟩

/-- The log holds up no step of the collector. -/
theorem collect_enabled (documented : fw.Documented) (common : CommonLog options) (linked : Linked fw options j p)
    (live : p.statlog.live = true) {op : Collector.Domain.Op Aggregated} {collector : Collector.Domain Aggregated}
    (moved : p.collector.step op = some collector) : ∃ q, p.step fw j (.collect op) = some q := by
  have before : Carried fw options { p with collector := collector } :=
    ⟨linked.carried.configured, linked.carried.sent, linked.carried.logged⟩
  obtain ⟨q, passed, -⟩ := passAll_carried documented common before live
    ((collector.received j).drop (p.collector.received j).length)
  refine ⟨q, ?_⟩
  show (p.collector.step op).bind _ = some q
  rw [moved]
  exact passed

/-! ### Runs -/

theorem linked_run (documented : fw.Documented) (common : CommonLog options) (linked : Linked fw options j p)
    {ops : List Op} (served : Meets (step fw j) (Served j) p ops) (run : exec (step fw j) p ops = some q) :
    Linked fw options j q ∧
      (∀ feed, (q.collector.feeds j).all feed = (p.collector.feeds j).all feed ++ onFeed feed (arrivals ops)) ∧
      q.clientRequests = p.clientRequests ++ requests ops := by
  induction ops generalizing p with
  | nil =>
    obtain rfl := Option.some.inj run
    exact ⟨linked, fun _ => (List.append_nil _).symm, (List.append_nil _).symm⟩
  | cons op rest ih =>
    obtain ⟨m, taken, run⟩ := exec_cons_some run
    obtain ⟨now, later⟩ := served m taken
    obtain ⟨linked, first⟩ := linked_step documented common linked now taken
    obtain ⟨linked, all, clients⟩ := ih linked later run
    refine ⟨linked, fun feed => ?_, ?_⟩
    · rw [all, first.all, List.append_assoc, ← onFeed_append]
      unfold arrivals
      rw [← List.flatMap_append]
      rfl
    · rw [clients, first.clients, List.append_assoc]
      unfold requests
      rw [← List.filterMap_append]
      rfl

/-- Behind the log each slot of the collector has its records arrive once and in order, up to what still waits
in the slot, and the requests of other clients arrive as they came; only deletions are kept back. The common log
has a line for each record that came while the log was active, in the same order. -/
theorem chain_delivers_once (fw : Framework) (documented : fw.Documented) (options : StatlogConfig)
    (common : CommonLog options) (format : TableFormatOptions) (suspended live : Bool)
    (collector : Tick.StatisticsConfig) (started : Bool) (startPoint : Int) (j : Nat) (ops : List Op)
    (served : Meets (step fw j) (Served j) (opened options format suspended live collector started startPoint) ops)
    (run : exec (step fw j) (opened options format suspended live collector started startPoint) ops = some q) :
    q.statlog.sent = (q.passed.map fun passed => passed.source.request).filter (fun request => !request.isDel) ∧
      (∀ feed, onFeed feed (q.slotRequests.map Tick.Push.data) ++ q.collector.waiting feed =
        onFeed feed (arrivals ops)) ∧
      q.clientRequests = requests ops ∧
      commonLines q.statlog =
        ((q.passed.filter Passed.active).flatMap fun passed => records passed.source.request).map
          fun ag => commonLine fw ag options.logMetric := by
  have start : Linked fw options j (opened options format suspended live collector started startPoint) :=
    ⟨⟨rfl, rfl, rfl⟩, rfl, Collector.Domain.created_tracked collector started startPoint⟩
  obtain ⟨linked, all, clients⟩ := linked_run documented common start served run
  refine ⟨linked.carried.sent, fun feed => ?_, clients, linked.carried.logged⟩
  rw [linked.slots]
  exact all feed

def served_decidable (j : Nat) (p : Chain) : (op : Op) → Decidable (Served j p op)
  | .collect op => inferInstanceAs (Decidable (p.statlog.live = true ∧ (op.isTick = true → p.collector.live j = true)))
  | .client request _ => inferInstanceAs (Decidable (p.statlog.live = true ∧ request.nonNull = true))
  | .suspend _ => isTrue trivial
  | .resolve _ => isTrue trivial

instance (j : Nat) (p : Chain) (op : Op) : Decidable (Served j p op) := served_decidable j p op

/-- A load of 42 percent. -/
def load : Aggregated := ⟨"", 0, 1, 0, 42, 42, 42, 42, 42, 42, 42, 42, [42]⟩

/-- A log to a common log, as the only target of a collector. -/
def oneLog : Chain := opened { StatlogConfig.default with commonLog := "stat" } .default false true {} false 0

/-- The record is ready when the timer ticks. -/
def oneLoad : List Op :=
  [.collect (.reconfigure { targets := ["log"] }), .collect (.resolveTargets fun _ => true),
    .collect (.start 0 true), .collect (.addSlot 0 "cpu"), .client (.del (some ["mem"])) true,
    .collect (.addReady (0, 0) load)]

theorem oneLoad_delivered :
    ∃ q, exec (step nullTest 0) oneLog (oneLoad ++ [.collect (.tick 1001)]) = some q ∧
      onFeed (0, 0) (q.slotRequests.map Tick.Push.data) ++ q.collector.waiting (0, 0) = [load] := by
  have common : CommonLog { StatlogConfig.default with commonLog := "stat" } := ⟨by decide, by decide⟩
  obtain ⟨m, before, live, up, collector, moved⟩ : ∃ m, exec (step nullTest 0) oneLog oneLoad = some m ∧
      m.statlog.live = true ∧ m.collector.live 0 = true ∧ ∃ c, m.collector.step (.tick 1001) = some c :=
    ⟨_, rfl, rfl, rfl, _, rfl⟩
  have served : Meets (step nullTest 0) (Served 0) oneLog oneLoad := by decide
  have start : Linked nullTest { StatlogConfig.default with commonLog := "stat" } 0 oneLog :=
    ⟨⟨rfl, rfl, rfl⟩, rfl, Collector.Domain.created_tracked {} false 0⟩
  have linked := (linked_run nullTest_documented common start served before).1
  obtain ⟨q, taken⟩ := collect_enabled nullTest_documented common linked live moved
  have run : exec (step nullTest 0) oneLog (oneLoad ++ [.collect (.tick 1001)]) = some q := by
    rw [exec_append, before, Option.bind_some, exec_cons, taken]
    rfl
  have last : Meets (step nullTest 0) (Served 0) m [.collect (.tick 1001)] :=
    fun _ _ => ⟨⟨live, fun _ => up⟩, trivial⟩
  exact ⟨q, run, (chain_delivers_once nullTest nullTest_documented _ common .default false true {} false 0 0 _
    (served.append before last) run).2.1 (0, 0)⟩

end Chain

end WfcCore.Statistics.Statlog

import WfcCore.Logger.Banner
import WfcCore.Prometheus.Monitoring

/-!
# From a message to the gauges

The logger, the status log and the gauges together. The after-handler tells the core the messages `FATAL`, `ERROR`
and `WARNING`, that of `core_abort` among them, and the updates count what the core was told.
-/

namespace WfcCore.Prometheus.Messages

open WfcCore.Core WfcCore.Core.StatusLog Foundation Monitoring
open WfcCore.Logger (Message Moment Setup handledMessages)

structure System where
  log : Logger.State
  monitor : Monitoring.State

def System.start (opt : StatusLogOptions) : System where
  log := .new
  monitor := .start opt

/-- The `i`-th call of `set_status` by the logger reads the clock `clocks i`. -/
inductive Action where
  | logger (a : Logger.Action) (clocks : Nat → Clock)
  | monitor (a : Monitoring.Action)

def told (es : List Logger.Event) : StatusList :=
  es.filterMap fun
    | .setStatus status text => some (status, text)
    | _ => none

def news (s t : Logger.State) : List Logger.Event := t.events.drop s.events.length

def setStatuses (clocks : Nat → Clock) (entries : StatusList) : List StatusLog.Action :=
  entries.mapIdx fun i e => .setStatus e.1 e.2 (clocks i)

def tell (overflow : Overflow) (m : Monitoring.State) (calls : List StatusLog.Action) : Monitoring.State :=
  { m with log := calls.foldl (perform overflow m.opt) m.log }

def setsStatus : Monitoring.Action → Bool
  | .setStatus .. => true
  | _ => false

/-- Nobody but the logger sets a status. A message is handled in one step, with all that it makes the core log. -/
def step (overflow : Overflow) (setup : Setup) (s : System) : Action → Option System
  | .logger a clocks =>
    let log := Logger.perform setup s.log a
    some ⟨log, tell overflow s.monitor (setStatuses clocks (told (news s.log log)))⟩
  | .monitor a =>
    if setsStatus a then none else (Monitoring.step overflow s.monitor a).map fun m => { s with monitor := m }

/-! ### What a message is to the core -/

def verdict (setup : Setup) (ident : String) : Option CoreStatus :=
  if ident = "FATAL" then some (if setup.stopByFatal then .abort else .error)
  else if ident = "ERROR" then some .error
  else if ident = "WARNING" then some .warining
  else none

def entry (setup : Setup) (msg : Message) : Option (CoreStatus × String) :=
  (verdict setup msg.ident).map fun status => (status, setup.logformat msg)

/-- The texts that messages leave under a status. -/
def texts (setup : Setup) (status : CoreStatus) (msgs : List Message) : List String :=
  messages status (msgs.filterMap (entry setup))

def moment : Logger.Action → Moment
  | .log a => a.at_
  | .coreAbort at_ _ => at_
  | .coreStop at_ => at_
  | .coreRestart at_ => at_
  | .signalSigintHandler at_ _ => at_

/-- The handler holds the core, or finds it. -/
def knows (l : Logger.State) (a : Logger.Action) : Bool := l.wcore || (moment a).configured

/-- What a run leaves: `fresh` are the messages handled with the core known since the last `core::reconfigure`, and
`read` those of them that came before the last call of `get_status` by an update. -/
structure Past where
  log : Logger.State
  monitor : History
  fresh : List Message
  read : List Message

def Past.next (setup : Setup) (p : Past) : Action → Past
  | .logger a clocks =>
    let log := Logger.perform setup p.log a
    { p with
      log := log
      monitor := (setStatuses clocks (told (news p.log log))).foldl History.call p.monitor
      fresh := if knows p.log a then p.fresh ++ handledMessages (news p.log log) else p.fresh }
  | .monitor a =>
    { p with
      monitor := p.monitor.next a
      fresh := match a with
        | .reconfigure _ => []
        | _ => p.fresh
      read := match a with
        | .getStatus .. => p.fresh
        | _ => p.read }

def past (setup : Setup) (opt : StatusLogOptions) (as : List Action) : Past :=
  as.foldl (Past.next setup) ⟨.new, history opt [], [], []⟩

/-! ### The handler tells the core each message once -/

section Handler

variable (setup : Setup) (s : Logger.State) (at_ : Moment) (depth : Nat) (msg : Message)

/-- Of events that all found the core, or all did not. -/
def Told (setup : Setup) (known : Bool) (es : List Logger.Event) : Prop :=
  told es = if known then (handledMessages es).filterMap (entry setup) else []

theorem told_append (es more : List Logger.Event) : told (es ++ more) = told es ++ told more := List.filterMap_append

theorem Told.append {setup : Setup} {known : Bool} {es more : List Logger.Event} (first : Told setup known es)
    (rest : Told setup known more) : Told setup known (es ++ more) := by
  unfold Told at first rest ⊢
  rw [told_append, first, rest, Logger.handledMessages_append, List.filterMap_append]
  cases known <;> rfl

theorem setStatus_events (status : CoreStatus) :
    (s.setStatus setup at_ status msg).events =
        s.events ++ (if s.wcore || at_.configured then [.setStatus status (setup.logformat msg)] else []) ∧
      (s.setStatus setup at_ status msg).wcore = (s.wcore || at_.configured) := by
  unfold Logger.State.setStatus
  dsimp only
  cases s.wcore || at_.configured <;> simp [Logger.State.emit]

theorem keepFirst_same : (s.keepFirst msg).events = s.events ∧ (s.keepFirst msg).wcore = s.wcore := by
  unfold Logger.State.keepFirst
  split <;> exact ⟨rfl, rfl⟩

/-- Events of one message that sets a status. -/
theorem told_status {status : CoreStatus} (given : verdict setup msg.ident = some status) (known : Bool) :
    Told setup known
      (.handled depth msg :: if known then [.setStatus status (setup.logformat msg)] else []) := by
  cases known <;> simp [Told, told, handledMessages, entry, given]

theorem note_told : ∃ es, (s.note setup at_ depth msg).events = s.events ++ es ∧
    Told setup (s.wcore || at_.configured) es ∧
    ((s.note setup at_ depth msg).wcore || at_.configured) = (s.wcore || at_.configured) := by
  have noted (status : CoreStatus) (given : verdict setup msg.ident = some status) :
      ∃ es, ((s.emit (.handled depth msg)).setStatus setup at_ status msg).events = s.events ++ es ∧
        Told setup (s.wcore || at_.configured) es ∧
        (((s.emit (.handled depth msg)).setStatus setup at_ status msg).wcore || at_.configured) =
          (s.wcore || at_.configured) := by
    obtain ⟨events, wcore⟩ := setStatus_events setup (s.emit (.handled depth msg)) at_ msg status
    refine ⟨_, ?_, told_status setup depth msg given _, ?_⟩
    · rw [events]
      simp [Logger.State.emit]
    · rw [wcore]
      simp [Logger.State.emit]
  unfold Logger.State.note
  split
  · rename_i fatal
    obtain ⟨events, wcore⟩ := keepFirst_same ((s.emit (.handled depth msg)).setStatus setup at_
      (if setup.stopByFatal then .abort else .error) msg) msg
    rw [events, wcore]
    exact noted _ (by rw [verdict, if_pos fatal])
  · rename_i notFatal
    split
    · rename_i error
      exact noted _ (by rw [verdict, if_neg notFatal, if_pos error])
    · rename_i notError
      split
      · rename_i warning
        exact noted _ (by rw [verdict, if_neg notFatal, if_neg notError, if_pos warning])
      · rename_i other
        refine ⟨[.handled depth msg], rfl, ?_, rfl⟩
        have silent : verdict setup msg.ident = none := by
          rw [verdict, if_neg notFatal, if_neg notError, if_neg other]
        cases s.wcore || at_.configured <;> simp [Told, told, handledMessages, entry, silent]

theorem coreAbort_told (message : String) : ∃ es, (Logger.coreAbort setup at_ depth s message).events = s.events ++ es ∧
    Told setup (s.wcore || at_.configured) es := by
  cases stopping : s.stopSignalFlag with
  | true =>
    rw [Logger.coreAbort_of_stopping stopping]
    refine ⟨[], (List.append_nil _).symm, ?_⟩
    cases s.wcore || at_.configured <;> rfl
  | false =>
    rw [Logger.coreAbort_of_running stopping]
    obtain ⟨es, events, nested, -⟩ := note_told setup
      (({ s with stopSignalFlag := true } : Logger.State).emit (.coreFatal message)) at_ (depth + 1)
      (Logger.fatalMessage setup at_ message)
    refine ⟨.coreFatal message :: es, ?_, nested⟩
    show (Logger.State.note _ _ _ _ _).events = _
    rw [events]
    simp [Logger.State.emit]

theorem afterHandler_told : ∃ es, (Logger.afterHandler setup at_ depth s msg).events = s.events ++ es ∧
    Told setup (s.wcore || at_.configured) es := by
  obtain ⟨first, events, single, wcore⟩ := note_told setup s at_ depth msg
  by_cases aborts : Logger.Aborts setup s msg
  · rw [Logger.afterHandler_of_aborts aborts]
    obtain ⟨rest, more, nested⟩ := coreAbort_told setup (s.note setup at_ depth msg) at_ depth
      Logger.abortMessage
    rw [wcore] at nested
    refine ⟨first ++ rest, ?_, single.append nested⟩
    rw [more, events, List.append_assoc]
  · rw [Logger.afterHandler_of_not aborts]
    exact ⟨first, events, single⟩

theorem perform_told (a : Logger.Action) :
    Told setup (knows s a) (news s (Logger.perform setup s a)) := by
  have fresh : ∃ es, (Logger.perform setup s a).events = s.events ++ es ∧ Told setup (knows s a) es := by
    cases a with
    | log a => exact afterHandler_told setup s a.at_ 1 a.msg
    | coreAbort at_ message => exact coreAbort_told setup s at_ 0 message
    | coreStop at_ => exact afterHandler_told setup s at_ 1 _
    | coreRestart at_ => exact afterHandler_told setup s at_ 1 _
    | signalSigintHandler at_ sig => exact afterHandler_told setup s at_ 1 _
  obtain ⟨es, events, passed⟩ := fresh
  rw [news, events, List.drop_left]
  exact passed

end Handler

/-! ### Runs -/

theorem reports_setStatuses (st : CoreStatus) (clocks : Nat → Clock) (entries : StatusList) :
    (reports st (setStatuses clocks entries)).map (·.message) = messages st entries := by
  induction entries generalizing clocks with
  | nil => rfl
  | cons e rest ih =>
    have later := ih fun i => clocks (i + 1)
    have cut : setStatuses clocks (e :: rest) =
        .setStatus e.1 e.2 (clocks 0) :: setStatuses (fun i => clocks (i + 1)) rest := List.mapIdx_cons
    rw [cut, reports, List.flatMap_cons, List.map_append, ← reports, later]
    by_cases same : e.1 = st <;> simp [report, messages, same]

theorem foldl_call (h : History) (calls : List StatusLog.Action) :
    calls.foldl History.call h = { h with calls := h.calls ++ calls } := by
  induction calls generalizing h with
  | nil => simp
  | cons c rest ih => simp [ih, History.call]

theorem tracks_tell {overflow : Overflow} {h : History} {m : Monitoring.State} (tracks : Tracks overflow h m)
    {calls : List StatusLog.Action} (kept : ∀ c ∈ calls, c.isReconfigure = false) :
    Tracks overflow (calls.foldl History.call h) (tell overflow m calls) := by
  induction calls generalizing h m with
  | nil => exact tracks
  | cons c rest ih =>
    obtain ⟨now, later⟩ := List.forall_mem_cons.mp kept
    exact ih (tracks.call now) later

theorem setStatuses_kept (clocks : Nat → Clock) (entries : StatusList) :
    ∀ c ∈ setStatuses clocks entries, c.isReconfigure = false := by
  intro c member
  obtain ⟨i, inside, rfl⟩ := List.mem_mapIdx.mp member
  rfl

/-- The calls report the messages. -/
def Report (setup : Setup) (calls : List StatusLog.Action) (msgs : List Message) : Prop :=
  ∀ st, (reports st calls).map (·.message) = texts setup st msgs

theorem texts_append (setup : Setup) (st : CoreStatus) (msgs more : List Message) :
    texts setup st (msgs ++ more) = texts setup st msgs ++ texts setup st more := by
  rw [texts, List.filterMap_append, messages_append]
  rfl

theorem Report.silent {setup : Setup} {calls : List StatusLog.Action} {msgs : List Message}
    (report : Report setup calls msgs) {c : StatusLog.Action} (silent : ∀ st, StatusLog.report st c = []) :
    Report setup (calls ++ [c]) msgs := by
  intro st
  rw [reports_append, silent st, List.append_nil]
  exact report st

structure Linked (overflow : Overflow) (setup : Setup) (p : Past) (s : System) : Prop where
  log : s.log = p.log
  tracks : Tracks overflow p.monitor s.monitor
  fresh : Report setup p.monitor.calls p.fresh
  read : ∀ r, p.monitor.reading = some r → Report setup r.calls p.read

section Runs

variable {overflow : Overflow} {setup : Setup} {opt : StatusLogOptions} {as : List Action} {p : Past} {s t : System}

theorem linked_logger (linked : Linked overflow setup p s) (a : Logger.Action) (clocks : Nat → Clock) :
    Report setup (p.next setup (.logger a clocks)).monitor.calls (p.next setup (.logger a clocks)).fresh := by
  have passed := perform_told setup p.log a
  intro st
  simp only [Past.next]
  rw [foldl_call]
  show (reports st (_ ++ _)).map _ = _
  rw [reports, List.flatMap_append, List.map_append, ← reports, ← reports, linked.fresh st, reports_setStatuses]
  unfold Told at passed
  rw [passed]
  cases knows p.log a with
  | true =>
    rw [if_pos rfl, if_pos rfl, texts_append]
    rfl
  | false => simp

theorem linked_step {a : Action} (linked : Linked overflow setup p s) (taken : step overflow setup s a = some t) :
    Linked overflow setup (p.next setup a) t := by
  cases a with
  | logger a clocks =>
    obtain rfl := Option.some.inj taken
    refine ⟨?_, ?_, linked_logger linked a clocks, ?_⟩
    · simp only [Past.next, linked.log]
    · simp only [Past.next, linked.log]
      exact tracks_tell linked.tracks (setStatuses_kept _ _)
    · simp only [Past.next, foldl_call]
      exact linked.read
  | monitor a =>
    simp only [step, Option.ite_none_left_eq_some, Option.map_eq_some_iff] at taken
    obtain ⟨own, m, moved, rfl⟩ := taken
    refine ⟨linked.log, tracks_step linked.tracks moved, ?_, ?_⟩
    · cases a with
      | setStatus st msg clock => exact absurd rfl own
      | setStage cs => exact linked.fresh.silent fun _ => rfl
      | text active clock => exact linked.fresh.silent fun _ => rfl
      | reconfigure opt => exact fun _ => rfl
      | getStatus active clock => exact linked.fresh.silent fun _ => rfl
      | update => exact linked.fresh
      | write => exact linked.fresh
      | finish => exact linked.fresh
    · cases a with
      | getStatus active clock =>
        intro r read
        obtain rfl := Option.some.inj read
        exact linked.fresh
      | _ => exact linked.read

theorem linked_exec (run : exec (step overflow setup) (System.start opt) as = some s) :
    Linked overflow setup (past setup opt as) s := by
  refine exec_history (fun before s => Linked overflow setup (past setup opt before) s) ?_ ?_ run
  · exact ⟨rfl, tracks_start overflow opt, fun _ => rfl, fun r read => by cases read⟩
  · intro before m a t linked taken
    rw [past, List.foldl_append]
    exact linked_step linked taken

/-- Between updates the gauges tell the messages: what the last update found reported are the messages `ERROR`,
`WARNING` and `FATAL` that were logged with the core known, in their order and each once, and every abort counts. -/
theorem messages_counted (run : exec (step overflow setup) (System.start opt) as = some s)
    (idle : s.monitor.phase = .idle) {r : Reading} (reading : (past setup opt as).monitor.reading = some r)
    {earliest : TimePoint} (fits : Fits earliest r.opt) (steady : r.Steady overflow earliest) :
    Tells overflow r s.monitor.gauges ∧
      (∀ st, (reports st r.calls).map (·.message) = texts setup st (past setup opt as).read) ∧
      s.monitor.gauges .fatals = (texts setup .abort (past setup opt as).read).length := by
  have linked := linked_exec run
  have tells := (linked.tracks.tells idle).2 r earliest reading fits steady
  have report := linked.read r reading
  refine ⟨tells, report, ?_⟩
  rw [tells.fatals, ← report .abort, List.length_map]

end Runs

def slowDisk : Message := ⟨4, "storage", "WARNING", "slow disk"⟩

/-- The warning finds the logger configured, then there is an update. -/
def warned : List Action :=
  .logger (.log ⟨⟨true, 5⟩, slowDisk⟩) (fun _ => .still 1) ::
    ([.update] ++ List.replicate 5 .write ++ [.getStatus [] (.still 2)] ++ List.replicate 3 .write ++
      [.finish] : List Monitoring.Action).map .monitor

def warnedSetup : Setup := ⟨true, Message.message, "SYSLOG"⟩

def warnedLog : Logger.State :=
  { Logger.State.new with
    wcore := true
    events := [.handled 1 slowDisk, .setStatus .warining "slow disk"] }

theorem perform_slowDisk : Logger.perform warnedSetup .new (.log ⟨⟨true, 5⟩, slowDisk⟩) = warnedLog := by
  show Logger.afterHandler _ _ _ _ _ = _
  rw [Logger.afterHandler_of_not]
  · rfl
  · rintro ⟨fatal, -⟩
    exact absurd fatal (by decide)

theorem messages_counted_warned :
    let wrap : Overflow := IntType.longInt.convert
    ∃ s r, exec (step wrap warnedSetup) (System.start .default) warned = some s ∧
      (past warnedSetup .default warned).monitor.reading = some r ∧ Tells wrap r s.monitor.gauges ∧
      (reports .warining r.calls).map (·.message) = ["slow disk"] := by
  intro wrap
  let first : Action := .logger (.log ⟨⟨true, 5⟩, slowDisk⟩) fun _ => .still 1
  have stepped : step wrap warnedSetup (System.start .default) first =
      some ⟨warnedLog, tell wrap (.start .default) [.setStatus .warining "slow disk" (.still 1)]⟩ := by
    simp only [first, step, System.start, perform_slowDisk]
    rfl
  obtain ⟨s, run, idle⟩ : ∃ s, exec (step wrap warnedSetup) (System.start .default) warned = some s ∧
      s.monitor.phase = .idle := by
    rw [warned, exec_cons, stepped]
    set_option maxRecDepth 1000 in
    exact ⟨_, rfl, rfl⟩
  have noted : Past.next warnedSetup ⟨.new, history .default [], [], []⟩ first =
      ⟨warnedLog, (history .default []).call (.setStatus .warining "slow disk" (.still 1)), [slowDisk], []⟩ := by
    simp only [first, Past.next, perform_slowDisk]
    rfl
  have reading : (past warnedSetup .default warned).monitor.reading =
      some ⟨.default, [.setStatus .warining "slow disk" (.still 1)], [], .still 2⟩ := by
    rw [past, warned, List.foldl_cons, noted]
    rfl
  have fits : Fits (IntType.longInt.convert 0) StatusLogOptions.default := by decide
  exact ⟨s, _, run, reading, (messages_counted run idle reading fits (by decide)).1, by decide⟩

end WfcCore.Prometheus.Messages

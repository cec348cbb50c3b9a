import Mathlib.Data.List.Induction
import WfcCore.Core.StatusLog

/-!
# Fatal messages

The after-handler that `logger::init_log_` installs, and `core::core_abort`. On a message `FATAL` the logger
calls the core, which logs such a message itself and so comes back to the logger. What stops this is
`stop_signal_flag`, set between the check and the nested message.
-/

namespace WfcCore.Logger

open WfcCore.Core

structure Message where
  tp : Int
  logname : String
  ident : String
  message : String
deriving DecidableEq

/-- What the handler captures, and the log that `SYSTEM_LOG_FATAL` writes to. -/
structure Setup where
  stopByFatal : Bool
  logformat : Message → String
  systemLog : String

/-- How a call finds the logger: whether it is configured, and the clock for a nested message. -/
structure Moment where
  configured : Bool
  now : Int
deriving DecidableEq

/-- `depth` counts the activations of the handler, `coreFatal` is `core_abort` logging its message. -/
inductive Event where
  | handled (depth : Nat) (msg : Message)
  | setStatus (status : CoreStatus) (text : String)
  | coreFatal (message : String)
deriving DecidableEq

/-- The flags of `wfcglobal` and of the core, and what the logger keeps. `wcore` tells whether the handler
holds the core. -/
structure State where
  stopSignalFlag : Bool
  gsStopSignal : Bool
  stopFlag : Bool
  abortFlag : Bool
  lastMessage : Option Message
  wcore : Bool
  events : List Event
deriving DecidableEq

def State.emit (s : State) (e : Event) : State := { s with events := s.events ++ [e] }

/-- The handler looks for the core where it does not hold it, and tells it the status. -/
def State.setStatus (s : State) (setup : Setup) (at_ : Moment) (status : CoreStatus) (msg : Message) : State :=
  let s := { s with wcore := s.wcore || at_.configured }
  if s.wcore then s.emit (.setStatus status (setup.logformat msg)) else s

def State.keepFirst (s : State) (msg : Message) : State :=
  match s.lastMessage with
  | none => { s with lastMessage := some msg }
  | some _ => s

@[simp] theorem setStatus_stopSignalFlag (s : State) (setup : Setup) (at_ : Moment) (status : CoreStatus)
    (msg : Message) : (s.setStatus setup at_ status msg).stopSignalFlag = s.stopSignalFlag := by
  unfold State.setStatus
  dsimp only
  split <;> rfl

@[simp] theorem keepFirst_stopSignalFlag (s : State) (msg : Message) :
    (s.keepFirst msg).stopSignalFlag = s.stopSignalFlag := by
  unfold State.keepFirst
  split <;> rfl

/-- What the handler tells `wfc_abort`. -/
def abortMessage : String := "Abnormal Shutdown by 'FATAL' message!"

mutual

def afterHandler (setup : Setup) (at_ : Moment) (depth : Nat) (s : State) (msg : Message) : State :=
  if msg.ident = "FATAL" then
    let noted := ((s.emit (.handled depth msg)).setStatus setup at_
      (if setup.stopByFatal then .abort else .error) msg).keepFirst msg
    if setup.stopByFatal = true ∧ noted.stopSignalFlag = false then
      coreAbort setup at_ depth noted abortMessage
    else noted
  else if msg.ident = "ERROR" then (s.emit (.handled depth msg)).setStatus setup at_ .error msg
  else if msg.ident = "WARNING" then (s.emit (.handled depth msg)).setStatus setup at_ .warining msg
  else s.emit (.handled depth msg)
termination_by 2 * (if s.stopSignalFlag then 0 else 1) + 1
decreasing_by simp [State.emit]

def coreAbort (setup : Setup) (at_ : Moment) (depth : Nat) (s : State) (message : String) : State :=
  if s.stopSignalFlag = false then
    let flagged := { s with stopSignalFlag := true }
    let logged := afterHandler setup at_ (depth + 1) (flagged.emit (.coreFatal message))
      ⟨at_.now, setup.systemLog, "FATAL", message⟩
    { logged with gsStopSignal := true, stopFlag := true, abortFlag := true }
  else { s with gsStopSignal := true, stopFlag := true, abortFlag := true }
termination_by 2 * (if s.stopSignalFlag then 0 else 1)
decreasing_by simp_all [State.emit]

end

/-! ### The two functions without their recursion -/

section Effects

variable {setup : Setup} {at_ : Moment} {depth : Nat} {s : State} {msg : Message} {message : String}

/-- What the handler does with a message before it may call the core. -/
def State.note (s : State) (setup : Setup) (at_ : Moment) (depth : Nat) (msg : Message) : State :=
  if msg.ident = "FATAL" then
    ((s.emit (.handled depth msg)).setStatus setup at_ (if setup.stopByFatal then .abort else .error) msg).keepFirst msg
  else if msg.ident = "ERROR" then (s.emit (.handled depth msg)).setStatus setup at_ .error msg
  else if msg.ident = "WARNING" then (s.emit (.handled depth msg)).setStatus setup at_ .warining msg
  else s.emit (.handled depth msg)

def State.raise (s : State) : State := { s with gsStopSignal := true, stopFlag := true, abortFlag := true }

def fatalMessage (setup : Setup) (at_ : Moment) (message : String) : Message :=
  ⟨at_.now, setup.systemLog, "FATAL", message⟩

/-- The handler calls the core. -/
def Aborts (setup : Setup) (s : State) (msg : Message) : Prop :=
  msg.ident = "FATAL" ∧ setup.stopByFatal = true ∧ s.stopSignalFlag = false

instance (setup : Setup) (s : State) (msg : Message) : Decidable (Aborts setup s msg) :=
  inferInstanceAs (Decidable (_ ∧ _))

theorem note_eq_note (s : State) (setup : Setup) (at_ : Moment) (depth : Nat) (msg : Message) :
    ∃ statuses wcore, s.note setup at_ depth msg =
      { s with
        wcore := wcore
        lastMessage := if msg.ident = "FATAL" then s.lastMessage.or (some msg) else s.lastMessage
        events := s.events ++ .handled depth msg :: statuses } ∧
      ∀ e ∈ statuses, ∃ status text, e = .setStatus status text := by
  have told (status : CoreStatus) : ∃ statuses wcore, (s.emit (.handled depth msg)).setStatus setup at_ status msg =
      { s with wcore := wcore, events := s.events ++ .handled depth msg :: statuses } ∧
      ∀ e ∈ statuses, ∃ status text, e = .setStatus status text := by
    unfold State.setStatus
    dsimp only
    split
    · exact ⟨[.setStatus status (setup.logformat msg)], s.wcore || at_.configured, by simp [State.emit], by simp⟩
    · exact ⟨[], _, rfl, by simp⟩
  unfold State.note
  split
  · obtain ⟨statuses, wcore, equal, only⟩ := told (if setup.stopByFatal then .abort else .error)
    refine ⟨statuses, wcore, ?_, only⟩
    rw [equal]
    unfold State.keepFirst
    cases s.lastMessage <;> rfl
  · split
    · exact told .error
    · split
      · exact told .warining
      · exact ⟨[], s.wcore, rfl, by simp⟩

@[simp] theorem note_stopSignalFlag : (s.note setup at_ depth msg).stopSignalFlag = s.stopSignalFlag := by
  obtain ⟨_, _, equal, _⟩ := note_eq_note s setup at_ depth msg
  rw [equal]

@[simp] theorem note_gsStopSignal : (s.note setup at_ depth msg).gsStopSignal = s.gsStopSignal := by
  obtain ⟨_, _, equal, _⟩ := note_eq_note s setup at_ depth msg
  rw [equal]

@[simp] theorem note_stopFlag : (s.note setup at_ depth msg).stopFlag = s.stopFlag := by
  obtain ⟨_, _, equal, _⟩ := note_eq_note s setup at_ depth msg
  rw [equal]

@[simp] theorem note_abortFlag : (s.note setup at_ depth msg).abortFlag = s.abortFlag := by
  obtain ⟨_, _, equal, _⟩ := note_eq_note s setup at_ depth msg
  rw [equal]

theorem note_lastMessage : (s.note setup at_ depth msg).lastMessage =
    if msg.ident = "FATAL" then s.lastMessage.or (some msg) else s.lastMessage := by
  obtain ⟨_, _, equal, _⟩ := note_eq_note s setup at_ depth msg
  rw [equal]

theorem afterHandler_of_not (quiet : ¬ Aborts setup s msg) :
    afterHandler setup at_ depth s msg = s.note setup at_ depth msg := by
  rw [afterHandler, State.note]
  by_cases fatal : msg.ident = "FATAL"
  · rw [if_pos fatal, if_pos fatal, if_neg]
    rintro ⟨on, running⟩
    exact quiet ⟨fatal, on, by simpa [State.emit] using running⟩
  · rw [if_neg fatal, if_neg fatal]

theorem afterHandler_of_aborts (aborts : Aborts setup s msg) :
    afterHandler setup at_ depth s msg =
      coreAbort setup at_ depth (s.note setup at_ depth msg) abortMessage := by
  obtain ⟨fatal, on, running⟩ := aborts
  rw [afterHandler, State.note, if_pos fatal, if_pos fatal, if_pos]
  exact ⟨on, by simpa [State.emit] using running⟩

theorem coreAbort_of_stopping (stopping : s.stopSignalFlag = true) :
    coreAbort setup at_ depth s message = s.raise := by
  rw [coreAbort, if_neg (by simp [stopping])]
  rfl

/-- The nested message finds the flag set and aborts nothing more. -/
theorem coreAbort_of_running (running : s.stopSignalFlag = false) :
    coreAbort setup at_ depth s message =
      ((({ s with stopSignalFlag := true }).emit (.coreFatal message)).note setup at_ (depth + 1)
        (fatalMessage setup at_ message)).raise := by
  rw [coreAbort, if_pos running]
  dsimp only
  rw [afterHandler_of_not]
  · rfl
  · rintro ⟨-, -, nested⟩
    cases nested

end Effects

/-! ### What is read off the events -/

def depths (es : List Event) : List Nat :=
  es.filterMap fun | .handled depth _ => some depth | _ => none

def handledMessages (es : List Event) : List Message :=
  es.filterMap fun | .handled _ msg => some msg | _ => none

def emitted (es : List Event) : List String :=
  es.filterMap fun | .coreFatal message => some message | _ => none

section Events

variable {depth : Nat} {msg : Message} {message : String} {es more : List Event}

@[simp] theorem depths_append : depths (es ++ more) = depths es ++ depths more := List.filterMap_append
@[simp] theorem depths_handled : depths (.handled depth msg :: es) = depth :: depths es := rfl
@[simp] theorem depths_coreFatal : depths (.coreFatal message :: es) = depths es := rfl
@[simp] theorem depths_nil : depths [] = [] := rfl

@[simp] theorem handledMessages_append : handledMessages (es ++ more) = handledMessages es ++ handledMessages more :=
  List.filterMap_append
@[simp] theorem handledMessages_handled : handledMessages (.handled depth msg :: es) = msg :: handledMessages es := rfl
@[simp] theorem handledMessages_coreFatal : handledMessages (.coreFatal message :: es) = handledMessages es := rfl
@[simp] theorem handledMessages_nil : handledMessages [] = [] := rfl

@[simp] theorem emitted_append : emitted (es ++ more) = emitted es ++ emitted more := List.filterMap_append
@[simp] theorem emitted_handled : emitted (.handled depth msg :: es) = emitted es := rfl
@[simp] theorem emitted_coreFatal : emitted (.coreFatal message :: es) = message :: emitted es := rfl
@[simp] theorem emitted_nil : emitted [] = [] := rfl

end Events

section Observed

variable (s : State) (setup : Setup) (at_ : Moment) (depth : Nat) (msg : Message) (message : String)

theorem note_events : ∃ statuses, (s.note setup at_ depth msg).events = s.events ++ .handled depth msg :: statuses ∧
    depths statuses = [] ∧ handledMessages statuses = [] ∧ emitted statuses = [] := by
  obtain ⟨statuses, _, equal, only⟩ := note_eq_note s setup at_ depth msg
  refine ⟨statuses, by rw [equal], ?_, ?_, ?_⟩
  all_goals
    apply List.filterMap_eq_nil_iff.mpr
    intro e member
    obtain ⟨status, text, rfl⟩ := only e member
    rfl

@[simp] theorem note_depths : depths (s.note setup at_ depth msg).events = depths s.events ++ [depth] := by
  obtain ⟨statuses, equal, silent, -, -⟩ := note_events s setup at_ depth msg
  rw [equal, depths_append, depths_handled, silent]

@[simp] theorem note_handledMessages :
    handledMessages (s.note setup at_ depth msg).events = handledMessages s.events ++ [msg] := by
  obtain ⟨statuses, equal, -, silent, -⟩ := note_events s setup at_ depth msg
  rw [equal, handledMessages_append, handledMessages_handled, silent]

@[simp] theorem note_emitted : emitted (s.note setup at_ depth msg).events = emitted s.events := by
  obtain ⟨statuses, equal, -, -, silent⟩ := note_events s setup at_ depth msg
  rw [equal, emitted_append, emitted_handled, silent, List.append_nil]

end Observed

/-! ### What a call does -/

/-- The state after a call, by what it reads: `sent` are the messages that go through the handler, at the depths
`levels`, `own` are those that `core_abort` logs, and `aborted` tells whether `core_abort` runs. -/
structure Outcome (s t : State) (levels : List Nat) (sent : List Message) (own : List String) (aborted : Bool) :
    Prop where
  depths : depths t.events = depths s.events ++ levels
  handled : handledMessages t.events = handledMessages s.events ++ sent
  emitted : emitted t.events = emitted s.events ++ own
  last : t.lastMessage = s.lastMessage.or (sent.find? (·.ident == "FATAL"))
  stopSignalFlag : t.stopSignalFlag = (s.stopSignalFlag || aborted)
  gsStopSignal : t.gsStopSignal = (s.gsStopSignal || aborted)
  stopFlag : t.stopFlag = (s.stopFlag || aborted)
  abortFlag : t.abortFlag = (s.abortFlag || aborted)

section Calls

variable {setup : Setup} {at_ : Moment} {depth : Nat} {s t : State} {msg : Message} {message : String}

theorem note_outcome : Outcome s (s.note setup at_ depth msg) [depth] [msg] [] false where
  depths := note_depths ..
  handled := note_handledMessages ..
  emitted := by simp
  last := by
    rw [note_lastMessage]
    by_cases fatal : msg.ident = "FATAL"
    · simp [fatal]
    · simp [fatal]
  stopSignalFlag := by simp
  gsStopSignal := by simp
  stopFlag := by simp
  abortFlag := by simp

theorem coreAbort_outcome_stopping (stopping : s.stopSignalFlag = true) :
    Outcome s (coreAbort setup at_ depth s message) [] [] [] true := by
  rw [coreAbort_of_stopping stopping]
  constructor <;> simp [State.raise, stopping]

theorem coreAbort_outcome_running (running : s.stopSignalFlag = false) :
    Outcome s (coreAbort setup at_ depth s message) [depth + 1] [fatalMessage setup at_ message] [message] true := by
  rw [coreAbort_of_running running]
  constructor <;> simp [State.raise, State.emit, note_lastMessage, fatalMessage]

theorem afterHandler_outcome (quiet : ¬ Aborts setup s msg) :
    Outcome s (afterHandler setup at_ depth s msg) [depth] [msg] [] false := by
  rw [afterHandler_of_not quiet]
  exact note_outcome

theorem Outcome.trans {u : State} {levels later : List Nat} {sent next : List Message} {own further : List String}
    {aborted again : Bool} (first : Outcome s t levels sent own aborted)
    (second : Outcome t u later next further again) :
    Outcome s u (levels ++ later) (sent ++ next) (own ++ further) (aborted || again) where
  depths := by rw [second.depths, first.depths, List.append_assoc]
  handled := by rw [second.handled, first.handled, List.append_assoc]
  emitted := by rw [second.emitted, first.emitted, List.append_assoc]
  last := by rw [second.last, first.last, Option.or_assoc, List.find?_append]
  stopSignalFlag := by rw [second.stopSignalFlag, first.stopSignalFlag, Bool.or_assoc]
  gsStopSignal := by rw [second.gsStopSignal, first.gsStopSignal, Bool.or_assoc]
  stopFlag := by rw [second.stopFlag, first.stopFlag, Bool.or_assoc]
  abortFlag := by rw [second.abortFlag, first.abortFlag, Bool.or_assoc]

/-- A fatal message that aborts goes through the handler before the message of `core_abort`. -/
theorem afterHandler_outcome_aborts (aborts : Aborts setup s msg) :
    Outcome s (afterHandler setup at_ depth s msg) [depth, depth + 1]
      [msg, fatalMessage setup at_ abortMessage] [abortMessage] true := by
  rw [afterHandler_of_aborts aborts]
  have running : (s.note setup at_ depth msg).stopSignalFlag = false := by
    rw [note_stopSignalFlag]
    exact aborts.2.2
  have first : Outcome s (s.note setup at_ depth msg) [depth] [msg] [] false := note_outcome
  exact first.trans (coreAbort_outcome_running running)

end Calls

/-! ### A run of messages -/

structure Arrival where
  at_ : Moment
  msg : Message
deriving DecidableEq

def handle (setup : Setup) (s : State) (a : Arrival) : State :=
  afterHandler setup a.at_ 1 s a.msg

def handleAll (setup : Setup) (s : State) (as : List Arrival) : State :=
  as.foldl (handle setup) s

/-- The handler nests once at most, `core_abort` has logged at most one message, and only if the flag is set,
and the message kept is the first fatal one. -/
structure Contained (s : State) : Prop where
  shallow : ∀ depth ∈ depths s.events, depth ≤ 2
  once : (emitted s.events).length ≤ if s.stopSignalFlag then 1 else 0
  first : s.lastMessage = (handledMessages s.events).find? (·.ident == "FATAL")

section Runs

variable {setup : Setup} {s t : State}

theorem Contained.outcome {levels : List Nat} {sent : List Message} {own : List String} {aborted : Bool}
    (before : Contained s) (outcome : Outcome s t levels sent own aborted) (shallow : ∀ depth ∈ levels, depth ≤ 2)
    (new : own = [] ∨ own.length = 1 ∧ s.stopSignalFlag = false ∧ aborted = true) : Contained t := by
  refine ⟨?_, ?_, ?_⟩
  · rw [outcome.depths]
    intro depth member
    rcases List.mem_append.mp member with old | level
    · exact before.shallow depth old
    · exact shallow depth level
  · have bound := before.once
    rw [outcome.emitted, outcome.stopSignalFlag, List.length_append]
    rcases new with none | ⟨one, running, flagged⟩
    · rw [none, List.length_nil, Nat.add_zero]
      apply Nat.le_trans bound
      cases s.stopSignalFlag <;> simp
    · rw [running] at bound ⊢
      simp only [Bool.false_eq_true, ↓reduceIte] at bound
      simp only [flagged, Bool.or_true, ↓reduceIte]
      omega
  · rw [outcome.last, outcome.handled, List.find?_append, before.first]

theorem Contained.handle (before : Contained s) (a : Arrival) : Contained (handle setup s a) := by
  by_cases aborts : Aborts setup s a.msg
  · exact before.outcome (afterHandler_outcome_aborts aborts) (by simp) (Or.inr ⟨rfl, aborts.2.2, rfl⟩)
  · exact before.outcome (afterHandler_outcome aborts) (by simp) (Or.inl rfl)

theorem Contained.handleAll (before : Contained s) (as : List Arrival) : Contained (handleAll setup s as) := by
  induction as generalizing s with
  | nil => exact before
  | cons a as ih => exact ih (before.handle a)

/-- The message kept depends on the message that arrives, not on those that `core_abort` logs. -/
theorem handle_lastMessage (s : State) (a : Arrival) :
    (handle setup s a).lastMessage = s.lastMessage.or ([a.msg].find? (·.ident == "FATAL")) := by
  by_cases aborts : Aborts setup s a.msg
  · rw [handle, (afterHandler_outcome_aborts aborts).last]
    simp [aborts.1]
  · exact (afterHandler_outcome aborts).last

theorem handleAll_lastMessage (s : State) (as : List Arrival) :
    (handleAll setup s as).lastMessage = s.lastMessage.or ((as.map (·.msg)).find? (·.ident == "FATAL")) := by
  induction as generalizing s with
  | nil => exact Option.or_none.symm
  | cons a as ih =>
    have later := ih (handle setup s a)
    rw [handle_lastMessage, Option.or_assoc, ← List.find?_append] at later
    exact later

/-- All that an abort raises. -/
def Raised (s : State) : Prop :=
  s.stopSignalFlag = true ∧ s.gsStopSignal = true ∧ s.stopFlag = true ∧ s.abortFlag = true

instance (s : State) : Decidable (Raised s) :=
  inferInstanceAs (Decidable (_ ∧ _))

theorem Raised.outcome {levels : List Nat} {sent : List Message} {own : List String} {aborted : Bool}
    (before : Raised s) (outcome : Outcome s t levels sent own aborted) : Raised t := by
  obtain ⟨stopSignal, gs, stop, abort⟩ := before
  refine ⟨?_, ?_, ?_, ?_⟩
  · rw [outcome.stopSignalFlag, stopSignal, Bool.true_or]
  · rw [outcome.gsStopSignal, gs, Bool.true_or]
  · rw [outcome.stopFlag, stop, Bool.true_or]
  · rw [outcome.abortFlag, abort, Bool.true_or]

theorem Outcome.raised {levels : List Nat} {sent : List Message} {own : List String}
    (outcome : Outcome s t levels sent own true) : Raised t := by
  refine ⟨?_, ?_, ?_, ?_⟩
  · rw [outcome.stopSignalFlag, Bool.or_true]
  · rw [outcome.gsStopSignal, Bool.or_true]
  · rw [outcome.stopFlag, Bool.or_true]
  · rw [outcome.abortFlag, Bool.or_true]

theorem Raised.handleAll (before : Raised s) (as : List Arrival) : Raised (handleAll setup s as) := by
  induction as generalizing s with
  | nil => exact before
  | cons a as ih =>
    apply ih
    by_cases aborts : Aborts setup s a.msg
    · exact (afterHandler_outcome_aborts aborts).raised
    · exact before.outcome (afterHandler_outcome aborts)

theorem handleAll_append (setup : Setup) (s : State) (first rest : List Arrival) :
    handleAll setup s (first ++ rest) = handleAll setup (handleAll setup s first) rest :=
  List.foldl_append

end Runs

/-- With `stop_with_fatal_log_entry` set, whatever is logged: the handler ends and nests once at most,
`core_abort` logs its message at most once, the first fatal message is kept for good, and one that comes
before any stop raises the flags of an abort. -/
theorem fatal_handled (setup : Setup) (stopping : setup.stopByFatal = true) (s : State)
    (fresh : s.lastMessage = none ∧ s.events = []) (as : List Arrival) :
    (∀ depth ∈ depths (handleAll setup s as).events, depth ≤ 2) ∧
    (emitted (handleAll setup s as).events).length ≤ 1 ∧
    (handleAll setup s as).lastMessage =
      (handledMessages (handleAll setup s as).events).find? (·.ident == "FATAL") ∧
    (handleAll setup s as).lastMessage = (as.map (·.msg)).find? (·.ident == "FATAL") ∧
    ∀ first rest, as = first ++ rest →
      (∀ msg, (handleAll setup s first).lastMessage = some msg → (handleAll setup s as).lastMessage = some msg) ∧
      ∀ a later, rest = a :: later → a.msg.ident = "FATAL" → (handleAll setup s first).stopSignalFlag = false →
        Raised (handle setup (handleAll setup s first) a) ∧ Raised (handleAll setup s as) := by
  obtain ⟨unset, silent⟩ := fresh
  have start : Contained s := by
    refine ⟨?_, ?_, ?_⟩
    · rw [silent]
      exact fun depth member => by cases member
    · rw [silent]
      exact Nat.zero_le _
    · rw [silent, unset]
      rfl
  have contained : Contained (handleAll setup s as) := start.handleAll as
  refine ⟨contained.shallow, ?_, contained.first, ?_, ?_⟩
  · have bound := contained.once
    split at bound <;> omega
  · rw [handleAll_lastMessage, unset, Option.none_or]
  · rintro first rest rfl
    refine ⟨?_, ?_⟩
    · intro msg kept
      rw [handleAll_append, handleAll_lastMessage, kept, Option.some_or]
    · rintro a later rfl fatal running
      have raised : Raised (handle setup (handleAll setup s first) a) :=
        (afterHandler_outcome_aborts ⟨fatal, stopping, running⟩).raised
      refine ⟨raised, ?_⟩
      rw [handleAll_append]
      exact raised.handleAll later

def State.new : State where
  stopSignalFlag := false
  gsStopSignal := false
  stopFlag := false
  abortFlag := false
  lastMessage := none
  wcore := false
  events := []

/-- A fatal message that comes at a time when the logger is configured. -/
def diskFull : Arrival where
  at_ := ⟨true, 5⟩
  msg := ⟨4, "storage", "FATAL", "disk is full"⟩

theorem fatal_handled_diskFull :
    let s := handleAll ⟨true, Message.message, "SYSLOG"⟩ .new [diskFull]
    s.lastMessage = some diskFull.msg ∧ Raised s := by
  obtain ⟨-, -, -, first, runs⟩ :=
    fatal_handled ⟨true, Message.message, "SYSLOG"⟩ rfl .new ⟨rfl, rfl⟩ [diskFull]
  exact ⟨first.trans (by decide), ((runs [] [diskFull] rfl).2 diskFull [] rfl rfl rfl).2⟩

end WfcCore.Logger

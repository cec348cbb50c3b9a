import WfcCore.Logger.Fatal

/-!
# The last lines of the log

`logger::release` writes the block `Abnormal Shutdown!` or a farewell. The block goes by the fatal message
that the logger has kept, the abort itself by the flags of the core.
-/

namespace WfcCore.Logger

/-- The formatters of wlog for a point in time. -/
structure Formatters where
  date : Int → String
  time : Int → String
  fraction : Int → String

/-- An entry as `release` passes it to the log: ident and text. -/
abbrev Entry := String × String

def banner (f : Formatters) (lm : Message) : List Entry :=
  [("FINAL", "!!!!!!!!!!!!!!!!!!!!!!!!!!!!!!!!!!!!!!!!\n"),
    ("FINAL", "---------- Abnormal Shutdown! ----------\n"),
    ("FINAL", "Date: " ++ f.date lm.tp ++ "\n"),
    ("FINAL", "Time: " ++ f.time lm.tp ++ f.fraction lm.tp ++ "\n"),
    ("FINAL", "Name: " ++ lm.logname ++ "\n"),
    ("FINAL", "Message: " ++ lm.message),
    ("FINAL", "!!!!!!!!!!!!!!!!!!!!!!!!!!!!!!!!!!!!!!!!\n")]

def farewell : List Entry :=
  [("MESSAGE", "==================== Bye! ====================\n")]

/-- What `release` writes. `log` tells whether `wlog::release` gives it a log to write to. -/
def release (f : Formatters) (initialized log : Bool) (s : State) : List Entry :=
  if log then
    match s.lastMessage with
    | some lm => banner f lm
    | none => if initialized then farewell else []
  else []

inductive Action where
  | log (a : Arrival)
  | coreAbort (at_ : Moment) (message : String)
  | coreStop (at_ : Moment)
  | coreRestart (at_ : Moment)
  | signalSigintHandler (at_ : Moment) (sig : Int)
deriving DecidableEq

/-- Each of the ordinary stop requests writes to the log before it sets its flags. -/
def perform (setup : Setup) (s : State) : Action → State
  | .log a => handle setup s a
  | .coreAbort at_ message => coreAbort setup at_ 0 s message
  | .coreStop at_ =>
    { afterHandler setup at_ 1 s ⟨at_.now, setup.systemLog, "MESSAGE", "wfc_core: stop!"⟩ with
      stopFlag := true, stopSignalFlag := true }
  | .coreRestart at_ =>
    { afterHandler setup at_ 1 s ⟨at_.now, setup.systemLog, "MESSAGE", "wfc_core: restart!"⟩ with
      stopFlag := true, stopSignalFlag := true }
  | .signalSigintHandler at_ sig =>
    { afterHandler setup at_ 1 s ⟨at_.now, setup.systemLog, "WARNING", "Stop signal handler " ++ toString sig⟩ with
      stopSignalFlag := true, gsStopSignal := true }

def run (setup : Setup) (s : State) (as : List Action) : State :=
  as.foldl (perform setup) s

def Action.isFatal : Action → Bool
  | .log a => a.msg.ident == "FATAL"
  | _ => false

def Action.isAbort : Action → Bool
  | .coreAbort _ _ => true
  | _ => false

def Action.isStop : Action → Bool
  | .coreStop _ | .coreRestart _ | .signalSigintHandler _ _ => true
  | _ => false

/-- The action asks for an abort: a call of `core_abort`, or a fatal message when these stop the core. -/
def Action.aborts (stopByFatal : Bool) (a : Action) : Bool :=
  a.isAbort || stopByFatal && a.isFatal

@[simp] theorem log_isFatal (a : Arrival) : (Action.log a).isFatal = (a.msg.ident == "FATAL") := rfl
@[simp] theorem log_isAbort (a : Arrival) : (Action.log a).isAbort = false := rfl
@[simp] theorem log_isStop (a : Arrival) : (Action.log a).isStop = false := rfl

@[simp] theorem log_aborts (stopByFatal : Bool) (a : Arrival) :
    (Action.log a).aborts stopByFatal = (stopByFatal && a.msg.ident == "FATAL") := rfl

/-- An abort is asked for before any stop request. -/
def abortsFirst (stopByFatal : Bool) : List Action → Bool
  | [] => false
  | a :: rest => a.aborts stopByFatal || !a.isStop && abortsFirst stopByFatal rest

/-- The block is written exactly if the core was aborted, and otherwise the farewell of an initialized logger. -/
def Truthful (f : Formatters) (initialized : Bool) (s : State) : Prop :=
  ((∃ lm, release f initialized true s = banner f lm) ↔ s.abortFlag = true) ∧
    (s.abortFlag = false → initialized = true → release f initialized true s = farewell)

section Runs

variable {setup : Setup} {s t : State}

/-- What an action does to the message kept, to the abort flag and to the flag that stops further aborts. -/
structure Step (setup : Setup) (s t : State) (a : Action) : Prop where
  kept : t.lastMessage.isSome =
    (s.lastMessage.isSome || a.isFatal || !s.stopSignalFlag && a.aborts setup.stopByFatal)
  aborted : t.abortFlag = (s.abortFlag || a.isAbort || !s.stopSignalFlag && a.aborts setup.stopByFatal)
  stopping : t.stopSignalFlag = (s.stopSignalFlag || a.isStop || a.aborts setup.stopByFatal)

theorem handle_step (setup : Setup) (s : State) (a : Arrival) : Step setup s (handle setup s a) (.log a) := by
  by_cases aborts : Aborts setup s a.msg
  · have outcome : Outcome s (handle setup s a) _ _ _ true := afterHandler_outcome_aborts aborts
    obtain ⟨fatal, on, running⟩ := aborts
    refine ⟨?_, ?_, ?_⟩
    · rw [outcome.last]
      simp [fatal]
    · rw [outcome.abortFlag]
      simp [fatal, on, running]
    · rw [outcome.stopSignalFlag]
      simp [fatal, on]
  · have outcome : Outcome s (handle setup s a) _ _ _ false := afterHandler_outcome aborts
    have refused : (!s.stopSignalFlag && (setup.stopByFatal && a.msg.ident == "FATAL")) = false := by
      apply Bool.eq_false_iff.mpr
      intro asked
      apply aborts
      simp only [Bool.and_eq_true, Bool.not_eq_true', beq_iff_eq] at asked
      exact ⟨asked.2.2, asked.2.1, asked.1⟩
    refine ⟨?_, ?_, ?_⟩
    · rw [outcome.last, log_aborts, refused]
      by_cases fatal : a.msg.ident = "FATAL" <;> simp [fatal]
    · rw [outcome.abortFlag, log_aborts, refused]
      simp
    · rw [outcome.stopSignalFlag, log_aborts, log_isStop]
      cases running : s.stopSignalFlag with
      | true => rfl
      | false =>
        rw [running] at refused
        simpa using refused

theorem coreAbort_step (setup : Setup) (s : State) (at_ : Moment) (message : String) :
    Step setup s (coreAbort setup at_ 0 s message) (.coreAbort at_ message) := by
  cases running : s.stopSignalFlag with
  | false =>
    have outcome : Outcome s (coreAbort setup at_ 0 s message) _ _ _ true := coreAbort_outcome_running running
    refine ⟨?_, ?_, ?_⟩
    · rw [outcome.last]
      simp [fatalMessage, running, Action.isAbort, Action.aborts]
    · rw [outcome.abortFlag]
      simp [Action.isAbort]
    · rw [outcome.stopSignalFlag]
      simp [Action.isAbort, Action.aborts]
  | true =>
    have outcome : Outcome s (coreAbort setup at_ 0 s message) _ _ _ true := coreAbort_outcome_stopping running
    refine ⟨?_, ?_, ?_⟩
    · rw [outcome.last]
      simp [running, Action.isFatal]
    · rw [outcome.abortFlag]
      simp [Action.isAbort]
    · rw [outcome.stopSignalFlag]
      simp [Action.isAbort, Action.aborts]

/-- A message that is not fatal leaves what matters here as it is. -/
theorem afterHandler_harmless (setup : Setup) (at_ : Moment) (s : State) (msg : Message)
    (harmless : msg.ident ≠ "FATAL") :
    (afterHandler setup at_ 1 s msg).lastMessage = s.lastMessage ∧
      (afterHandler setup at_ 1 s msg).abortFlag = s.abortFlag := by
  have outcome : Outcome s (afterHandler setup at_ 1 s msg) _ _ _ false :=
    afterHandler_outcome fun aborts => harmless aborts.1
  refine ⟨?_, ?_⟩
  · rw [outcome.last]
    simp [harmless]
  · rw [outcome.abortFlag, Bool.or_false]

theorem Step.stop {a : Action} (request : a.isStop = true) (last : t.lastMessage = s.lastMessage)
    (abort : t.abortFlag = s.abortFlag) (stopped : t.stopSignalFlag = true) : Step setup s t a := by
  have plain : a.isFatal = false ∧ a.isAbort = false := by
    cases a <;> first | contradiction | exact ⟨rfl, rfl⟩
  refine ⟨?_, ?_, ?_⟩
  · rw [last, Action.aborts, plain.1, plain.2]
    simp
  · rw [abort, Action.aborts, plain.1, plain.2]
    simp
  · rw [stopped, request]
    simp

theorem perform_step (setup : Setup) (s : State) (a : Action) : Step setup s (perform setup s a) a := by
  cases a with
  | log a => exact handle_step setup s a
  | coreAbort at_ message => exact coreAbort_step setup s at_ message
  | coreStop at_ =>
    obtain ⟨last, abort⟩ := afterHandler_harmless setup at_ s ⟨at_.now, setup.systemLog, "MESSAGE", _⟩
      (show "MESSAGE" ≠ "FATAL" by decide)
    exact Step.stop rfl last abort rfl
  | coreRestart at_ =>
    obtain ⟨last, abort⟩ := afterHandler_harmless setup at_ s ⟨at_.now, setup.systemLog, "MESSAGE", _⟩
      (show "MESSAGE" ≠ "FATAL" by decide)
    exact Step.stop rfl last abort rfl
  | signalSigintHandler at_ sig =>
    obtain ⟨last, abort⟩ := afterHandler_harmless setup at_ s ⟨at_.now, setup.systemLog, "WARNING", _⟩
      (show "WARNING" ≠ "FATAL" by decide)
    exact Step.stop rfl last abort rfl

/-- The message kept and the abort flag at the end of a run, by what the run begins with. -/
theorem run_flags (setup : Setup) (s : State) (as : List Action) :
    (run setup s as).lastMessage.isSome = (s.lastMessage.isSome || as.any Action.isFatal ||
        !s.stopSignalFlag && abortsFirst setup.stopByFatal as) ∧
      (run setup s as).abortFlag = (s.abortFlag || as.any Action.isAbort ||
        !s.stopSignalFlag && abortsFirst setup.stopByFatal as) := by
  induction as generalizing s with
  | nil => simp [run, abortsFirst]
  | cons a as ih =>
    obtain ⟨kept, aborted⟩ := ih (perform setup s a)
    have step := perform_step setup s a
    rw [step.kept, step.stopping] at kept
    rw [step.aborted, step.stopping] at aborted
    rw [List.any_cons, List.any_cons, abortsFirst]
    refine ⟨kept.trans ?_, aborted.trans ?_⟩
    · grind
    · grind

end Runs

theorem banner_ne_farewell (f : Formatters) (lm : Message) : farewell ≠ banner f lm := by
  intro same
  have lengths : 1 = 7 := congrArg List.length same
  omega

/-- `release` goes by the message kept. -/
theorem truthful_iff (f : Formatters) (initialized : Bool) (s : State) :
    Truthful f initialized s ↔ s.lastMessage.isSome = s.abortFlag := by
  unfold Truthful release
  cases s.lastMessage with
  | some lm =>
    cases s.abortFlag with
    | true => simp
    | false =>
      simp only [if_true, Option.isSome_some, Bool.true_eq_false, iff_false, not_and]
      intro banners
      exact absurd ⟨lm, rfl⟩ (banners.not.mpr (by decide))
  | none =>
    have unlike : ∀ lm, banner f lm ≠ [] := fun lm same => by cases same
    cases s.abortFlag <;> cases initialized <;> simp [banner_ne_farewell, unlike]

/-- The last lines tell the truth about a run exactly if an abort is asked for before any stop request, or
there is a fatal message exactly if there is a call of `core_abort`. -/
theorem release_truthful_iff (setup : Setup) (f : Formatters) (initialized : Bool) (as : List Action) :
    Truthful f initialized (run setup .new as) ↔
      abortsFirst setup.stopByFatal as = true ∨
        (as.any Action.isFatal = true ↔ as.any Action.isAbort = true) := by
  obtain ⟨kept, aborted⟩ := run_flags setup .new as
  rw [truthful_iff, kept, aborted]
  simp only [State.new, Option.isSome_none, Bool.false_or, Bool.not_false, Bool.true_and]
  cases abortsFirst setup.stopByFatal as <;> cases as.any Action.isFatal <;> cases as.any Action.isAbort <;> simp

/-- Fatal messages do not stop the core, one is logged, and later the core is stopped in the ordinary way. -/
def stoppedLater : List Action :=
  [.log diskFull, .coreStop ⟨true, 9⟩]

theorem release_untruthful :
    (run ⟨false, Message.message, "SYSLOG"⟩ .new stoppedLater).abortFlag = false ∧
    (∀ f, ∃ lm, release f true true (run ⟨false, Message.message, "SYSLOG"⟩ .new stoppedLater) = banner f lm) ∧
    ¬ ∀ setup f initialized as, Truthful f initialized (run setup .new as) := by
  obtain ⟨kept, aborted⟩ := run_flags ⟨false, Message.message, "SYSLOG"⟩ .new stoppedLater
  obtain ⟨lm, last⟩ := Option.isSome_iff_exists.mp (kept.trans (by decide))
  have unflagged := aborted.trans (by decide : _ = false)
  refine ⟨unflagged, ?_, ?_⟩
  · intro f
    refine ⟨lm, ?_⟩
    rw [release, last]
    rfl
  · intro truthful
    have same := (truthful_iff _ _ _).mp
      (truthful ⟨false, Message.message, "SYSLOG"⟩ ⟨toString, toString, toString⟩ true stoppedLater)
    rw [last, unflagged] at same
    contradiction

end WfcCore.Logger

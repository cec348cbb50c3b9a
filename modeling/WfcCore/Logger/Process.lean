import Mathlib.Tactic.IntervalCases
import WfcCore.Core.Callbacks
import WfcCore.Core.Termination
import WfcCore.Logger.Banner

/-!
# A fatal message ends the process

The core and the logger together. They share four flags, which are those of the core here: a message is handled
by what it finds in them, and when it aborts, `core_abort` raises the first flag with it and the others as a call
beside the main thread. Messages come from anywhere, among them the watch on callbacks.
-/

namespace WfcCore.Logger

open Foundation WfcCore.Core

/-- `options` are those that the callback handlers captured. -/
structure Process where
  core : Core.State
  log : State
  options : CallbackOptions

namespace Process

inductive Action where
  | core (a : Core.Action)
  | message (a : Arrival)
  | misuse (kind : Misuse) (objname : String) (at_ : Moment)
  | installed (options : CallbackOptions)

/-- The logger with the flags as they are. -/
def view (s : Process) : State :=
  { s.log with
    stopSignalFlag := s.core.stopSignalFlag
    gsStopSignal := s.core.gsStopSignal
    stopFlag := s.core.stopFlag
    abortFlag := s.core.abortFlag }

/-- `core_abort` on a thread of its own, past the flag that keeps other messages from calling it again. -/
def aborting (c : Core.State) : Core.State :=
  { c with stopSignalFlag := true, calls := c.calls ++ [Call.coreAbort.writes.tail] }

def receive (setup : Setup) (s : Process) (a : Arrival) : Process :=
  { s with
    log := handle setup s.view a
    core := if Aborts setup s.view a.msg then aborting s.core else s.core }

def step (setup : Setup) (domainLog : String) (p : Program) (s : Process) : Action → Option Process
  | .core a => (Core.step p s.core a).map fun c => { s with core := c }
  | .message a => some (s.receive setup a)
  | .misuse kind objname at_ =>
    match kind.handler s.options s.core.stopSignalFlag objname with
    | some entry => some (s.receive setup ⟨at_, ⟨at_.now, domainLog, entry.1, entry.2⟩⟩)
    | none => some s
  | .installed options => some { s with options := options }

/-- The main thread and the core timer go on. -/
def Action.drives : Action → Prop
  | .core a => a.drives
  | _ => False

/-- A fatal message, from the components or from the watch on callbacks. -/
def Action.isFatal (s : Process) : Action → Bool
  | .message a => a.msg.ident == "FATAL"
  | .misuse kind _ _ => kind.aborts s.options
  | _ => false

/-- The message that comes in with a step. -/
def Action.arrived (domainLog : String) (s : Process) : Action → Option Message
  | .message a => some a.msg
  | .misuse kind objname at_ =>
    (kind.handler s.options s.core.stopSignalFlag objname).map fun entry => ⟨at_.now, domainLog, entry.1, entry.2⟩
  | _ => none

variable {setup : Setup} {domainLog : String} {p : Program} {s t : Process} {a : Action}

/-- Whatever is not a step of the core leaves its program counter, events and flags, and may start a call. -/
structure Apart (s t : Process) : Prop where
  beside : Beside s.core t.core
  calls : s.core.calls <+: t.core.calls

theorem apart_receive (setup : Setup) (s : Process) (a : Arrival) : Apart s (s.receive setup a) := by
  unfold receive
  split
  · exact ⟨⟨rfl, rfl, id, id, id⟩, List.prefix_append _ _⟩
  · exact ⟨⟨rfl, rfl, id, id, id⟩, List.prefix_refl _⟩

theorem step_apart (h : step setup domainLog p s a = some t) :
    (∃ b, a = .core b ∧ Core.step p s.core b = some t.core ∧ t.log = s.log) ∨ Apart s t := by
  cases a with
  | core b =>
    obtain ⟨c, taken, rfl⟩ := Option.map_eq_some_iff.mp h
    exact Or.inl ⟨b, rfl, taken, rfl⟩
  | message a =>
    obtain rfl := Option.some.inj h
    exact Or.inr (apart_receive setup s a)
  | misuse kind objname at_ =>
    simp only [step] at h
    split at h
    · obtain rfl := Option.some.inj h
      exact Or.inr (apart_receive setup s _)
    · obtain rfl := Option.some.inj h
      exact Or.inr ⟨⟨rfl, rfl, id, id, id⟩, List.prefix_refl _⟩
  | installed options =>
    obtain rfl := Option.some.inj h
    exact Or.inr ⟨⟨rfl, rfl, id, id, id⟩, List.prefix_refl _⟩

theorem step_begun (h : step setup domainLog p s a = some t) (begun : s.core.pc ≠ .run) : t.core.pc ≠ .run := by
  rcases step_apart h with ⟨b, _, taken, _⟩ | apart
  · exact Core.step_begun taken begun
  · rw [apart.beside.pc]
    exact begun

theorem step_stopping (h : step setup domainLog p s a = some t) (begun : s.core.pc ≠ .run)
    (stopping : Stopping s.core) : Stopping t.core := by
  rcases step_apart h with ⟨b, _, taken, _⟩ | apart
  · exact Core.step_stopping taken begun stopping
  · exact Or.imp apart.beside.signal apart.beside.stop stopping

/-! ### What a fatal message starts -/

def pendingAbort : List Write := [.gsStopSignal, .stopFlag, .abortFlag]

theorem receive_aborts (on : setup.stopByFatal = true) (running : s.core.stopSignalFlag = false) {a : Arrival}
    (fatal : a.msg.ident = "FATAL") :
    (s.receive setup a).core.calls[s.core.calls.length]? = some pendingAbort := by
  have aborts : Aborts setup s.view a.msg := ⟨fatal, on, running⟩
  simp only [receive, if_pos aborts, aborting]
  rw [List.getElem?_append_right (Nat.le_refl _), Nat.sub_self]
  rfl

theorem fatal_aborts (on : setup.stopByFatal = true) (running : s.core.stopSignalFlag = false)
    (fatal : a.isFatal s = true) (h : step setup domainLog p s a = some t) :
    t.core.calls[s.core.calls.length]? = some pendingAbort := by
  cases a with
  | core b => contradiction
  | installed options => contradiction
  | message a =>
    obtain rfl := Option.some.inj h
    exact receive_aborts on running (by simpa [Action.isFatal] using fatal)
  | misuse kind objname at_ =>
    obtain ⟨text, entry⟩ := (misuse_fatal kind s.options s.core.stopSignalFlag objname).mpr ⟨fatal, running⟩
    simp only [step, entry] at h
    obtain rfl := Option.some.inj h
    exact receive_aborts on running rfl

theorem calls_kept {i : Nat} {ws : List Write} (h : step setup domainLog p s a = some t) (other : a ≠ .core (.write i))
    (waiting : s.core.calls[i]? = some ws) : t.core.calls[i]? = some ws := by
  rcases step_apart h with ⟨b, rfl, taken, _⟩ | apart
  · exact call_waits taken (fun same => other (same ▸ rfl)) waiting
  · obtain ⟨rest, more⟩ := apart.calls
    rw [← more, List.getElem?_append_left (List.getElem?_eq_some_iff.mp waiting).1]
    exact waiting

theorem write_stopping {i : Nat} {rest : List Write} (h : step setup domainLog p s (.core (.write i)) = some t)
    (waiting : s.core.calls[i]? = some (.gsStopSignal :: rest)) : Stopping t.core := by
  obtain ⟨c, taken, rfl⟩ := Option.map_eq_some_iff.mp h
  obtain ⟨w, more, read, rfl⟩ := writeStep_some taken
  obtain rfl := (List.cons.inj (Option.some.inj (read.symm.trans waiting))).1
  exact Or.inl rfl

/-- Threads that have begun a call come to make its next write. -/
def CallsGoOn (run : FairRun (step setup domainLog p) Action.drives) : Prop :=
  ∀ n i w rest, (run.states n).core.calls[i]? = some (w :: rest) → ∃ d, run.labels (n + d) = .core (.write i)

section Runs

variable {run : FairRun (step setup domainLog p) Action.drives}

theorem pending_stops (goOn : CallsGoOn run) {n i : Nat} {rest : List Write} (begun : (run.states n).core.pc ≠ .run)
    (waiting : (run.states n).core.calls[i]? = some (.gsStopSignal :: rest)) :
    ∃ m, n ≤ m ∧ (run.states m).core.pc ≠ .run ∧ Stopping (run.states m).core := by
  obtain ⟨d, comes⟩ := goOn n i _ _ waiting
  obtain ⟨m, later, ⟨begun, waiting⟩, write⟩ := run.until (P := fun a => a = .core (.write i))
    (Q := fun s : Process => s.core.pc ≠ .run ∧ s.core.calls[i]? = some (.gsStopSignal :: rest))
    (fun m _ now other => ⟨step_begun (run.follows m) now.1, calls_kept (run.follows m) other now.2⟩)
    ⟨begun, waiting⟩ comes
  have h := run.follows m
  rw [write] at h
  exact ⟨m + 1, Nat.le_succ_of_le later, step_begun h begun, write_stopping h waiting⟩

theorem step_moves (h : step setup domainLog p s a = some t) : Moves p Process.core Action.drives s a t := by
  rcases step_apart h with ⟨b, rfl, taken, _⟩ | apart
  · exact Or.inl ⟨b, taken, Iff.rfl⟩
  · by_cases core : ∃ b, a = .core b
    · obtain ⟨b, rfl⟩ := core
      obtain ⟨c, taken, rfl⟩ := Option.map_eq_some_iff.mp h
      exact Or.inl ⟨b, taken, Iff.rfl⟩
    · refine Or.inr ⟨fun drives => ?_, apart.beside⟩
      cases a <;> first | exact drives | exact core ⟨_, rfl⟩

theorem drives_enabled (running : s.core.pc.ended = false) :
    ∃ a t, a.drives ∧ step setup domainLog p s a = some t := by
  obtain ⟨b, c, drives, taken⟩ := Core.drives_enabled p running
  exact ⟨.core b, { s with core := c }, drives, Option.map_eq_some_iff.mpr ⟨c, taken, rfl⟩⟩

end Runs

/-! ### What is left of it in the log -/

theorem receive_lastMessage (setup : Setup) (s : Process) (a : Arrival) :
    (s.receive setup a).log.lastMessage = s.log.lastMessage.or ([a.msg].find? (·.ident == "FATAL")) :=
  handle_lastMessage s.view a

/-- A fatal message is kept if none is kept already. -/
theorem step_lastMessage (h : step setup domainLog p s a = some t) :
    t.log.lastMessage = s.log.lastMessage.or ((a.arrived domainLog s).toList.find? (·.ident == "FATAL")) := by
  cases a with
  | core b =>
    obtain ⟨c, _, rfl⟩ := Option.map_eq_some_iff.mp h
    simp [Action.arrived]
  | message a =>
    obtain rfl := Option.some.inj h
    exact receive_lastMessage setup s a
  | misuse kind objname at_ =>
    simp only [step] at h
    split at h
    · rename_i entry handled
      obtain rfl := Option.some.inj h
      rw [receive_lastMessage, Action.arrived, handled]
      rfl
    · rename_i handled
      obtain rfl := Option.some.inj h
      simp [Action.arrived, handled]
  | installed options =>
    obtain rfl := Option.some.inj h
    simp [Action.arrived]

theorem fatal_lastMessage (running : s.core.stopSignalFlag = false) (fatal : a.isFatal s = true)
    (h : step setup domainLog p s a = some t) : t.log.lastMessage ≠ none := by
  have kept (a : Arrival) (fatal : a.msg.ident = "FATAL") : (s.receive setup a).log.lastMessage ≠ none := by
    rw [receive_lastMessage]
    simp [fatal]
  cases a with
  | core b => contradiction
  | installed options => contradiction
  | message a =>
    obtain rfl := Option.some.inj h
    exact kept a (by simpa [Action.isFatal] using fatal)
  | misuse kind objname at_ =>
    obtain ⟨text, entry⟩ := (misuse_fatal kind s.options s.core.stopSignalFlag objname).mpr ⟨fatal, running⟩
    simp only [step, entry] at h
    obtain rfl := Option.some.inj h
    exact kept _ rfl

section Runs

variable {run : FairRun (step setup domainLog p) Action.drives}

/-- The messages that came in before a step of the run. -/
def arrivals (run : FairRun (step setup domainLog p) Action.drives) (n : Nat) : List Message :=
  (List.range n).filterMap fun i => (run.labels i).arrived domainLog (run.states i)

theorem lastMessage_first (fresh : (run.states 0).log.lastMessage = none) (n : Nat) :
    (run.states n).log.lastMessage = (arrivals run n).find? (·.ident == "FATAL") := by
  induction n with
  | zero => exact fresh
  | succ n ih =>
    have next : [n].filterMap (fun i => (run.labels i).arrived domainLog (run.states i)) =
        ((run.labels n).arrived domainLog (run.states n)).toList := by
      rw [List.filterMap_cons]
      cases (run.labels n).arrived domainLog (run.states n) <;> rfl
    rw [step_lastMessage (run.follows n), ih, arrivals, arrivals, List.range_succ, List.filterMap_append, next,
      List.find?_append]

theorem lastMessage_stays {n m : Nat} (later : n ≤ m) (kept : (run.states n).log.lastMessage ≠ none) :
    (run.states m).log.lastMessage ≠ none := by
  induction m, later using Nat.le_induction with
  | base => exact kept
  | succ m _ ih =>
    rw [step_lastMessage (run.follows m)]
    intro none
    exact ih (Option.or_eq_none_iff.mp none).1

end Runs

/-- In every fair run of core and logger, with `stop_with_fatal_log_entry` set: after a fatal message, or a misused
callback that the options make one, that finds no stop signalled, `core::run` returns, and the last lines of the log
are the block about the first fatal message. -/
theorem fatal_ends_process (setup : Setup) (on : setup.stopByFatal = true) (domainLog : String) (p : Program)
    (f : Formatters) (initialized : Bool) (run : FairRun (step setup domainLog p) Action.drives)
    (fresh : (run.states 0).log.lastMessage = none) (goOn : CallsGoOn run) (n : Nat)
    (begun : (run.states n).core.pc ≠ .run) (running : (run.states n).core.stopSignalFlag = false)
    (fatal : (run.labels n).isFatal (run.states n) = true) :
    ∃ m code kept, n < m ∧ (run.states m).core.pc = .returned code ∧ (run.states m).log.lastMessage = some kept ∧
      kept.ident = "FATAL" ∧ (arrivals run m).find? (·.ident == "FATAL") = some kept ∧
      release f initialized true (run.states m).log = banner f kept := by
  have h := run.follows n
  have waiting := fatal_aborts on running fatal h
  obtain ⟨stopped, after, stillBegun, stopping⟩ := pending_stops goOn (step_begun h begun) waiting
  obtain ⟨m, later, ended⟩ := stopping_returns Process.core (fun _ _ _ h => step_moves h)
    (fun _ running => drives_enabled running) run stopped stillBegun stopping
  obtain ⟨code, returned⟩ := (ended_iff _).mp ended
  have some_ := lastMessage_stays (Nat.le_trans after later) (fatal_lastMessage running fatal h)
  obtain ⟨kept, known⟩ := Option.ne_none_iff_exists'.mp some_
  have first := (lastMessage_first fresh m).symm.trans known
  refine ⟨m, code, kept, by omega, returned, known, by simpa using List.find?_some first, first, ?_⟩
  rw [release, if_pos rfl, known]

/-- A callback handler of a bare program is destroyed in the main loop without a call. -/
def misused : List Action :=
  .misuse .nocall "worker" ⟨true, 0⟩ ::
    ([.write 0, .write 0, .write 0, .tick, .main, .main, .main, .main, .main, .sorted [], .main, .main, .main] :
      List Core.Action).map .core

def misusedStart : Process where
  core := (Core.initial false [] false []).goto .mainLoop
  log := ⟨false, false, false, false, none, false, []⟩
  options := .default

def misusedSetup : Setup := ⟨true, Message.message, "wfc"⟩

def misusedEnd : Process := (exec (step misusedSetup "domain" ⟨[], true⟩) misusedStart misused).getD misusedStart

theorem fatal_ends_process_misused :
    ∃ run : FairRun (step misusedSetup "domain" ⟨[], true⟩) Action.drives,
      (run.labels 0).isFatal (run.states 0) = true ∧
        ∃ m code kept, 0 < m ∧ (run.states m).core.pc = .returned code ∧ (run.states m).log.lastMessage = some kept ∧
          kept.ident = "FATAL" ∧ (arrivals run m).find? (·.ident == "FATAL") = some kept ∧
          release ⟨fun _ => "", fun _ => "", fun _ => ""⟩ true true (run.states m).log =
            banner ⟨fun _ => "", fun _ => "", fun _ => ""⟩ kept := by
  have ends : exec (step misusedSetup "domain" ⟨[], true⟩) misusedStart misused = some misusedEnd := rfl
  have quiet (a : Action) (u : Process) (helps : a.drives) :
      step misusedSetup "domain" ⟨[], true⟩ misusedEnd a ≠ some u := by
    cases a with
    | core b => simp [step, Core.ended_quiet (s := misusedEnd.core) rfl helps]
    | _ => cases helps
  let run : FairRun (step misusedSetup "domain" ⟨[], true⟩) Action.drives :=
    FairRun.ofExec misused ends (.core (.registry false [])) rfl quiet (fun a last => by
      obtain rfl := Option.some.inj last
      exact Or.inl trivial)
  have goOn : CallsGoOn run := by
    intro n i w rest waiting
    rcases Nat.lt_or_ge n misused.length with inside | outside
    · have bound : n < 14 := inside
      interval_cases n <;> rcases i with _ | i <;>
        first
        | (cases waiting; done)
        | exact ⟨3, rfl⟩
        | exact ⟨2, rfl⟩
        | exact ⟨1, rfl⟩
        | exact ⟨0, rfl⟩
    · have last : run.states n = misusedEnd := by
        show (exec _ _ (misused.take n)).getD _ = _
        rw [List.take_of_length_le outside, ends, Option.getD_some]
      rw [last] at waiting
      rcases i with _ | i <;> cases waiting
  exact ⟨run, rfl, fatal_ends_process misusedSetup rfl "domain" ⟨[], true⟩
    ⟨fun _ => "", fun _ => "", fun _ => ""⟩ true run rfl goOn 0 (fun h => by cases h) rfl rfl⟩

end Process

end WfcCore.Logger

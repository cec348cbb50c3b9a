import WfcCore.Foundation.Run
import WfcCore.Startup.PidFile

/-!
# The pid file under autoup

One instance started with autoup. The monitor locks the pid file and forks the workers one after
another. A worker empties the file and writes its pid through the descriptor that it inherits, and
removes the path when it stops gracefully; it may end after any of its steps. After each end the
monitor runs its callback, which locks the path anew and writes the pid of the ended worker.
-/

namespace WfcCore.Startup.PidRestart

open Foundation Foundation.Posix

inductive Phase where
  | starting
  | refused
  | waiting
  | forked (pid : Nat)
  | truncated (pid : Nat)
  | running (pid : Nat)
  | removed (pid : Nat)
  | ended (pid : Nat)
deriving DecidableEq

def Phase.worker : Phase → Option Nat
  | .forked pid | .truncated pid | .running pid | .removed pid => some pid
  | _ => none

variable {ρ : Type}

/-- `written` and `removedBy` are history: the pids that went through `pidFile`, and the last worker
that removed the path. -/
structure State (ρ : Type) where
  fs : Fs ρ
  pidFile : Int
  phase : Phase
  written : List Nat
  removedBy : Option Nat

inductive Action where
  | lock
  | fork (pid : Nat)
  | truncate
  | write
  | remove
  | exit
  | callback

def initial (fs : Fs ρ) : State ρ where
  fs := fs.boot
  pidFile := -1
  phase := .starting
  written := []
  removedBy := none

variable [DecidableEq ρ]

/-- `truncate` and `write` are the two system calls of `write_loc_pid`; a failed one ends the worker. -/
def step (monitor : Nat) (pidPath : ρ) (s : State ρ) : Action → Option (State ρ)
  | .lock =>
    match s.phase with
    | .starting =>
      let (fs, pidFile) := locFilePid s.fs monitor pidPath
      some { s with fs := fs, pidFile := pidFile, phase := if pidFile < 0 then .refused else .waiting }
    | _ => none
  | .fork pid =>
    match s.phase with
    | .waiting =>
      if pid = monitor then none else some { s with fs := s.fs.fork monitor pid, phase := .forked pid }
    | _ => none
  | .truncate =>
    match s.phase with
    | .forked pid =>
      match ftruncate s.fs s.pidFile with
      | none => some { s with fs := s.fs.exit pid, phase := .ended pid }
      | some fs => some { s with fs := fs, phase := .truncated pid }
    | _ => none
  | .write =>
    match s.phase with
    | .truncated pid =>
      match write s.fs s.pidFile (decimal pid) with
      | none => some { s with fs := s.fs.exit pid, phase := .ended pid }
      | some fs => some { s with fs := fs, phase := .running pid, written := s.written ++ [pid] }
    | _ => none
  | .remove =>
    match s.phase with
    | .running pid =>
      some { s with fs := s.fs.unlink pidPath, phase := .removed pid, removedBy := some pid }
    | _ => none
  | .exit =>
    match s.phase.worker with
    | some pid => some { s with fs := s.fs.exit pid, phase := .ended pid }
    | none => none
  | .callback =>
    match s.phase with
    | .ended pid =>
      let (fs, pidFile) := locFilePid s.fs monitor pidPath
      some { s with fs := (writeLocPid fs pidFile pid).1, phase := .waiting }
    | _ => none

def content (fs : Fs ρ) (pidPath : ρ) : Option Bytes := (fs.names pidPath).map fs.data

def HoldsPid (pidPath : ρ) (s : State ρ) : Prop :=
  ∀ pid, s.phase = .running pid → content s.fs pidPath = some (decimal pid)

/-- A worker writes its pid as the first worker to do so, or after the path was last removed by a worker
with the same pid. -/
def WritesFirst (s : State ρ) (a : Action) : Prop :=
  ∀ pid, a = .write → s.phase = .truncated pid → s.written = [] ∨ s.removedBy = some pid

variable {monitor : Nat} {pidPath : ρ} {s t : State ρ}

/-! ### What the monitor keeps -/

/-- What stands at the path: the file that the monitor first locked, nothing between the removal and the
callback, and then the file that a callback made for the worker that removed the path. -/
inductive AtPath (monitor : Nat) (pidPath : ρ) (s : State ρ) (d : Description) : Prop where
  | first : s.removedBy = none → s.fs.names pidPath = some d.inode → AtPath monitor pidPath s d
  | missing (pid : Nat) : s.removedBy = some pid → s.fs.names pidPath = none →
      s.phase = .removed pid ∨ s.phase = .ended pid → AtPath monitor pidPath s d
  | replaced (pid i f : Nat) : s.removedBy = some pid → s.fs.names pidPath = some i → i ≠ d.inode →
      s.fs.data i = decimal pid → s.fs.lock i = some f → (monitor, f) ∈ s.fs.fds → AtPath monitor pidPath s d

structure Kept (monitor : Nat) (pidPath : ρ) (s : State ρ) (f : Nat) (d : Description) : Prop where
  begun : s.phase ≠ .starting
  pidFile : s.pidFile = f
  opened : s.fs.opened f = some d
  held : (monitor, f) ∈ s.fs.fds
  locked : s.fs.lock d.inode = some f
  offset : s.written = [] ↔ d.offset = 0
  emptied : ∀ pid, s.phase = .truncated pid → s.fs.data d.inode = []
  wrote : s.written = [] → s.removedBy = none ∧ ∀ pid, s.phase ≠ .running pid
  apart : s.phase.worker ≠ some monitor
  path : AtPath monitor pidPath s d
  accessible : s.fs.accessible pidPath = true

inductive Inv (monitor : Nat) (pidPath : ρ) (s : State ρ) : Prop where
  | starting : s.phase = .starting → s.written = [] → s.removedBy = none → Inv monitor pidPath s
  | refused : s.phase = .refused → Inv monitor pidPath s
  | kept (f : Nat) (d : Description) : Kept monitor pidPath s f d → Inv monitor pidPath s

omit [DecidableEq ρ] in
theorem initial_inv (fs : Fs ρ) : Inv monitor pidPath (initial fs) := .starting rfl rfl rfl

variable {f : Nat} {d : Description}

omit [DecidableEq ρ] in
theorem kept_frame (kept : Kept monitor pidPath s f d) {fs : Fs ρ} {phase : Phase}
    (opened : fs.opened f = s.fs.opened f)
    (lock : ∀ i g, (monitor, g) ∈ s.fs.fds → s.fs.lock i = some g → fs.lock i = some g)
    (data : fs.data = s.fs.data) (names : fs.names pidPath = s.fs.names pidPath)
    (fds : ∀ g, (monitor, g) ∈ s.fs.fds → (monitor, g) ∈ fs.fds)
    (accessible : fs.accessible = s.fs.accessible)
    (begun : phase ≠ .starting) (quiet : ∀ pid, phase ≠ .truncated pid ∧ phase ≠ .running pid)
    (apart : phase.worker ≠ some monitor)
    (ends : s.fs.names pidPath = none → ∀ pid, s.phase = .removed pid ∨ s.phase = .ended pid → phase = .ended pid) :
    Kept monitor pidPath { s with fs := fs, phase := phase } f d where
  begun := begun
  pidFile := kept.pidFile
  opened := opened.trans kept.opened
  held := fds f kept.held
  locked := lock _ f kept.held kept.locked
  offset := kept.offset
  emptied := fun pid truncated => absurd truncated (quiet pid).1
  wrote := fun unwritten => ⟨(kept.wrote unwritten).1, fun pid => (quiet pid).2⟩
  apart := apart
  path := by
    rcases kept.path with ⟨untouched, named⟩ | ⟨pid, by_, named, gone⟩ |
      ⟨pid, i, g, by_, named, other, held, locked, member⟩
    · exact .first untouched (names.trans named)
    · exact .missing pid by_ (names.trans named) (Or.inr (ends named pid gone))
    · exact .replaced pid i g by_ (names.trans named) other ((congrFun data i).trans held) (lock i g member locked)
        (fds g member)
  accessible := (congrFun accessible pidPath).trans kept.accessible

theorem kept_lock (unwritten : s.written = []) (untouched : s.removedBy = none) {fs : Fs ρ} {pidFile : Int}
    (result : locFilePid s.fs monitor pidPath = (fs, pidFile)) :
    pidFile < 0 ∨ ∃ f d, Kept monitor pidPath { s with fs := fs, pidFile := pidFile, phase := .waiting } f d := by
  rcases locFilePid_cases s.fs monitor pidPath with ⟨_, failed⟩ | ⟨m, f, opens, locks⟩
  · obtain ⟨-, rfl⟩ := Prod.mk.inj (result.symm.trans failed)
    exact Or.inl (by omega)
  · rw [result] at locks
    rcases lockPidFile_cases m f with ⟨t, d, locked, effect⟩ | ⟨code, negative, blocked, _⟩
    · obtain ⟨rfl, rfl⟩ := Prod.mk.inj (locks.trans locked)
      have isOpen := effect.opened
      rw [opens.opened, Function.update_self] at isOpen
      obtain rfl := Option.some.inj isOpen
      refine Or.inr ⟨f, _, by simp, rfl, effect.same ▸ effect.opened, ?_, ?_, by simp [unwritten], by simp,
        by simp [untouched], by simp [Phase.worker], .first untouched ?_, ?_⟩
      · show (monitor, f) ∈ fs.fds
        rw [effect.fds, opens.fds]
        exact List.mem_cons_self
      · show fs.lock _ = some f
        rw [effect.lock, Function.update_self]
      · show fs.names pidPath = _
        rw [effect.names, opens.names]
      · show fs.accessible pidPath = true
        rw [effect.accessible, opens.accessible, opens.allowed]
    · obtain ⟨-, rfl⟩ := Prod.mk.inj (locks.trans blocked)
      exact Or.inl negative

omit [DecidableEq ρ] in
/-- A worker that writes to the monitor's own file leaves what stands at the path. -/
theorem AtPath.rewritten (path : AtPath monitor pidPath s d) (alive : ∀ pid, s.phase ≠ .removed pid ∧ s.phase ≠ .ended pid)
    {e : Description} (inode : e.inode = d.inode) {bytes : Bytes}
    (data : t.fs.data = Function.update s.fs.data d.inode bytes) (names : t.fs.names = s.fs.names)
    (lock : t.fs.lock = s.fs.lock) (fds : t.fs.fds = s.fs.fds) (removedBy : t.removedBy = s.removedBy) :
    AtPath monitor pidPath t e := by
  rcases path with ⟨untouched, named⟩ | ⟨pid, _, _, gone⟩ | ⟨pid, i, g, by_, named, other, held, locked, member⟩
  · exact .first (removedBy.trans untouched) (by rw [names, inode, named])
  · exact absurd gone (not_or.mpr (alive pid))
  · refine .replaced pid i g (removedBy.trans by_) (names ▸ named) (inode ▸ other) ?_ (lock ▸ locked) (fds ▸ member)
    rw [data, Function.update_of_ne other, held]

omit [DecidableEq ρ] in
theorem kept_truncate (kept : Kept monitor pidPath s f d) {pid : Nat} (forked : s.phase = .forked pid) {fs : Fs ρ}
    (effect : TruncateEffect s.fs f d fs) :
    Kept monitor pidPath { s with fs := fs, phase := .truncated pid } f d where
  begun := by simp
  pidFile := kept.pidFile
  opened := by
    show fs.opened f = some d
    rw [effect.same, effect.opened]
  held := effect.fds ▸ kept.held
  locked := by
    show fs.lock d.inode = some f
    rw [effect.lock, kept.locked]
  offset := kept.offset
  emptied := fun _ _ => by
    show fs.data d.inode = []
    rw [effect.data, Function.update_self]
  wrote := fun unwritten => ⟨(kept.wrote unwritten).1, fun _ => by simp⟩
  apart := by
    have apart := kept.apart
    rw [forked] at apart
    exact apart
  path := kept.path.rewritten (fun _ => by simp [forked]) rfl effect.data effect.names effect.lock effect.fds rfl
  accessible := effect.accessible ▸ kept.accessible

omit [DecidableEq ρ] in
theorem kept_write (kept : Kept monitor pidPath s f d) {pid : Nat} (truncated : s.phase = .truncated pid) {fs : Fs ρ}
    (effect : WriteEffect s.fs f (decimal pid) d fs) :
    Kept monitor pidPath { s with fs := fs, phase := .running pid, written := s.written ++ [pid] } f
      ⟨d.inode, d.offset + (decimal pid).length⟩ where
  begun := by simp
  pidFile := kept.pidFile
  opened := by
    show fs.opened f = _
    rw [effect.moved, Function.update_self]
  held := effect.fds ▸ kept.held
  locked := by
    show fs.lock d.inode = some f
    rw [effect.lock, kept.locked]
  offset := by
    have := List.length_pos_iff.mpr (decimal_ne_nil pid)
    show s.written ++ [pid] = [] ↔ d.offset + (decimal pid).length = 0
    constructor
    · simp
    · omega
  emptied := by simp
  wrote := by simp
  apart := by
    have apart := kept.apart
    rw [truncated] at apart
    exact apart
  path := kept.path.rewritten (fun _ => by simp [truncated]) rfl effect.data effect.names effect.lock effect.fds rfl
  accessible := effect.accessible ▸ kept.accessible

theorem kept_remove (kept : Kept monitor pidPath s f d) {pid : Nat} (running : s.phase = .running pid) :
    Kept monitor pidPath { s with fs := s.fs.unlink pidPath, phase := .removed pid, removedBy := some pid } f d where
  begun := by simp
  pidFile := kept.pidFile
  opened := kept.opened
  held := kept.held
  locked := kept.locked
  offset := kept.offset
  emptied := by simp
  wrote := fun unwritten => absurd running ((kept.wrote unwritten).2 pid)
  apart := by
    have apart := kept.apart
    rw [running] at apart
    exact apart
  path := .missing pid rfl (Function.update_self ..) (Or.inl rfl)
  accessible := kept.accessible

theorem kept_callback_blocked (kept : Kept monitor pidPath s f d) {pid : Nat} {i g : Nat}
    (named : s.fs.names pidPath = some i) (locked : s.fs.lock i = some g) :
    Kept monitor pidPath
      { s with fs := (writeLocPid (locFilePid s.fs monitor pidPath).1 (locFilePid s.fs monitor pidPath).2 pid).1,
               phase := .waiting } f d := by
  rcases locFilePid_cases s.fs monitor pidPath with ⟨denied, _⟩ | ⟨m, h, opens, locks⟩
  · rw [kept.accessible] at denied
    contradiction
  · have at_path : s.fs.inodeAt pidPath = i := by simp [Fs.inodeAt, named]
    rcases lockPidFile_cases m h with ⟨t, e, _, effect⟩ | ⟨code, negative, blocked, _⟩
    · have isOpen := effect.opened
      rw [opens.opened, Function.update_self, at_path] at isOpen
      obtain rfl := Option.some.inj isOpen
      have free := effect.free
      rw [opens.lock, locked, opens.description] at free
      rcases free with free | free
      · contradiction
      · exact absurd (locked.trans free) (lock_fresh s.fs i)
    · rw [locks, blocked, writeLocPid_negative m negative]
      refine kept_frame kept ?_ ?_ ?_ ?_ ?_ opens.accessible (by simp) (by simp) (by simp [Phase.worker]) ?_
      · have := (s.fs.opened_lt f d kept.opened).1
        have := opens.description
        rw [opens.opened, Function.update_of_ne (by omega)]
      · intro j k _ held
        rw [opens.lock]
        exact held
      · rw [opens.data, if_neg (by simp [named])]
      · rw [opens.names, at_path, named]
      · intro k member
        rw [opens.fds]
        exact List.mem_cons_of_mem _ member
      · simp [named]

theorem kept_callback_missing (kept : Kept monitor pidPath s f d) {pid : Nat} (by_ : s.removedBy = some pid)
    (named : s.fs.names pidPath = none) :
    Kept monitor pidPath
      { s with fs := (writeLocPid (locFilePid s.fs monitor pidPath).1 (locFilePid s.fs monitor pidPath).2 pid).1,
               phase := .waiting } f d := by
  rcases locFilePid_cases s.fs monitor pidPath with ⟨denied, _⟩ | ⟨m, h, opens, locks⟩
  · rw [kept.accessible] at denied
    contradiction
  · have at_path : s.fs.inodeAt pidPath = s.fs.inodes := by simp [Fs.inodeAt, named]
    have free := lock_free s.fs (Nat.le_refl s.fs.inodes)
    have isOpen : m.opened h = some ⟨s.fs.inodes, 0⟩ := by
      rw [opens.opened, Function.update_self, at_path]
    obtain ⟨below, inside⟩ := s.fs.opened_lt f d kept.opened
    have other : f ≠ h := by
      have := opens.description
      omega
    rcases lockPidFile_cases m h with ⟨t, e, locked, effect⟩ | ⟨code, _, _, foreign⟩
    · obtain rfl := Option.some.inj (isOpen.symm.trans effect.opened)
      obtain ⟨k, u, truncate, write, done⟩ := writeLocPid_natCast (effect.same ▸ effect.opened) pid
      rw [locks, locked, done]
      refine ⟨by simp, kept.pidFile, ?_, ?_, ?_, kept.offset, by simp, ?_, by simp [Phase.worker], ?_, ?_⟩
      · show u.opened f = some d
        rw [write.moved, Function.update_of_ne other, truncate.same, effect.same, opens.opened,
          Function.update_of_ne other, kept.opened]
      · show (monitor, f) ∈ u.fds
        rw [write.fds, truncate.fds, effect.fds, opens.fds]
        exact List.mem_cons_of_mem _ kept.held
      · show u.lock d.inode = some f
        rw [write.lock, truncate.lock, effect.lock, Function.update_of_ne (by show d.inode ≠ s.fs.inodes; omega),
          opens.lock, kept.locked]
      · exact fun unwritten => ⟨(kept.wrote unwritten).1, fun _ => by simp⟩
      · refine .replaced pid s.fs.inodes h by_ ?_ (by omega) ?_ ?_ ?_
        · show u.names pidPath = _
          rw [write.names, truncate.names, effect.names, opens.names, at_path]
        · have emptied : k.data s.fs.inodes = [] := by rw [truncate.data, Function.update_self]
          exact write.padded emptied
        · show u.lock _ = _
          rw [write.lock, truncate.lock, effect.lock, Function.update_self]
        · show (monitor, h) ∈ u.fds
          rw [write.fds, truncate.fds, effect.fds, opens.fds]
          exact List.mem_cons_self
      · show u.accessible pidPath = true
        rw [write.accessible, truncate.accessible, effect.accessible, opens.accessible, kept.accessible]
    · obtain ⟨g, _, taken⟩ := foreign _ isOpen
      rw [opens.lock, free] at taken
      contradiction

omit [DecidableEq ρ] in
theorem exit_frame (kept : Kept monitor pidPath s f d) {pid : Nat} (alive : s.phase.worker = some pid) :
    Kept monitor pidPath { s with fs := s.fs.exit pid, phase := .ended pid } f d := by
  have other : monitor ≠ pid := by
    rintro rfl
    exact kept.apart alive
  have member : ∀ g, (monitor, g) ∈ s.fs.fds → (monitor, g) ∈ (s.fs.exit pid).fds :=
    fun g member => exit_fds.mpr ⟨member, other⟩
  refine kept_frame kept rfl ?_ rfl rfl member rfl (by simp) (by simp) (by simp [Phase.worker]) ?_
  · exact fun i g held locked => exit_lock.mpr ⟨locked, monitor, member g held⟩
  · rintro _ pid' (removed | ended)
    · rw [removed] at alive
      rw [Option.some.inj alive]
    · rw [ended] at alive
      contradiction

omit [DecidableEq ρ] in
theorem fork_frame (kept : Kept monitor pidPath s f d) (waiting : s.phase = .waiting) {pid : Nat}
    (other : pid ≠ monitor) :
    Kept monitor pidPath { s with fs := s.fs.fork monitor pid, phase := .forked pid } f d := by
  refine kept_frame kept rfl (fun _ _ _ locked => locked) rfl rfl ?_ rfl (by simp) (by simp) ?_ (by simp [waiting])
  · exact fun g member => List.mem_append_left _ member
  · exact fun same => other (Option.some.inj same)

theorem kept_callback (kept : Kept monitor pidPath s f d) {pid : Nat} (ended : s.phase = .ended pid) :
    Kept monitor pidPath
      { s with fs := (writeLocPid (locFilePid s.fs monitor pidPath).1 (locFilePid s.fs monitor pidPath).2 pid).1,
               phase := .waiting } f d := by
  rcases kept.path with ⟨_, named⟩ | ⟨pid', by_, named, gone⟩ | ⟨pid', i, g, _, named, _, _, locked, _⟩
  · exact kept_callback_blocked kept named kept.locked
  · have same : pid' = pid := by simpa [ended, eq_comm] using gone
    exact kept_callback_missing kept (same ▸ by_) named
  · exact kept_callback_blocked kept named locked

inductive Outcome (monitor : Nat) (pidPath : ρ) (s : State ρ) (f : Nat) (d : Description) :
    Action → State ρ → Prop where
  | fork (pid : Nat) : s.phase = .waiting → pid ≠ monitor →
      Outcome monitor pidPath s f d (.fork pid) { s with fs := s.fs.fork monitor pid, phase := .forked pid }
  | truncate (pid : Nat) {fs : Fs ρ} : s.phase = .forked pid → TruncateEffect s.fs f d fs →
      Outcome monitor pidPath s f d .truncate { s with fs := fs, phase := .truncated pid }
  | write (pid : Nat) {fs : Fs ρ} : s.phase = .truncated pid → WriteEffect s.fs f (decimal pid) d fs →
      Outcome monitor pidPath s f d .write
        { s with fs := fs, phase := .running pid, written := s.written ++ [pid] }
  | remove (pid : Nat) : s.phase = .running pid →
      Outcome monitor pidPath s f d .remove
        { s with fs := s.fs.unlink pidPath, phase := .removed pid, removedBy := some pid }
  | exit (pid : Nat) : s.phase.worker = some pid →
      Outcome monitor pidPath s f d .exit { s with fs := s.fs.exit pid, phase := .ended pid }
  | callback (pid : Nat) : s.phase = .ended pid →
      Outcome monitor pidPath s f d .callback
        { s with fs := (writeLocPid (locFilePid s.fs monitor pidPath).1 (locFilePid s.fs monitor pidPath).2 pid).1,
                 phase := .waiting }

theorem step_outcome {a : Action} (kept : Kept monitor pidPath s f d)
    (h : step monitor pidPath s a = some t) : Outcome monitor pidPath s f d a t := by
  have isOpen := kept.opened
  cases a with
  | lock =>
    simp only [step] at h
    split at h
    · rename_i starting
      exact absurd starting kept.begun
    · contradiction
  | fork pid =>
    simp only [step] at h
    split at h
    · rename_i waiting
      split at h
      · contradiction
      · rename_i other
        obtain rfl := Option.some.inj h
        exact .fork pid waiting other
    · contradiction
  | truncate =>
    simp only [step] at h
    split at h
    · rename_i pid forked
      rw [kept.pidFile, ftruncate_natCast] at h
      split at h
      · rename_i failed
        rw [ftruncate_none failed] at isOpen
        contradiction
      · rename_i fs done
        obtain ⟨d', effect⟩ := ftruncate_some done
        obtain rfl := Option.some.inj (isOpen.symm.trans effect.opened)
        obtain rfl := Option.some.inj h
        rw [← kept.pidFile]
        exact .truncate pid forked effect
    · contradiction
  | write =>
    simp only [step] at h
    split at h
    · rename_i pid truncated
      rw [kept.pidFile, write_natCast] at h
      split at h
      · rename_i failed
        rw [write_none failed] at isOpen
        contradiction
      · rename_i fs done
        obtain ⟨d', effect⟩ := write_some done
        obtain rfl := Option.some.inj (isOpen.symm.trans effect.opened)
        obtain rfl := Option.some.inj h
        rw [← kept.pidFile]
        exact .write pid truncated effect
    · contradiction
  | remove =>
    simp only [step] at h
    split at h
    · rename_i pid running
      obtain rfl := Option.some.inj h
      exact .remove pid running
    · contradiction
  | exit =>
    simp only [step] at h
    split at h
    · rename_i pid alive
      obtain rfl := Option.some.inj h
      exact .exit pid alive
    · contradiction
  | callback =>
    simp only [step] at h
    split at h
    · rename_i pid ended
      obtain rfl := Option.some.inj h
      exact .callback pid ended
    · contradiction

theorem kept_outcome {a : Action} (kept : Kept monitor pidPath s f d) (outcome : Outcome monitor pidPath s f d a t) :
    ∃ e, Kept monitor pidPath t f e := by
  cases outcome with
  | fork pid waiting other => exact ⟨d, fork_frame kept waiting other⟩
  | truncate pid forked effect => exact ⟨d, kept_truncate kept forked effect⟩
  | write pid truncated effect => exact ⟨_, kept_write kept truncated effect⟩
  | remove pid running => exact ⟨d, kept_remove kept running⟩
  | exit pid alive => exact ⟨d, exit_frame kept alive⟩
  | callback pid ended => exact ⟨d, kept_callback kept ended⟩

/-! ### The content of the pid file -/

omit [DecidableEq ρ] in
theorem content_after_write (kept : Kept monitor pidPath s f d) {pid : Nat} (truncated : s.phase = .truncated pid)
    {fs : Fs ρ} (effect : WriteEffect s.fs f (decimal pid) d fs) :
    content fs pidPath = some (decimal pid) ↔ s.written = [] ∨ s.removedBy = some pid := by
  unfold content
  rw [effect.names]
  rcases kept.path with ⟨untouched, named⟩ | ⟨pid', _, _, gone⟩ | ⟨pid', i, _, by_, named, other, held, _, _⟩
  · have padded := effect.padded (kept.emptied pid truncated)
    rw [named, Option.map_some, padded, kept.offset, untouched]
    constructor
    · intro same
      have length := congrArg List.length (Option.some.inj same)
      rw [List.length_append, List.length_replicate] at length
      exact Or.inl (by omega)
    · rintro (start | by_)
      · rw [start, List.replicate_zero, List.nil_append]
      · contradiction
  · simp [truncated] at gone
  · rw [named, Option.map_some, effect.data, Function.update_of_ne other, held]
    constructor
    · intro same
      rw [by_, decimal_injective (Option.some.inj same)]
      exact Or.inr rfl
    · rintro (unwritten | again)
      · rw [(kept.wrote unwritten).1] at by_
        contradiction
      · rw [by_] at again
        rw [Option.some.inj again]

theorem holdsPid_outcome {a : Action} (kept : Kept monitor pidPath s f d)
    (outcome : Outcome monitor pidPath s f d a t) : HoldsPid pidPath t ↔ WritesFirst s a := by
  cases outcome with
  | write pid truncated effect =>
    rw [WritesFirst]
    have exact_write := content_after_write kept truncated effect
    constructor
    · intro holds pid' _ again
      rw [truncated] at again
      obtain rfl := Phase.truncated.inj again
      exact exact_write.mp (holds pid rfl)
    · intro cond pid' running
      obtain rfl := Phase.running.inj running
      exact exact_write.mpr (cond pid rfl truncated)
  | _ => exact ⟨fun _ => by simp [WritesFirst], fun _ => by simp [HoldsPid]⟩

theorem starting_step {a : Action} (starting : s.phase = .starting) (unwritten : s.written = [])
    (untouched : s.removedBy = none) (h : step monitor pidPath s a = some t) :
    Inv monitor pidPath t ∧ HoldsPid pidPath t ∧ WritesFirst s a := by
  cases a with
  | lock =>
    simp only [step, starting] at h
    generalize result : locFilePid s.fs monitor pidPath = locked at h
    obtain ⟨fs, pidFile⟩ := locked
    obtain rfl := Option.some.inj h
    rcases kept_lock unwritten untouched result with refused | ⟨f, d, kept⟩
    · exact ⟨.refused (if_pos refused), by simp [HoldsPid, refused], by simp [WritesFirst]⟩
    · have locked : ¬ pidFile < 0 := by
        have : pidFile = f := kept.pidFile
        omega
      exact ⟨.kept f d (by rw [if_neg locked]; exact kept), by simp [HoldsPid, locked], by simp [WritesFirst]⟩
  | _ => simp [step, starting, Phase.worker] at h

theorem refused_step {a : Action} (refused : s.phase = .refused) : step monitor pidPath s a = none := by
  cases a <;> simp [step, refused, Phase.worker]

theorem inv_step {a : Action} (inv : Inv monitor pidPath s) (h : step monitor pidPath s a = some t) :
    Inv monitor pidPath t ∧ (HoldsPid pidPath t ↔ WritesFirst s a) := by
  rcases inv with ⟨starting, unwritten, untouched⟩ | refused | ⟨f, d, kept⟩
  · obtain ⟨inv, holds, cond⟩ := starting_step starting unwritten untouched h
    exact ⟨inv, fun _ => cond, fun _ => holds⟩
  · rw [refused_step refused] at h
    contradiction
  · have outcome := step_outcome kept h
    obtain ⟨e, kept'⟩ := kept_outcome kept outcome
    exact ⟨.kept f e kept', holdsPid_outcome kept outcome⟩

/-- The two system calls of a worker together are its `write_loc_pid`. -/
theorem truncate_write_steps (kept : Kept monitor pidPath s f d) {pid : Nat} (forked : s.phase = .forked pid) :
    (writeLocPid s.fs s.pidFile pid).2 = 0 ∧
      exec (step monitor pidPath) s [.truncate, .write] =
        some { s with fs := (writeLocPid s.fs s.pidFile pid).1, phase := .running pid,
                      written := s.written ++ [pid] } := by
  cases first : s.fs.ftruncate f 0 with
  | none =>
    have isOpen := kept.opened
    rw [ftruncate_none first] at isOpen
    contradiction
  | some m =>
    obtain ⟨e, truncate⟩ := ftruncate_some first
    cases second : m.write f (decimal pid) with
    | none =>
      have isOpen := truncate.opened
      rw [← truncate.same, write_none second] at isOpen
      contradiction
    | some u => simp [step, forked, kept.pidFile, first, second, writeLocPid]

/-- A running worker finds its pid at the path in every state of a run, exactly if every worker that writes
is the first one to write or has the pid of the worker that last removed the path. -/
theorem holds_pid_iff (monitor : Nat) (pidPath : ρ) (fs : Fs ρ) (as : List Action) :
    Always (step monitor pidPath) (HoldsPid pidPath) (initial fs) as ↔
      Meets (step monitor pidPath) WritesFirst (initial fs) as :=
  always_iff_meets (Inv monitor pidPath) (fun _ _ _ inv _ h => (inv_step inv h).1)
    (fun _ _ _ inv _ h => (inv_step inv h).2) (initial_inv fs) (by simp [HoldsPid, initial]) as

def crashedWorker : List Action :=
  [.lock, .fork 10, .truncate, .write, .exit, .callback, .fork 11, .truncate, .write]

theorem crashed_worker_pads :
    (exec (step 1 ()) (initial (Fs.empty Unit)) crashedWorker).map (fun t => (t.phase, content t.fs ())) =
        some (.running 11, some [0, 0, 49, 49]) ∧
      ¬ Always (step 1 ()) (HoldsPid ()) (initial (Fs.empty Unit)) crashedWorker := by
  have reads : (exec (step 1 ()) (initial (Fs.empty Unit)) crashedWorker).map (fun t => (t.phase, content t.fs ())) =
      some (.running 11, some [0, 0, 49, 49]) := by decide
  refine ⟨reads, fun always => ?_⟩
  obtain ⟨t, reached, seen⟩ := Option.map_eq_some_iff.mp reads
  obtain ⟨running, padded⟩ := Prod.mk.inj seen
  have exactly := always.last reached 11 running
  rw [padded] at exactly
  revert exactly
  decide

end WfcCore.Startup.PidRestart

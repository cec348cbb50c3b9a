import WfcCore.Foundation.Run
import WfcCore.Startup.PidFile

/-!
# Mutual exclusion by the pid file

Any number of processes are started with one pid path. `perform_start_` opens the path and locks what
it opened, the `after_stop` handler removes the path, and a process may end at any time. The lock
belongs to the inode and the removal to the name, so that two processes run side by side once one of
them locks a file that is not the locked one.
-/

namespace WfcCore.Startup.PidLock

open Foundation Foundation.Posix

inductive Phase where
  | starting
  | opened (pidFile : Nat)
  | running (pidFile : Nat)
  | removed (pidFile : Nat)
  | refused (code : Int)
  | exited
deriving DecidableEq

/-- The pid file of a process that has one. -/
def Phase.file : Phase → Option Nat
  | .opened pidFile | .running pidFile | .removed pidFile => some pidFile
  | _ => none

/-- The pid file of a process between its successful `loc_file_pid` and its exit. -/
def Phase.held : Phase → Option Nat
  | .running pidFile | .removed pidFile => some pidFile
  | _ => none

variable {ρ : Type}

structure State (ρ : Type) where
  fs : Fs ρ
  phase : Nat → Phase

inductive Action where
  | openFile (process : Nat)
  | lockFile (process : Nat)
  | removePath (process : Nat)
  | exit (process : Nat)

def initial (fs : Fs ρ) : State ρ where
  fs := fs.boot
  phase := fun _ => .starting

def State.enter (s : State ρ) (process : Nat) (fs : Fs ρ) (phase : Phase) : State ρ where
  fs := fs
  phase := Function.update s.phase process phase

variable [DecidableEq ρ]

def step (pidPath : ρ) (s : State ρ) : Action → Option (State ρ)
  | .openFile process =>
    match s.phase process with
    | .starting =>
      match s.fs.openCreate process pidPath with
      | none => some (s.enter process s.fs (.refused (-1)))
      | some (fs, pidFile) => some (s.enter process fs (.opened pidFile))
    | _ => none
  | .lockFile process =>
    match s.phase process with
    | .opened pidFile =>
      let (fs, result) := lockPidFile s.fs pidFile
      some (s.enter process fs (if result < 0 then .refused result else .running pidFile))
    | _ => none
  | .removePath process =>
    match s.phase process with
    | .running pidFile => some (s.enter process (s.fs.unlink pidPath) (.removed pidFile))
    | _ => none
  | .exit process =>
    match s.phase process with
    | .exited => none
    | _ => some (s.enter process (s.fs.exit process) .exited)

def MutualExclusion (s : State ρ) : Prop :=
  ∀ q r, (s.phase q).held ≠ none → (s.phase r).held ≠ none → q = r

/-- No inode but `i` is locked (`namesLocked_iff`): none that has lost the path, and where the path names another
inode, not that one. -/
structure NamesLocked (pidPath : ρ) (fs : Fs ρ) (i : Nat) : Prop where
  unlinked : ∀ j, j ≠ i → fs.lock j ≠ none → fs.names pidPath = some j
  replaced : fs.names pidPath ≠ some i → ∀ j, fs.names pidPath = some j → fs.lock j = none

/-- A process locks its file while no other file is locked, whether it has lost the path or has it. -/
def LocksNamed (pidPath : ρ) (s : State ρ) (a : Action) : Prop :=
  ∀ process pidFile d, a = .lockFile process → s.phase process = .opened pidFile →
    s.fs.opened pidFile = some d → NamesLocked pidPath s.fs d.inode

variable {pidPath : ρ} {s t : State ρ} {q : Nat}

theorem file_of_held {phase : Phase} {f : Nat} (held : phase.held = some f) : phase.file = some f := by
  cases phase with
  | running => exact held
  | removed => exact held
  | _ => contradiction

omit [DecidableEq ρ] in
theorem namesLocked_iff (pidPath : ρ) (fs : Fs ρ) (i : Nat) :
    NamesLocked pidPath fs i ↔ ∀ j, j ≠ i → fs.lock j = none := by
  constructor
  · intro named j other
    by_contra locked
    have name := named.unlinked j other locked
    refine locked (named.replaced ?_ j name)
    rw [name]
    exact fun same => other (Option.some.inj same)
  · intro alone
    refine ⟨fun j other locked => absurd (alone j other) locked, fun away j name => alone j ?_⟩
    rintro rfl
    exact away name

/-! ### Steps -/

inductive Outcome (pidPath : ρ) (s : State ρ) (q : Nat) : Action → Fs ρ → Phase → Prop where
  | denied : s.phase q = .starting → Outcome pidPath s q (.openFile q) s.fs (.refused (-1))
  | opened {fs : Fs ρ} {f : Nat} : s.phase q = .starting → OpenEffect s.fs q pidPath fs f →
      Outcome pidPath s q (.openFile q) fs (.opened f)
  | locked {fs : Fs ρ} {f : Nat} {d : Description} : s.phase q = .opened f → LockEffect s.fs f d fs →
      Outcome pidPath s q (.lockFile q) fs (.running f)
  | blocked {f : Nat} {code : Int} : s.phase q = .opened f →
      (∀ d, s.fs.opened f = some d → ∃ g, g ≠ f ∧ s.fs.lock d.inode = some g) →
      Outcome pidPath s q (.lockFile q) s.fs (.refused code)
  | removed {f : Nat} : s.phase q = .running f →
      Outcome pidPath s q (.removePath q) (s.fs.unlink pidPath) (.removed f)
  | exited : Outcome pidPath s q (.exit q) (s.fs.exit q) .exited

theorem step_outcome {a : Action} (h : step pidPath s a = some t) :
    ∃ q fs phase, Outcome pidPath s q a fs phase ∧ t = s.enter q fs phase := by
  cases a with
  | openFile q =>
    simp only [step] at h
    split at h
    · rename_i starting
      split at h
      · exact ⟨q, _, _, .denied starting, (Option.some.inj h).symm⟩
      · rename_i opens
        exact ⟨q, _, _, .opened starting (openCreate_some opens), (Option.some.inj h).symm⟩
    · contradiction
  | lockFile q =>
    simp only [step] at h
    split at h
    · rename_i f opened
      rcases lockPidFile_cases s.fs f with ⟨fs, d, result, effect⟩ | ⟨code, negative, result, foreign⟩
      · rw [result] at h
        simp only [if_neg (show ¬ (f : Int) < 0 by omega)] at h
        exact ⟨q, _, _, .locked opened effect, (Option.some.inj h).symm⟩
      · rw [result] at h
        simp only [if_pos negative] at h
        exact ⟨q, _, _, .blocked opened foreign, (Option.some.inj h).symm⟩
    · contradiction
  | removePath q =>
    simp only [step] at h
    split at h
    · rename_i f running
      exact ⟨q, _, _, .removed running, (Option.some.inj h).symm⟩
    · contradiction
  | exit q =>
    simp only [step] at h
    split at h
    · contradiction
    · exact ⟨q, _, _, .exited, (Option.some.inj h).symm⟩

/-! ### Who holds which lock -/

structure Owned (s : State ρ) : Prop where
  descriptor : ∀ q f, (s.phase q).file = some f → (q, f) ∈ s.fs.fds
  single : ∀ q r f, (q, f) ∈ s.fs.fds → (r, f) ∈ s.fs.fds → q = r
  locked : ∀ q f, (s.phase q).held = some f → ∃ d, s.fs.opened f = some d ∧ s.fs.lock d.inode = some f
  holder : ∀ i f, s.fs.lock i = some f → ∃ q, (s.phase q).held = some f

omit [DecidableEq ρ] in
theorem initial_owned (fs : Fs ρ) : Owned (initial fs) := by
  constructor <;> simp [initial, Fs.boot, Phase.file, Phase.held]

omit [DecidableEq ρ] in
theorem owned_enter {fs : Fs ρ} {phase : Phase} (owned : Owned s)
    (others : ∀ r f, r ≠ q → (r, f) ∈ s.fs.fds → (r, f) ∈ fs.fds)
    (own : ∀ f, phase.file = some f → (q, f) ∈ fs.fds)
    (single : ∀ p r f, (p, f) ∈ fs.fds → (r, f) ∈ fs.fds → p = r)
    (kept : ∀ r f d, r ≠ q → (s.phase r).held = some f → s.fs.opened f = some d → s.fs.lock d.inode = some f →
      fs.opened f = some d ∧ fs.lock d.inode = some f)
    (taken : ∀ f, phase.held = some f → ∃ d, fs.opened f = some d ∧ fs.lock d.inode = some f)
    (holder : ∀ i f, fs.lock i = some f → phase.held = some f ∨ ∃ r, r ≠ q ∧ (s.phase r).held = some f) :
    Owned (s.enter q fs phase) := by
  have at_q : (s.enter q fs phase).phase q = phase := Function.update_self ..
  have off_q : ∀ r, r ≠ q → (s.enter q fs phase).phase r = s.phase r := fun r other => Function.update_of_ne other ..
  refine ⟨?_, single, ?_, ?_⟩
  · intro r f file
    by_cases same : r = q
    · subst same
      rw [at_q] at file
      exact own f file
    · rw [off_q r same] at file
      exact others r f same (owned.descriptor r f file)
  · intro r f held
    by_cases same : r = q
    · subst same
      rw [at_q] at held
      exact taken f held
    · rw [off_q r same] at held
      obtain ⟨d, isOpen, locked⟩ := owned.locked r f held
      exact ⟨d, kept r f d same held isOpen locked⟩
  · intro i f locked
    rcases holder i f locked with mine | ⟨r, other, held⟩
    · exact ⟨q, by rw [at_q]; exact mine⟩
    · exact ⟨r, by rw [off_q r other]; exact held⟩

omit [DecidableEq ρ] in
theorem Owned.otherHolder (owned : Owned s) {i f : Nat} (locked : s.fs.lock i = some f)
    (idle : (s.phase q).held ≠ some f) : ∃ r, r ≠ q ∧ (s.phase r).held = some f := by
  obtain ⟨r, held⟩ := owned.holder i f locked
  refine ⟨r, ?_, held⟩
  rintro rfl
  exact idle held

omit [DecidableEq ρ] in
theorem owned_refused {code : Int} (owned : Owned s) (idle : (s.phase q).held = none) :
    Owned (s.enter q s.fs (.refused code)) := by
  refine owned_enter owned (fun _ _ _ member => member) (by simp [Phase.file]) owned.single
    (fun _ _ _ _ _ isOpen locked => ⟨isOpen, locked⟩) (by simp [Phase.held]) (fun i f locked => Or.inr ?_)
  exact owned.otherHolder locked (by simp [idle])

omit [DecidableEq ρ] in
theorem owned_opened {fs : Fs ρ} {f : Nat} (owned : Owned s) (starting : s.phase q = .starting)
    (effect : OpenEffect s.fs q pidPath fs f) : Owned (s.enter q fs (.opened f)) := by
  have fresh := effect.description
  refine owned_enter owned ?_ ?_ ?_ ?_ (by simp [Phase.held]) ?_
  · intro r g _ member
    rw [effect.fds]
    exact List.mem_cons_of_mem _ member
  · intro g file
    obtain rfl := Option.some.inj file
    rw [effect.fds]
    exact List.mem_cons_self
  · intro p r g left right
    rw [effect.fds, List.mem_cons, Prod.mk.injEq] at left right
    rcases left with ⟨rfl, rfl⟩ | left
    · rcases right with ⟨rfl, _⟩ | right
      · rfl
      · exact absurd (fresh ▸ right) (fds_fresh s.fs r)
    · rcases right with ⟨rfl, rfl⟩ | right
      · exact absurd (fresh ▸ left) (fds_fresh s.fs p)
      · exact owned.single p r g left right
  · intro r g d _ _ isOpen locked
    have old := (s.fs.opened_lt g d isOpen).1
    rw [effect.opened, effect.lock, Function.update_of_ne (by omega)]
    exact ⟨isOpen, locked⟩
  · intro i g locked
    rw [effect.lock] at locked
    exact Or.inr (owned.otherHolder locked (by simp [starting, Phase.held]))

omit [DecidableEq ρ] in
theorem owned_locked {fs : Fs ρ} {f : Nat} {d : Description} (owned : Owned s) (waiting : s.phase q = .opened f)
    (effect : LockEffect s.fs f d fs) : Owned (s.enter q fs (.running f)) := by
  refine owned_enter owned ?_ ?_ ?_ ?_ ?_ ?_
  · intro r g _ member
    rw [effect.fds]
    exact member
  · intro g file
    obtain rfl := Option.some.inj file
    rw [effect.fds]
    exact owned.descriptor q f (by rw [waiting]; rfl)
  · rw [effect.fds]
    exact owned.single
  · intro r g e other held isOpen locked
    rw [effect.same, effect.lock]
    refine ⟨isOpen, ?_⟩
    by_cases same : e.inode = d.inode
    · -- the inode was free or the process's own, and this holder is another process
      rcases effect.free with free | mine
      · rw [same, free] at locked
        contradiction
      · rw [same, mine] at locked
        rw [same, Function.update_self, ← locked]
    · rw [Function.update_of_ne same]
      exact locked
  · intro g held
    obtain rfl := Option.some.inj held
    exact ⟨d, by rw [effect.same]; exact effect.opened, by rw [effect.lock, Function.update_self]⟩
  · intro i g locked
    rw [effect.lock] at locked
    by_cases same : i = d.inode
    · rw [same, Function.update_self] at locked
      exact Or.inl locked
    · rw [Function.update_of_ne same] at locked
      exact Or.inr (owned.otherHolder locked (by simp [waiting, Phase.held]))

theorem owned_removed {f : Nat} (owned : Owned s) (running : s.phase q = .running f) :
    Owned (s.enter q (s.fs.unlink pidPath) (.removed f)) := by
  refine owned_enter owned (fun _ _ _ member => member) ?_ owned.single
    (fun _ _ _ _ _ isOpen locked => ⟨isOpen, locked⟩) ?_ ?_
  · intro g file
    exact owned.descriptor q g (by rw [running]; exact file)
  · intro g held
    exact owned.locked q g (by rw [running]; exact held)
  · intro i g locked
    by_cases mine : (s.phase q).held = some g
    · rw [running] at mine
      exact Or.inl mine
    · exact Or.inr (owned.otherHolder locked mine)

omit [DecidableEq ρ] in
theorem owned_exited (owned : Owned s) : Owned (s.enter q (s.fs.exit q) .exited) := by
  refine owned_enter owned ?_ (by simp [Phase.file]) ?_ ?_ (by simp [Phase.held]) ?_
  · intro r f other member
    exact exit_fds.mpr ⟨member, other⟩
  · intro p r f left right
    exact owned.single p r f (exit_fds.mp left).1 (exit_fds.mp right).1
  · intro r f d other held isOpen locked
    have member := exit_fds.mpr ⟨owned.descriptor r f (file_of_held held), other⟩
    exact ⟨isOpen, exit_lock.mpr ⟨locked, r, member⟩⟩
  · intro i f locked
    obtain ⟨before, r, member⟩ := exit_lock.mp locked
    obtain ⟨member, other⟩ := exit_fds.mp member
    obtain ⟨p, held⟩ := owned.holder i f before
    have same := owned.single p r f (owned.descriptor p f (file_of_held held)) member
    exact Or.inr ⟨p, by rw [same]; exact other, held⟩

theorem owned_outcome {a : Action} {fs : Fs ρ} {phase : Phase} (owned : Owned s)
    (outcome : Outcome pidPath s q a fs phase) : Owned (s.enter q fs phase) := by
  cases outcome with
  | denied starting => exact owned_refused owned (by rw [starting]; rfl)
  | opened starting effect => exact owned_opened owned starting effect
  | locked waiting effect => exact owned_locked owned waiting effect
  | blocked waiting _ => exact owned_refused owned (by rw [waiting]; rfl)
  | removed running => exact owned_removed owned running
  | exited => exact owned_exited owned

/-! ### Exclusion -/

omit [DecidableEq ρ] in
theorem exclusion_enter {fs : Fs ρ} {phase : Phase} (now : MutualExclusion s)
    (quiet : phase.held ≠ none → (s.phase q).held ≠ none) : MutualExclusion (s.enter q fs phase) := by
  have before : ∀ r, ((s.enter q fs phase).phase r).held ≠ none → (s.phase r).held ≠ none := by
    intro r held
    by_cases same : r = q
    · subst same
      rw [show (s.enter r fs phase).phase r = phase from Function.update_self ..] at held
      exact quiet held
    · rwa [show (s.enter q fs phase).phase r = s.phase r from Function.update_of_ne same ..] at held
  exact fun p r left right => now p r (before p left) (before r right)

omit [DecidableEq ρ] in
theorem Owned.isOpen (owned : Owned s) {f : Nat} (file : (s.phase q).file = some f) :
    ∃ d, s.fs.opened f = some d :=
  Option.isSome_iff_exists.mp (s.fs.fds_opened q f (owned.descriptor q f file))

omit [DecidableEq ρ] in
theorem exclusion_locked {fs : Fs ρ} {f : Nat} {d : Description} (owned : Owned s) (waiting : s.phase q = .opened f)
    (effect : LockEffect s.fs f d fs) :
    MutualExclusion (s.enter q fs (.running f)) ↔ ∀ j, j ≠ d.inode → s.fs.lock j = none := by
  have at_q : (s.enter q fs (.running f)).phase q = .running f := Function.update_self ..
  have off_q : ∀ r, r ≠ q → (s.enter q fs (.running f)).phase r = s.phase r :=
    fun r other => Function.update_of_ne other ..
  constructor
  · intro exclusion j other
    by_contra locked
    obtain ⟨g, locked⟩ := Option.ne_none_iff_exists'.mp locked
    obtain ⟨r, different, held⟩ := owned.otherHolder (q := q) locked (by simp [waiting, Phase.held])
    refine different (exclusion r q ?_ ?_)
    · rw [off_q r different, held]
      exact Option.some_ne_none g
    · rw [at_q]
      exact Option.some_ne_none f
  · intro alone
    have only : ∀ r, ((s.enter q fs (.running f)).phase r).held ≠ none → r = q := by
      intro r holds
      by_contra different
      rw [off_q r different] at holds
      obtain ⟨g, held⟩ := Option.ne_none_iff_exists'.mp holds
      obtain ⟨e, _, locked⟩ := owned.locked r g held
      have inode : e.inode = d.inode := by
        by_contra elsewhere
        rw [alone e.inode elsewhere] at locked
        contradiction
      rcases effect.free with free | mine
      · rw [inode, free] at locked
        contradiction
      · rw [inode, mine] at locked
        obtain rfl := Option.some.inj locked
        have ours := owned.descriptor q f (by rw [waiting]; rfl)
        exact different (owned.single r q f (owned.descriptor r f (file_of_held held)) ours)
    exact fun p r left right => (only p left).trans (only r right).symm

omit [DecidableEq ρ] in
theorem blocked_alone {g : Nat} {d : Description} (owned : Owned s) (now : MutualExclusion s)
    (locked : s.fs.lock d.inode = some g) (j : Nat) (other : j ≠ d.inode) : s.fs.lock j = none := by
  by_contra elsewhere
  obtain ⟨h, elsewhere⟩ := Option.ne_none_iff_exists'.mp elsewhere
  obtain ⟨p, here⟩ := owned.holder _ _ locked
  obtain ⟨r, there⟩ := owned.holder _ _ elsewhere
  have same := now p r (by simp [here]) (by simp [there])
  rw [same, there] at here
  obtain rfl := Option.some.inj here
  obtain ⟨_, opened, inode⟩ := s.fs.lock_opened _ _ locked
  obtain ⟨_, opened', inode'⟩ := s.fs.lock_opened _ _ elsewhere
  rw [opened] at opened'
  obtain rfl := Option.some.inj opened'
  exact other (inode'.symm.trans inode)

theorem exclusion_step {a : Action} (owned : Owned s) (now : MutualExclusion s) (h : step pidPath s a = some t) :
    MutualExclusion t ↔ LocksNamed pidPath s a := by
  obtain ⟨q, fs, phase, outcome, rfl⟩ := step_outcome h
  cases outcome with
  | denied starting =>
    exact ⟨fun _ => by simp [LocksNamed], fun _ => exclusion_enter now (by simp [Phase.held])⟩
  | opened starting effect =>
    exact ⟨fun _ => by simp [LocksNamed], fun _ => exclusion_enter now (by simp [Phase.held])⟩
  | @locked fs f d waiting effect =>
    rw [exclusion_locked owned waiting effect, ← namesLocked_iff pidPath]
    constructor
    · rintro named _ _ e ⟨⟩ again isOpen
      rw [waiting] at again
      cases again
      rw [effect.opened] at isOpen
      cases isOpen
      exact named
    · exact fun cond => cond q f d rfl waiting effect.opened
  | @blocked f code waiting foreign =>
    refine ⟨fun _ => ?_, fun _ => exclusion_enter now (by simp [Phase.held])⟩
    rintro _ _ d ⟨⟩ again isOpen
    rw [waiting] at again
    cases again
    obtain ⟨g, _, locked⟩ := foreign d isOpen
    exact (namesLocked_iff ..).mpr (blocked_alone owned now locked)
  | removed running =>
    exact ⟨fun _ => by simp [LocksNamed], fun _ => exclusion_enter now (by simp [running, Phase.held])⟩
  | exited =>
    exact ⟨fun _ => by simp [LocksNamed], fun _ => exclusion_enter now (by simp [Phase.held])⟩

/-- A process that runs through the two steps of `openFile` and `lockFile` alone runs `loc_file_pid`. -/
theorem open_lock_steps {fs : Fs ρ} {f : Nat} (starting : s.phase q = .starting)
    (opens : s.fs.openCreate q pidPath = some (fs, f)) :
    exec (step pidPath) s [.openFile q, .lockFile q] =
      some (s.enter q (locFilePid s.fs q pidPath).1
        (if (locFilePid s.fs q pidPath).2 < 0 then .refused (locFilePid s.fs q pidPath).2 else .running f)) := by
  have first : step pidPath s (.openFile q) = some (s.enter q fs (.opened f)) := by
    simp only [step, starting, opens]
  have second : step pidPath (s.enter q fs (.opened f)) (.lockFile q) =
      some ((s.enter q fs (.opened f)).enter q (lockPidFile fs f).1
        (if (lockPidFile fs f).2 < 0 then .refused (lockPidFile fs f).2 else .running f)) := by
    simp only [step, State.enter, Function.update_self]
    rfl
  have whole : locFilePid s.fs q pidPath = lockPidFile fs f := by
    simp only [locFilePid, opens]
  rw [exec_cons, first, Option.bind_some, exec_cons, second, Option.bind_some, exec_nil, whole]
  simp only [State.enter, Function.update_idem]

/-- In every state of a run at most one process is past `loc_file_pid`, exactly if every process
locks its file while the path and the locks agree. -/
theorem mutual_exclusion_iff (pidPath : ρ) (fs : Fs ρ) (as : List Action) :
    Always (step pidPath) MutualExclusion (initial fs) as ↔
      Meets (step pidPath) (LocksNamed pidPath) (initial fs) as :=
  always_iff_meets Owned
    (fun s a t owned _ h => by
      obtain ⟨q, fs, phase, outcome, rfl⟩ := step_outcome h
      exact owned_outcome owned outcome)
    (fun s a t owned now h => exclusion_step owned now h)
    (initial_owned fs) (fun _ _ held => absurd rfl held) as

/-- Process 0 stops and has removed the path, but has not exited, when process 1 starts. -/
def stoppingAndStarting : List Action :=
  [.openFile 0, .lockFile 0, .removePath 0, .openFile 1, .lockFile 1]

theorem stopping_and_starting_overlap :
    (exec (step ()) (initial (Fs.empty Unit)) stoppingAndStarting).map (fun t => (t.phase 0, t.phase 1)) =
        some (.removed 0, .running 1) ∧
      ¬ Always (step ()) MutualExclusion (initial (Fs.empty Unit)) stoppingAndStarting := by
  have phases : (exec (step ()) (initial (Fs.empty Unit)) stoppingAndStarting).map
      (fun t => (t.phase 0, t.phase 1)) = some (.removed 0, .running 1) := by decide
  refine ⟨phases, fun always => ?_⟩
  obtain ⟨t, reached, seen⟩ := Option.map_eq_some_iff.mp phases
  obtain ⟨zero, one⟩ := Prod.mk.inj seen
  have same := always.last reached 0 1 (by simp [zero, Phase.held]) (by simp [one, Phase.held])
  contradiction

end WfcCore.Startup.PidLock

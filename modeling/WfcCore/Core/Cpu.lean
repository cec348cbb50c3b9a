import Mathlib.Data.Finset.Sort
import Mathlib.Data.List.Nodup

/-!
# CPU assignment

The last part of `core::_idle` gives CPU sets to the threads of the process whenever the registry of threads
`wfc::cpuset` has changed. The registry is outside the repository and a parameter.
-/

namespace WfcCore.Core.Cpu

/-! ### System calls -/

/-- The entries of the task directory of the process, if it can be read, each a directory or not; the error
text of a failing `sched_setaffinity`; the process numbers. -/
structure System where
  task : Option (List (String × Bool))
  schedSetaffinity : Int → Finset Int → Option String
  getpid : Int
  getppid : Int

def isspace (c : Char) : Bool := c.isWhitespace || c.toNat == 11 || c.toNat == 12

def digits (text : List Char) : Int :=
  (text.takeWhile Char.isDigit).foldl (fun n c => 10 * n + (c.toNat - 48 : Nat)) 0

/-- `atoi` of a number that fits into an `int`. -/
def atoi (s : String) : Int :=
  match s.toList.dropWhile isspace with
  | '-' :: rest => -digits rest
  | '+' :: rest => digits rest
  | rest => digits rest

def getThreads (sys : System) : Finset Int :=
  match sys.task with
  | none => ∅
  | some entries => entries.foldl (fun pids de =>
      if de.2 ∧ atoi de.1 > 0 then insert (atoi de.1) pids else pids) ∅

/-! ### The registry -/

/-- `wfc::cpuset`. The registered threads are distinct. -/
structure Cpuset where
  State : Type
  threadActive : State → Int → State × Int
  cleanDirty : State → Bool × State
  getPids : State → List Int
  getCpu : State → Int → Finset Int
  getName : State → Int → String
  distinct : ∀ s, (getPids s).Nodup

structure CpuOptions where
  wfcCpu : Finset Int
  sysCpu : Finset Int

/-- A call of `sched_setaffinity`. -/
structure Affinity where
  pid : Int
  cpu : Finset Int
deriving DecidableEq

/-- The variables of a pass, with the calls and the log messages so far. -/
structure Pass where
  allPids : Finset Int
  cpucount : Nat
  calls : List Affinity
  log : List String

def Pass.start (allPids : Finset Int) : Pass := ⟨allPids, 0, [], []⟩

def cpuText (cpu : Finset Int) : String :=
  "[" ++ ",".intercalate (cpu.sort.map toString) ++ "]"

/-- `setaffinity`, counted and logged under the name of the thread. -/
def Pass.setaffinity (sys : System) (thread : String) (pass : Pass) (pid : Int) (cpu : Finset Int) : Pass :=
  { pass with
    cpucount := pass.cpucount + 1
    calls := pass.calls ++ [⟨pid, cpu⟩]
    log := pass.log ++
      (match sys.schedSetaffinity pid cpu with
      | some error => ["sched_setaffinity: " ++ error ++ " for pid=" ++ toString pid]
      | none => []) ++
      ["For " ++ thread ++ " CPU set " ++ cpuText cpu] }

variable {m : Cpuset}

def wfcThread (sys : System) (cpumgr : m.State) (wfcCpu : Finset Int) (pass : Pass) (p : Int) : Pass :=
  let pass := { pass with allPids := pass.allPids.erase p }
  let cpu := if m.getCpu cpumgr p = ∅ then wfcCpu else m.getCpu cpumgr p
  if cpu = ∅ then pass
  else pass.setaffinity sys ("WFC thread " ++ toString p ++ " ('" ++ m.getName cpumgr p ++ "')") p cpu

def sysThread (sys : System) (sysCpu : Finset Int) (pass : Pass) (p : Int) : Pass :=
  pass.setaffinity sys ("SYS thread " ++ toString p) p sysCpu

def setThreads (sys : System) (cpumgr : m.State) (options : CpuOptions) : Pass :=
  let pass := (m.getPids cpumgr).foldl (wfcThread sys cpumgr options.wfcCpu) (.start (getThreads sys))
  let pass := if options.sysCpu ≠ ∅ then pass.allPids.sort.foldl (sysThread sys options.sysCpu) pass else pass
  if pass.cpucount > 0 then
    { pass with log := pass.log ++ ["CPU threads [" ++ toString pass.cpucount ++ "] reconfigured. ProcID=" ++
        toString sys.getpid ++ " ParentId=" ++ toString sys.getppid] }
  else pass

structure CpuState (m : Cpuset) where
  pid : Int
  stopFlag : Bool
  cpu : m.State

/-- `_idle` behind the reconfiguration, with the pass it makes. After a stop it starts over and stops, and no
thread gets CPUs. -/
def CpuState.idle (s : CpuState m) (sys : System) (options : CpuOptions) : CpuState m × Pass :=
  if s.stopFlag then (s, .start ∅)
  else
    let active := m.threadActive s.cpu s.pid
    let cleaned := m.cleanDirty active.1
    ({ s with pid := active.2, cpu := cleaned.2 },
      if cleaned.1 then setThreads sys cleaned.2 options else .start ∅)

/-! ### The two loops -/

/-- The set for a registered thread, if there is one. -/
def wfcSet (own wfcCpu : Finset Int) : Option (Finset Int) :=
  if own ≠ ∅ then some own else if wfcCpu ≠ ∅ then some wfcCpu else none

variable (sys : System) (cpumgr : m.State)

theorem wfcThread_calls (wfcCpu : Finset Int) (pass : Pass) (p : Int) :
    (wfcThread sys cpumgr wfcCpu pass p).calls =
      pass.calls ++ ((wfcSet (m.getCpu cpumgr p) wfcCpu).map (Affinity.mk p)).toList := by
  unfold wfcThread wfcSet
  by_cases own : m.getCpu cpumgr p = ∅
  · by_cases none_ : wfcCpu = ∅
    · simp [own, none_]
    · simp [own, none_, Pass.setaffinity]
  · simp [own, Pass.setaffinity]

theorem wfcThread_allPids (wfcCpu : Finset Int) (pass : Pass) (p : Int) :
    (wfcThread sys cpumgr wfcCpu pass p).allPids = pass.allPids.erase p := by
  unfold wfcThread
  exact (apply_ite Pass.allPids _ _ _).trans (ite_self _)

theorem wfcThreads_calls (wfcCpu : Finset Int) (pass : Pass) (pids : List Int) :
    (pids.foldl (wfcThread sys cpumgr wfcCpu) pass).calls =
      pass.calls ++ pids.filterMap fun p => (wfcSet (m.getCpu cpumgr p) wfcCpu).map (Affinity.mk p) := by
  induction pids generalizing pass with
  | nil => exact (List.append_nil _).symm
  | cons p rest ih =>
    rw [List.foldl_cons, ih, wfcThread_calls, List.append_assoc, List.filterMap_cons]
    cases wfcSet (m.getCpu cpumgr p) wfcCpu <;> rfl

theorem wfcThreads_allPids (wfcCpu : Finset Int) (pass : Pass) (pids : List Int) :
    (pids.foldl (wfcThread sys cpumgr wfcCpu) pass).allPids = pass.allPids \ pids.toFinset := by
  induction pids generalizing pass with
  | nil => simp
  | cons p rest ih =>
    rw [List.foldl_cons, ih, wfcThread_allPids, List.toFinset_cons, Finset.sdiff_insert, Finset.erase_sdiff_comm]

theorem sysThreads_calls (sysCpu : Finset Int) (pass : Pass) (pids : List Int) :
    (pids.foldl (sysThread sys sysCpu) pass).calls = pass.calls ++ pids.map fun p => ⟨p, sysCpu⟩ := by
  induction pids generalizing pass with
  | nil => exact (List.append_nil _).symm
  | cons p rest ih =>
    rw [List.foldl_cons, ih, List.map_cons, List.append_cons]
    rfl

/-! ### The pass -/

/-- The threads that `sys-cpu` goes to. -/
def sysPids (options : CpuOptions) : List Int :=
  if options.sysCpu ≠ ∅ then (getThreads sys \ (m.getPids cpumgr).toFinset).sort else []

theorem setThreads_calls (options : CpuOptions) :
    (setThreads sys cpumgr options).calls =
      ((m.getPids cpumgr).filterMap fun p => (wfcSet (m.getCpu cpumgr p) options.wfcCpu).map (Affinity.mk p)) ++
        (sysPids sys cpumgr options).map fun p => ⟨p, options.sysCpu⟩ := by
  have logged : (setThreads sys cpumgr options).calls =
      (if options.sysCpu ≠ ∅ then
        ((m.getPids cpumgr).foldl (wfcThread sys cpumgr options.wfcCpu)
          (.start (getThreads sys))).allPids.sort.foldl (sysThread sys options.sysCpu)
            ((m.getPids cpumgr).foldl (wfcThread sys cpumgr options.wfcCpu) (.start (getThreads sys)))
      else (m.getPids cpumgr).foldl (wfcThread sys cpumgr options.wfcCpu) (.start (getThreads sys))).calls := by
    unfold setThreads
    exact (apply_ite Pass.calls _ _ _).trans (ite_self _)
  rw [logged]
  unfold sysPids
  split
  · rw [sysThreads_calls, wfcThreads_calls, wfcThreads_allPids]
    rfl
  · rw [wfcThreads_calls]
    exact (List.append_nil _).symm

theorem mem_sysPids {options : CpuOptions} {p : Int} :
    p ∈ sysPids sys cpumgr options ↔ options.sysCpu ≠ ∅ ∧ p ∈ getThreads sys ∧ p ∉ m.getPids cpumgr := by
  unfold sysPids
  split
  · rename_i some_
    simp [some_]
  · rename_i none_
    simp [none_]

theorem sysPids_nodup (options : CpuOptions) : (sysPids sys cpumgr options).Nodup := by
  unfold sysPids
  split
  · exact Finset.sort_nodup _ _
  · exact List.nodup_nil

theorem wfcSet_eq_some {own wfcCpu cpu : Finset Int} :
    wfcSet own wfcCpu = some cpu ↔ cpu ≠ ∅ ∧ cpu = if own ≠ ∅ then own else wfcCpu := by
  unfold wfcSet
  by_cases own_ : own ≠ ∅
  · simp only [if_pos own_, Option.some.injEq]
    constructor
    · rintro rfl
      exact ⟨own_, rfl⟩
    · exact fun same => same.2.symm
  · simp only [if_neg own_]
    by_cases wfc : wfcCpu ≠ ∅
    · simp only [if_pos wfc, Option.some.injEq]
      constructor
      · rintro rfl
        exact ⟨wfc, rfl⟩
      · exact fun same => same.2.symm
    · simp only [if_neg wfc]
      refine iff_of_false (by simp) ?_
      rintro ⟨some_, rfl⟩
      exact wfc some_

/-- Which calls a pass makes, in terms of a registry with its own sets and the threads of the process. -/
structure Assigns (m : Cpuset) (cpumgr : m.State) (options : CpuOptions) (threads : Finset Int)
    (calls : List Affinity) : Prop where
  once : (calls.map Affinity.pid).Nodup
  registered : ∀ p ∈ m.getPids cpumgr, ∀ cpu, ⟨p, cpu⟩ ∈ calls ↔
    cpu ≠ ∅ ∧ cpu = if m.getCpu cpumgr p ≠ ∅ then m.getCpu cpumgr p else options.wfcCpu
  others : ∀ p ∈ threads, p ∉ m.getPids cpumgr → ∀ cpu, ⟨p, cpu⟩ ∈ calls ↔ cpu ≠ ∅ ∧ cpu = options.sysCpu
  known : ∀ call ∈ calls, call.pid ∈ m.getPids cpumgr ∨ call.pid ∈ threads
  exclusive : ∀ p ∈ m.getPids cpumgr, ⟨p, options.sysCpu⟩ ∈ calls →
    options.sysCpu = m.getCpu cpumgr p ∨ options.sysCpu = options.wfcCpu

theorem mem_setThreads {options : CpuOptions} {p : Int} {cpu : Finset Int} :
    ⟨p, cpu⟩ ∈ (setThreads sys cpumgr options).calls ↔
      (p ∈ m.getPids cpumgr ∧ wfcSet (m.getCpu cpumgr p) options.wfcCpu = some cpu) ∨
        (p ∈ sysPids sys cpumgr options ∧ cpu = options.sysCpu) := by
  rw [setThreads_calls, List.mem_append, List.mem_filterMap, List.mem_map]
  refine or_congr ?_ ?_
  · constructor
    · rintro ⟨q, listed, made⟩
      obtain ⟨set, chosen, same⟩ := Option.map_eq_some_iff.mp made
      obtain ⟨rfl, rfl⟩ := Affinity.mk.inj same
      exact ⟨listed, chosen⟩
    · rintro ⟨listed, chosen⟩
      exact ⟨p, listed, by rw [chosen, Option.map_some]⟩
  · constructor
    · rintro ⟨q, listed, same⟩
      obtain ⟨rfl, rfl⟩ := Affinity.mk.inj same
      exact ⟨listed, rfl⟩
    · rintro ⟨listed, rfl⟩
      exact ⟨p, listed, rfl⟩

theorem setThreads_once (options : CpuOptions) : ((setThreads sys cpumgr options).calls.map Affinity.pid).Nodup := by
  have own (pids : List Int) :
      ((pids.filterMap fun p => (wfcSet (m.getCpu cpumgr p) options.wfcCpu).map (Affinity.mk p)).map
        Affinity.pid).Sublist pids := by
    induction pids with
    | nil => exact List.Sublist.refl _
    | cons p rest ih =>
      rw [List.filterMap_cons]
      cases wfcSet (m.getCpu cpumgr p) options.wfcCpu with
      | none => exact ih.cons p
      | some cpu => exact ih.cons_cons p
  rw [setThreads_calls, List.map_append, List.map_map]
  refine List.nodup_append.mpr ⟨(own _).nodup (m.distinct cpumgr), ?_, ?_⟩
  · exact (List.map_id _).symm ▸ sysPids_nodup sys cpumgr options
  · rintro p registered q other rfl
    obtain ⟨_, listed, rfl⟩ := List.mem_map.mp other
    exact ((mem_sysPids sys cpumgr).mp listed).2.2 ((own _).subset registered)

theorem setThreads_assigns (options : CpuOptions) :
    Assigns m cpumgr options (getThreads sys) (setThreads sys cpumgr options).calls where
  once := setThreads_once sys cpumgr options
  registered p registered cpu := by
    have apart : p ∉ sysPids sys cpumgr options := fun other => ((mem_sysPids sys cpumgr).mp other).2.2 registered
    rw [mem_setThreads, wfcSet_eq_some, and_iff_right registered]
    exact or_iff_left fun other => apart other.1
  others p present unregistered cpu := by
    rw [mem_setThreads, mem_sysPids]
    constructor
    · rintro (⟨registered, _⟩ | ⟨⟨some_, _⟩, rfl⟩)
      · exact (unregistered registered).elim
      · exact ⟨some_, rfl⟩
    · rintro ⟨some_, rfl⟩
      exact Or.inr ⟨⟨some_, present, unregistered⟩, rfl⟩
  known call made := by
    rcases (mem_setThreads sys cpumgr).mp made with ⟨registered, _⟩ | ⟨other, _⟩
    · exact Or.inl registered
    · exact Or.inr ((mem_sysPids sys cpumgr).mp other).2.1
  exclusive p registered made := by
    rcases (mem_setThreads sys cpumgr).mp made with ⟨_, chosen⟩ | ⟨other, _⟩
    · have same := (wfcSet_eq_some.mp chosen).2
      split at same
      · exact Or.inl same
      · exact Or.inr same
    · exact (((mem_sysPids sys cpumgr).mp other).2.2 registered).elim

/-- A pass that finds the registry changed gives every registered thread its own set or else `wfc-cpu`, every
other thread of the process `sys-cpu`, empty sets to none, and touches no thread twice. -/
theorem idle_assigns (s : CpuState m) (options : CpuOptions) (running : s.stopFlag = false)
    (dirty : (m.cleanDirty (m.threadActive s.cpu s.pid).1).1 = true) :
    Assigns m (s.idle sys options).1.cpu options (getThreads sys) (s.idle sys options).2.calls := by
  unfold CpuState.idle
  rw [if_neg (by rw [running]; exact Bool.false_ne_true)]
  simp only [dirty, if_true]
  exact setThreads_assigns sys _ options

/-- Two registered threads, the second with a set of its own; the state is whether they have changed. -/
def twoThreads : Cpuset where
  State := Bool
  threadActive := fun s pid => (s, pid)
  cleanDirty := fun s => (s, false)
  getPids := fun _ => [10, 11]
  getCpu := fun _ p => if p = 11 then {3} else ∅
  getName := fun _ _ => "wfc"
  distinct := by decide

/-- Of the registered threads the process still has one. -/
def threeTasks : System where
  task := some [("9", true), ("10", true), ("12", true)]
  schedSetaffinity := fun _ _ => none
  getpid := 9
  getppid := 1

def changedThreads : CpuState twoThreads := ⟨10, false, true⟩

def fourCores : CpuOptions := ⟨{1, 2}, {0}⟩

theorem idle_assigns_twoThreads :
    Assigns twoThreads (changedThreads.idle threeTasks fourCores).1.cpu fourCores (getThreads threeTasks)
      (changedThreads.idle threeTasks fourCores).2.calls :=
  idle_assigns threeTasks changedThreads fourCores rfl rfl

end WfcCore.Core.Cpu

import WfcCore.Config.Load
import WfcCore.Foundation.Run

/-!
# The change watcher

`config` as one thread, with other programs that write the watched files between any two of its steps.
A load reads the files in one step and then records their modification times one by one; `start` records
the main file, and a tick of the timer compares the recorded times with the current ones. Times are whole
seconds.
-/

namespace WfcCore.Config.Watch

open Foundation Wfc

inductive Load where
  | loadAndConfigure | showConfig | reload
deriving DecidableEq

inductive Pc where
  | boot
  | reading (load : Load)
  | recording (load : Load) (confstr : String) (rest : List String)
  | failed
  | configured
  | recordMain
  | idle
  | scanning (rest : List String)
deriving DecidableEq

def Pc.inLoad : Pc → Bool
  | .reading _ | .recording .. => true
  | _ => false

def Pc.isReading : Pc → Bool
  | .reading _ => true
  | _ => false

def Pc.pending : Pc → List String
  | .recording _ _ rest => rest
  | _ => []

/-- `seen` is history: the texts of all files when the last load read its files. -/
structure State where
  files : Files
  clock : Int
  config : ConfigState
  seen : String → Option String
  pc : Pc

inductive Action where
  | main
  | tick
  | sighup
  | reconfigured (options : ConfigConfig)
  | write (file text : String)
  | clock (now : Int)

def initial (files : Files) (clock : Int) : State where
  files := files
  clock := clock
  config := .fresh
  seen := fun _ => none
  pc := .boot

def State.goto (s : State) (pc : Pc) : State := { s with pc := pc }

def State.record (s : State) (file : String) : State :=
  { s with config := { s.config with changedMap := recordTime s.files s.config.changedMap file } }

variable {ω : Type}

def finishLoad (x : External) (g : Global ω) (s : State) (load : Load) (confstr : String) : State :=
  match load, parseLoaded x g confstr with
  | .loadAndConfigure, none => s.goto .failed
  | .loadAndConfigure, some mainconf => { s with config := { s.config with mainconf := mainconf } }.goto .configured
  | .showConfig, _ => s.goto .recordMain
  | .reload, none => s.goto .idle
  | .reload, some mainconf => { s with config := { s.config with mainconf := mainconf } }.goto .idle

/-- The next step of `load_and_configure(path)`, of `start` after it, of a tick, or of a reload. -/
def mainStep (x : External) (g : Global ω) (path : String) (s : State) : Option State :=
  match s.pc with
  | .boot =>
    some ({ s with config := { s.config with path := x.findConfig s.files path } }.goto
      (.reading .loadAndConfigure))
  | .reading load =>
    -- one reading of the files: what the load finds is what is seen
    let found := s.files
    let loaded := loadFromFile x g s.config.options.ini found s.config.path (load == .reload)
    some ({ s with seen := texts found }.goto (.recording load loaded.confstr loaded.includes))
  | .recording load confstr (file :: rest) => some ((s.record file).goto (.recording load confstr rest))
  | .recording load confstr [] => some (finishLoad x g s load confstr)
  | .configured => some (s.goto (if s.config.options.showConfig then .reading .showConfig else .recordMain))
  | .recordMain => some ((s.record s.config.path).goto .idle)
  | .scanning [] => some (s.goto .idle)
  | .scanning (file :: rest) =>
    match s.config.changedMap.lookup file with
    | none => some (s.goto (.scanning rest))
    | some second =>
      if second ≠ 0 ∧ getModifyTime s.files file ≠ second then some ((s.record file).goto (.reading .reload))
      else some (s.goto (.scanning rest))
  | .idle | .failed => none

def step (x : External) (g : Global ω) (path : String) (s : State) : Action → Option State
  | .main => mainStep x g path s
  | .tick =>
    if s.pc = .idle ∧ s.config.options.reloadChangedMs ≠ 0 then
      some (s.goto (.scanning (s.config.changedMap.map Prod.fst)))
    else none
  | .sighup =>
    if s.pc = .idle ∧ s.config.options.reloadSighup then some (s.goto (.reading .reload)) else none
  | .reconfigured options =>
    if s.pc.inLoad then none else some { s with config := { s.config with options := options } }
  | .write file text =>
    if texts s.files file = some text then none
    else some { s with files := Function.update s.files file (some ⟨text, s.clock⟩) }
  | .clock now => if now < s.clock then none else some { s with clock := now }

/-- Between loads, files whose recorded times are all up to date have the texts that the last load found. -/
def NothingMissed (s : State) : Prop :=
  s.pc.inLoad = false →
    (∀ file second, s.config.changedMap.lookup file = some second → second = getModifyTime s.files file) →
      ∀ file second, s.config.changedMap.lookup file = some second → s.seen file = texts s.files file

/-- The file whose time the next step of the configuration records, scans left aside. -/
def State.nextRecord (s : State) : Option String :=
  match s.pc with
  | .recording _ _ (file :: _) => some file
  | .recordMain => some s.config.path
  | _ => none

/-- A time is recorded only for a file that is still as the last load found it, and a file is not written in the
second that is recorded for it, unless a load is about to read it or to record it anew. -/
def InTime (s : State) : Action → Prop
  | .main => ∀ file ∈ s.nextRecord, s.seen file = texts s.files file
  | .write file _ =>
    s.pc.isReading = true ∨ file ∈ s.pc.pending ∨ s.config.changedMap.lookup file ≠ some s.clock
  | _ => True

instance (s : State) (a : Action) : Decidable (InTime s a) := by
  cases a <;> unfold InTime <;> infer_instance

/-! ### What is known of every recorded time -/

/-- A recorded time belongs to the text that the last load found, or it is out of date, or it will be
recorded anew. A load that has not read its files yet promises nothing. -/
def Accounted (s : State) : Prop :=
  s.pc.isReading = false → ∀ file second, s.config.changedMap.lookup file = some second →
    s.seen file = texts s.files file ∨ second ≠ getModifyTime s.files file ∨ file ∈ s.pc.pending

variable {x : External} {g : Global ω} {path : String} {s t : State}

theorem accounted_frame (accounted : Accounted s) (files : t.files = s.files) (seen : t.seen = s.seen)
    (changedMap : t.config.changedMap = s.config.changedMap) (read : s.pc.isReading = false)
    (quiet : s.pc.pending = []) : Accounted t := by
  intro _ file second recorded
  rw [changedMap] at recorded
  rw [files, seen]
  rcases accounted read file second recorded with same | old | waiting
  · exact Or.inl same
  · exact Or.inr (Or.inl old)
  · rw [quiet] at waiting
    contradiction

theorem accounted_reading (reading : t.pc.isReading = true) : Accounted t := by
  intro read
  rw [reading] at read
  contradiction

theorem accounted_record (accounted : Accounted s) {file : String} {pc : Pc} (read : s.pc.isReading = false)
    (fresh : s.seen file = texts s.files file) (pending : ∀ other ∈ s.pc.pending, other = file ∨ other ∈ pc.pending) :
    Accounted ((s.record file).goto pc) := by
  intro _ other second recorded
  show s.seen other = texts s.files other ∨ second ≠ getModifyTime s.files other ∨ other ∈ pc.pending
  by_cases same : other = file
  · rw [same]
    exact Or.inl fresh
  · change (assign file _ s.config.changedMap).lookup other = some second at recorded
    rw [lookup_assign_ne same] at recorded
    rcases accounted read other second recorded with left | old | waiting
    · exact Or.inl left
    · exact Or.inr (Or.inl old)
    · exact Or.inr (Or.inr ((pending other waiting).resolve_left same))

theorem finishLoad_frame (load : Load) (confstr : String) :
    (finishLoad x g s load confstr).files = s.files ∧ (finishLoad x g s load confstr).seen = s.seen ∧
      (finishLoad x g s load confstr).config.changedMap = s.config.changedMap := by
  unfold finishLoad
  split <;> exact ⟨rfl, rfl, rfl⟩

theorem finishLoad_reload (confstr : String) :
    finishLoad x g s .reload confstr =
      { s with config := { s.config with mainconf := (parseLoaded x g confstr).getD s.config.mainconf } }.goto .idle := by
  unfold finishLoad
  cases parseLoaded x g confstr with
  | none => rfl
  | some mainconf => rfl

theorem accounted_main (accounted : Accounted s) (cond : InTime s .main) (h : mainStep x g path s = some t) :
    Accounted t := by
  unfold mainStep at h
  split at h <;> rename_i pc
  · -- boot
    obtain rfl := Option.some.inj h
    exact accounted_reading rfl
  · -- reading
    obtain rfl := Option.some.inj h
    exact fun _ _ _ _ => Or.inl rfl
  · -- recording a file
    obtain rfl := Option.some.inj h
    have fresh := cond _ (by rw [State.nextRecord, pc]; rfl)
    exact accounted_record accounted (by rw [pc]; rfl) fresh (by simp [pc, Pc.pending])
  · -- the end of a load
    obtain rfl := Option.some.inj h
    obtain ⟨files, seen, changedMap⟩ := finishLoad_frame (x := x) (g := g) (s := s) _ _
    exact accounted_frame accounted files seen changedMap (by rw [pc]; rfl) (by rw [pc]; rfl)
  · -- configured
    obtain rfl := Option.some.inj h
    exact accounted_frame accounted rfl rfl rfl (by rw [pc]; rfl) (by rw [pc]; rfl)
  · -- recordMain
    obtain rfl := Option.some.inj h
    have fresh := cond _ (by rw [State.nextRecord, pc]; rfl)
    exact accounted_record accounted (by rw [pc]; rfl) fresh (by simp [pc, Pc.pending])
  · -- the end of a scan
    obtain rfl := Option.some.inj h
    exact accounted_frame accounted rfl rfl rfl (by rw [pc]; rfl) (by rw [pc]; rfl)
  · -- scanning a file
    rename_i file rest
    have quiet : Accounted (s.goto (.scanning rest)) :=
      accounted_frame accounted rfl rfl rfl (by rw [pc]; rfl) (by rw [pc]; rfl)
    split at h
    · obtain rfl := Option.some.inj h
      exact quiet
    · split at h
      · obtain rfl := Option.some.inj h
        exact accounted_reading rfl
      · obtain rfl := Option.some.inj h
        exact quiet
  · contradiction
  · contradiction

theorem accounted_write (accounted : Accounted s) {file text : String} (cond : InTime s (.write file text)) :
    Accounted { s with files := Function.update s.files file (some ⟨text, s.clock⟩) } := by
  intro read other second recorded
  by_cases same : other = file
  · rw [same] at recorded ⊢
    rcases cond with reading | waiting | early
    · exact absurd (reading.symm.trans read) (by decide)
    · exact Or.inr (Or.inr waiting)
    · refine Or.inr (Or.inl ?_)
      rintro rfl
      refine early (recorded.trans ?_)
      simp [getModifyTime]
  · have unchanged : Function.update s.files file (some ⟨text, s.clock⟩) other = s.files other :=
      Function.update_of_ne same ..
    simp only [texts, getModifyTime, unchanged]
    exact accounted read other second recorded

theorem accounted_step {a : Action} (accounted : Accounted s) (cond : InTime s a) (h : step x g path s a = some t) :
    Accounted t := by
  cases a with
  | main => exact accounted_main accounted cond h
  | tick =>
    simp only [step] at h
    split at h
    · rename_i ready
      obtain rfl := Option.some.inj h
      exact accounted_frame accounted rfl rfl rfl (by rw [ready.1]; rfl) (by rw [ready.1]; rfl)
    · contradiction
  | sighup =>
    simp only [step] at h
    split at h
    · obtain rfl := Option.some.inj h
      exact accounted_reading rfl
    · contradiction
  | reconfigured options =>
    simp only [step] at h
    split at h
    · contradiction
    · obtain rfl := Option.some.inj h
      exact accounted
  | write file text =>
    simp only [step] at h
    split at h
    · contradiction
    · obtain rfl := Option.some.inj h
      exact accounted_write accounted cond
  | clock now =>
    simp only [step] at h
    split at h
    · contradiction
    · obtain rfl := Option.some.inj h
      exact accounted

theorem nothingMissed_of (accounted : Accounted s) : NothingMissed s := by
  intro outside current file second recorded
  have quiet : s.pc.isReading = false ∧ s.pc.pending = [] := by
    cases pc : s.pc <;> simp [pc, Pc.inLoad, Pc.isReading, Pc.pending] at outside ⊢
  rcases accounted quiet.1 file second recorded with same | old | waiting
  · exact same
  · exact absurd (current file second recorded) old
  · rw [quiet.2] at waiting
    contradiction

/-! ### Loads without interruption -/

theorem recording_steps (x : External) (g : Global ω) (path : String) {s : State} {load : Load} {confstr : String}
    {rest : List String} (recording : s.pc = .recording load confstr rest) :
    exec (step x g path) s (List.replicate rest.length .main) =
      some ({ s with config := { s.config with changedMap := recordTimes s.files rest s.config.changedMap } }.goto
        (.recording load confstr [])) := by
  induction rest generalizing s with
  | nil =>
    show some s = some _
    rw [State.goto, ← recording]
    rfl
  | cons file rest ih =>
    have first : step x g path s .main = some ((s.record file).goto (.recording load confstr rest)) := by
      show mainStep x g path s = _
      rw [mainStep, recording]
    rw [List.length_cons, List.replicate_succ, exec_cons, first, Option.bind_some, ih rfl]
    rfl

/-- A reload that nothing interrupts is `reload_and_reconfigure`. -/
theorem reload_steps (reading : s.pc = .reading .reload) :
    ∃ n, (exec (step x g path) s (List.replicate n .main)).map (fun t => (t.config, t.pc)) =
      some ((reloadAndReconfigure x g s.files s.config).1, .idle) := by
  obtain ⟨loaded, read⟩ : ∃ loaded, loadFromFile x g s.config.options.ini s.files s.config.path true = loaded :=
    ⟨_, rfl⟩
  let opened := { s with seen := texts s.files }.goto (.recording .reload loaded.confstr loaded.includes)
  have first : step x g path s .main = some opened := by
    show mainStep x g path s = _
    rw [mainStep, reading]
    show some (State.goto _ (.recording .reload
      (loadFromFile x g s.config.options.ini s.files s.config.path true).confstr
      (loadFromFile x g s.config.options.ini s.files s.config.path true).includes)) = _
    rw [read]
    rfl
  have recorded := recording_steps x g path (s := opened) rfl
  have last (u : State) (pc : u.pc = .recording .reload loaded.confstr []) :
      step x g path u .main = some (finishLoad x g u .reload loaded.confstr) := by
    show mainStep x g path u = _
    rw [mainStep, pc]
  refine ⟨loaded.includes.length + 1 + 1, ?_⟩
  rw [List.replicate_succ, exec_cons, first, Option.bind_some, List.replicate_succ', exec_append, recorded,
    Option.bind_some, exec_cons, last _ rfl, Option.bind_some, exec_nil, Option.map_some, finishLoad_reload,
    reloadAndReconfigure_eq, read]
  rfl

/-- A run in which files are recorded as they were read, and not written in the second that is recorded for
them, never misses an edit. -/
theorem no_edit_missed (x : External) (g : Global ω) (path : String) (files : Files) (clock : Int)
    (as : List Action) (inTime : Meets (step x g path) InTime (initial files clock) as) :
    Always (step x g path) NothingMissed (initial files clock) as :=
  (always_of_meets (fun _ _ _ accounted cond h => accounted_step accounted cond h)
    (fun _ _ _ recorded => by simp [initial, ConfigState.fresh] at recorded) inTime).mono fun _ => nothingMissed_of

def unpackaged : Global Unit := .new default default []

def daemonConf (file : String) : Option File := if file = "daemon.conf" then some ⟨"{}", 1⟩ else none

def writtenLater : List Action :=
  List.replicate 5 .main ++ [.reconfigured { ConfigConfig.default with reloadChangedMs := 1000 }, .clock 3,
    .write "daemon.conf" "{ }", .tick, .main, .main, .main, .clock 4]

theorem written_later_seen :
    Meets (step .plain unpackaged "daemon.conf") InTime (initial daemonConf 2) writtenLater ∧
      Always (step .plain unpackaged "daemon.conf") NothingMissed (initial daemonConf 2) writtenLater :=
  ⟨by decide, no_edit_missed .plain unpackaged "daemon.conf" daemonConf 2 writtenLater (by decide)⟩

/-- The main file is written between the initial load and `start`, which records its new time. -/
def writtenBeforeStart : List Action :=
  [.main, .main, .main, .write "daemon.conf" "{ }", .main, .main]

theorem written_before_start_missed :
    (exec (step .plain unpackaged "daemon.conf") (initial daemonConf 2) writtenBeforeStart).map
        (fun t => (t.pc, t.config.changedMap, t.seen "daemon.conf", t.files "daemon.conf")) =
      some (.idle, [("daemon.conf", 2)], some "{}", some ⟨"{ }", 2⟩) ∧
    ¬ Always (step .plain unpackaged "daemon.conf") NothingMissed (initial daemonConf 2) writtenBeforeStart := by
  have reads : (exec (step .plain unpackaged "daemon.conf") (initial daemonConf 2) writtenBeforeStart).map
      (fun t => (t.pc, t.config.changedMap, t.seen "daemon.conf", t.files "daemon.conf")) =
        some (.idle, [("daemon.conf", 2)], some "{}", some ⟨"{ }", 2⟩) := by decide
  refine ⟨reads, fun always => ?_⟩
  obtain ⟨t, reached, shown⟩ := Option.map_eq_some_iff.mp reads
  simp only [Prod.mk.injEq] at shown
  obtain ⟨idle, recorded, seen, current⟩ := shown
  have missed := always.last reached (by rw [idle]; rfl)
  rw [recorded] at missed
  have found := missed ?_ "daemon.conf" 2 rfl
  · simp [seen, texts, current] at found
  · intro file second known
    simp only [List.lookup_cons, List.lookup_nil] at known
    split at known
    · rename_i same
      obtain rfl := Option.some.inj known
      rw [eq_of_beq same, getModifyTime, current]
    · contradiction

end WfcCore.Config.Watch

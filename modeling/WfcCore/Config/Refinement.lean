import WfcCore.Config.Watch
import WfcCore.Foundation.Refinement
import Mathlib.Data.List.Find
import Mathlib.Data.Prod.Lex
import Mathlib.Data.String.Basic

/-!
# Loads as whole calls

`Whole` is the life of `config` with every call of a member function as one step, as `Load` describes them.
When other programs leave the files alone during a call, the steps of `Watch` have the same results.
-/

namespace WfcCore.Config.Watch

open Foundation Wfc

inductive Phase where
  | unloaded | failed | configured | started
deriving DecidableEq

structure Whole where
  files : Files
  clock : Int
  config : ConfigState
  phase : Phase

variable {ω : Type}

/-- `main` is the next call of the process: `load_and_configure(path)`, then `start`. -/
def Whole.step (x : External) (g : Global ω) (path : String) (w : Whole) : Action → Option Whole
  | .main =>
    match w.phase with
    | .unloaded =>
      let loaded := loadAndConfigure x g w.files w.config path
      some { w with config := loaded.1, phase := if loaded.2 then .configured else .failed }
    | .configured => some { w with config := (start x g w.files w.config).1, phase := .started }
    | .failed | .started => none
  | .tick =>
    if w.phase = .started ∧ w.config.options.reloadChangedMs ≠ 0 then
      some { w with config := timerHandler x g w.files w.config }
    else none
  | .sighup =>
    if w.phase = .started ∧ w.config.options.reloadSighup then
      some { w with config := (reloadAndReconfigure x g w.files w.config).1 }
    else none
  | .reconfigured options => some { w with config := { w.config with options := options } }
  | .write file text =>
    if texts w.files file = some text then none
    else some { w with files := Function.update w.files file (some ⟨text, w.clock⟩) }
  | .clock now => if now < w.clock then none else some { w with clock := now }

def Whole.initial (files : Files) (clock : Int) : Whole where
  files := files
  clock := clock
  config := .fresh
  phase := .unloaded

/-! ### What a call in progress will leave -/

def Pc.resting : Pc → Bool
  | .boot | .failed | .configured | .idle => true
  | _ => false

def Pc.phase : Pc → Phase
  | .boot => .unloaded
  | .failed => .failed
  | .configured => .configured
  | _ => .started

def State.changed (s : State) (file : String) : Bool :=
  match s.config.changedMap.lookup file with
  | none => false
  | some second => decide (second ≠ 0 ∧ getModifyTime s.files file ≠ second)

/-- The end of a load that has still to record the times of `rest`. A load that fails at boot leaves no path
behind, though it was looked up. -/
def Whole.afterLoad (x : External) (g : Global ω) (w : Whole) (load : Load) (confstr : String) (rest : List String) :
    Whole :=
  let c := { w.config with changedMap := recordTimes w.files rest w.config.changedMap }
  match load, parseLoaded x g confstr with
  | .loadAndConfigure, none => { w with config := { c with path := "" }, phase := .failed }
  | .loadAndConfigure, some mainconf => { w with config := { c with mainconf := mainconf }, phase := .configured }
  | .showConfig, _ =>
    { w with config := { c with changedMap := recordTime w.files c.changedMap c.path }, phase := .started }
  | .reload, parsed => { w with config := { c with mainconf := parsed.getD c.mainconf }, phase := .started }

def Whole.afterReading (x : External) (g : Global ω) (w : Whole) (load : Load) : Whole :=
  let loaded := loadFromFile x g w.config.options.ini w.files w.config.path (load == .reload)
  w.afterLoad x g load loaded.confstr loaded.includes

def Whole.record (w : Whole) (file : String) : Whole :=
  { w with config := { w.config with changedMap := recordTime w.files w.config.changedMap file } }

/-- The state when the call in progress has come to its end. -/
def State.whole (x : External) (g : Global ω) (s : State) : Whole :=
  let w : Whole := ⟨s.files, s.clock, s.config, s.pc.phase⟩
  match s.pc with
  | .reading load => w.afterReading x g load
  | .recording load confstr rest => w.afterLoad x g load confstr rest
  | .recordMain => w.record s.config.path
  | .scanning rest =>
    match rest.find? s.changed with
    | none => w
    | some file => (w.record file).afterReading x g .reload
  | .failed => { w with config := { w.config with path := "" } }
  | .boot | .configured | .idle => w

/-- The files and the options change only between two calls. -/
def Calm (s : State) : Action → Prop
  | .main | .clock _ => True
  | _ => s.pc.resting = true

/-- The call that a step begins, `none` inside a call. -/
def State.call (s : State) : Action → Option Action
  | .main => if s.pc.resting then some .main else none
  | a => some a

structure Ordered (s : State) : Prop where
  fresh : s.pc = .boot → s.config.path = ""
  times : Sorted s.config.changedMap

variable {x : External} {g : Global ω} {path : String} {s t : State}

theorem sorted_recordTimes {files : Files} {changedMap : ChangedMap} (sorted : Sorted changedMap)
    (includes : List String) : Sorted (recordTimes files includes changedMap) := by
  induction includes generalizing changedMap with
  | nil => exact sorted
  | cons file includes ih => exact ih (sorted.assign file _)

theorem finishLoad_pc (load : Load) (confstr : String) : (finishLoad x g s load confstr).pc ≠ .boot := by
  unfold finishLoad
  split <;> simp [State.goto]

theorem ordered_main (ordered : Ordered s) (h : mainStep x g path s = some t) : Ordered t := by
  have recorded (file : String) (pc : Pc) (begun : pc ≠ .boot) : Ordered ((s.record file).goto pc) :=
    ⟨fun boot => (begun boot).elim, ordered.times.assign _ _⟩
  have moved (pc : Pc) (begun : pc ≠ .boot) : Ordered (s.goto pc) :=
    ⟨fun boot => (begun boot).elim, ordered.times⟩
  unfold mainStep at h
  split at h
  · obtain rfl := Option.some.inj h
    exact ⟨(fun boot => by cases boot), ordered.times⟩
  · obtain rfl := Option.some.inj h
    exact ⟨(fun boot => by cases boot), ordered.times⟩
  · obtain rfl := Option.some.inj h
    exact recorded _ _ nofun
  · obtain rfl := Option.some.inj h
    obtain ⟨_, _, changedMap⟩ := finishLoad_frame (x := x) (g := g) (s := s) _ _
    exact ⟨fun boot => (finishLoad_pc _ _ boot).elim, changedMap ▸ ordered.times⟩
  · obtain rfl := Option.some.inj h
    exact moved _ (by split <;> nofun)
  · obtain rfl := Option.some.inj h
    exact recorded _ _ nofun
  · obtain rfl := Option.some.inj h
    exact moved _ nofun
  · split at h
    · obtain rfl := Option.some.inj h
      exact moved _ nofun
    · split at h
      · obtain rfl := Option.some.inj h
        exact recorded _ _ nofun
      · obtain rfl := Option.some.inj h
        exact moved _ nofun
  · contradiction
  · contradiction

/-- What the labels do that are not steps of the thread of config. -/
inductive Outside (s t : State) : Action → Prop where
  | tick : s.pc = .idle → s.config.options.reloadChangedMs ≠ 0 →
      t = s.goto (.scanning (s.config.changedMap.map Prod.fst)) → Outside s t .tick
  | sighup : s.pc = .idle → s.config.options.reloadSighup = true → t = s.goto (.reading .reload) → Outside s t .sighup
  | reconfigured (options : ConfigConfig) :
      t = { s with config := { s.config with options := options } } → Outside s t (.reconfigured options)
  | write (file text : String) :
      t = { s with files := Function.update s.files file (some ⟨text, s.clock⟩) } → Outside s t (.write file text)
  | clock (now : Int) : t = { s with clock := now } → Outside s t (.clock now)

theorem step_outside {a : Action} (h : step x g path s a = some t) :
    a = .main ∧ mainStep x g path s = some t ∨ Outside s t a := by
  cases a with
  | main => exact Or.inl ⟨rfl, h⟩
  | tick =>
    obtain ⟨ready, h⟩ := Option.ite_none_right_eq_some.mp h
    exact Or.inr (.tick ready.1 ready.2 (Option.some.inj h).symm)
  | sighup =>
    obtain ⟨ready, h⟩ := Option.ite_none_right_eq_some.mp h
    exact Or.inr (.sighup ready.1 ready.2 (Option.some.inj h).symm)
  | reconfigured options =>
    obtain ⟨_, h⟩ := Option.ite_none_left_eq_some.mp h
    exact Or.inr (.reconfigured options (Option.some.inj h).symm)
  | write file text =>
    obtain ⟨_, h⟩ := Option.ite_none_left_eq_some.mp h
    exact Or.inr (.write file text (Option.some.inj h).symm)
  | clock now =>
    obtain ⟨_, h⟩ := Option.ite_none_left_eq_some.mp h
    exact Or.inr (.clock now (Option.some.inj h).symm)

theorem ordered_step {a : Action} (ordered : Ordered s) (h : step x g path s a = some t) : Ordered t := by
  rcases step_outside h with ⟨_, main⟩ | outside
  · exact ordered_main ordered main
  · cases outside with
    | tick _ _ same => exact same ▸ ⟨(fun boot => by cases boot), ordered.times⟩
    | sighup _ _ same => exact same ▸ ⟨(fun boot => by cases boot), ordered.times⟩
    | reconfigured _ same => exact same ▸ ⟨ordered.fresh, ordered.times⟩
    | write _ _ same => exact same ▸ ⟨ordered.fresh, ordered.times⟩
    | clock _ same => exact same ▸ ⟨ordered.fresh, ordered.times⟩

theorem ordered_initial (files : Files) (clock : Int) : Ordered (initial files clock) :=
  ⟨fun _ => rfl, List.Pairwise.nil⟩

/-! ### One step -/

/-- The scan of the timer finds the file that its loop finds. -/
theorem changedFile_eq (ordered : Ordered s) :
    changedFile s.files s.config.changedMap = (s.config.changedMap.map Prod.fst).find? s.changed := by
  rw [changedFile, List.find?_map]
  congr 1
  apply List.find?_congr
  intro item member
  have known := (lookup_eq_some_iff_mem ordered.times.keys_nodup).mpr member
  simp only [Function.comp_apply, State.changed, known]
  grind

theorem afterReading_reload (w : Whole) :
    w.afterReading x g .reload =
      { w with config := (reloadAndReconfigure x g w.files w.config).1, phase := .started } := by
  rw [reloadAndReconfigure_eq]
  rfl

theorem afterLoad_configure (w : Whole) (confstr : String) (rest : List String) :
    w.afterLoad x g .loadAndConfigure confstr rest =
      { w with
        config := { w.config with
          changedMap := recordTimes w.files rest w.config.changedMap
          mainconf := (parseLoaded x g confstr).getD w.config.mainconf
          path := if (parseLoaded x g confstr).isSome then w.config.path else "" }
        phase := if (parseLoaded x g confstr).isSome then .configured else .failed } := by
  unfold Whole.afterLoad
  cases parseLoaded x g confstr with
  | none => rfl
  | some mainconf => rfl

theorem whole_boot (boot : s.pc = .boot) : s.whole x g = ⟨s.files, s.clock, s.config, .unloaded⟩ := by
  rw [State.whole, boot]
  rfl

theorem whole_configured (configured : s.pc = .configured) :
    s.whole x g = ⟨s.files, s.clock, s.config, .configured⟩ := by
  rw [State.whole, configured]
  rfl

theorem whole_idle (idle : s.pc = .idle) : s.whole x g = ⟨s.files, s.clock, s.config, .started⟩ := by
  rw [State.whole, idle]
  rfl

theorem whole_scanning {rest : List String} (scanning : s.pc = .scanning rest) :
    s.whole x g =
      match rest.find? s.changed with
      | none => ⟨s.files, s.clock, s.config, .started⟩
      | some file => (Whole.record ⟨s.files, s.clock, s.config, .started⟩ file).afterReading x g .reload := by
  rw [State.whole, scanning]
  rfl

theorem whole_finishLoad (load : Load) (confstr : String) (phase : Phase) :
    (finishLoad x g s load confstr).whole x g =
      Whole.afterLoad x g ⟨s.files, s.clock, s.config, phase⟩ load confstr [] := by
  unfold finishLoad Whole.afterLoad
  cases load <;> cases parseLoaded x g confstr <;> rfl

/-- Inside a call a step leaves what the call will leave. -/
theorem whole_internal (inside : s.pc.resting = false) (h : mainStep x g path s = some t) :
    t.whole x g = s.whole x g := by
  unfold mainStep at h
  split at h <;> rename_i pc
  · simp [pc, Pc.resting] at inside
  · -- reading
    obtain rfl := Option.some.inj h
    rw [State.whole, State.whole, pc]
    rfl
  · -- recording a file
    obtain rfl := Option.some.inj h
    rw [State.whole, State.whole, pc]
    rfl
  · -- the end of a load
    obtain rfl := Option.some.inj h
    rw [whole_finishLoad _ _ s.pc.phase, State.whole, pc]
  · simp [pc, Pc.resting] at inside
  · -- recordMain
    obtain rfl := Option.some.inj h
    rw [State.whole, State.whole, pc]
    rfl
  · -- the end of a scan
    obtain rfl := Option.some.inj h
    rw [State.whole, State.whole, pc]
    rfl
  · -- scanning a file
    rename_i file rest
    rw [whole_scanning pc, List.find?_cons]
    split at h
    · rename_i unknown
      obtain rfl := Option.some.inj h
      have same : s.changed file = false := by rw [State.changed, unknown]
      rw [same]
      rfl
    · rename_i second known
      have decides : s.changed file = decide (second ≠ 0 ∧ getModifyTime s.files file ≠ second) := by
        rw [State.changed, known]
      rw [decides]
      split at h <;> rename_i old
      · obtain rfl := Option.some.inj h
        rw [decide_eq_true old]
        rfl
      · obtain rfl := Option.some.inj h
        rw [decide_eq_false old]
        rfl
  · contradiction
  · contradiction

theorem loadConfig_fst (x : External) (g : Global ω) (files : Files) (c : ConfigState) (path : String) :
    (loadConfig x g files c path).1 = (c.load x g files path false).1 := by
  unfold loadConfig
  dsimp only
  split
  · split <;> rfl
  · rfl

theorem start_fst (x : External) (g : Global ω) (files : Files) (c : ConfigState) :
    (start x g files c).1 =
      let shown := if c.options.showConfig then (c.load x g files c.path false).1 else c
      { shown with changedMap := recordTime files shown.changedMap c.path } := by
  unfold start
  by_cases shows : c.options.showConfig
  · simp only [shows, if_true, Prod.map_fst, id_eq, loadConfig_fst]
  · simp only [shows]
    rfl

/-- The first step of a call leaves what the call will leave. -/
theorem whole_main (ordered : Ordered s) (outside : s.pc.resting = true) (h : mainStep x g path s = some t) :
    (s.whole x g).step x g path .main = some (t.whole x g) := by
  unfold mainStep at h
  split at h <;> rename_i pc
  case h_1 =>
    -- boot
    obtain rfl := Option.some.inj h
    have empty := ordered.fresh pc
    let opened : Whole := ⟨s.files, s.clock, { s.config with path := x.findConfig s.files path }, .started⟩
    have reads : (({ s with config := opened.config }).goto (.reading .loadAndConfigure)).whole x g =
        opened.afterReading x g .loadAndConfigure := rfl
    rw [reads, Whole.afterReading, afterLoad_configure, whole_boot pc]
    show some (Whole.mk s.files s.clock (loadAndConfigure x g s.files s.config path).1
      (if (loadAndConfigure x g s.files s.config path).2 then .configured else .failed)) = _
    rw [loadAndConfigure_eq, empty]
    rfl
  case h_5 =>
    -- configured
    obtain rfl := Option.some.inj h
    rw [whole_configured pc]
    simp only [Whole.step, start_fst]
    by_cases shows : s.config.options.showConfig
    · simp only [shows, if_true]
      rfl
    · simp only [shows]
      rfl
  all_goals first | contradiction | simp [pc, Pc.resting] at outside

theorem whole_tick (ordered : Ordered s) :
    (s.goto (.scanning (s.config.changedMap.map Prod.fst))).whole x g =
      ⟨s.files, s.clock, timerHandler x g s.files s.config, .started⟩ := by
  rw [whole_scanning rfl, timerHandler]
  show (match (s.config.changedMap.map Prod.fst).find? s.changed with
    | none => Whole.mk s.files s.clock s.config .started
    | some file => (Whole.record ⟨s.files, s.clock, s.config, .started⟩ file).afterReading x g .reload) = _
  rw [changedFile_eq ordered]
  cases (s.config.changedMap.map Prod.fst).find? s.changed with
  | none => rfl
  | some file => exact afterReading_reload _

theorem whole_resting (outside : s.pc.resting = true) :
    s.whole x g =
      ⟨s.files, s.clock, if s.pc = .failed then { s.config with path := "" } else s.config, s.pc.phase⟩ := by
  cases pc : s.pc <;> simp [State.whole, pc, Pc.resting] at outside ⊢

theorem whole_clock (now : Int) :
    State.whole x g { s with clock := now } = { s.whole x g with clock := now } := by
  have load (w : Whole) (load : Load) (confstr : String) (rest : List String) :
      Whole.afterLoad x g { w with clock := now } load confstr rest =
        { w.afterLoad x g load confstr rest with clock := now } := by
    unfold Whole.afterLoad
    cases load <;> cases parseLoaded x g confstr <;> rfl
  obtain ⟨files, clock, config, seen, pc⟩ := s
  cases pc with
  | reading l => exact load ⟨files, clock, config, .started⟩ l _ _
  | recording l confstr rest => exact load ⟨files, clock, config, .started⟩ l confstr rest
  | scanning rest =>
    rw [whole_scanning rfl, whole_scanning rfl]
    show (match rest.find? (State.changed ⟨files, clock, config, seen, .scanning rest⟩) with
      | none => _
      | some file => _) = _
    cases rest.find? (State.changed ⟨files, clock, config, seen, .scanning rest⟩) with
    | none => rfl
    | some file => exact load (Whole.record ⟨files, clock, config, .started⟩ file) .reload _ _
  | boot | failed | configured | recordMain | idle => rfl

theorem matched_step {a : Action} (ordered : Ordered s) (calm : Calm s a) (h : step x g path s a = some t) :
    exec (Whole.step x g path) (s.whole x g) (s.call a).toList = some (t.whole x g) := by
  cases a with
  | main =>
    by_cases outside : s.pc.resting
    · simp only [State.call, outside, if_true, Option.toList_some, exec_single]
      exact whole_main ordered outside h
    · simp only [State.call, outside, Bool.false_eq_true, if_false, Option.toList_none, exec_nil, Option.some.injEq]
      exact (whole_internal (by simpa using outside) h).symm
  | tick =>
    simp only [step] at h
    split at h
    · rename_i ready
      obtain rfl := Option.some.inj h
      rw [whole_tick ordered, whole_idle ready.1]
      simp only [State.call, Option.toList_some, exec_single, Whole.step, ready.2, ne_eq, not_false_eq_true, and_self, if_true]
    · contradiction
  | sighup =>
    simp only [step] at h
    split at h
    · rename_i ready
      obtain rfl := Option.some.inj h
      rw [whole_idle ready.1]
      simp only [State.call, Option.toList_some, exec_single, Whole.step, ready.2, and_self, if_true]
      exact congrArg some (afterReading_reload ⟨s.files, s.clock, s.config, .started⟩).symm
    · contradiction
  | reconfigured options =>
    simp only [step] at h
    split at h
    · contradiction
    · obtain rfl := Option.some.inj h
      have after : State.whole x g { s with config := { s.config with options := options } } = _ := whole_resting calm
      rw [whole_resting calm, after]
      simp only [State.call, Option.toList_some, exec_single, Whole.step]
      split <;> rfl
  | write file text =>
    simp only [step] at h
    split at h
    · contradiction
    · rename_i different
      obtain rfl := Option.some.inj h
      have after :
          State.whole x g { s with files := Function.update s.files file (some ⟨text, s.clock⟩) } = _ :=
        whole_resting calm
      rw [whole_resting calm, after]
      simp only [State.call, Option.toList_some, exec_single, Whole.step, different, if_false]
  | clock now =>
    simp only [step] at h
    split at h
    · contradiction
    · rename_i later
      obtain rfl := Option.some.inj h
      have same : (s.whole x g).clock = s.clock := congrArg Whole.clock (whole_clock (s := s) s.clock)
      have after : State.whole x g { s with clock := now } = _ := whole_clock now
      rw [after]
      simp only [State.call, Option.toList_some, exec_single, Whole.step, same, later, if_false]

/-! ### Runs -/

-- how far a call is from its end
def Pc.rank : Pc → ℕ ×ₗ ℕ
  | .scanning rest => toLex (3, rest.length)
  | .reading _ => toLex (2, 0)
  | .recording _ _ rest => toLex (1, rest.length + 1)
  | .recordMain => toLex (1, 0)
  | .boot | .failed | .configured | .idle => toLex (0, 0)

theorem finishLoad_rank (load : Load) (confstr : String) (pc : s.pc = .recording load confstr []) :
    (finishLoad x g s load confstr).pc.rank < s.pc.rank := by
  rw [pc]
  unfold finishLoad
  split <;> simp [State.goto, Pc.rank, Prod.Lex.toLex_lt_toLex]

theorem inside_step (inside : s.pc.resting = false) :
    ∃ t, mainStep x g path s = some t ∧ t.pc.rank < s.pc.rank := by
  unfold mainStep
  split <;> rename_i pc
  · simp [pc, Pc.resting] at inside
  · exact ⟨_, rfl, by simp [pc, State.goto, Pc.rank, Prod.Lex.toLex_lt_toLex]⟩
  · exact ⟨_, rfl, by simp [pc, State.goto, Pc.rank, Prod.Lex.toLex_lt_toLex]⟩
  · exact ⟨_, rfl, finishLoad_rank _ _ pc⟩
  · simp [pc, Pc.resting] at inside
  · exact ⟨_, rfl, by simp [pc, State.goto, Pc.rank, Prod.Lex.toLex_lt_toLex]⟩
  · exact ⟨_, rfl, by simp [pc, State.goto, Pc.rank, Prod.Lex.toLex_lt_toLex]⟩
  · split
    · exact ⟨_, rfl, by simp [pc, State.goto, Pc.rank, Prod.Lex.toLex_lt_toLex]⟩
    · split
      · exact ⟨_, rfl, by simp [pc, State.goto, Pc.rank, Prod.Lex.toLex_lt_toLex]⟩
      · exact ⟨_, rfl, by simp [pc, State.goto, Pc.rank, Prod.Lex.toLex_lt_toLex]⟩
  · simp [pc, Pc.resting] at inside
  · simp [pc, Pc.resting] at inside

theorem begins {a : Action} {w : Whole} (outside : s.pc.resting = true)
    (upper : (s.whole x g).step x g path a = some w) : ∃ t, step x g path s a = some t := by
  have started : s.pc.phase = .started → s.pc = .idle := by
    cases pc : s.pc <;> simp [pc, Pc.resting, Pc.phase] at outside ⊢
  rw [whole_resting outside] at upper
  cases a with
  | main =>
    show ∃ t, mainStep x g path s = some t
    unfold mainStep
    cases pc : s.pc <;> simp [pc, Pc.resting, Pc.phase, Whole.step] at outside upper ⊢
  | tick =>
    obtain ⟨ready, _⟩ := Option.ite_none_right_eq_some.mp upper
    have idle := started ready.1
    exact ⟨_, if_pos ⟨idle, by simpa [idle] using ready.2⟩⟩
  | sighup =>
    obtain ⟨ready, _⟩ := Option.ite_none_right_eq_some.mp upper
    have idle := started ready.1
    exact ⟨_, if_pos ⟨idle, by simpa [idle] using ready.2⟩⟩
  | reconfigured options =>
    refine ⟨_, if_neg ?_⟩
    cases pc : s.pc <;> simp [pc, Pc.resting, Pc.inLoad] at outside ⊢
  | write file text =>
    simp only [Whole.step] at upper
    split at upper
    · contradiction
    · rename_i different
      exact ⟨_, if_neg different⟩
  | clock now =>
    simp only [Whole.step] at upper
    split at upper
    · contradiction
    · rename_i later
      exact ⟨_, if_neg later⟩

/-- `Watch` in calm surroundings, against the whole calls. -/
def calls (x : External) (g : Global ω) (path : String) :
    Realisation (step x g path) (Whole.step x g path) (ℕ ×ₗ ℕ) where
  Inv := Ordered
  cond := Calm
  abs := State.whole x g
  label := State.call
  keep := fun ordered _ taken => ordered_step ordered taken
  matched := matched_step
  Rest := fun s => s.pc.resting = true
  rank := fun s => s.pc.rank
  progress := by
    intro s _ inside
    have inside : s.pc.resting = false := by simpa using inside
    obtain ⟨t, taken, lower⟩ : ∃ t, mainStep x g path s = some t ∧ _ := inside_step inside
    exact ⟨.main, t, taken, trivial, by simp [State.call, inside], lower⟩
  enabled := by
    intro s a w _ outside upper
    obtain ⟨t, taken⟩ := begins outside upper
    refine ⟨a, t, taken, ?_, ?_⟩
    · cases a <;> trivial
    · cases a <;> simp [State.call, outside]

/-- The configurations that loads in steps leave behind, with quiet files during each, are those of whole calls. -/
theorem calm_runs (x : External) (g : Global ω) (path : String) (files : Files) (clock : Int) (w : Whole) :
    (∃ as t, exec (step x g path) (initial files clock) as = some t ∧
        Meets (step x g path) Calm (initial files clock) as ∧ t.pc.resting = true ∧ t.whole x g = w) ↔
      ∃ bs, exec (Whole.step x g path) (.initial files clock) bs = some w :=
  (calls x g path).reaches (ordered_initial files clock) rfl w

end WfcCore.Config.Watch

import WfcCore.Config.Load
import WfcCore.Foundation.Run

/-!
# Reload against a fresh load

A process that loads its configuration once and reloads it after edits. A fresh load takes the ini list of
the configuration from the text that it finds, a reload from the options that were last applied to the
config component. `Agrees` compares the two for every reload of a run.
-/

namespace WfcCore.Config.Reload

open Foundation Wfc

structure Entry where
  files : Files
  path : String
  mainconf : Configuration

structure State where
  files : Files
  config : ConfigState
  started : Bool
  log : List Entry

/-- `configured` is the core handing the config section to the config component. -/
inductive Action where
  | start (path : String)
  | edit (files : Files)
  | configured (options : ConfigConfig)
  | reload

def initial (files : Files) : State where
  files := files
  config := .fresh
  started := false
  log := []

variable {ω : Type}

def step (x : External) (g : Global ω) (s : State) : Action → Option State
  | .start path =>
    let loaded := loadAndConfigure x g s.files s.config path
    if !s.started && loaded.2 then some { s with config := loaded.1, started := true } else none
  | .edit files => some { s with files := files }
  | .configured options =>
    match confFind "config" s.config.mainconf with
    | none => none
    | some item =>
      if (sectionIni x g item.2).map (·.getD []) = some options.ini then
        some { s with config := { s.config with options := options } }
      else none
  | .reload =>
    if s.started then
      let loaded := reloadAndReconfigure x g s.files s.config
      some { s with
        config := loaded.1
        log := if loaded.2 then s.log ++ [⟨s.files, s.config.path, loaded.1.mainconf⟩] else s.log }
    else none

/-- Every reload stored what a new process would have loaded. -/
def Agrees (x : External) (g : Global ω) (s : State) : Prop :=
  ∀ entry ∈ s.log, freshLoad x g entry.files entry.path = some entry.mainconf

/-- A reload finds its path where a new process would, and the files name the ini files of the options. -/
def OptionsNamed (x : External) (g : Global ω) (s : State) : Action → Prop
  | .reload =>
    x.findConfig s.files s.config.path = s.config.path ∧
      (optionsIni x g [] s.files s.config.path false).map (localIni s.config.path) =
        some (localIni s.config.path s.config.options.ini)
  | _ => True

instance (x : External) (g : Global ω) (s : State) (a : Action) : Decidable (OptionsNamed x g s a) := by
  cases a <;> unfold OptionsNamed <;> infer_instance

variable {x : External} {g : Global ω} {s t : State}

theorem freshLoad_of_named (named : OptionsNamed x g s .reload) :
    freshLoad x g s.files s.config.path =
      parseLoaded x g (loadFromFile x g s.config.options.ini s.files s.config.path true).confstr := by
  obtain ⟨found, ini⟩ := named
  obtain ⟨list, disk, same⟩ := Option.map_eq_some_iff.mp ini
  rw [freshLoad_eq, found, parseLoaded_loadFromFile, parseLoaded_loadFromFile, disk, Option.bind_some, same]
  rfl

theorem agrees_step {a : Action} (agrees : Agrees x g s) (named : OptionsNamed x g s a)
    (h : step x g s a = some t) : Agrees x g t := by
  cases a with
  | start path =>
    simp only [step] at h
    split at h
    · obtain rfl := Option.some.inj h
      exact agrees
    · contradiction
  | edit files =>
    obtain rfl := Option.some.inj h
    exact agrees
  | configured options =>
    simp only [step] at h
    split at h
    · contradiction
    · split at h
      · obtain rfl := Option.some.inj h
        exact agrees
      · contradiction
  | reload =>
    simp only [step] at h
    split at h
    · obtain rfl := Option.some.inj h
      intro entry member
      simp only [reloadAndReconfigure_eq] at member
      split at member
      · rename_i succeeded
        obtain ⟨mainconf, parsed⟩ := Option.isSome_iff_exists.mp succeeded
        rcases List.mem_append.mp member with old | new
        · exact agrees entry old
        · obtain rfl := List.mem_singleton.mp new
          show freshLoad x g s.files s.config.path = some (Option.getD _ _)
          rw [freshLoad_of_named named, parsed, Option.getD_some]
      · exact agrees entry member
    · contradiction

/-- While every reload finds its path and the ini list of its options in the files, all reloads of a run agree
with fresh loads. -/
theorem reload_agrees (x : External) (g : Global ω) (files : Files) (as : List Action)
    (named : Meets (step x g) (OptionsNamed x g) (initial files) as) :
    Always (step x g) (Agrees x g) (initial files) as :=
  always_of_meets (fun _ _ _ agrees cond h => agrees_step agrees cond h) (by simp [Agrees, initial]) named

/-! ### A daemon whose log level stands in an ini file -/

def braced (s : String) : String := "\x7b" ++ s ++ "\x7d"

def iniList (ini : String) : String := "[\"" ++ ini ++ "\"]"

def configSection (ini : String) : String := braced ("\"ini\":" ++ iniList ini)

def loggerSection (level : String) : String := braced ("\"level\":" ++ level)

def levelText (ini level : String) : String :=
  braced ("\"config\":" ++ configSection ini ++ ",\"logger\":" ++ loggerSection level)

def levelVariable : String := "$" ++ braced "INI:log.level:0"

def iniLevel (level : String) : String := "[log]\nlevel=" ++ level

/-- The parts outside the package on these texts, with the ini names `a.ini` and `b.ini` and the levels 0, 1, 2. -/
def leveled : External where
  findConfig := fun files name => if (files name).isSome then name else ""
  vars := fun _ read ini path =>
    let levels := ini.filterMap fun file => ["1", "2"].find? fun level => read file == some (iniLevel level)
    let text := ["a.ini", "b.ini"].find? fun file => read path == some (levelText file levelVariable)
    { status := text.isSome, parsed := text.isSome, includeMap := []
      result := levelText (text.getD "") (levels.getLast?.getD "0") }
  json :=
    { parseSpace := fun _ => true
      parseDict := fun s =>
        ["a.ini", "b.ini"].findSome? fun file =>
          if s == configSection file then some [("ini", iniList file)]
          else ["0", "1", "2"].findSome? fun level =>
            if s == levelText file level then some [("config", configSection file), ("logger", loggerSection level)]
            else none
      writeDict := fun _ => ""
      parseRawVector := fun _ => none
      writeRawVector := fun _ => "[]"
      parseStrings := fun s => (["a.ini", "b.ini"].find? fun file => s == iniList file).map fun file => [file]
      despace := some }

def accepting (name : String) : Component where
  name := name
  interfaceName := "iinterface"
  description := ""
  help := fun _ => ""
  parse := fun _ => true
  generate := fun _ => "{}"

def logging : List Package :=
  [⟨"core", "", none, 0, [⟨"core", "", [accepting "config", accepting "logger"]⟩]⟩]

def logger : Global Unit := .new default default logging

def levelFiles (ini level : String) (file : String) : Option File :=
  [("conf/daemon.conf", levelText ini levelVariable), ("conf/a.ini", iniLevel level),
    ("conf/b.ini", iniLevel "2")].lookup file |>.map fun text => ⟨text, 1⟩

def levelEdited : List Action :=
  [.start "conf/daemon.conf", .configured { ConfigConfig.default with ini := ["a.ini"] },
    .edit (levelFiles "a.ini" "2"), .reload]

theorem level_edited_agrees :
    Meets (step leveled logger) (OptionsNamed leveled logger) (initial (levelFiles "a.ini" "1")) levelEdited ∧
      Always (step leveled logger) (Agrees leveled logger) (initial (levelFiles "a.ini" "1")) levelEdited :=
  ⟨by decide, reload_agrees leveled logger (levelFiles "a.ini" "1") levelEdited (by decide)⟩

def iniEdited : List Action :=
  [.start "conf/daemon.conf", .configured { ConfigConfig.default with ini := ["a.ini"] },
    .edit (levelFiles "b.ini" "1"), .reload]

theorem ini_edited_differs :
    (exec (step leveled logger) (initial (levelFiles "a.ini" "1")) iniEdited).map
        (fun t => t.log.map fun entry =>
          (getConfig "logger" entry.mainconf,
            (freshLoad leveled logger entry.files entry.path).map (getConfig "logger"))) =
      some [(loggerSection "1", some (loggerSection "2"))] ∧
    ¬ Always (step leveled logger) (Agrees leveled logger) (initial (levelFiles "a.ini" "1")) iniEdited := by
  have levels : (exec (step leveled logger) (initial (levelFiles "a.ini" "1")) iniEdited).map
      (fun t => t.log.map fun entry =>
        (getConfig "logger" entry.mainconf,
          (freshLoad leveled logger entry.files entry.path).map (getConfig "logger"))) =
      some [(loggerSection "1", some (loggerSection "2"))] := by decide
  refine ⟨levels, fun always => ?_⟩
  obtain ⟨t, reached, logged⟩ := Option.map_eq_some_iff.mp levels
  obtain ⟨entry, rest, log, differs, _⟩ := List.map_eq_cons_iff.mp logged
  obtain ⟨stored, fresh⟩ := Prod.mk.inj differs
  have agrees := always.last reached entry (log ▸ List.mem_cons_self)
  rw [agrees, Option.map_some, stored] at fresh
  revert fresh
  decide

end WfcCore.Config.Reload

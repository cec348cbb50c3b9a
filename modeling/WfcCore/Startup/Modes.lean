import WfcCore.Config.Reload
import WfcCore.Startup.Startup

/-!
# The informational modes

`--check-config` and `--print-config` compared with a start on the same path, and what the modes that start
nothing do to the files.
-/

namespace WfcCore.Startup

open Foundation Wfc Config

variable {lib : Libraries} {x : External} {sys : System} {autoup : Autoup} {files : Files} {g : Global Map2}
  {helpstring argv0 p : String} {o : StartOptions}

def commandLine (argv0 : String) (mode : ModeOptions) (o : StartOptions) : CommandLine where
  argv0 := argv0
  bare := false
  options := .ok (mode, o)

def starting (argv0 p : String) (o : StartOptions) : CommandLine :=
  commandLine argv0 { ModeOptions.default with config := p } o

def checking (argv0 p : String) (o : StartOptions) : CommandLine :=
  commandLine argv0 { ModeOptions.default with checkConfig := p } o

def printing (argv0 p : String) (o : StartOptions) : CommandLine :=
  commandLine argv0 { ModeOptions.default with printConfig := p } o

/-- Whether `startup` gets to the load of a start and the load succeeds. -/
def startLoads (lib : Libraries) (x : External) (files : Files) (g : Global Map2) (cl : CommandLine) : Bool :=
  let d := prepared lib x files g cl
  mode d.pa == .start && (loadStart x files d).2

def startText (lib : Libraries) (x : External) (files : Files) (g : Global Map2) (cl : CommandLine) : Option String :=
  let d := prepared lib x files g cl
  if mode d.pa = .start then
    let g := { d.global with ini := d.pa.iniList ++ d.pa.startupIniList }
    some (loadFromFile x g [] files (x.findConfig files d.pa.configPath) false).confstr
  else none

/-- Checking and printing tell what a start would do. -/
structure Agree (lib : Libraries) (x : External) (sys : System) (autoup : Autoup) (files : Files) (g : Global Map2)
    (helpstring argv0 p : String) (o : StartOptions) : Prop where
  check : (startup lib x sys autoup files g helpstring (checking argv0 p o)).code = 0 ↔
    startLoads lib x files g (starting argv0 p o) = true
  print : o.despace = false → (startup lib x sys autoup files g helpstring (printing argv0 p o)).out =
    ((startText lib x files g (starting argv0 p o)).map (· ++ "\n")).getD ""

/-- Checking and printing hand the loader what a start hands it: the instance has a name of its own, no
configuration file is found by name that would replace `p` in the environment, the command line names no ini file
that a load of `p` uses, and `p` need not be looked for before it is printed. -/
structure SameStart (x : External) (files : Files) (argv0 p : String) (o : StartOptions) : Prop where
  name : o.name ≠ ""
  discovered : discover x files o.name (Path.filename argv0) = "" ∨
    let found := x.findConfig files (discover x files o.name (Path.filename argv0))
    Path.parentPath found = Path.parentPath (x.findConfig files p) ∧
      Path.filename found = Path.filename (x.findConfig files p)
  ini : localIni (x.findConfig files p) (o.ini ++ o.startupIni) = []
  found : o.despace = false → x.findConfig files p = p

/-! ### What the loader is given -/

def named (lib : Libraries) (g : Global Map2) (argv0 instanceName : String) (o : StartOptions) : Global Map2 :=
  { g with
    programName := Path.filename argv0
    programPath := lib.lexicallyNormal (Path.parentPath (lib.systemComplete argv0))
    instanceName := instanceName
    despace := o.despace }

def instanceName (argv0 config : String) (o : StartOptions) : String :=
  if o.name = "" then defaultName (Path.filename argv0) config else o.name

/-- The path that stands in the environment of a check or a print of `p`. -/
def shownPath (x : External) (files : Files) (argv0 p : String) (o : StartOptions) : String :=
  let discovered := discover x files (instanceName argv0 "" o) (Path.filename argv0)
  if discovered = "" then p else discovered

def askingGlobal (lib : Libraries) (x : External) (files : Files) (g : Global Map2) (argv0 p : String)
    (o : StartOptions) : Global Map2 :=
  setEnvironment (setPaths (named lib g argv0 (instanceName argv0 "" o) o)
    (some (x.findConfig files (shownPath x files argv0 p o))))

def startingGlobal (lib : Libraries) (x : External) (files : Files) (g : Global Map2) (argv0 p : String)
    (o : StartOptions) : Global Map2 :=
  { setEnvironment (setPaths (named lib g argv0 (instanceName argv0 p o) o) (some (x.findConfig files p))) with
    ini := o.ini ++ o.startupIni }

theorem prepared_starting (x : External) (files : Files) (g : Global Map2) (argv0 : String) {timeout : Int}
    (parsed : autoupTimeout lib o.autoup = some timeout) (given : p ≠ "") :
    let d := prepared lib x files g (starting argv0 p o)
    mode d.pa = .start ∧ d.pa.configPath = p ∧
      { d.global with ini := d.pa.iniList ++ d.pa.startupIniList } = startingGlobal lib x files g argv0 p o := by
  refine ⟨?_, ?_, ?_⟩ <;>
    simp [prepared, prepareArguments, prepareGlobal, confpath, parseArguments, storeOptions, programArguments, starting,
      commandLine, ModeOptions.default, ProgramArguments.default, mode, parsed, given, named, instanceName,
      startingGlobal]

def asking (argv0 p : String) (o : StartOptions) (cl : CommandLine) : Prop :=
  cl = checking argv0 p o ∨ cl = printing argv0 p o

theorem prepared_asking (x : External) (files : Files) (g : Global Map2) {timeout : Int}
    (parsed : autoupTimeout lib o.autoup = some timeout) (given : p ≠ "") {cl : CommandLine} (asks : asking argv0 p o cl) :
    (prepared lib x files g cl).global = askingGlobal lib x files g argv0 p o := by
  have shown : confpath x files (prepareArguments x files (parseArguments lib cl)) =
      some (x.findConfig files (shownPath x files argv0 p o)) := by
    unfold confpath prepareArguments shownPath
    by_cases nothing : discover x files (instanceName argv0 "" o) (Path.filename argv0) = "" <;>
      rcases asks with rfl | rfl <;>
        simp_all [parseArguments, storeOptions, programArguments, checking, printing, commandLine, ModeOptions.default,
          ProgramArguments.default, instanceName]
  show setEnvironment (setPaths _ (confpath x files _)) = _
  rw [shown, askingGlobal]
  rcases asks with rfl | rfl <;>
    simp [prepareArguments, parseArguments, storeOptions, programArguments, checking, printing, commandLine,
      ModeOptions.default, parsed, named, instanceName]

theorem mode_checking (x : External) (files : Files) (g : Global Map2) (argv0 : String) {timeout : Int}
    (parsed : autoupTimeout lib o.autoup = some timeout) (given : p ≠ "") :
    mode (prepared lib x files g (checking argv0 p o)).pa = .checkConfig ∧
      (prepared lib x files g (checking argv0 p o)).pa.checkConfig = p := by
  constructor <;>
    simp [prepared, prepareArguments, parseArguments, storeOptions, programArguments, checking,
      commandLine, ModeOptions.default, ProgramArguments.default, mode, parsed, given]

theorem mode_printing (x : External) (files : Files) (g : Global Map2) (argv0 : String) {timeout : Int}
    (parsed : autoupTimeout lib o.autoup = some timeout) (given : p ≠ "") :
    mode (prepared lib x files g (printing argv0 p o)).pa = .printConfig ∧
      (prepared lib x files g (printing argv0 p o)).pa.printConfig = p := by
  constructor <;>
    simp [prepared, prepareArguments, parseArguments, storeOptions, programArguments, printing,
      commandLine, ModeOptions.default, ProgramArguments.default, mode, parsed, given]

theorem mode_unparsed (unparsed : autoupTimeout lib o.autoup = none) (m : ModeOptions) :
    mode (prepared lib x files g (commandLine argv0 m o)).pa = .error := by
  simp [prepared, prepareArguments, parseArguments, commandLine, mode, unparsed]

/-! ### What the loader sees of it -/

theorem setEnvironment_frame (g : Global Map2) :
    (setEnvironment g).despace = g.despace ∧ (setEnvironment g).packages = g.packages ∧
      (setEnvironment g).ini = g.ini := by
  unfold setEnvironment
  dsimp only
  split <;> simp only [Global.setEnv_despace, Global.setEnv_packages, Global.setEnv_ini, and_self]

theorem setEnvironment_env (g : Global Map2) :
    (setEnvironment g).env "INAME" = some g.instanceName ∧ (setEnvironment g).env "CPATH" = some g.configPath ∧
      (setEnvironment g).env "CNAME" = some g.configName := by
  unfold setEnvironment
  dsimp only
  split <;> simp (disch := decide) only [Global.setEnv_of_ne, Global.setEnv_self, and_self]

theorem asking_starting (lib : Libraries) (same : SameStart x files argv0 p o) (fresh : g.ini = []) :
    SameInputs (askingGlobal lib x files g argv0 p o) (startingGlobal lib x files g argv0 p o)
      (x.findConfig files p) := by
  have instance_ : instanceName argv0 "" o = instanceName argv0 p o := by
    rw [instanceName, instanceName, if_neg same.name, if_neg same.name]
  have paths (n : Global Map2) : setPaths n (some (x.findConfig files (shownPath x files argv0 p o))) =
      setPaths n (some (x.findConfig files p)) := by
    unfold shownPath setPaths
    rw [instanceName, if_neg same.name]
    rcases same.discovered with nothing | ⟨parent, name⟩
    · rw [if_pos nothing]
    · dsimp only
      split
      · rfl
      · rw [parent, name]
  have frame := setEnvironment_frame (setPaths (named lib g argv0 (instanceName argv0 p o) o) (some (x.findConfig files p)))
  refine ⟨?_, ?_, ?_, ?_⟩
  · rw [askingGlobal, startingGlobal, instance_, paths]
  · rw [askingGlobal, startingGlobal, instance_, paths]
  · rw [askingGlobal, startingGlobal, instance_, paths]
  · rw [askingGlobal, startingGlobal, instance_, paths, frame.2.2]
    show localIni _ g.ini = localIni _ (o.ini ++ o.startupIni)
    rw [same.ini, fresh]
    rfl

/-! ### What `startup` makes of it -/

def freshText (x : External) (g : Global Map2) (files : Files) (path : String) : String :=
  (loadFromFile x g [] files path false).confstr

theorem code_checking {timeout : Int} (parsed : autoupTimeout lib o.autoup = some timeout) (given : p ≠ "") :
    let asked := askingGlobal lib x files g argv0 p o
    (startup lib x sys autoup files g helpstring (checking argv0 p o)).code =
      if (parseLoaded x asked (freshText x asked files (x.findConfig files p))).isSome then 0 else 4 := by
  intro asked
  obtain ⟨branch, config⟩ := mode_checking x files g argv0 parsed given
  unfold startup
  dsimp only
  rw [branch]
  show (if (loadAndConfigure x (prepared lib x files g (checking argv0 p o)).global files .fresh
    (prepared lib x files g (checking argv0 p o)).pa.checkConfig).2 then 0 else 4) = _
  rw [config, prepared_asking x files g parsed given (Or.inl rfl), loadAndConfigure_eq]
  rfl

theorem out_printing {timeout : Int} (parsed : autoupTimeout lib o.autoup = some timeout) (given : p ≠ "")
    (plain : o.despace = false) :
    (startup lib x sys autoup files g helpstring (printing argv0 p o)).out =
      freshText x (askingGlobal lib x files g argv0 p o) files p ++ "\n" := by
  obtain ⟨branch, print⟩ := mode_printing x files g argv0 parsed given
  unfold startup
  dsimp only
  rw [branch]
  show (loadConfig x (prepared lib x files g (printing argv0 p o)).global files .fresh
    (prepared lib x files g (printing argv0 p o)).pa.printConfig).2 ++ "\n" = _
  rw [print, prepared_asking x files g parsed given (Or.inr rfl), loadConfig,
    if_neg (by rw [askingGlobal, (setEnvironment_frame _).1]; simp [setPaths, named, plain])]
  rfl

theorem startLoads_starting {timeout : Int} (parsed : autoupTimeout lib o.autoup = some timeout) (given : p ≠ "") :
    let started := startingGlobal lib x files g argv0 p o
    startLoads lib x files g (starting argv0 p o) =
      (parseLoaded x started (freshText x started files (x.findConfig files p))).isSome := by
  intro started
  obtain ⟨branch, config, global⟩ := prepared_starting x files g argv0 parsed given
  unfold startLoads loadStart
  dsimp only
  rw [branch, config, global, loadAndConfigure_eq]
  rfl

theorem startText_starting {timeout : Int} (parsed : autoupTimeout lib o.autoup = some timeout) (given : p ≠ "") :
    startText lib x files g (starting argv0 p o) =
      some (freshText x (startingGlobal lib x files g argv0 p o) files (x.findConfig files p)) := by
  obtain ⟨branch, config, global⟩ := prepared_starting x files g argv0 parsed given
  unfold startText
  dsimp only
  rw [if_pos branch, config, global]
  rfl

/-! ### The loader tells every difference -/

/-- A `wfc::vars` that makes an empty configuration of one environment, list of ini files and path, and fails on
all others. -/
noncomputable def recognizing (env : Env) (ini : List String) (path : String) :
    Env → (String → Option String) → List String → String → VarsResult := by
  classical
  exact fun e _ i q =>
    if e = env ∧ i = ini ∧ q = path then ⟨true, true, "{}", []⟩ else ⟨false, false, "", []⟩

theorem parseConfigure_empty (g : Global Map2) (empty : x.json.parseDict "{}" = some []) :
    parseConfigure x g "{}" [] = some [] := by
  simp [parseConfigure, normalizeJsonMultimap, empty]

theorem freshText_recognized (empty : x.json.parseDict "{}" = some []) (g : Global Map2) (files : Files)
    (path : String) :
    freshText { x with vars := recognizing g.env (localIni path g.ini) path } g files path = "{}" := by
  have recognized : recognizing g.env (localIni path g.ini) path g.env (texts files) (localIni path g.ini) path =
      ⟨true, true, "{}", []⟩ := if_pos ⟨rfl, rfl, rfl⟩
  have noIni : configIni { x with vars := recognizing g.env (localIni path g.ini) path } g "{}" [] = some [] := by
    rw [configIni, parseConfigure_empty g (by exact empty)]
    rfl
  have ini : optionsIni { x with vars := recognizing g.env (localIni path g.ini) path } g [] files path false =
      some [] := by
    simp only [optionsIni, recognized, noIni]
    rfl
  have again : recognizing g.env (localIni path g.ini) path g.env (texts files)
      (localIni path [] ++ localIni path g.ini) path = ⟨true, true, "{}", []⟩ := recognized
  simp only [freshText, loadFromFile, ini, again, if_true]

theorem freshText_recognizing {env : Env} {ini : List String} {path q : String} {g : Global Map2} {files : Files}
    (text : freshText { x with vars := recognizing env ini path } g files q ≠ "") :
    g.env = env ∧ localIni q g.ini = ini ∧ q = path := by
  by_contra different
  have failed : recognizing env ini path g.env (texts files) (localIni q g.ini) q = ⟨false, false, "", []⟩ :=
    if_neg different
  refine text ?_
  simp only [freshText, loadFromFile, optionsIni, failed]
  rfl

theorem parseLoaded_some {g : Global Map2} {confstr : String} (loaded : (parseLoaded x g confstr).isSome = true) :
    confstr ≠ "" := by
  rintro rfl
  contradiction

theorem name_given (given : p ≠ "") (same : instanceName argv0 "" o = instanceName argv0 p o) : o.name ≠ "" := by
  intro unnamed
  rw [instanceName, instanceName, if_pos unnamed, if_pos unnamed, defaultName, defaultName, if_pos rfl,
    if_neg given] at same
  have length := congrArg String.length same
  rw [String.length_append, String.length_append] at length
  have : "-".length = 1 := rfl
  omega

theorem startup_unparsed (unparsed : autoupTimeout lib o.autoup = none) (m : ModeOptions) :
    (startup lib x sys autoup files g helpstring (commandLine argv0 m o)).code = 1 ∧
      (startup lib x sys autoup files g helpstring (commandLine argv0 m o)).out = "" := by
  unfold startup
  dsimp only
  rw [mode_unparsed unparsed]
  exact ⟨rfl, rfl⟩

theorem agree_unparsed (unparsed : autoupTimeout lib o.autoup = none) :
    Agree lib x sys autoup files g helpstring argv0 p o := by
  have notStart : mode (prepared lib x files g (starting argv0 p o)).pa = .error := mode_unparsed unparsed _
  refine ⟨?_, fun _ => ?_⟩
  · rw [checking, (startup_unparsed unparsed _).1]
    simp [startLoads, notStart]
  · rw [printing, (startup_unparsed unparsed _).2]
    simp [startText, notStart]

theorem agree_parsed {timeout : Int} (parsed : autoupTimeout lib o.autoup = some timeout) (given : p ≠ "")
    (fresh : g.ini = []) (same : SameStart x files argv0 p o) :
    Agree lib x sys autoup files g helpstring argv0 p o := by
  have inputs := asking_starting lib same fresh
  have text : freshText x (askingGlobal lib x files g argv0 p o) files (x.findConfig files p) =
      freshText x (startingGlobal lib x files g argv0 p o) files (x.findConfig files p) := by
    rw [freshText, freshText, inputs.loadFromFile]
  refine ⟨?_, fun plain => ?_⟩
  · rw [code_checking parsed given, startLoads_starting parsed given, text, inputs.parseLoaded]
    split
    · rename_i loaded
      simp [loaded]
    · rename_i failed
      simp [failed]
  · rw [out_printing parsed given plain, startText_starting parsed given, ← text, same.found plain]
    rfl

theorem sameStart_of_env (given : p ≠ "")
    (env : (askingGlobal lib x files g argv0 p o).env = (startingGlobal lib x files g argv0 p o).env)
    (ini : localIni (x.findConfig files p) (o.ini ++ o.startupIni) = [])
    (found : o.despace = false → x.findConfig files p = p) : SameStart x files argv0 p o := by
  have asked := setEnvironment_env (setPaths (named lib g argv0 (instanceName argv0 "" o) o)
    (some (x.findConfig files (shownPath x files argv0 p o))))
  have started := setEnvironment_env (setPaths (named lib g argv0 (instanceName argv0 p o) o)
    (some (x.findConfig files p)))
  unfold askingGlobal startingGlobal at env
  dsimp only at env
  have same (name : String) : (setEnvironment (setPaths (named lib g argv0 (instanceName argv0 "" o) o)
      (some (x.findConfig files (shownPath x files argv0 p o))))).env name =
      (setEnvironment (setPaths (named lib g argv0 (instanceName argv0 p o) o)
        (some (x.findConfig files p)))).env name := congrFun env name
  have instance_ := same "INAME"
  have directory := same "CPATH"
  have file := same "CNAME"
  rw [asked.1, started.1] at instance_
  rw [asked.2.1, started.2.1] at directory
  rw [asked.2.2, started.2.2] at file
  have name : o.name ≠ "" := name_given given (Option.some.inj instance_)
  refine ⟨name, ?_, ini, found⟩
  by_cases nothing : discover x files o.name (Path.filename argv0) = ""
  · exact Or.inl nothing
  · have shown : shownPath x files argv0 p o = discover x files o.name (Path.filename argv0) := by
      simp only [shownPath, instanceName, if_neg name, if_neg nothing]
    rw [← shown]
    exact Or.inr ⟨Option.some.inj directory, Option.some.inj file⟩

/-- A `wfc::vars` that knows only what the start gives it makes a check or a print agree only if they give it
the same. -/
theorem sameStart_of_agree {timeout : Int} (parsed : autoupTimeout lib o.autoup = some timeout) (given : p ≠ "")
    (empty : x.json.parseDict "{}" = some []) (fresh : g.ini = [])
    (agree : ∀ vars, Agree lib { x with vars := vars } sys autoup files g helpstring argv0 p o) :
    SameStart x files argv0 p o := by
  let asked := askingGlobal lib x files g argv0 p o
  let started := startingGlobal lib x files g argv0 p o
  let path := x.findConfig files p
  let recognizer := { x with vars := recognizing started.env (localIni path started.ini) path }
  have agrees : Agree lib recognizer sys autoup files g helpstring argv0 p o := agree recognizer.vars
  have text : freshText recognizer started files path = "{}" := freshText_recognized empty started files path
  have loads : startLoads lib recognizer files g (starting argv0 p o) = true := by
    rw [startLoads_starting parsed given]
    show (parseLoaded recognizer started (freshText recognizer started files path)).isSome = true
    rw [text, parseLoaded, if_neg (by decide), parseConfigure_empty started (by exact empty)]
    rfl
  have checked : (parseLoaded recognizer asked (freshText recognizer asked files path)).isSome = true := by
    have code := agrees.check.mpr loads
    rw [code_checking parsed given] at code
    by_contra failed
    change (if (parseLoaded recognizer asked (freshText recognizer asked files path)).isSome = true
      then (0 : Int) else 4) = 0 at code
    rw [if_neg failed] at code
    contradiction
  obtain ⟨env, ini, _⟩ := freshText_recognizing (parseLoaded_some checked)
  refine sameStart_of_env given env ?_ fun plain => ?_
  · have unset : asked.ini = [] := (setEnvironment_frame _).2.2.trans fresh
    rw [unset] at ini
    exact ini.symm
  · have printed := agrees.print plain
    rw [out_printing parsed given plain, startText_starting parsed given] at printed
    have shown : freshText recognizer asked files p ++ "\n" = "{}" ++ "\n" := by
      rw [← text]
      exact printed
    have recognized : freshText recognizer asked files p ≠ "" := by
      intro nothing
      rw [nothing] at shown
      revert shown
      decide
    exact (freshText_recognizing recognized).2.2.symm

/-- Whatever `wfc::vars` does with the texts, the environment and the ini files, checking and printing agree with
a start exactly if the command line is one that no mode gets to work on, or the loader is given the same. -/
theorem agree_iff_same_start (lib : Libraries) (x : External) (sys : System) (autoup : Autoup) (files : Files)
    (programBuildInfo wfcBuildInfo : BuildInfo) (packages : List Package) (helpstring argv0 p : String)
    (o : StartOptions) (given : p ≠ "") (empty : x.json.parseDict "{}" = some []) :
    (∀ vars, Agree lib { x with vars := vars } sys autoup files (.new programBuildInfo wfcBuildInfo packages)
      helpstring argv0 p o) ↔
      autoupTimeout lib o.autoup = none ∨ SameStart x files argv0 p o := by
  constructor
  · intro agree
    cases parsed : autoupTimeout lib o.autoup with
    | none => exact Or.inl rfl
    | some timeout => exact Or.inr (sameStart_of_agree parsed given empty rfl agree)
  · rintro (unparsed | same) vars
    · exact agree_unparsed unparsed
    · cases parsed : autoupTimeout lib o.autoup with
      | none => exact agree_unparsed parsed
      | some timeout => exact agree_parsed parsed given rfl ⟨same.name, same.discovered, same.ini, same.found⟩

def namedOptions (name : String) (ini : List String) : StartOptions :=
  { StartOptions.default with name := name, ini := ini }

def daemonConf (text file : String) : Option File := if file = "daemon.conf" then some ⟨text, 1⟩ else none

theorem named_instance_agrees :
    Agree .absolute .plain .obliging .worker (daemonConf "{}") (.new default default []) "" "daemon" "daemon.conf"
      (namedOptions "one" []) :=
  (agree_iff_same_start .absolute .plain .obliging .worker (daemonConf "{}") default default [] "" "daemon"
    "daemon.conf" (namedOptions "one" []) (by decide) (by decide)).mpr
      (Or.inr ⟨by decide, by decide, by decide, by decide⟩) External.plain.vars

/-- `--print-config conf/daemon.conf --ini b.ini` prints the level that `a.ini` gives, and the start has the level
of `b.ini`. -/
theorem printed_without_ini :
    (startup .absolute Reload.leveled .obliging .worker (Reload.levelFiles "a.ini" "1")
        (.new default default Reload.logging) "" (printing "daemon" "conf/daemon.conf" (namedOptions "one" ["b.ini"]))).out =
      Reload.levelText "a.ini" "1" ++ "\n" ∧
    startText .absolute Reload.leveled (Reload.levelFiles "a.ini" "1") (.new default default Reload.logging)
        (starting "daemon" "conf/daemon.conf" (namedOptions "one" ["b.ini"])) =
      some (Reload.levelText "a.ini" "2") ∧
    ¬ Agree .absolute Reload.leveled .obliging .worker (Reload.levelFiles "a.ini" "1")
      (.new default default Reload.logging) "" "daemon" "conf/daemon.conf" (namedOptions "one" ["b.ini"]) := by
  have printed : (startup .absolute Reload.leveled .obliging .worker (Reload.levelFiles "a.ini" "1")
      (.new default default Reload.logging) ""
      (printing "daemon" "conf/daemon.conf" (namedOptions "one" ["b.ini"]))).out =
        Reload.levelText "a.ini" "1" ++ "\n" := by decide
  have started : startText .absolute Reload.leveled (Reload.levelFiles "a.ini" "1")
      (.new default default Reload.logging) (starting "daemon" "conf/daemon.conf" (namedOptions "one" ["b.ini"])) =
        some (Reload.levelText "a.ini" "2") := by decide
  refine ⟨printed, started, fun agree => ?_⟩
  have same := agree.print rfl
  rw [printed, started] at same
  revert same
  decide

/-! ### Files -/

/-- A mode that starts nothing leaves every file as it was, and what `--generate` makes it prints. -/
structure Untouched (lib : Libraries) (x : External) (sys : System) (autoup : Autoup) (files : Files) (g : Global Map2)
    (helpstring : String) (cl : CommandLine) : Prop where
  kept : (mode (prepared lib x files g cl).pa).informational = true →
    (startup lib x sys autoup files g helpstring cl).files = files
  prints : mode (prepared lib x files g cl).pa = .generate →
    ∀ text, generated x (prepared lib x files g cl).global (prepared lib x files g cl).pa.generateOptions = .ok text →
      (startup lib x sys autoup files g helpstring cl).out = text ++ "\n"

theorem files_kept {cl : CommandLine} (other : mode (prepared lib x files g cl).pa ≠ .generate) :
    (startup lib x sys autoup files g helpstring cl).files = files := by
  unfold startup
  dsimp only
  split <;> first | rfl | contradiction

theorem startup_generates (sys : System) (autoup : Autoup) (helpstring : String) {cl : CommandLine}
    (branch : mode (prepared lib x files g cl).pa = .generate) :
    startup lib x sys autoup files g helpstring cl = generate x sys files (prepared lib x files g cl) := by
  unfold startup
  dsimp only
  rw [branch]

/-- What is generated is printed, and nothing written, exactly if no path is set. -/
theorem generate_prints_iff (sys : System) (files : Files) (d : Domain) {text : String}
    (made : generated x d.global d.pa.generateOptions = .ok text) :
    (generate x sys files d).files = files ∧ (generate x sys files d).out = text ++ "\n" ↔ d.pa.configPath = "" := by
  unfold generate generateConfig
  rw [made]
  by_cases unset : d.pa.configPath = ""
  · simp [unset, saveToFile]
  · have newline : "" ≠ text ++ "\n" := by
      intro same
      have length := congrArg String.length same
      rw [String.length_append] at length
      contradiction
    simp [unset, newline]

theorem generate_fails (sys : System) (files : Files) (d : Domain) {text : String}
    (failed : generated x d.global d.pa.generateOptions = .error text) : (generate x sys files d).files = files := by
  unfold generate generateConfig
  rw [failed]

/-- Without `--config`, the informational modes leave every file alone and `--generate` prints exactly if
`--generate`, where it can make a configuration, finds none by name. -/
theorem untouched_iff (lib : Libraries) (x : External) (sys : System) (autoup : Autoup) (files : Files)
    (g : Global Map2) (helpstring : String) (cl : CommandLine) (unset : (parseArguments lib cl).configPath = "") :
    let pa := parseArguments lib cl
    Untouched lib x sys autoup files g helpstring cl ↔
      (mode (prepared lib x files g cl).pa = .generate →
        ∀ text, generated x (prepared lib x files g cl).global pa.generateOptions = .ok text →
          discover x files pa.instanceName pa.programName = "") := by
  intro pa
  have path : (prepared lib x files g cl).pa.configPath = discover x files pa.instanceName pa.programName :=
    if_pos unset
  constructor
  · intro untouched branch text made
    have done := startup_generates sys autoup helpstring branch
    have kept := untouched.kept (by rw [branch]; rfl)
    have printed := untouched.prints branch text made
    rw [done] at kept printed
    rw [← path]
    exact (generate_prints_iff sys files _ made).mp ⟨kept, printed⟩
  · intro nothing
    by_cases branch : mode (prepared lib x files g cl).pa = .generate
    · have done := startup_generates sys autoup helpstring branch
      have prints {text : String}
          (made : generated x (prepared lib x files g cl).global pa.generateOptions = .ok text) :=
        (generate_prints_iff sys files (prepared lib x files g cl) made).mpr (path.trans (nothing branch text made))
      refine ⟨fun _ => ?_, fun _ text made => ?_⟩
      · rw [done]
        cases result : generated x (prepared lib x files g cl).global pa.generateOptions with
        | ok text => exact (prints result).1
        | error text => exact generate_fails sys files (prepared lib x files g cl) result
      · rw [done]
        exact (prints made).2
    · exact ⟨fun _ => files_kept branch, fun generates => absurd generates branch⟩

def generating : CommandLine := commandLine "daemon" { ModeOptions.default with generate := some [] } .default

theorem generating_only_prints :
    Untouched .absolute .plain .obliging .worker (fun _ => none) (.new default default []) "" generating :=
  (untouched_iff .absolute .plain .obliging .worker (fun _ => none) (.new default default []) "" generating
    (by decide)).mpr fun _ _ _ => by decide

theorem generating_overwrites :
    let run := startup .absolute .plain .obliging .worker (daemonConf "{ }") (.new default default []) "" generating
    run.out = "" ∧ run.files "daemon.conf" = some ⟨"{}", 1⟩ ∧
      ¬ Untouched .absolute .plain .obliging .worker (daemonConf "{ }") (.new default default []) "" generating := by
  intro run
  refine ⟨by decide, by decide, fun untouched => ?_⟩
  have printed := untouched.prints (by decide) "{}" rfl
  revert printed
  decide

end WfcCore.Startup

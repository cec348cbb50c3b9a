import WfcCore.Config.Configuration
import WfcCore.Foundation.OrderedMap
import WfcCore.Foundation.Path

/-!
# Loading a configuration

The member functions of `config` in `config.cpp`. A load reads the main file and the files that it
includes through `wfc::vars`, and records the modification time of every included file for the timer
that watches them. Log messages are left out.
-/

namespace WfcCore.Config

open Foundation Wfc

structure ConfigConfig where
  showConfig : Bool
  reloadSighup : Bool
  reloadChangedMs : Int
  ini : List String
deriving DecidableEq

def ConfigConfig.default : ConfigConfig where
  showConfig := false
  reloadSighup := false
  reloadChangedMs := 0
  ini := []

abbrev ChangedMap := List (String × Int)

structure ConfigState where
  options : ConfigConfig
  mainconf : Configuration
  path : String
  changedMap : ChangedMap
deriving DecidableEq

def getModifyTime (files : Files) (path : String) : Int :=
  match files path with
  | some file => file.mtime
  | none => -1

/-- The ini files that a load of `path` passes on: those without a directory, moved to the directory of
`path`. All others are dropped, and so is every file when `path` has no directory. -/
def localIni (path : String) (ini : List String) : List String :=
  (ini.filter fun file => Path.parentPath path != "" && Path.parentPath file == "").map fun file =>
    Path.append (Path.parentPath path) (Path.filename file)

variable {ω : Type}

def sectionIni (x : External) (g : Global ω) (section_ : String) : Option (Option (List String)) := do
  let configConf ← normalizeJsonMultimap x.json section_ g.despace []
  match confFind "ini" configConf with
  | none => some none
  | some iniJson => (x.json.parseStrings iniJson.2).map some

/-- The ini list in the config section of a text, or `optIni` when the text has none. -/
def configIni (x : External) (g : Global ω) (confstr : String) (optIni : List String) : Option (List String) := do
  let mainconf ← parseConfigure x g confstr []
  match confFind "config" mainconf with
  | none => some optIni
  | some item => (sectionIni x g item.2).map (·.getD optIni)

/-- The ini list of the configuration. Unless this is a reload, it is taken from a first parse of the text
that the command line's ini files alone give. -/
def optionsIni (x : External) (g : Global ω) (optIni : List String) (files : Files) (path : String)
    (isReload : Bool) : Option (List String) :=
  if isReload then some optIni
  else
    let v := x.vars g.env (texts files) (localIni path g.ini) path
    if v.status then configIni x g v.result optIni else none

/-- What `load_from_file_` returns, and the files whose times it records. -/
structure Loaded where
  confstr : String
  includes : List String
deriving DecidableEq

def loadFromFile (x : External) (g : Global ω) (optIni : List String) (files : Files) (path : String)
    (isReload : Bool) : Loaded :=
  match optionsIni x g optIni files path isReload with
  | none => ⟨"", []⟩
  | some origOptIni =>
    let v := x.vars g.env (texts files) (localIni path origOptIni ++ localIni path g.ini) path
    if v.parsed then ⟨v.result, v.includeMap⟩ else ⟨"", []⟩

def recordTime (files : Files) (changedMap : ChangedMap) (file : String) : ChangedMap :=
  assign file (getModifyTime files file) changedMap

def recordTimes (files : Files) (includes : List String) (changedMap : ChangedMap) : ChangedMap :=
  includes.foldl (recordTime files) changedMap

def ConfigState.load (x : External) (g : Global ω) (files : Files) (c : ConfigState) (path : String) (isReload : Bool) :
    ConfigState × String :=
  let loaded := loadFromFile x g c.options.ini files path isReload
  ({ c with changedMap := recordTimes files loaded.includes c.changedMap }, loaded.confstr)

/-- Reading and parsing, as `load_and_configure`, `reload_and_reconfigure` and `load_and_check` do. -/
def parseLoaded (x : External) (g : Global ω) (confstr : String) : Option Configuration :=
  if confstr = "" then none else parseConfigure x g confstr []

def evaluate (x : External) (g : Global ω) (files : Files) (ini : List String) (path : String) :
    Option Configuration :=
  let v := x.vars g.env (texts files) ini path
  if v.parsed then parseLoaded x g v.result else none

/-- Every load evaluates its path under the ini list that its mode gives it. -/
theorem parseLoaded_loadFromFile (x : External) (g : Global ω) (optIni : List String) (files : Files) (path : String)
    (isReload : Bool) :
    parseLoaded x g (loadFromFile x g optIni files path isReload).confstr =
      (optionsIni x g optIni files path isReload).bind fun ini =>
        evaluate x g files (localIni path ini ++ localIni path g.ini) path := by
  unfold loadFromFile
  cases optionsIni x g optIni files path isReload with
  | none => rfl
  | some ini =>
    rw [Option.bind_some]
    unfold evaluate
    by_cases parsed : (x.vars g.env (texts files) (localIni path ini ++ localIni path g.ini) path).parsed
    · simp only [parsed, if_true]
    · simp only [parsed]
      rfl

/-- Two processes that a load of `path` cannot tell apart. -/
structure SameInputs (g g' : Global ω) (path : String) : Prop where
  env : g.env = g'.env
  despace : g.despace = g'.despace
  packages : g.packages = g'.packages
  ini : localIni path g.ini = localIni path g'.ini

theorem SameInputs.parseConfigure {g g' : Global ω} {path : String} (same : SameInputs g g' path) (x : External)
    (confstr : String) (mainconf : Configuration) :
    parseConfigure x g confstr mainconf = parseConfigure x g' confstr mainconf := by
  have sections : parseSection g = parseSection g' := by
    funext item
    rw [parseSection, parseSection, Global.getComponent, Global.getComponent, Global.components, Global.components,
      same.packages]
  rw [Config.parseConfigure, Config.parseConfigure, same.despace, sections]

theorem SameInputs.parseLoaded {g g' : Global ω} {path : String} (same : SameInputs g g' path) (x : External)
    (confstr : String) : parseLoaded x g confstr = parseLoaded x g' confstr := by
  rw [Config.parseLoaded, Config.parseLoaded, same.parseConfigure]

theorem SameInputs.loadFromFile {g g' : Global ω} {path : String} (same : SameInputs g g' path) (x : External)
    (optIni : List String) (files : Files) (isReload : Bool) :
    loadFromFile x g optIni files path isReload = loadFromFile x g' optIni files path isReload := by
  have ini (confstr : String) : configIni x g confstr optIni = configIni x g' confstr optIni := by
    simp only [configIni, same.parseConfigure, sectionIni, same.despace]
  simp only [Config.loadFromFile, optionsIni, same.env, same.ini, ini]

/-- The answer of `reload_and_reconfigure` also says whether it called `core_reconfigure`. -/
def reloadAndReconfigure (x : External) (g : Global ω) (files : Files) (c : ConfigState) : ConfigState × Bool :=
  let loaded := c.load x g files c.path true
  match parseLoaded x g loaded.2 with
  | none => (loaded.1, false)
  | some mainconf => ({ loaded.1 with mainconf := mainconf }, true)

theorem reloadAndReconfigure_eq (x : External) (g : Global ω) (files : Files) (c : ConfigState) :
    let loaded := loadFromFile x g c.options.ini files c.path true
    reloadAndReconfigure x g files c =
      ({ c with
          changedMap := recordTimes files loaded.includes c.changedMap
          mainconf := (parseLoaded x g loaded.confstr).getD c.mainconf },
        (parseLoaded x g loaded.confstr).isSome) := by
  intro loaded
  show (match parseLoaded x g loaded.confstr with
    | none => _
    | some mainconf => _) = _
  cases parseLoaded x g loaded.confstr with
  | none => rfl
  | some mainconf => rfl

def loadConfig (x : External) (g : Global ω) (files : Files) (c : ConfigState) (path : String) : ConfigState × String :=
  let loaded := c.load x g files path false
  if g.despace then
    match parseConfigure x g loaded.2 [] with
    | none => loaded
    | some mainconf => (loaded.1, (x.json.despace (x.json.writeDict mainconf)).getD "")
  else loaded

def loadAndConfigure (x : External) (g : Global ω) (files : Files) (c : ConfigState) (path : String) : ConfigState × Bool :=
  let path := x.findConfig files path
  let loaded := c.load x g files path false
  match parseLoaded x g loaded.2 with
  | none => (loaded.1, false)
  | some mainconf => ({ loaded.1 with mainconf := mainconf, path := path }, true)

theorem loadAndConfigure_eq (x : External) (g : Global ω) (files : Files) (c : ConfigState) (path : String) :
    let loaded := loadFromFile x g c.options.ini files (x.findConfig files path) false
    let parsed := parseLoaded x g loaded.confstr
    loadAndConfigure x g files c path =
      ({ c with
          changedMap := recordTimes files loaded.includes c.changedMap
          mainconf := parsed.getD c.mainconf
          path := if parsed.isSome then x.findConfig files path else c.path },
        parsed.isSome) := by
  intro loaded parsed
  show (match parsed with
    | none => _
    | some mainconf => _) = _
  cases parsed with
  | none => rfl
  | some mainconf => rfl

def ConfigState.fresh : ConfigState where
  options := .default
  mainconf := []
  path := ""
  changedMap := []

def freshLoad (x : External) (g : Global ω) (files : Files) (path : String) : Option Configuration :=
  let loaded := loadAndConfigure x g files .fresh path
  if loaded.2 then some loaded.1.mainconf else none

theorem freshLoad_eq (x : External) (g : Global ω) (files : Files) (path : String) :
    freshLoad x g files path = parseLoaded x g (loadFromFile x g [] files (x.findConfig files path) false).confstr := by
  unfold freshLoad
  rw [loadAndConfigure_eq]
  show (if (parseLoaded x g (loadFromFile x g [] files (x.findConfig files path) false).confstr).isSome then
    some ((parseLoaded x g (loadFromFile x g [] files (x.findConfig files path) false).confstr).getD []) else none) = _
  cases parseLoaded x g (loadFromFile x g [] files (x.findConfig files path) false).confstr with
  | none => rfl
  | some mainconf => rfl

def loadAndCheck (x : External) (g : Global ω) (files : Files) (c : ConfigState) (path : String) : ConfigState × Bool :=
  let loaded := c.load x g files path false
  (loaded.1, (parseLoaded x g loaded.2).isSome)

/-- The loop of `timer_handler_`: the first file that changed is recorded anew and reported. -/
def changedFile (files : Files) (changedMap : ChangedMap) : Option String :=
  (changedMap.find? fun file => file.2 != 0 && getModifyTime files file.1 != file.2).map Prod.fst

def timerHandler (x : External) (g : Global ω) (files : Files) (c : ConfigState) : ConfigState :=
  match changedFile files c.changedMap with
  | none => c
  | some file => (reloadAndReconfigure x g files { c with changedMap := recordTime files c.changedMap file }).1

def start (x : External) (g : Global ω) (files : Files) (c : ConfigState) : ConfigState × Option String :=
  let shown := if c.options.showConfig then (loadConfig x g files c c.path).map id some else (c, none)
  ({ shown.1 with changedMap := recordTime files shown.1.changedMap c.path }, shown.2)

/-! ### Generation -/

def setw20 (s : String) : String := String.ofList (List.replicate (20 - s.length) ' ') ++ s

def notFound (g : Global ω) (name : String) : String :=
  "WFC generate error! component '" ++ name ++ "' not found.\n" ++ "Available components:\n" ++
    String.join (g.orderedPackages.flatMap fun p => p.modules.flatMap fun m => m.components.map fun c =>
      setw20 c.name ++ "\t[" ++ p.name ++ " " ++ m.name ++ " ]: " ++ c.description ++ "\n")

def generateComponent (g : Global ω) (defarg : String) (opt : String × String) : Except String ConfPair :=
  match g.getComponent opt.1 with
  | some obj => .ok (opt.1, obj.generate (if opt.2 = "" then defarg else opt.2))
  | none => .error (notFound g opt.1)

def generated (x : External) (g : Global ω) (go : List (String × String)) : Except String String :=
  let all := go.lookup "all"
  let defarg := all.getD ""
  if go = [] ∨ (all ≠ none ∧ go.length = 1) then
    .ok (x.json.writeDict (g.orderedPackages.flatMap fun p => p.modules.flatMap fun m =>
      m.components.map fun c => (c.name, c.generate defarg)))
  else (go.mapM (generateComponent g defarg)).map x.json.writeDict

/-- An `ofstream` writes its file whole, or nothing where it cannot be opened. -/
def saveToFile (writable : String → Bool) (now : Int) (path confstr : String) (files : Files) : Files :=
  if path ≠ "" ∧ writable path then Function.update files path (some ⟨confstr, now⟩) else files

def generateConfig (x : External) (g : Global ω) (writable : String → Bool) (now : Int)
    (go : List (String × String)) (path : String) (files : Files) : Files × Except String String :=
  match generated x g go with
  | .ok result => (saveToFile writable now path result files, .ok result)
  | .error text => (files, .error text)

end WfcCore.Config

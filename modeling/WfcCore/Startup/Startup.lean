import WfcCore.Config.Load
import WfcCore.Startup.Arguments

/-!
# Startup

`startup_domain` in `startup.cpp`: the preparation of the global object, the choice of one of the modes, and
`perform_start_`. What is written to `cerr` and `clog` is left out, and so is the pid file, which is not one of
the `Files`.
-/

namespace WfcCore.Startup

open Foundation Wfc Config

/-- The operating system, as far as `startup_domain` sees it. -/
structure System where
  changeWorkingDirectory : String → Bool
  getWorkingDirectory : String
  changeUser : String → Bool
  locFilePid : String → Int
  writeLocPid : Int → Nat → Int
  /-- whether `wfc::daemonize` returns a function to call after the start -/
  daemonize : Bool → Bool
  getpid : Nat
  writable : String → Bool
  now : Int

def System.obliging : System where
  changeWorkingDirectory := fun _ => true
  getWorkingDirectory := "/"
  changeUser := fun _ => true
  locFilePid := fun _ => 3
  writeLocPid := fun _ _ => 0
  daemonize := fun _ => true
  getpid := 10
  writable := fun _ => true
  now := 1

structure Restart where
  count : Int
  status : Int
  workTime : Int
deriving DecidableEq

/-- As which process a call of `autoup` returns. -/
inductive Autoup where
  | monitor
  | worker
  | restarted (r : Restart)

/-- The handlers that `startup_domain` adds to `after_start`. -/
inductive AfterStart where
  | initShutdownTimer
  | daemonized
  | restarted (r : Restart)
  | processIdentifier (pid : Nat)
  | dumpable (enable : Bool)
deriving DecidableEq

/-- `startup_domain` with the objects it works on. `afterStop` lists the paths that its handlers remove. -/
structure Domain where
  pa : ProgramArguments
  pidPath : String
  ready : Bool
  global : Global Map2
  config : ConfigState
  afterStart : List AfterStart
  afterStop : List String

structure Outcome where
  code : Int
  out : String
  files : Files
  domain : Domain

/-! ### Preparation -/

/-- The configuration that is looked for when the command line names none. -/
def discover (x : External) (files : Files) (instanceName programName : String) : String :=
  let found := x.findConfig files (instanceName ++ ".conf")
  if found = "" then x.findConfig files (programName ++ ".conf") else found

def prepareArguments (x : External) (files : Files) (pa : ProgramArguments) : ProgramArguments :=
  let configPath := if pa.configPath = "" then discover x files pa.instanceName pa.programName else pa.configPath
  { pa with configPath := configPath, usage := pa.usage && configPath == "" }

def confpath (x : External) (files : Files) (pa : ProgramArguments) : Option String :=
  if pa.configPath ≠ "" then some (x.findConfig files pa.configPath)
  else if pa.checkConfig ≠ "" then some (x.findConfig files pa.checkConfig)
  else if pa.printConfig ≠ "" then some (x.findConfig files pa.printConfig)
  else none

def setPaths (g : Global Map2) (confpath : Option String) : Global Map2 :=
  match confpath with
  | some path => { g with configPath := Path.parentPath path, configName := Path.filename path }
  | none => g

def setEnvironment (g : Global Map2) : Global Map2 :=
  let g := ((((g.setEnv "PNAME" g.programName).setEnv "PPATH" g.programPath).setEnv "INAME" g.instanceName).setEnv
    "CPATH" g.configPath).setEnv "CNAME" g.configName
  if g.programName.toList.getLast? = some 'd' then g.setEnv "SNAME" (String.ofList g.programName.toList.dropLast)
  else g

def prepareGlobal (x : External) (files : Files) (pa : ProgramArguments) (g : Global Map2) : Global Map2 :=
  setEnvironment (setPaths
    { g with
      programName := pa.programName
      programPath := pa.programPath
      instanceName := pa.instanceName
      despace := pa.despace }
    (confpath x files pa))

/-! ### The branches of `startup` -/

inductive Mode where
  | error | usage | help | version | info | moduleList | componentList | generate | checkConfig | printConfig
  | start | unspecified
deriving DecidableEq

def mode (pa : ProgramArguments) : Mode :=
  if pa.errorstring ≠ "" then .error
  else if pa.usage then .usage
  else if pa.help then .help
  else if pa.version then .version
  else if pa.info then .info
  else if pa.moduleList then .moduleList
  else if pa.componentList then .componentList
  else if pa.generate then .generate
  else if pa.checkConfig ≠ "" then .checkConfig
  else if pa.printConfig ≠ "" then .printConfig
  else if pa.configPath ≠ "" then .start
  else .unspecified

def Mode.informational : Mode → Bool
  | .error | .start | .unspecified => false
  | _ => true

def showUsage (g : Global Map2) : String :=
  "Usage:\n" ++ String.join (["--help", "--version", "--info [<package name>]", "-G [<component name>] [-C <path>]",
    "--check-config <path>", "[-d] [-c] [-a <timeout>] [-n <component name>] -C <config path>"].map fun arguments =>
      "  " ++ g.programName ++ " " ++ arguments ++ "\n")

def helpBanner (name : String) : String := "***** Help for '" ++ name ++ "' *****\n"

def showComponentHelp (g : Global Map2) (helpparams : String) : String :=
  let (componentsNames, componentArgs) := (splitFirst ':' helpparams).getD (helpparams, "")
  let componentList := (componentsNames.toList.splitOn ',').map String.ofList
  String.join (componentList.map fun componentName =>
    match g.getComponent componentName with
    | some p =>
      (if 1 < componentList.length then helpBanner componentName else "") ++ p.help componentArgs ++ "\n\n"
    | none =>
      if componentName ≠ "all" then "ERROR: component '" ++ componentName ++ "' is not exist.\n\n"
      else String.join (g.components.map fun p => helpBanner p.name ++ p.help componentArgs ++ "\n\n"))

def showHelp (g : Global Map2) (pa : ProgramArguments) (helpstring : String) : String :=
  if pa.helpOptions = [] then
    (if helpstring = "" then "" else helpstring ++ "\n\n") ++ pa.helpstring ++ "\n" ++
      "To generate and format the configuration, use: \n" ++ pa.programName ++ " -G | python -mjson.tool \n\n"
  else String.join (pa.helpOptions.map (showComponentHelp g))

def showVersion (g : Global Map2) (pa : ProgramArguments) : String :=
  let b := g.programBuildInfo
  pa.programName ++ " " ++ b.version ++ "\n" ++ b.compilerVersion ++ "\n" ++ b.buildDate ++ "\n" ++ b.buildType ++ "\n"

def setw17Left (s : String) : String := s ++ String.ofList (List.replicate (17 - s.length) ' ')

def showBuildInfo (b : BuildInfo) (shortinfo : Bool) : String :=
  if shortinfo then setw20 b.name ++ " " ++ setw17Left b.version ++ " " ++ b.initialAuthor ++ "\n"
  else
    String.join ([("Enabled: ", if b.enabled then "1" else "0"), ("Name: ", b.name), ("Version: ", b.version),
      ("Compiler: ", b.compilerVersion), ("Build Type: ", b.buildType), ("Build Date: ", b.buildDate),
      ("Build Flags: ", b.buildFlags), ("Branch: ", b.branch), ("Commit: ", b.commit),
      ("Commit Date: ", b.commitDate), ("Commit Author: ", b.commitAuthor), ("Commit Message: ", b.commitMessage),
      ("All Authors: ", b.allAuthors), ("Initial Author: ", b.initialAuthor)].map fun line =>
        "\t" ++ line.1 ++ line.2 ++ "\n")

def showPackage (p : Package) : String :=
  "About Package:\n" ++ (p.buildInfo.map (showBuildInfo · false)).getD "" ++ "\tDescription: " ++ p.description ++
    "\n\tList of modules:\n" ++ String.join (p.modules.map fun m =>
      "\t\t" ++ m.name ++ ". " ++ m.description ++ "\n" ++ String.join (m.components.map fun o =>
        "\t\t\t" ++ o.name ++ " - " ++ o.description ++ "\n"))

def showInfo (g : Global Map2) (packageName : String) : String × Bool :=
  if packageName ≠ "" then
    match g.packages.find? (·.name == packageName) with
    | some p => (showPackage p, true)
    | none =>
      ("Information about the package is not available.\nPackage '" ++ packageName ++
        "' Not Found!\nAvailable packages: \n" ++ String.join (g.packages.map fun p => "\t" ++ p.name ++ "\n"), false)
  else
    ("About Program:\n" ++ showBuildInfo g.programBuildInfo false ++ "About WFC:\n" ++
      showBuildInfo g.wfcBuildInfo false ++ "Package List:\n" ++
      String.join (g.orderedPackages.map fun p => (p.buildInfo.map (showBuildInfo · true)).getD ""), true)

/-- The loop over the values of `--info`, which shows nothing more after a package that it does not find. -/
def showInfos (g : Global Map2) (packageNames : List String) : String × Bool :=
  packageNames.foldl (fun shown name =>
    if shown.2 then (shown.1 ++ (showInfo g name).1, (showInfo g name).2) else shown) ("", true)

def showModules (g : Global Map2) : String :=
  String.join (g.orderedPackages.map fun p => p.name ++ ":\n" ++
    String.join (p.modules.map fun m => "\t" ++ m.name ++ " " ++ m.description ++ "\n"))

def showComponents (g : Global Map2) : String :=
  String.join (g.orderedPackages.map fun p => p.name ++ ":\n" ++
    String.join (p.modules.flatMap fun m => m.components.map fun c =>
      "\t" ++ c.name ++ " [" ++ c.interfaceName ++ "] " ++ c.description ++ "\n"))

/-- `generate_`. -/
def generate (x : External) (sys : System) (files : Files) (d : Domain) : Outcome :=
  match generateConfig x d.global sys.writable sys.now d.pa.generateOptions d.pa.configPath files with
  | (files, .ok genstr) => ⟨0, if d.pa.configPath = "" then genstr ++ "\n" else "", files, d⟩
  | (files, .error _) => ⟨3, "", files, d⟩

/-! ### Start -/

def loadStart (x : External) (files : Files) (d : Domain) : Domain × Bool :=
  let g := { d.global with ini := d.pa.iniList ++ d.pa.startupIniList }
  let loaded := loadAndConfigure x g files d.config d.pa.configPath
  ({ d with global := g, config := loaded.1 }, loaded.2)

def pidPath (pa : ProgramArguments) : String :=
  let pidDir := if pa.pidDir ≠ "" ∧ pa.pidDir.toList.getLast? ≠ some '/' then pa.pidDir ++ "/" else pa.pidDir
  pidDir ++ pa.instanceName ++ ".pid"

/-- From the load to the call of `autoup`: the domain at the call and the pid file, or the code to return. -/
def beforeAutoup (sys : System) (d : Domain) : Except (Domain × Int) (Domain × Int) :=
  if d.pa.workingDirectory ≠ "" ∧ !sys.changeWorkingDirectory d.pa.workingDirectory then .error (d, 7)
  else
    let workingDirectory := if d.pa.workingDirectory ≠ "" then d.pa.workingDirectory else sys.getWorkingDirectory
    let d := { d with global := { d.global with workingDirectory := workingDirectory } }
    if d.pa.userName ≠ "" ∧ !sys.changeUser d.pa.userName then .error (d, 6)
    else
      let pidFile := sys.locFilePid (pidPath d.pa)
      if pidFile < 0 then .error ({ d with pidPath := "" }, 8)
      else
        let daemonized := if d.pa.daemonize && sys.daemonize d.pa.waitDaemonize then [.daemonized] else []
        .ok ({ d with
          pidPath := pidPath d.pa
          afterStart := d.afterStart ++ [.initShutdownTimer] ++ daemonized }, pidFile)

def restarted (r : Restart) (d : Domain) : Domain :=
  { d with
    pa := { d.pa with startupOptions := [], startupIniList := [] }
    afterStart := d.afterStart ++ [.restarted r] }

def enterWorker (sys : System) (d : Domain) (pidFile : Int) : Domain × Int :=
  if sys.writeLocPid pidFile sys.getpid = -1 then (d, 9)
  else
    ({ d with
      afterStart := d.afterStart ++ [.processIdentifier sys.getpid, .dumpable d.pa.coredump]
      afterStop := d.afterStop ++ [d.pidPath]
      global := { d.global with args := [d.pa.startupOptions, d.pa.objectOptions] }
      ready := true }, 0)

def afterAutoup (sys : System) (autoup : Autoup) (d : Domain) (pidFile : Int) : Domain × Int :=
  if d.pa.autoup then
    match autoup with
    | .monitor => (d, 0)
    | .worker => enterWorker sys d pidFile
    | .restarted r => enterWorker sys (restarted r d) pidFile
  else enterWorker sys d pidFile

def performStart (x : External) (sys : System) (autoup : Autoup) (files : Files) (d : Domain) : Domain × Int :=
  let loaded := loadStart x files d
  if !loaded.2 then (loaded.1, 5)
  else
    match beforeAutoup sys loaded.1 with
    | .error returned => returned
    | .ok (d, pidFile) => afterAutoup sys autoup d pidFile

def prepared (lib : Libraries) (x : External) (files : Files) (g : Global Map2) (cl : CommandLine) : Domain :=
  let pa := prepareArguments x files (parseArguments lib cl)
  { pa := pa
    pidPath := ""
    ready := false
    global := prepareGlobal x files pa g
    config := .fresh
    afterStart := []
    afterStop := [] }

def startup (lib : Libraries) (x : External) (sys : System) (autoup : Autoup) (files : Files) (g : Global Map2)
    (helpstring : String) (cl : CommandLine) : Outcome :=
  let d := prepared lib x files g cl
  match mode d.pa with
  | .error => ⟨1, "", files, d⟩
  | .usage => ⟨0, showUsage d.global, files, d⟩
  | .help => ⟨0, showHelp d.global d.pa helpstring, files, d⟩
  | .version => ⟨0, showVersion d.global d.pa, files, d⟩
  | .info =>
    let shown := if d.pa.infoOptions = [] then ((showInfo d.global "").1, true)
      else showInfos d.global d.pa.infoOptions
    ⟨if shown.2 then 0 else 2, shown.1, files, d⟩
  | .moduleList => ⟨0, showModules d.global, files, d⟩
  | .componentList => ⟨0, showComponents d.global, files, d⟩
  | .generate => generate x sys files d
  | .checkConfig =>
    let loaded := loadAndConfigure x d.global files d.config d.pa.checkConfig
    ⟨if loaded.2 then 0 else 4, "", files, { d with config := loaded.1 }⟩
  | .printConfig =>
    let loaded := loadConfig x d.global files d.config d.pa.printConfig
    ⟨0, loaded.2 ++ "\n", files, { d with config := loaded.1 }⟩
  | .start =>
    let started := performStart x sys autoup files d
    ⟨started.2, "", files, started.1⟩
  | .unspecified => ⟨0, showUsage d.global, files, d⟩

end WfcCore.Startup

import WfcCore.Foundation.OrderedMap
import WfcCore.Foundation.Path

/-!
# Program arguments

`parse_arguments.cpp` and `program_arguments.hpp`. What `boost::program_options` makes of the command line
is the record `CommandLine`; `parseArguments` is what the function does with it.
-/

namespace WfcCore.Startup

open Foundation

abbrev Map1 := List (String × String)
abbrev Map2 := List (String × Map1)

structure ProgramArguments where
  help : Bool
  usage : Bool
  generate : Bool
  version : Bool
  info : Bool
  moduleList : Bool
  componentList : Bool
  daemonize : Bool
  waitDaemonize : Bool
  coredump : Bool
  despace : Bool
  autoup : Bool
  autoupTimeout : Int
  successAutoup : Bool
  shutdownTime : String
  workingTime : String
  restartByTimer : Bool
  errorstring : String
  helpstring : String
  userName : String
  workingDirectory : String
  programName : String
  programPath : String
  instanceName : String
  configPath : String
  checkConfig : String
  printConfig : String
  pidDir : String
  infoOptions : List String
  helpOptions : List String
  generateOptions : Map1
  objectOptions : Map2
  startupOptions : Map2
  iniList : List String
  startupIniList : List String
deriving DecidableEq

def ProgramArguments.default : ProgramArguments where
  help := false
  usage := false
  generate := false
  version := false
  info := false
  moduleList := false
  componentList := false
  daemonize := false
  waitDaemonize := false
  coredump := false
  despace := false
  autoup := false
  autoupTimeout := 0
  successAutoup := false
  shutdownTime := ""
  workingTime := ""
  restartByTimer := false
  errorstring := ""
  helpstring := ""
  userName := ""
  workingDirectory := ""
  programName := ""
  programPath := ""
  instanceName := ""
  configPath := ""
  checkConfig := ""
  printConfig := ""
  pidDir := ""
  infoOptions := []
  helpOptions := []
  generateOptions := []
  objectOptions := []
  startupOptions := []
  iniList := []
  startupIniList := []

/-- The options of the group `Allowed options`. An option that may stand without a value is present or not,
and has the list of its values. -/
structure ModeOptions where
  help : Option (List String)
  version : Bool
  info : Option (List String)
  moduleList : Bool
  componentList : Bool
  generate : Option (List String)
  checkConfig : String
  printConfig : String
  config : String

def ModeOptions.default : ModeOptions where
  help := none
  version := false
  info := none
  moduleList := false
  componentList := false
  generate := none
  checkConfig := ""
  printConfig := ""
  config := ""

/-- The options of the group `Startup options` and `--despace`, without `--config`. -/
structure StartOptions where
  despace : Bool
  user : String
  workingDirectory : String
  daemonize : Bool
  waitDaemonize : Bool
  autoup : String
  successAutoup : Bool
  shutdownTime : String
  workingTime : String
  restartByTimer : Bool
  coredump : Bool
  name : String
  pidDir : String
  objectOptions : List String
  startupOptions : List String
  ini : List String
  startupIni : List String

def StartOptions.default : StartOptions where
  despace := false
  user := ""
  workingDirectory := ""
  daemonize := false
  waitDaemonize := false
  autoup := ""
  successAutoup := false
  shutdownTime := ""
  workingTime := ""
  restartByTimer := false
  coredump := false
  name := ""
  pidDir := ""
  objectOptions := []
  startupOptions := []
  ini := []
  startupIni := []

/-- A command line: the program, whether it has arguments, and the options, or what `boost` has against
them. -/
structure CommandLine where
  argv0 : String
  bare : Bool
  options : Except String (ModeOptions × StartOptions)

/-- The parts of boost and wjson that `parse_arguments` calls. -/
structure Libraries where
  systemComplete : String → String
  lexicallyNormal : String → String
  parseInteger : String → Bool
  timeInterval : String → Option Int
  printOptions : String

def splitFirst (c : Char) (s : String) : Option (String × String) :=
  match s.toList.dropWhile (· != c) with
  | [] => none
  | _ :: rest => some (String.ofList (s.toList.takeWhile (· != c)), String.ofList rest)

def parsePair (opt : String) (res : Map1) : Map1 :=
  match splitFirst '=' opt with
  | none => assign opt "" res
  | some (key, val) => assign key val res

def parseOptions (opt : String) (res : Map1) : Map1 :=
  (opt.toList.splitOn ':').foldl (fun res piece => parsePair (String.ofList piece) res) res

def parseInstance (opt : String) (res : Map2) : Map2 :=
  if opt = "" then res
  else
    match splitFirst ':' opt with
    | none => assign opt ((res.lookup opt).getD []) res
    | some (name, value) => assign name (parseOptions value ((res.lookup name).getD [])) res

def parseCustomOptions (opts : List String) : Map2 :=
  opts.foldl (fun res opt => parseInstance opt res) []

def parseGenerate (res : Map1) (g : String) : Map1 :=
  match splitFirst ':' g with
  | none => assign g "" res
  | some (name, arg) => assign name arg res

/-- The minimum uptime; -1 without `--autoup`, and nothing where the value does not parse. -/
def autoupTimeout (lib : Libraries) (autoup : String) : Option Int :=
  if autoup = "" then some (-1)
  else lib.timeInterval (if lib.parseInteger autoup then autoup else "\"" ++ autoup ++ "\"")

def complete (lib : Libraries) (path : String) : String :=
  if path = "" then "" else lib.lexicallyNormal (lib.systemComplete path)

def programArguments (lib : Libraries) (cl : CommandLine) : ProgramArguments :=
  { ProgramArguments.default with
    programPath := lib.lexicallyNormal (Path.parentPath (lib.systemComplete cl.argv0))
    programName := Path.filename cl.argv0
    usage := cl.bare }

def storeOptions (lib : Libraries) (pa : ProgramArguments) (mode : ModeOptions) (o : StartOptions) :
    ProgramArguments :=
  { pa with
    helpOptions := mode.help.getD []
    version := mode.version
    infoOptions := mode.info.getD []
    moduleList := mode.moduleList
    componentList := mode.componentList
    checkConfig := mode.checkConfig
    printConfig := mode.printConfig
    despace := o.despace
    userName := o.user
    workingDirectory := complete lib o.workingDirectory
    daemonize := o.daemonize
    waitDaemonize := o.waitDaemonize
    successAutoup := o.successAutoup
    shutdownTime := o.shutdownTime
    workingTime := o.workingTime
    restartByTimer := o.restartByTimer
    coredump := o.coredump
    instanceName := o.name
    configPath := mode.config
    pidDir := complete lib o.pidDir }

def instanceOptions (options : Map2) : String :=
  if options = [] then ""
  else "\nInstance options:\n" ++ String.join (options.map fun ins =>
    "  " ++ ins.1 ++ ":\n" ++ String.join (ins.2.map fun val => "\t" ++ val.1 ++ "=" ++ val.2 ++ "\n"))

/-- The name of an instance without `--name`. -/
def defaultName (programName configPath : String) : String :=
  if configPath = "" then programName else programName ++ "-" ++ Path.filename configPath

def parseArguments (lib : Libraries) (cl : CommandLine) : ProgramArguments :=
  let pa := programArguments lib cl
  match cl.options with
  | .error what => { pa with errorstring := what }
  | .ok (mode, o) =>
    let pa := storeOptions lib pa mode o
    match autoupTimeout lib o.autoup with
    | none => { pa with errorstring := "Program option autoup_timeout invalid value" }
    | some timeout =>
      let objectOptions := parseCustomOptions o.objectOptions
      { pa with
        autoupTimeout := timeout
        help := mode.help.isSome
        generate := mode.generate.isSome
        info := mode.info.isSome
        autoup := timeout != -1
        generateOptions := (mode.generate.getD []).foldl parseGenerate []
        objectOptions := objectOptions
        startupOptions := parseCustomOptions o.startupOptions
        iniList := o.ini
        startupIniList := o.startupIni
        helpstring := if mode.help.isSome then lib.printOptions ++ instanceOptions objectOptions else ""
        instanceName := if o.name = "" then defaultName pa.programName mode.config else o.name }

def Libraries.absolute : Libraries where
  systemComplete := fun path => if path.toList.head? = some '/' then path else "/" ++ path
  lexicallyNormal := id
  parseInteger := fun text => text.toList.all Char.isDigit
  timeInterval := fun text => if text = "60" then some 60 else none
  printOptions := ""

end WfcCore.Startup

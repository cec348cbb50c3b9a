import Mathlib.Logic.Function.Basic

/-!
# The framework around the package

The parts of wfc, wjson and the file system that the modules of this package call. What is outside
the package (`wfc::vars`, `find_config`, the json parser) is a field of `External`; the registry
and the shared object `wfcglobal` are records of what the package reads and writes in them.
-/

namespace WfcCore.Wfc

structure File where
  text : String
  mtime : Int
deriving DecidableEq

abbrev Files := String → Option File

def texts (files : Files) : String → Option String := fun path => (files path).map File.text

abbrev Env := String → Option String

/-- What `wfc::vars` reports for a list of ini files and a configuration file: `status` is `status()`
after `add_ini` and, unless that failed, `parse_file`; `parsed` is the answer of `parse_file` itself. -/
structure VarsResult where
  status : Bool
  parsed : Bool
  result : String
  includeMap : List String

abbrev ConfPair := String × String

/-- Sections in document order; one name may stand in it more than once. -/
abbrev Configuration := List ConfPair

/-- The parsers and serializers of wjson that the configuration uses. A parser answers `none` where
the original sets a `json_error`. -/
structure Json where
  parseSpace : String → Bool
  parseDict : String → Option Configuration
  writeDict : Configuration → String
  parseRawVector : String → Option (List String)
  writeRawVector : List String → String
  parseStrings : String → Option (List String)
  despace : String → Option String

structure External where
  findConfig : Files → String → String
  vars : Env → (String → Option String) → List String → String → VarsResult
  json : Json

/-- The parts outside the package for texts without variables, included files and sections. -/
def External.plain : External where
  findConfig := fun files name => if (files name).isSome then name else ""
  vars := fun _ read _ path =>
    { status := (read path).isSome, parsed := (read path).isSome, result := (read path).getD "", includeMap := [] }
  json :=
    { parseSpace := fun _ => true
      parseDict := fun s => if s.toList.filter (!·.isWhitespace) = ['{', '}'] then some [] else none
      writeDict := fun _ => "{}"
      parseRawVector := fun _ => none
      writeRawVector := fun _ => "[]"
      parseStrings := fun _ => none
      despace := fun s => some (String.ofList (s.toList.filter (!·.isWhitespace))) }

structure BuildInfo where
  enabled : Bool
  name : String
  version : String
  compilerVersion : String
  buildType : String
  buildDate : String
  buildFlags : String
  branch : String
  commit : String
  commitDate : String
  commitAuthor : String
  commitMessage : String
  allAuthors : String
  initialAuthor : String
deriving Inhabited

structure Component where
  name : String
  interfaceName : String
  description : String
  help : String → String
  parse : String → Bool
  generate : String → String

structure Module where
  name : String
  description : String
  components : List Component

structure Package where
  name : String
  description : String
  buildInfo : Option BuildInfo
  showOrder : Int
  modules : List Module

/-- `wfcglobal`. The object arguments are the option maps of type `ω` inserted since the last
`clear`, in order. -/
structure Global (ω : Type) where
  programName : String
  programPath : String
  instanceName : String
  configPath : String
  configName : String
  workingDirectory : String
  despace : Bool
  ini : List String
  args : List ω
  env : Env
  programBuildInfo : BuildInfo
  wfcBuildInfo : BuildInfo
  packages : List Package

variable {ω : Type}

def Global.new (programBuildInfo wfcBuildInfo : BuildInfo) (packages : List Package) : Global ω where
  programName := ""
  programPath := ""
  instanceName := ""
  configPath := ""
  configName := ""
  workingDirectory := ""
  despace := false
  ini := []
  args := []
  env := fun _ => none
  programBuildInfo := programBuildInfo
  wfcBuildInfo := wfcBuildInfo
  packages := packages

def Global.components (g : Global ω) : List Component :=
  g.packages.flatMap fun p => p.modules.flatMap Module.components

/-- `registry.get_object<icomponent>("component", name, true)`. -/
def Global.getComponent (g : Global ω) (name : String) : Option Component :=
  g.components.find? (·.name == name)

/-- The packages in the order of `for_each` with a comparison by `show_order`. -/
def Global.orderedPackages (g : Global ω) : List Package :=
  g.packages.mergeSort fun l r => decide (l.showOrder ≤ r.showOrder)

def Global.setEnv (g : Global ω) (name value : String) : Global ω :=
  { g with env := Function.update g.env name (some value) }

section SetEnv

variable (g : Global ω) (name value : String)

@[simp] theorem Global.setEnv_despace : (g.setEnv name value).despace = g.despace := rfl
@[simp] theorem Global.setEnv_packages : (g.setEnv name value).packages = g.packages := rfl
@[simp] theorem Global.setEnv_ini : (g.setEnv name value).ini = g.ini := rfl
@[simp] theorem Global.setEnv_self : (g.setEnv name value).env name = some value := Function.update_self ..

theorem Global.setEnv_of_ne {other : String} (different : other ≠ name) :
    (g.setEnv name value).env other = g.env other :=
  Function.update_of_ne different ..

end SetEnv

end WfcCore.Wfc

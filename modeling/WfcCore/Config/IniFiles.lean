import WfcCore.Config.Load

/-!
# The ini files of a load

`load_from_file_` rewrites the names of the ini files and passes them to the final expansion. A name is passed
on only if it has no directory and the configuration file has one.
-/

namespace WfcCore.Config

open Foundation Wfc

namespace IniFiles

variable {ω : Type} {path : String} {ini args : List String}

/-- The file meant by a listed name: a name without a directory stands in the directory of the configuration
file when that has one, every other name is meant as written. -/
def resolve (path file : String) : String :=
  if Path.parentPath path ≠ "" ∧ Path.parentPath file = "" then
    Path.append (Path.parentPath path) (Path.filename file)
  else file

/-- The list that the final expansion is given: the names of the configuration before those of the command line. -/
def finalIni (path : String) (ini args : List String) : List String :=
  localIni path ini ++ localIni path args

def expansion (x : External) (g : Global ω) (files : Files) (path : String) (ini : List String) : Loaded :=
  let v := x.vars g.env (texts files) ini path
  if v.parsed then ⟨v.result, v.includeMap⟩ else ⟨"", []⟩

theorem loadFromFile_expansion (x : External) (g : Global ω) (optIni : List String) (files : Files) (path : String)
    (isReload : Bool) {ini : List String} (configured : optionsIni x g optIni files path isReload = some ini) :
    loadFromFile x g optIni files path isReload = expansion x g files path (finalIni path ini g.ini) := by
  rw [loadFromFile, configured]
  rfl

/-- The condition of the two loops. -/
def Local (path file : String) : Prop :=
  Path.parentPath path ≠ "" ∧ Path.parentPath file = ""

instance (path file : String) : Decidable (Local path file) :=
  inferInstanceAs (Decidable (_ ∧ _))

theorem localIni_eq (path : String) (ini : List String) :
    localIni path ini = (ini.filter fun file => decide (Local path file)).map (resolve path) := by
  have same : ini.filter (fun file => Path.parentPath path != "" && Path.parentPath file == "") =
      ini.filter fun file => decide (Local path file) := by
    apply List.filter_congr
    intro file _
    rw [Bool.eq_iff_iff, decide_eq_true_iff]
    simp [Local]
  rw [localIni, same]
  apply List.map_congr_left
  intro file member
  have kept : Local path file := of_decide_eq_true (List.mem_filter.mp member).2
  exact (if_pos kept).symm

theorem localIni_length (path : String) (ini : List String) :
    (localIni path ini).length = (ini.filter fun file => decide (Local path file)).length := by
  rw [localIni_eq, List.length_map]

theorem finalIni_of_local (every : ∀ file ∈ ini ++ args, Local path file) :
    finalIni path ini args = (ini ++ args).map (resolve path) := by
  rw [finalIni, localIni_eq, localIni_eq, List.map_append, List.filter_eq_self.mpr, List.filter_eq_self.mpr]
  · intro file member
    exact decide_eq_true (every file (List.mem_append_right _ member))
  · intro file member
    exact decide_eq_true (every file (List.mem_append_left _ member))

/-- A list that is not shorter has lost no name. -/
theorem local_of_length (whole : (finalIni path ini args).length = (ini ++ args).length) :
    ∀ file ∈ ini ++ args, Local path file := by
  have first := List.length_filter_le (fun file => decide (Local path file)) ini
  have second := List.length_filter_le (fun file => decide (Local path file)) args
  rw [finalIni, List.length_append, List.length_append, localIni_length, localIni_length] at whole
  intro file member
  rcases List.mem_append.mp member with configured | given
  · have all : (ini.filter fun file => decide (Local path file)).length = ini.length := by omega
    exact of_decide_eq_true (List.length_filter_eq_length_iff.mp all file configured)
  · have all : (args.filter fun file => decide (Local path file)).length = args.length := by omega
    exact of_decide_eq_true (List.length_filter_eq_length_iff.mp all file given)

/-- The final expansion is given every listed name, in order, exactly if no listed name has a directory and,
unless the lists are empty, the configuration file has one. -/
theorem loadFromFile_keeps_iff (x : External) (g : Global ω) (optIni : List String) (files : Files) (path : String)
    (isReload : Bool) (ini : List String) (configured : optionsIni x g optIni files path isReload = some ini) :
    loadFromFile x g optIni files path isReload = expansion x g files path (finalIni path ini g.ini) ∧
    (finalIni path ini g.ini = (ini ++ g.ini).map (resolve path) ↔
      ∀ file ∈ ini ++ g.ini, Path.parentPath path ≠ "" ∧ Path.parentPath file = "") := by
  refine ⟨loadFromFile_expansion x g optIni files path isReload configured, ?_, finalIni_of_local⟩
  intro kept
  apply local_of_length
  rw [kept, List.length_map]

/-- A process started with `--ini vars.ini`. -/
def withIni : Global Unit :=
  { Global.new default default [] with ini := ["vars.ini"] }

theorem loadFromFile_keeps_local :
    finalIni "conf/daemon.conf" ["base.ini"] withIni.ini = ["conf/base.ini", "conf/vars.ini"] := by
  have keeps := loadFromFile_keeps_iff External.plain withIni ["base.ini"] (fun _ => none) "conf/daemon.conf" true
    ["base.ini"] rfl
  exact (keeps.2.mpr (by decide)).trans (by decide)

/-- With the configuration file in the working directory, the ini file of the command line is not read. -/
theorem loadFromFile_drops :
    optionsIni External.plain withIni [] (fun _ => none) "daemon.conf" true = some [] ∧
    finalIni "daemon.conf" [] withIni.ini = [] ∧
    ¬ ∀ (x : External) (g : Global Unit) (optIni : List String) (files : Files) (path : String) (isReload : Bool)
      (ini : List String), optionsIni x g optIni files path isReload = some ini →
        finalIni path ini g.ini = (ini ++ g.ini).map (resolve path) := by
  refine ⟨rfl, by decide, ?_⟩
  intro kept
  have all := kept External.plain withIni [] (fun _ => none) "daemon.conf" true [] rfl
  revert all
  decide

end IniFiles

end WfcCore.Config

import WfcCore.Wfc.Global

/-!
# Sections of a configuration

`configuration.hpp`, and from `config.cpp` the two functions that turn a configuration text into
sections: `normalize_json_multimap`, which merges sections of one name, and `parse_configure_`,
which also has every section parsed by its component.
-/

namespace WfcCore.Config

open Wfc

def confFind (name : String) (conf : Configuration) : Option ConfPair :=
  conf.find? (·.1 == name)

def confCount (name : String) (conf : Configuration) : Nat :=
  conf.countP (·.1 == name)

/-- Assignment through the iterator that `confFind` returns. -/
def confAssign (name value : String) : Configuration → Configuration
  | [] => []
  | item :: rest => if item.1 == name then (name, value) :: rest else item :: confAssign name value rest

/-- One turn of the loop of `normalize_json_multimap`. -/
def normalizeItem (json : Json) (despace : Bool) (map : Configuration) (item : ConfPair) :
    Option Configuration := do
  let second ← if despace then json.despace item.2 else some item.2
  match confFind item.1 map with
  | none => some (map ++ [(item.1, second)])
  | some itr =>
    if json.parseSpace second then
      let first ← json.parseRawVector second
      let merged ← json.parseRawVector itr.2
      some (confAssign item.1 (json.writeRawVector (merged ++ first)) map)
    else none

def normalizeJsonMultimap (json : Json) (str : String) (despace : Bool) (map : Configuration) :
    Option Configuration := do
  let multiConfig ← json.parseDict str
  multiConfig.foldlM (normalizeItem json despace) map

variable {ω : Type}

def parseSection (g : Global ω) (item : ConfPair) : Bool :=
  match g.getComponent item.1 with
  | some m => m.parse item.2
  | none => false

def parseConfigure (x : External) (g : Global ω) (confstr : String) (mainconf : Configuration) :
    Option Configuration :=
  match normalizeJsonMultimap x.json confstr g.despace mainconf with
  | some mainconf => if mainconf.all (parseSection g) then some mainconf else none
  | none => none

/-- `config::get_config`: the text of a section, empty when there is none. -/
def getConfig (componentName : String) (mainconf : Configuration) : String :=
  match confFind componentName mainconf with
  | some itr => itr.2
  | none => ""

end WfcCore.Config

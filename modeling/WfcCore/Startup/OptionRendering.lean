import WfcCore.Startup.OptionParsing

/-!
# Object options written and read

A map of object options is written as one argument for each object, and reading the arguments in any order
gives the map back.
-/

namespace WfcCore.Startup

open Foundation

def renderPair (pair : String × String) : String := pair.1 ++ "=" ++ pair.2

/-- `name:key1=value1:key2=value2`, or the name alone. -/
def render (object : String × Map1) : String :=
  object.1 ++ String.join (object.2.map fun pair => ":" ++ renderPair pair)

/-- The maps that the notation can spell. The separators may stand only where they are not read as such. -/
structure Spellable (objects : Map2) : Prop where
  sorted : Sorted objects
  named : ∀ object ∈ objects, object.1 ≠ ""
  names : ∀ object ∈ objects, ':' ∉ object.1.toList
  options : ∀ object ∈ objects, Sorted object.2
  keys : ∀ object ∈ objects, ∀ pair ∈ object.2, ':' ∉ pair.1.toList ∧ '=' ∉ pair.1.toList
  values : ∀ object ∈ objects, ∀ pair ∈ object.2, ':' ∉ pair.2.toList

theorem renderPair_toList (pair : String × String) : (renderPair pair).toList = pair.1.toList ++ '=' :: pair.2.toList := by
  simp [renderPair]

theorem render_toList (object : String × Map1) :
    (render object).toList = object.1.toList ++ (object.2.map fun pair => (renderPair pair).toList).flatMap (':' :: ·) := by
  rw [render, String.toList_append, String.toList_join, List.flatMap_map, List.flatMap_map]
  simp

theorem segmentPair_renderPair {pair : String × String} (plain : '=' ∉ pair.1.toList) :
    segmentPair (renderPair pair) = pair := by
  rw [segmentPair, renderPair_toList, Scan.takeWhile_append_cons plain, Scan.dropWhile_append_cons plain]
  simp

theorem cons_intercalate (c : Char) {pieces : List (List Char)} (some : pieces ≠ []) :
    c :: [c].intercalate pieces = pieces.flatMap (c :: ·) := by
  induction pieces with
  | nil => exact (some rfl).elim
  | cons piece rest ih =>
    cases rest with
    | nil => simp
    | cons next rest =>
      rw [List.intercalate_cons_cons, List.flatMap_cons, ← ih (by simp)]
      simp

variable {objects : Map2} {object : String × Map1} {args : List String}

theorem Spellable.pair_plain (spellable : Spellable objects) (member : object ∈ objects) :
    ∀ text ∈ object.2.map fun pair => (renderPair pair).toList, ':' ∉ text := by
  intro text written
  obtain ⟨pair, given, rfl⟩ := List.mem_map.mp written
  rw [renderPair_toList]
  have key := (spellable.keys object member pair given).1
  have value := spellable.values object member pair given
  simp [key, value]

/-- The text after the name begins with a separator, if there is any. -/
theorem render_split (object : String × Map1) :
    (object.2 = [] ∧ (render object).toList = object.1.toList) ∨
      (object.2 ≠ [] ∧ (render object).toList = object.1.toList ++
        ':' :: [':'].intercalate (object.2.map fun pair => (renderPair pair).toList)) := by
  rw [render_toList]
  by_cases empty : object.2 = []
  · exact Or.inl ⟨empty, by rw [empty]; exact List.append_nil _⟩
  · refine Or.inr ⟨empty, ?_⟩
    rw [cons_intercalate ':' (by simpa using empty)]

theorem Spellable.objectName (spellable : Spellable objects) (member : object ∈ objects) :
    Startup.objectName (render object) = object.1 := by
  have plain := spellable.names object member
  rcases render_split object with ⟨-, text⟩ | ⟨-, text⟩
  · rw [Startup.objectName, text, Scan.takeWhile_of_notMem plain, String.ofList_toList]
  · rw [Startup.objectName, text, Scan.takeWhile_append_cons plain, String.ofList_toList]

theorem Spellable.segments (spellable : Spellable objects) (member : object ∈ objects) :
    Startup.segments (render object) = object.2.map renderPair := by
  have plain := spellable.names object member
  rcases render_split object with ⟨empty, text⟩ | ⟨some_, text⟩
  · rw [Startup.segments, text, Scan.dropWhile_of_notMem plain, empty]
    rfl
  · rw [Startup.segments, text, Scan.dropWhile_append_cons plain]
    simp only
    rw [List.splitOn_intercalate ':' (spellable.pair_plain member) (by simpa using some_), List.map_map]
    exact List.map_congr_left fun pair _ => String.ofList_toList

theorem Spellable.settings_render (spellable : Spellable objects) (member : object ∈ objects) :
    (Startup.segments (render object)).map segmentPair = object.2 := by
  rw [spellable.segments member, List.map_map]
  conv_rhs => rw [← List.map_id object.2]
  exact List.map_congr_left fun pair given => segmentPair_renderPair (spellable.keys object member pair given).2

theorem Spellable.render_ne (spellable : Spellable objects) (member : object ∈ objects) : render object ≠ "" := by
  intro empty
  have name := spellable.objectName member
  rw [empty] at name
  exact spellable.named object member name.symm

/-- The arguments that name an object of the map are its own one, wherever it stands. -/
theorem Spellable.settings (spellable : Spellable objects) (order : args.Perm (objects.map render))
    (member : object ∈ objects) : Startup.settings object.1 args = object.2 := by
  have own : (objects.map render).filter (fun arg => arg != "" && Startup.objectName arg == object.1) = [render object] := by
    rw [List.filter_map]
    have same : objects.filter ((fun arg => arg != "" && Startup.objectName arg == object.1) ∘ render) =
        objects.filter (·.1 == object.1) := by
      apply List.filter_congr
      intro other listed
      simp [spellable.render_ne listed, spellable.objectName listed]
    rw [same, filter_key_of_mem spellable.sorted.keys_nodup member, List.map_singleton]
  have only := order.filter fun arg => arg != "" && Startup.objectName arg == object.1
  rw [own] at only
  rw [Startup.settings, List.perm_singleton.mp only, List.flatMap_singleton, spellable.settings_render member]

theorem lastValue_sorted {pairs : List (String × String)} (sorted : Sorted pairs) (key : String) :
    lastValue key pairs = pairs.lookup key := by
  have once := sorted.keys_nodup
  have backwards : (pairs.reverse.map Prod.fst).Nodup := by
    rw [List.map_reverse]
    exact List.nodup_reverse.mpr once
  rw [lastValue_eq]
  apply Option.ext
  intro value
  rw [lookup_eq_some_iff_mem once, lookup_eq_some_iff_mem backwards, List.mem_reverse]

/-- Options that are written as arguments and read in any order are as they were. -/
theorem parseCustomOptions_render (spellable : Spellable objects) (order : args.Perm (objects.map render)) :
    Positions.parseCustomOptions args = objects := by
  rw [Positions.parseCustomOptions_eq]
  have made := parseCustomOptions_characterised args
  apply made.sorted.ext spellable.sorted
  intro name
  cases held : objects.lookup name with
  | none =>
    apply Option.not_isSome_iff_eq_none.mp
    intro there
    obtain ⟨arg, given, _, named⟩ := (made.present name).mp there
    obtain ⟨object, member, rfl⟩ := List.mem_map.mp (order.mem_iff.mp given)
    rw [spellable.objectName member] at named
    rw [← named, (lookup_eq_some_iff_mem spellable.sorted.keys_nodup).mpr member] at held
    contradiction
  | some options =>
    have member : (name, options) ∈ objects := (lookup_eq_some_iff_mem spellable.sorted.keys_nodup).mp held
    have written : render (name, options) ∈ args := order.mem_iff.mpr (List.mem_map_of_mem member)
    have there := (made.present name).mpr
      ⟨_, written, spellable.render_ne member, spellable.objectName member⟩
    obtain ⟨read, found⟩ := Option.isSome_iff_exists.mp there
    obtain ⟨sorted, values⟩ := made.values name read found
    rw [found]
    congr 1
    apply sorted.ext (spellable.options _ member)
    intro key
    rw [values key, spellable.settings order member]
    exact lastValue_sorted (spellable.options _ member) key

/-- A value may hold `=`, and a key and a value may be empty. -/
def webAndLog : Map2 := [("log", []), ("web", [("", "a=b"), ("port", "")])]

theorem webAndLog_spellable : Spellable webAndLog where
  sorted := by unfold Sorted; decide
  named := by decide
  names := by decide
  options := by unfold Sorted; decide
  keys := by decide
  values := by decide

theorem parseCustomOptions_render_web :
    Positions.parseCustomOptions ["web:=a=b:port=", "log"] = webAndLog :=
  parseCustomOptions_render webAndLog_spellable (by decide)

end WfcCore.Startup

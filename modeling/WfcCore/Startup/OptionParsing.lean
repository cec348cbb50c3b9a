import Mathlib.Data.List.Induction
import Mathlib.Data.String.Basic
import WfcCore.Foundation.Scan
import WfcCore.Startup.Arguments

/-!
# Object options

The functions of `parse_arguments.cpp` that split `name:key=value:…` walk on positions. They are given
here as they walk, shown equal to the functions of `Arguments`, and characterised: the names, the keys
and the last value of each.
-/

namespace WfcCore.Startup

open Foundation

namespace Positions

def substring (opt : String) (beg stop : Nat) : String :=
  String.ofList (Scan.slice opt.toList beg stop)

def parsePair (opt : String) (res : Map1) : Map1 :=
  match Scan.find '=' opt.toList 0 with
  | none => assign opt "" res
  | some beg => assign (substring opt 0 beg) (substring opt (beg + 1) opt.toList.length) res

/-- The loop of `parse_options` at the position `beg`. -/
def parseOptionsFrom (opt : String) (beg : Nat) (res : Map1) : Map1 :=
  match found : Scan.find ':' opt.toList beg with
  | some stop => parseOptionsFrom opt (stop + 1) (parsePair (substring opt beg stop) res)
  | none => parsePair (substring opt beg opt.toList.length) res
termination_by opt.toList.length - beg
decreasing_by
  have bounds := Scan.find_bounds found
  omega

def parseOptions (opt : String) (res : Map1) : Map1 :=
  parseOptionsFrom opt 0 res

def parseInstance (opt : String) (res : Map2) : Map2 :=
  if opt = "" then res
  else
    match Scan.find ':' opt.toList 0 with
    | none => assign opt ((res.lookup opt).getD []) res
    | some pos =>
      let name := substring opt 0 pos
      let value := substring opt (pos + 1) opt.toList.length
      assign name (parseOptions value ((res.lookup name).getD [])) res

def parseCustomOptions (opts : List String) : Map2 :=
  opts.foldl (fun res opt => parseInstance opt res) []

theorem splitFirst_of_find {c : Char} {opt : String} {stop : Nat}
    (found : Scan.find c opt.toList 0 = some stop) :
    splitFirst c opt = some (substring opt 0 stop, substring opt (stop + 1) opt.toList.length) := by
  rw [splitFirst, Scan.dropWhile_of_find found, Scan.takeWhile_of_find found, substring, substring,
    Scan.slice_length]

theorem splitFirst_of_find_none {c : Char} {opt : String} (missing : Scan.find c opt.toList 0 = none) :
    splitFirst c opt = none := by
  rw [splitFirst, Scan.dropWhile_of_find_none missing]

theorem parsePair_eq (opt : String) (res : Map1) : parsePair opt res = Startup.parsePair opt res := by
  unfold parsePair Startup.parsePair
  cases found : Scan.find '=' opt.toList 0 with
  | none => rw [splitFirst_of_find_none found]
  | some beg => rw [splitFirst_of_find found]

/-- The loop writes the pieces of the text from its position on. -/
theorem parseOptionsFrom_eq (opt : String) (beg : Nat) (res : Map1) :
    parseOptionsFrom opt beg res =
      ((opt.toList.drop beg).splitOn ':').foldl
        (fun res piece => Startup.parsePair (String.ofList piece) res) res := by
  induction beg, res using parseOptionsFrom.induct opt with
  | case1 beg res stop found ih =>
    rw [parseOptionsFrom]
    split
    · rename_i other again
      obtain rfl := Option.some.inj (found.symm.trans again)
      rw [ih, Scan.splitOn_of_find found, List.foldl_cons, parsePair_eq, substring]
    · rename_i missing
      rw [found] at missing
      cases missing
  | case2 beg res missing =>
    rw [parseOptionsFrom]
    split
    · rename_i found
      rw [missing] at found
      cases found
    · rw [Scan.splitOn_of_find_none missing, parsePair_eq, substring, Scan.slice_length]
      rfl

theorem parseOptions_eq (opt : String) (res : Map1) :
    parseOptions opt res = Startup.parseOptions opt res := by
  rw [parseOptions, parseOptionsFrom_eq, List.drop_zero]
  rfl

theorem parseInstance_eq (opt : String) (res : Map2) :
    parseInstance opt res = Startup.parseInstance opt res := by
  unfold parseInstance Startup.parseInstance
  split
  · rfl
  · cases found : Scan.find ':' opt.toList 0 with
    | none => rw [splitFirst_of_find_none found]
    | some pos => simp only [splitFirst_of_find found, parseOptions_eq]

theorem parseCustomOptions_eq (opts : List String) :
    parseCustomOptions opts = Startup.parseCustomOptions opts := by
  unfold parseCustomOptions Startup.parseCustomOptions
  simp only [parseInstance_eq]

end Positions

/-! ### What the options say -/

/-- The text before the first `:`, or the argument itself. -/
def objectName (arg : String) : String :=
  String.ofList (arg.toList.takeWhile (· != ':'))

/-- The pieces between the `:` after the name. -/
def segments (arg : String) : List String :=
  match arg.toList.dropWhile (· != ':') with
  | [] => []
  | _ :: rest => (rest.splitOn ':').map String.ofList

/-- Key and value of a piece: what stands before and after its first `=`. -/
def segmentPair (piece : String) : String × String :=
  (String.ofList (piece.toList.takeWhile (· != '=')),
    String.ofList ((piece.toList.dropWhile (· != '=')).drop 1))

/-- The pairs that the arguments give to an object, in the order of the command line. -/
def settings (name : String) (args : List String) : List (String × String) :=
  (args.filter fun arg => arg != "" && objectName arg == name).flatMap fun arg =>
    (segments arg).map segmentPair

def lastValue (key : String) (pairs : List (String × String)) : Option String :=
  (pairs.filter (·.1 == key)).getLast?.map (·.2)

theorem lastValue_eq (key : String) (pairs : List (String × String)) :
    lastValue key pairs = pairs.reverse.lookup key := by
  induction pairs using List.reverseRecOn with
  | nil => rfl
  | append_singleton pairs pair ih =>
    obtain ⟨written, value⟩ := pair
    rw [lastValue, List.filter_append, List.reverse_append, List.reverse_singleton, List.singleton_append,
      List.lookup_cons]
    by_cases same : key = written
    · subst same
      simp
    · have away : (key == written) = false := by simp [same]
      have skipped : (written == key) = false := by simp [Ne.symm same]
      simp only [List.filter_cons, skipped, away, Bool.false_eq_true, ↓reduceIte, List.filter_nil, List.append_nil]
      exact ih

theorem splitFirst_eq (c : Char) (text : String) :
    splitFirst c text =
      if c ∈ text.toList then
        some (String.ofList (text.toList.takeWhile (· != c)),
          String.ofList ((text.toList.dropWhile (· != c)).drop 1))
      else none := by
  unfold splitFirst
  split
  · rename_i none
    have absent := List.dropWhile_eq_nil_iff.mp none
    rw [if_neg]
    intro member
    simpa using absent c member
  · rename_i found
    rw [if_pos, found, List.drop_one, List.tail_cons]
    by_contra absent
    rw [Scan.dropWhile_of_notMem absent] at found
    cases found

theorem parsePair_assign (opt : String) (res : Map1) :
    parsePair opt res = assign (segmentPair opt).1 (segmentPair opt).2 res := by
  rw [parsePair, splitFirst_eq, segmentPair]
  by_cases separated : '=' ∈ opt.toList
  · rw [if_pos separated]
  · rw [if_neg separated, Scan.takeWhile_of_notMem separated, Scan.dropWhile_of_notMem separated, String.ofList_toList]
    rfl

theorem parseOptions_assignAll (opt : String) (res : Map1) :
    parseOptions opt res =
      assignAll (((opt.toList.splitOn ':').map String.ofList).map segmentPair) res := by
  rw [parseOptions, assignAll, List.foldl_map, List.foldl_map]
  simp only [parsePair_assign]

/-- An argument that is not empty adds its pairs to the object it names. -/
theorem parseInstance_assign {arg : String} (present : arg ≠ "") (res : Map2) :
    parseInstance arg res =
      assign (objectName arg)
        (assignAll ((segments arg).map segmentPair) ((res.lookup (objectName arg)).getD [])) res := by
  rw [parseInstance, if_neg present, splitFirst_eq, objectName, segments]
  by_cases separated : ':' ∈ arg.toList
  · rw [if_pos separated]
    cases rest : arg.toList.dropWhile (· != ':') with
    | nil =>
      have absent := List.dropWhile_eq_nil_iff.mp rest
      simpa using absent ':' separated
    | cons colon text => simp [parseOptions_assignAll]
  · rw [if_neg separated, Scan.dropWhile_of_notMem separated, Scan.takeWhile_of_notMem separated, String.ofList_toList]
    rfl

/-- What the map of the objects holds after the arguments. -/
structure Characterised (args : List String) (res : Map2) : Prop where
  sorted : Sorted res
  present : ∀ name, (res.lookup name).isSome ↔ ∃ arg ∈ args, arg ≠ "" ∧ objectName arg = name
  values : ∀ name options, res.lookup name = some options →
    Sorted options ∧ ∀ key, options.lookup key = lastValue key (settings name args)

theorem settings_append (name : String) (args more : List String) :
    settings name (args ++ more) = settings name args ++ settings name more := by
  rw [settings, List.filter_append, List.flatMap_append]
  rfl

theorem settings_of_ne {name arg : String} (other : arg = "" ∨ objectName arg ≠ name) :
    settings name [arg] = [] := by
  rcases other with empty | different
  · simp [settings, empty]
  · simp [settings, different]

theorem settings_self {arg : String} (present : arg ≠ "") :
    settings (objectName arg) [arg] = (segments arg).map segmentPair := by
  simp [settings, present]

/-- No argument has named an object that is not there, so it has no pairs. -/
theorem Characterised.settings_nil {args : List String} {res : Map2} (before : Characterised args res)
    {name : String} (absent : res.lookup name = none) : settings name args = [] := by
  have unnamed : args.filter (fun arg => arg != "" && objectName arg == name) = [] := by
    apply List.filter_eq_nil_iff.mpr
    intro arg member named
    rw [Bool.and_eq_true, bne_iff_ne, beq_iff_eq] at named
    have there := (before.present name).mpr ⟨arg, member, named⟩
    rw [absent] at there
    cases there
  rw [settings, unnamed]
  rfl

theorem Characterised.options {args : List String} {res : Map2} (before : Characterised args res)
    (name : String) :
    Sorted ((res.lookup name).getD []) ∧
      ∀ key, ((res.lookup name).getD []).lookup key = lastValue key (settings name args) := by
  cases found : res.lookup name with
  | none =>
    rw [before.settings_nil found]
    exact ⟨List.Pairwise.nil, fun key => rfl⟩
  | some options => exact before.values name options found

theorem Characterised.parseInstance {args : List String} {res : Map2} (before : Characterised args res)
    (arg : String) : Characterised (args ++ [arg]) (Startup.parseInstance arg res) := by
  by_cases empty : arg = ""
  · have skipped : Startup.parseInstance arg res = res := by rw [Startup.parseInstance, if_pos empty]
    rw [skipped]
    refine ⟨before.sorted, ?_, ?_⟩
    · intro name
      rw [before.present name]
      simp [empty]
    · intro name options found
      rw [settings_append, settings_of_ne (Or.inl empty), List.append_nil]
      exact before.values name options found
  · rw [parseInstance_assign empty]
    obtain ⟨ordered, values⟩ := before.options (objectName arg)
    refine ⟨before.sorted.assign _ _, ?_, ?_⟩
    · intro name
      by_cases named : name = objectName arg
      · subst named
        rw [lookup_assign_self]
        simp [empty]
      · rw [lookup_assign_ne named, before.present name]
        simp [Ne.symm named]
    · intro name options found
      by_cases named : name = objectName arg
      · subst named
        rw [lookup_assign_self] at found
        obtain rfl := Option.some.inj found
        refine ⟨ordered.assignAll _, ?_⟩
        intro key
        rw [lookup_assignAll, values key, settings_append, settings_self empty, lastValue_eq, lastValue_eq,
          List.reverse_append, List.lookup_append]
      · rw [lookup_assign_ne named] at found
        rw [settings_append, settings_of_ne (Or.inr (Ne.symm named)), List.append_nil]
        exact before.values name options found

theorem parseCustomOptions_characterised (args : List String) :
    Characterised args (parseCustomOptions args) := by
  induction args using List.reverseRecOn with
  | nil => exact ⟨List.Pairwise.nil, fun name => by simp [parseCustomOptions], fun name options found => by cases found⟩
  | append_singleton args arg ih =>
    rw [parseCustomOptions, List.foldl_append]
    exact ih.parseInstance arg

theorem lastValue_isSome (key : String) (pairs : List (String × String)) :
    (lastValue key pairs).isSome ↔ ∃ pair ∈ pairs, pair.1 = key := by
  rw [lastValue_eq, List.lookup_isSome_iff]
  constructor
  · rintro ⟨pair, member, same⟩
    exact ⟨pair, List.mem_reverse.mp member, (eq_of_beq same).symm⟩
  · rintro ⟨pair, member, same⟩
    exact ⟨pair, List.mem_reverse.mpr member, beq_iff_eq.mpr same.symm⟩

theorem mem_settings {name : String} {args : List String} {pair : String × String} :
    pair ∈ settings name args ↔
      ∃ arg ∈ args, arg ≠ "" ∧ objectName arg = name ∧ ∃ piece ∈ segments arg, segmentPair piece = pair := by
  simp only [settings, List.mem_flatMap, List.mem_filter, Bool.and_eq_true, bne_iff_ne, beq_iff_eq,
    List.mem_map, and_assoc]

/-- The walk on positions ends for every list of arguments, and what it makes of them: the objects that
are named, the keys that are given to each, and the value given last to each key. -/
theorem object_options (args : List String) :
    Sorted (Positions.parseCustomOptions args) ∧
    (∀ name, ((Positions.parseCustomOptions args).lookup name).isSome ↔
      ∃ arg ∈ args, arg ≠ "" ∧ objectName arg = name) ∧
    ∀ name options, (Positions.parseCustomOptions args).lookup name = some options →
      Sorted options ∧
      (∀ key, options.lookup key = lastValue key (settings name args)) ∧
      ∀ key, (options.lookup key).isSome ↔
        ∃ arg ∈ args, arg ≠ "" ∧ objectName arg = name ∧ ∃ piece ∈ segments arg, (segmentPair piece).1 = key := by
  rw [Positions.parseCustomOptions_eq]
  have made := parseCustomOptions_characterised args
  refine ⟨made.sorted, made.present, ?_⟩
  intro name options found
  obtain ⟨ordered, values⟩ := made.values name options found
  refine ⟨ordered, values, ?_⟩
  intro key
  rw [values key, lastValue_isSome]
  constructor
  · rintro ⟨pair, given, same⟩
    obtain ⟨arg, member, present, named, piece, within, equal⟩ := mem_settings.mp given
    exact ⟨arg, member, present, named, piece, within, by rw [equal, same]⟩
  · rintro ⟨arg, member, present, named, piece, within, same⟩
    exact ⟨segmentPair piece, mem_settings.mpr ⟨arg, member, present, named, piece, within, rfl⟩, same⟩

end WfcCore.Startup

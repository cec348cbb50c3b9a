import Mathlib.Data.List.Induction
import WfcCore.Config.Atomic

/-!
# Sections of one name

`normalize_json_multimap` is a fold that writes and parses again the text of a section whenever its name
comes again. What it makes of a configuration is told here from the whole list of pairs.
-/

namespace WfcCore.Config

open Wfc

/-- What the merge relies on in wjson. A raw element is one that the parser of arrays has found in a text, and
a text that is an array does not begin with a broken comment. -/
structure RawVectors (json : Json) : Prop where
  roundTrip : ∀ v, (∀ element ∈ v, ∃ s w, json.parseRawVector s = some w ∧ element ∈ w) →
    json.parseRawVector (json.writeRawVector v) = some v
  spaces : ∀ s, (json.parseRawVector s).isSome → json.parseSpace s = true

namespace Merging

variable {json : Json} {items map : Configuration} {item : ConfPair} {name : String}

/-- The names in the order of their first occurrence. -/
def names (items : Configuration) : List String :=
  (items.map Prod.fst).eraseDups

/-- The elements of all values of a name, in document order. -/
def elements (json : Json) (name : String) (items : Configuration) : List String :=
  (items.filter (·.1 == name)).flatMap fun item => (json.parseRawVector item.2).getD []

def sectionText (json : Json) (items : Configuration) (name : String) : String :=
  if 1 < confCount name items then json.writeRawVector (elements json name items) else getConfig name items

def merged (json : Json) (items : Configuration) : Configuration :=
  (names items).map fun name => (name, sectionText json items name)

/-- The values of a repeated name are arrays. -/
def Mergeable (json : Json) (items : Configuration) : Prop :=
  ∀ item ∈ items, 1 < confCount item.1 items → (json.parseRawVector item.2).isSome

instance (json : Json) (items : Configuration) : Decidable (Mergeable json items) :=
  inferInstanceAs (Decidable (∀ item ∈ items, _ → _))

/-! ### Names and values when a pair is added -/

theorem mem_names : name ∈ names items ↔ ∃ item ∈ items, item.1 = name := by
  rw [names, List.mem_eraseDups, List.mem_map]

theorem names_append_of_mem (known : item.1 ∈ names items) : names (items ++ [item]) = names items := by
  have listed : item.1 ∈ items.map Prod.fst := List.mem_eraseDups.mp known
  rw [names, List.map_append, List.map_singleton, List.eraseDups_append]
  simp [List.removeAll, listed, names]

theorem names_append_of_notMem (new : item.1 ∉ names items) :
    names (items ++ [item]) = names items ++ [item.1] := by
  have unlisted : item.1 ∉ items.map Prod.fst := fun listed => new (List.mem_eraseDups.mpr listed)
  rw [names, List.map_append, List.map_singleton, List.eraseDups_append]
  simp [List.removeAll, unlisted, names, List.eraseDups_cons]

theorem names_nodup (items : Configuration) : (names items).Nodup := by
  induction items using List.reverseRecOn with
  | nil => exact List.nodup_nil
  | append_singleton items item ih =>
    by_cases known : item.1 ∈ names items
    · rw [names_append_of_mem known]
      exact ih
    · rw [names_append_of_notMem known, List.nodup_append]
      refine ⟨ih, List.nodup_singleton _, ?_⟩
      intro a left b right same
      obtain rfl := List.mem_singleton.mp right
      exact known (same ▸ left)

theorem confCount_append (name : String) (items : Configuration) (item : ConfPair) :
    confCount name (items ++ [item]) = confCount name items + if item.1 == name then 1 else 0 := by
  rw [confCount, List.countP_append, List.countP_singleton]
  rfl

theorem confCount_append_self (items : Configuration) (item : ConfPair) :
    confCount item.1 (items ++ [item]) = confCount item.1 items + 1 := by
  rw [confCount_append, beq_self_eq_true]
  rfl

theorem confCount_pos : 0 < confCount name items ↔ name ∈ names items := by
  rw [confCount, List.countP_pos_iff, mem_names]
  simp only [beq_iff_eq]

theorem elements_append (name : String) (items : Configuration) (item : ConfPair) :
    elements json name (items ++ [item]) =
      elements json name items ++ if item.1 == name then (json.parseRawVector item.2).getD [] else [] := by
  rw [elements, List.filter_append, List.flatMap_append, List.filter_singleton]
  cases item.1 == name with
  | true => exact congrArg _ (List.flatMap_singleton _ _)
  | false => rfl

theorem getConfig_append_of_ne (different : item.1 ≠ name) : getConfig name (items ++ [item]) = getConfig name items := by
  have other : (item.1 == name) = false := by simp [different]
  have same : confFind name (items ++ [item]) = confFind name items := by
    rw [confFind, List.find?_append, List.find?_singleton, other]
    exact Option.or_none
  rw [getConfig, same]
  rfl

theorem sectionText_append_of_ne (different : item.1 ≠ name) :
    sectionText json (items ++ [item]) name = sectionText json items name := by
  have other : (item.1 == name) = false := by simp [different]
  rw [sectionText, confCount_append, elements_append, getConfig_append_of_ne different, other]
  simp [sectionText]

/-- A name that occurs has a first pair, whose value is the section's own. -/
theorem own_pair (known : name ∈ names items) : ∃ item ∈ items, item.1 = name ∧ getConfig name items = item.2 := by
  cases found : confFind name items with
  | none =>
    obtain ⟨item, member, same⟩ := mem_names.mp known
    exact (Atomic.confFind_none found (List.mem_map.mpr ⟨item, member, same⟩)).elim
  | some item =>
    refine ⟨item, List.mem_of_find?_eq_some found, ?_, ?_⟩
    · simpa using List.find?_some found
    · simp only [getConfig, found]

/-- A name that occurs once has one pair. -/
theorem filter_once (once : confCount name items = 1) (member : item ∈ items) (same : item.1 = name) :
    items.filter (·.1 == name) = [item] := by
  rw [confCount, List.countP_eq_length_filter] at once
  obtain ⟨only, single⟩ := List.length_eq_one_iff.mp once
  have found : item ∈ items.filter (·.1 == name) := List.mem_filter.mpr ⟨member, by simp [same]⟩
  rw [single] at found ⊢
  rw [List.mem_singleton.mp found]

/-! ### The texts of the sections -/

theorem elements_parsed {element : String} (member : element ∈ elements json name items) :
    ∃ s w, json.parseRawVector s = some w ∧ element ∈ w := by
  obtain ⟨item, _, within⟩ := List.mem_flatMap.mp member
  cases parsed : json.parseRawVector item.2 with
  | none =>
    rw [parsed] at within
    cases within
  | some w =>
    rw [parsed] at within
    exact ⟨item.2, w, parsed, within⟩

theorem parse_sectionText (lawful : RawVectors json) (again : 1 < confCount name items) :
    json.parseRawVector (sectionText json items name) = some (elements json name items) := by
  rw [sectionText, if_pos again]
  exact lawful.roundTrip _ fun element => elements_parsed

/-- The elements of a section are those that its text parses to, also when the text is still the own value. -/
theorem elements_of_parse (lawful : RawVectors json) (known : name ∈ names items) {found : List String}
    (parsed : json.parseRawVector (sectionText json items name) = some found) :
    elements json name items = found := by
  by_cases again : 1 < confCount name items
  · exact Option.some.inj ((parse_sectionText lawful again).symm.trans parsed)
  · have once : confCount name items = 1 := by
      have some := confCount_pos.mpr known
      omega
    obtain ⟨own, member, same, text⟩ := own_pair known
    rw [sectionText, if_neg again, text] at parsed
    rw [elements, filter_once once member same, List.flatMap_singleton, parsed]
    rfl

/-- A pair with a new name asks for nothing. -/
theorem mergeable_append_of_notMem (new : item.1 ∉ names items) :
    Mergeable json (items ++ [item]) ↔ Mergeable json items := by
  have absent : ¬ 0 < confCount item.1 items := mt confCount_pos.mp new
  have others : ∀ other ∈ items, confCount other.1 (items ++ [item]) = confCount other.1 items := by
    intro other member
    have different : (item.1 == other.1) = false := by
      apply beq_eq_false_iff_ne.mpr
      intro same
      exact new (mem_names.mpr ⟨other, member, same.symm⟩)
    rw [confCount_append, different]
    rfl
  constructor
  · intro mergeable other member again
    exact mergeable other (List.mem_append_left _ member) (others other member ▸ again)
  · intro mergeable other member again
    rcases List.mem_append.mp member with old | last
    · exact mergeable other old (others other old ▸ again)
    · obtain rfl := List.mem_singleton.mp last
      rw [confCount_append_self] at again
      omega

/-- A pair with a known name asks that it and the text of its section are arrays. -/
theorem mergeable_append_of_mem (lawful : RawVectors json) (known : item.1 ∈ names items) :
    Mergeable json (items ++ [item]) ↔
      Mergeable json items ∧ (json.parseRawVector item.2).isSome ∧
        (json.parseRawVector (sectionText json items item.1)).isSome := by
  have present := confCount_pos.mpr known
  have twice : 1 < confCount item.1 (items ++ [item]) := by
    rw [confCount_append_self]
    omega
  constructor
  · intro mergeable
    refine ⟨?_, mergeable item (List.mem_append_right _ (List.mem_singleton_self item)) twice, ?_⟩
    · intro other member again
      apply mergeable other (List.mem_append_left _ member)
      rw [confCount_append]
      omega
    · by_cases again : 1 < confCount item.1 items
      · rw [parse_sectionText lawful again]
        rfl
      · obtain ⟨own, member, same, text⟩ := own_pair known
        rw [sectionText, if_neg again, text]
        exact mergeable own (List.mem_append_left _ member) (same ▸ twice)
  · rintro ⟨mergeable, last, held⟩ other member again
    rcases List.mem_append.mp member with old | new
    · by_cases more : 1 < confCount other.1 items
      · exact mergeable other old more
      · rw [confCount_append] at again
        have same : item.1 = other.1 := by
          by_contra different
          rw [beq_eq_false_iff_ne.mpr different] at again
          exact more again
        have once : confCount item.1 items = 1 := by
          rw [same] at present ⊢
          omega
        obtain ⟨own, member, named, text⟩ := own_pair known
        have unique := (filter_once once member named).symm.trans (filter_once once old same.symm)
        rw [sectionText, if_neg (by omega), text, (List.cons.inj unique).1] at held
        exact held
    · obtain rfl := List.mem_singleton.mp new
      exact last

/-! ### One turn of the loop -/

theorem confFind_merged_none (new : name ∉ names items) : confFind name (merged json items) = none := by
  apply List.find?_eq_none.mpr
  intro item member
  obtain ⟨other, listed, rfl⟩ := List.mem_map.mp member
  intro same
  exact new (eq_of_beq same ▸ listed)

theorem confFind_merged_some (known : name ∈ names items) :
    confFind name (merged json items) = some (name, sectionText json items name) := by
  cases found : confFind name (merged json items) with
  | none =>
    apply (Atomic.confFind_none found ?_).elim
    rw [merged, List.map_map]
    exact List.mem_map.mpr ⟨name, known, rfl⟩
  | some item =>
    obtain ⟨other, listed, rfl⟩ := List.mem_map.mp (List.mem_of_find?_eq_some found)
    have same : other = name := by simpa using List.find?_some found
    rw [same]

theorem confAssign_map {listed : List String} (distinct : listed.Nodup) (name value : String) (text : String → String) :
    confAssign name value (listed.map fun other => (other, text other)) =
      listed.map fun other => (other, if other = name then value else text other) := by
  induction listed with
  | nil => rfl
  | cons first rest ih =>
    obtain ⟨fresh, distinct⟩ := List.nodup_cons.mp distinct
    rw [List.map_cons, List.map_cons, confAssign]
    by_cases same : first = name
    · subst same
      rw [if_pos (beq_self_eq_true _), if_pos rfl]
      congr 1
      apply List.map_congr_left
      intro other member
      rw [if_neg]
      rintro rfl
      exact fresh member
    · rw [if_neg (by simpa using same), if_neg same, ih distinct]

theorem normalizeItem_new (new : item.1 ∉ names items) :
    normalizeItem json false (merged json items) item = some (merged json (items ++ [item])) := by
  have texts : merged json (items ++ [item]) = merged json items ++ [item] := by
    rw [merged, names_append_of_notMem new, List.map_append, List.map_singleton]
    congr 1
    · apply List.map_congr_left
      intro other listed
      rw [sectionText_append_of_ne]
      rintro rfl
      exact new listed
    · have absent : ¬ 0 < confCount item.1 items := mt confCount_pos.mp new
      have unfound : items.find? (·.1 == item.1) = none := by
        apply List.find?_eq_none.mpr
        intro other member same
        exact new (mem_names.mpr ⟨other, member, eq_of_beq same⟩)
      have own : getConfig item.1 (items ++ [item]) = item.2 := by
        rw [getConfig, confFind, List.find?_append, unfound]
        simp
      rw [sectionText, confCount_append_self, if_neg (by omega), own]
  rw [texts]
  simp [normalizeItem, confFind_merged_none new]

theorem normalizeItem_again (lawful : RawVectors json) (known : item.1 ∈ names items) :
    normalizeItem json false (merged json items) item =
      if (json.parseRawVector item.2).isSome ∧ (json.parseRawVector (sectionText json items item.1)).isSome then
        some (merged json (items ++ [item]))
      else none := by
  have found : confFind item.1 (merged json items) = some (item.1, sectionText json items item.1) :=
    confFind_merged_some known
  cases last : json.parseRawVector item.2 with
  | none => simp [normalizeItem, found, last]
  | some first =>
    have spaced := lawful.spaces item.2 (by rw [last]; rfl)
    cases before : json.parseRawVector (sectionText json items item.1) with
    | none => simp [normalizeItem, found, before]
    | some second =>
      have present := confCount_pos.mpr known
      have known' := elements_of_parse lawful known before
      have texts : merged json (items ++ [item]) =
          confAssign item.1 (json.writeRawVector (second ++ first)) (merged json items) := by
        rw [merged, names_append_of_mem known, merged, confAssign_map (names_nodup items)]
        apply List.map_congr_left
        intro other listed
        by_cases same : other = item.1
        · subst same
          rw [if_pos rfl, sectionText, confCount_append_self, if_pos (by omega), elements_append, known', last, beq_self_eq_true]
          rfl
        · rw [if_neg same, sectionText_append_of_ne (Ne.symm same)]
      simp [normalizeItem, found, last, before, spaced, texts]

/-- The loop as a whole. -/
theorem foldlM_normalizeItem (lawful : RawVectors json) (items : Configuration) :
    items.foldlM (normalizeItem json false) [] =
      if Mergeable json items then some (merged json items) else none := by
  induction items using List.reverseRecOn with
  | nil =>
    have nothing : Mergeable json [] := fun item member => by cases member
    rw [if_pos nothing]
    rfl
  | append_singleton items item ih =>
    rw [List.foldlM_append, ih]
    by_cases before : Mergeable json items
    · rw [if_pos before]
      by_cases known : item.1 ∈ names items
      · simp [normalizeItem_again lawful known, mergeable_append_of_mem lawful known, before]
      · simp [normalizeItem_new known, mergeable_append_of_notMem known, before]
    · rw [if_neg before]
      have after : ¬ Mergeable json (items ++ [item]) := by
        by_cases known : item.1 ∈ names items
        · exact fun mergeable => before ((mergeable_append_of_mem lawful known).mp mergeable).1
        · exact fun mergeable => before ((mergeable_append_of_notMem known).mp mergeable)
      rw [if_neg after]
      rfl

/-- The merge succeeds exactly if every value of a repeated name is an array. Its result has each name once,
where the name first stands, with the own value or with all elements of the values as one array. -/
theorem normalizeJsonMultimap_merges (json : Json) (lawful : RawVectors json) (str : String)
    (items : Configuration) (parsed : json.parseDict str = some items) :
    ((normalizeJsonMultimap json str false []).isSome ↔
      ∀ item ∈ items, 1 < confCount item.1 items → (json.parseRawVector item.2).isSome) ∧
    ∀ map, normalizeJsonMultimap json str false [] = some map →
      map.map Prod.fst = (items.map Prod.fst).eraseDups ∧
      ∀ item ∈ map,
        (confCount item.1 items = 1 → item ∈ items) ∧
        (1 < confCount item.1 items →
          item.2 = json.writeRawVector (elements json item.1 items) ∧
          json.parseRawVector item.2 = some (elements json item.1 items)) := by
  have whole : normalizeJsonMultimap json str false [] =
      if Mergeable json items then some (merged json items) else none := by
    rw [← foldlM_normalizeItem lawful, normalizeJsonMultimap, parsed]
    rfl
  rw [whole]
  constructor
  · by_cases mergeable : Mergeable json items
    · rw [if_pos mergeable]
      exact iff_of_true rfl mergeable
    · rw [if_neg mergeable]
      exact iff_of_false (by simp) mergeable
  · intro map made
    have result : merged json items = map := by
      split at made
      · exact Option.some.inj made
      · cases made
    subst result
    refine ⟨?_, ?_⟩
    · rw [merged, List.map_map]
      exact List.map_id _
    · intro item member
      obtain ⟨name, listed, rfl⟩ := List.mem_map.mp member
      refine ⟨?_, ?_⟩
      · intro once
        change confCount name items = 1 at once
        obtain ⟨own, present, same, text⟩ := own_pair listed
        rw [sectionText, if_neg (by omega), text, ← same]
        exact present
      · intro again
        exact ⟨if_pos again, parse_sectionText lawful again⟩

/-- Arrays whose elements have no commas, and one configuration text. -/
def commas : Json where
  parseSpace := fun _ => true
  parseDict := fun s =>
    if s = "\x7b\"a\":[1],\"b\":7,\"a\":[2,3]\x7d" then some [("a", "[1]"), ("b", "7"), ("a", "[2,3]")] else none
  writeDict := fun _ => "{}"
  parseRawVector := fun s =>
    if s.toList.head? = some '[' ∧ s.toList.getLast? = some ']' then
      if s.toList.tail.dropLast = [] then some []
      else if (s.toList.tail.dropLast.splitOn ',').all (fun piece => piece != [] && !piece.contains ',') then
        some ((s.toList.tail.dropLast.splitOn ',').map String.ofList)
      else none
    else none
  writeRawVector := fun v => String.ofList ('[' :: ([','].intercalate (v.map String.toList) ++ [']']))
  parseStrings := fun _ => none
  despace := fun _ => none

theorem commas_element {s element : String} {w : List String} (parsed : commas.parseRawVector s = some w)
    (member : element ∈ w) : element.toList ≠ [] ∧ ',' ∉ element.toList := by
  simp only [commas] at parsed
  split at parsed
  · split at parsed
    · obtain rfl := Option.some.inj parsed
      cases member
    · split at parsed
      · rename_i sound
        obtain rfl := Option.some.inj parsed
        obtain ⟨piece, within, rfl⟩ := List.mem_map.mp member
        have good := List.all_eq_true.mp sound piece within
        rw [String.toList_ofList]
        simpa using good
      · cases parsed
  · cases parsed

theorem intercalate_eq_nil {c : Char} {pieces : List (List Char)} (some : pieces ≠ [])
    (filled : ∀ piece ∈ pieces, piece ≠ []) : [c].intercalate pieces ≠ [] := by
  cases pieces with
  | nil => exact (some rfl).elim
  | cons piece rest =>
    have first := filled piece List.mem_cons_self
    cases rest with
    | nil => simpa using first
    | cons next rest =>
      rw [List.intercalate_cons_cons]
      simp [first]

theorem commas_lawful : RawVectors commas where
  roundTrip := by
    intro v elements
    have sound : ∀ piece ∈ v.map String.toList, piece ≠ [] ∧ ',' ∉ piece := by
      intro piece member
      obtain ⟨element, within, rfl⟩ := List.mem_map.mp member
      obtain ⟨s, w, parsed, found⟩ := elements element within
      exact commas_element parsed found
    simp only [commas, String.toList_ofList, List.head?_cons, List.tail_cons, List.dropLast_concat]
    rw [← List.cons_append, List.getLast?_concat, if_pos ⟨trivial, rfl⟩]
    cases v with
    | nil => rfl
    | cons first rest =>
      have filled := intercalate_eq_nil (c := ',') (List.cons_ne_nil first.toList (rest.map String.toList))
        fun piece member => (sound piece member).1
      have pieces := List.splitOn_intercalate ',' (fun piece member => (sound piece member).2)
        (List.cons_ne_nil first.toList (rest.map String.toList))
      rw [← List.map_cons] at filled
      rw [if_neg filled, pieces, if_pos]
      · simp
      · apply List.all_eq_true.mpr
        intro piece member
        simpa using sound piece member
  spaces := fun _ _ => rfl

theorem normalizeJsonMultimap_merges_twice :
    (normalizeJsonMultimap commas "\x7b\"a\":[1],\"b\":7,\"a\":[2,3]\x7d" false []).isSome := by
  have merges := normalizeJsonMultimap_merges commas commas_lawful "\x7b\"a\":[1],\"b\":7,\"a\":[2,3]\x7d"
    [("a", "[1]"), ("b", "7"), ("a", "[2,3]")] rfl
  exact merges.1.mpr (by decide)

end Merging

end WfcCore.Config

import WfcCore.Foundation.CrossingOff
import WfcCore.Foundation.OrderedMap
import WfcCore.Statistics.Statlog

/-!
# The columns of the statistics table

`configure_` of the statlog domain turns the configured `sequence_of_list` into the sequence of columns. Every
configured name that is found among the default columns is crossed off there with "#"; what is left of the
default columns is put behind the configured names.
-/

namespace WfcCore.Statistics.Statlog

open Foundation

def defSequence : List String :=
  ["name", "count", "lossy", "min", "perc50", "perc80", "perc95", "perc99", "perc100", "max", "avg", "ts"]

/-- The variables of `configure_` that its loop changes. -/
structure Configuring where
  defSequence : List String
  tableFormat : TableFormatOptions

/-- One round of the loop, the last one or not. It has no result where `def_sequence` would be read past its
end. -/
def Configuring.entry (last : Bool) (c : Configuring) (name : String) : Option Configuring :=
  let j := c.defSequence.findIdx (· == name)
  let read :=
    if name = "#" then
      c.defSequence[j]?.map fun field =>
        { defSequence := if last then [] else c.defSequence,
          tableFormat := { c.tableFormat with widthMap := assign field (-1) c.tableFormat.widthMap } }
    else if name = "$" then
      c.defSequence[j]?.map fun field =>
        { c with tableFormat.sequenceOfList := c.tableFormat.sequenceOfList ++ [field] }
    else some { c with tableFormat.sequenceOfList := c.tableFormat.sequenceOfList ++ [name] }
  read.map fun c => if j < c.defSequence.length then { c with defSequence := c.defSequence.set j "#" } else c

def Configuring.entries : Configuring → List String → Option Configuring
  | c, [] => some c
  | c, name :: rest => (c.entry rest.isEmpty name).bind fun c => c.entries rest

/-- No more names are read than there are default columns. -/
def TableFormatOptions.firstNames (format : TableFormatOptions) : List String :=
  format.sequenceOfList.take defSequence.length

def TableFormatOptions.configured (format : TableFormatOptions) : Option TableFormatOptions :=
  ((Configuring.mk defSequence { format with sequenceOfList := [] }).entries format.firstNames).map fun c =>
    { c.tableFormat with sequenceOfList := c.tableFormat.sequenceOfList ++ c.defSequence.filter (· != "#") }

/-- `configure_`, which `configure` and `reconfigure` both run. -/
def StatlogDomain.configure (s : StatlogDomain) : Option StatlogDomain :=
  s.options.tableFormat.configured.map fun format => { s with tableFormat := format }

/-! ### The loop -/

theorem defSequence_nodup : defSequence.Nodup := by decide

theorem hash_notMem_defSequence : "#" ∉ defSequence := by decide

/-- The name can be met behind those before it: no "$", and a "#" only behind a default column. -/
def Admissible (before : List String) (name : String) : Prop :=
  name ≠ "$" ∧ (name = "#" → ∃ field ∈ defSequence, field ∈ before)

/-- Every name of the list is admissible behind `before` and the names that precede it. -/
def Admitted (before names : List String) : Prop :=
  ∀ first name rest, names = first ++ name :: rest → Admissible (before ++ first) name

theorem admitted_nil (before : List String) : Admitted before [] := by
  intro first name rest split
  have absurd := congrArg List.length split
  simp at absurd

theorem admitted_cons {before rest : List String} {name : String} :
    Admitted before (name :: rest) ↔ Admissible before name ∧ Admitted (before ++ [name]) rest := by
  constructor
  · intro admitted
    refine ⟨?_, fun first later rest' split => ?_⟩
    · simpa using admitted [] name rest rfl
    · rw [List.append_assoc]
      exact admitted (name :: first) later rest' (congrArg (name :: ·) split)
  · rintro ⟨now, later⟩ first other rest' split
    cases first with
    | nil =>
      obtain ⟨rfl, _⟩ := List.cons.inj split
      simpa using now
    | cons head first =>
      obtain ⟨rfl, tail⟩ := List.cons.inj split
      have fits := later first other rest' tail
      rwa [List.append_assoc] at fits

/-- The default columns with those of the names before crossed off. -/
def Configuring.behind (before : List String) (format : TableFormatOptions) : Configuring :=
  ⟨crossedOff "#" Statlog.defSequence before, format⟩

/-- The widths of all fields are those of the other map. -/
def SameWidths (widths other : List (String × Int)) : Prop :=
  ∀ field, field ≠ "#" → widths.lookup field = other.lookup field

theorem SameWidths.refl (widths : List (String × Int)) : SameWidths widths widths := fun _ _ => rfl

theorem SameWidths.trans {first second third : List (String × Int)} (before : SameWidths first second)
    (later : SameWidths second third) : SameWidths first third :=
  fun field named => (before field named).trans (later field named)

theorem sameWidths_assign (width : Int) (widths : List (String × Int)) :
    SameWidths (assign "#" width widths) widths :=
  fun _ named => lookup_assign_ne named width widths

variable {before names : List String} {name : String} {format : TableFormatOptions}

theorem cross_eq (c : Configuring) (j : Nat) :
    (if j < c.defSequence.length then { c with defSequence := c.defSequence.set j "#" } else c) =
      { c with defSequence := c.defSequence.set j "#" } := by
  split
  · rfl
  · rename_i beyond
    rw [List.set_eq_of_length_le (Nat.le_of_not_lt beyond)]

theorem entry_of_not_admissible (last : Bool) (unfit : ¬ Admissible before name) :
    (Configuring.behind before format).entry last name = none := by
  unfold Configuring.entry Configuring.behind
  simp only [cross_eq, ← List.find?_eq_getElem?_findIdx]
  by_cases hash : name = "#"
  · subst hash
    have absent : "#" ∉ crossedOff "#" defSequence before := by
      intro member
      exact unfit ⟨by decide, fun _ => (mem_crossedOff_blank hash_notMem_defSequence).mp member⟩
    rw [find?_absent absent]
    rfl
  · have dollar : name = "$" := Decidable.byContradiction fun other => unfit ⟨other, fun same => (hash same).elim⟩
    subst dollar
    have absent : "$" ∉ crossedOff "#" defSequence before := notMem_crossedOff (by decide) hash
    rw [if_neg hash, if_pos rfl, find?_absent absent]
    rfl

/-- A round writes the name down, unless it is "#", and crosses it off. -/
theorem entry_of_admissible (format : TableFormatOptions) (last : Bool) (fits : Admissible before name) :
    ∃ widths, SameWidths widths format.widthMap ∧
      (Configuring.behind before format).entry last name = some
        { defSequence := if last = true ∧ name = "#" then [] else crossedOff "#" defSequence (before ++ [name]),
          tableFormat := { format with
            sequenceOfList := format.sequenceOfList ++ [name].filter (· != "#"), widthMap := widths } } := by
  unfold Configuring.entry Configuring.behind
  simp only [cross_eq, ← List.find?_eq_getElem?_findIdx]
  by_cases hash : name = "#"
  · subst hash
    have found := find?_same ((mem_crossedOff_blank hash_notMem_defSequence).mpr (fits.2 rfl))
    refine ⟨assign "#" (-1) format.widthMap, sameWidths_assign _ _, ?_⟩
    rw [crossedOff_append_of_notMem hash_notMem_defSequence]
    cases last with
    | true => simp [found]
    | false => simp [found, set_findIdx_self]
  · refine ⟨format.widthMap, SameWidths.refl _, ?_⟩
    have open_ : ¬ (last = true ∧ name = "#") := fun both => hash both.2
    rw [if_neg hash, if_neg fits.1, Option.map_some, set_findIdx_crossedOff defSequence_nodup hash, if_neg open_,
      List.filter_cons_of_pos (by simpa using hash), List.filter_nil]

theorem entries_of_not_admitted (format : TableFormatOptions) {before : List String} (unfit : ¬ Admitted before names) :
    (Configuring.behind before format).entries names = none := by
  induction names generalizing before format with
  | nil => exact (unfit (admitted_nil before)).elim
  | cons name rest ih =>
    unfold Configuring.entries
    by_cases fits : Admissible before name
    · obtain ⟨widths, same, round⟩ := entry_of_admissible format rest.isEmpty fits
      have later : ¬ Admitted (before ++ [name]) rest := fun admitted => unfit (admitted_cons.mpr ⟨fits, admitted⟩)
      have more : ¬ (rest.isEmpty = true ∧ name = "#") := by
        rintro ⟨empty, _⟩
        rw [List.isEmpty_iff.mp empty] at later
        exact later (admitted_nil _)
      rw [round, if_neg more]
      exact ih _ later
    · rw [entry_of_not_admissible _ fits]
      rfl

theorem entries_of_admitted (format : TableFormatOptions) {before : List String} (admitted : Admitted before names) :
    ∃ widths, SameWidths widths format.widthMap ∧
      (Configuring.behind before format).entries names = some
        { defSequence := if names.getLast? = some "#" then [] else crossedOff "#" defSequence (before ++ names),
          tableFormat := { format with
            sequenceOfList := format.sequenceOfList ++ names.filter (· != "#"), widthMap := widths } } := by
  induction names generalizing before format with
  | nil =>
    refine ⟨format.widthMap, SameWidths.refl _, ?_⟩
    rw [List.append_nil, List.filter_nil, List.append_nil]
    rfl
  | cons name rest ih =>
    obtain ⟨fits, later⟩ := admitted_cons.mp admitted
    obtain ⟨widths, same, round⟩ := entry_of_admissible format rest.isEmpty fits
    unfold Configuring.entries
    rw [round, Option.bind_some]
    cases rest with
    | nil =>
      refine ⟨widths, same, ?_⟩
      simp [Configuring.entries]
    | cons next rest =>
      obtain ⟨widths', same', run⟩ := ih { format with
        sequenceOfList := format.sequenceOfList ++ [name].filter (· != "#"), widthMap := widths } later
      refine ⟨widths', same'.trans same, ?_⟩
      rw [List.getLast?_cons_cons, if_neg (by simp)]
      refine run.trans ?_
      rw [List.append_assoc, List.append_assoc, ← List.filter_append]
      rfl

/-! ### The columns -/

/-- What a list of names asks for: the names, and the other default columns unless it ends with "#". -/
def columnsOf (names : List String) : List String :=
  names.filter (· != "#") ++ if names.getLast? = some "#" then [] else defSequence.filter (· ∉ names)

theorem configured_of_admitted (admitted : Admitted [] format.firstNames) :
    ∃ widths, SameWidths widths format.widthMap ∧
      format.configured =
        some { format with sequenceOfList := columnsOf format.firstNames, widthMap := widths } := by
  obtain ⟨widths, same, run⟩ := entries_of_admitted { format with sequenceOfList := [] } admitted
  have start : Configuring.behind [] { format with sequenceOfList := [] } =
      ⟨defSequence, { format with sequenceOfList := [] }⟩ := by
    unfold Configuring.behind
    rw [crossedOff_nil]
  rw [start] at run
  have left : (if format.firstNames.getLast? = some "#" then []
      else crossedOff "#" defSequence ([] ++ format.firstNames)).filter (· != "#") =
      if format.firstNames.getLast? = some "#" then [] else defSequence.filter (· ∉ format.firstNames) := by
    split
    · rfl
    · exact filter_crossedOff hash_notMem_defSequence
  refine ⟨widths, same, ?_⟩
  unfold TableFormatOptions.configured columnsOf
  rw [run, ← left]
  rfl

theorem configured_of_not_admitted (unfit : ¬ Admitted [] format.firstNames) : format.configured = none := by
  have none_ := entries_of_not_admitted { format with sequenceOfList := [] } unfit
  unfold Configuring.behind at none_
  rw [crossedOff_nil] at none_
  unfold TableFormatOptions.configured
  rw [none_]
  rfl

/-- A configured domain has the columns that its options ask for, and their widths. -/
structure Configured (s t : StatlogDomain) : Prop where
  admitted : Admitted [] s.options.tableFormat.firstNames
  others : t = { s with tableFormat := t.tableFormat }
  columns : t.tableFormat.sequenceOfList = columnsOf s.options.tableFormat.firstNames
  widths : SameWidths t.tableFormat.widthMap s.options.tableFormat.widthMap
  defaultFieldWidth : t.tableFormat.defaultFieldWidth = s.options.tableFormat.defaultFieldWidth

theorem configure_of_admitted {s : StatlogDomain} (admitted : Admitted [] s.options.tableFormat.firstNames) :
    ∃ t, s.configure = some t ∧ Configured s t := by
  obtain ⟨widths, same, configured⟩ := configured_of_admitted admitted
  unfold StatlogDomain.configure
  rw [configured]
  exact ⟨_, rfl, admitted, rfl, rfl, same, rfl⟩

theorem configure_isSome_iff (s : StatlogDomain) :
    s.configure.isSome ↔ Admitted [] s.options.tableFormat.firstNames := by
  constructor
  · intro configured
    by_contra unfit
    unfold StatlogDomain.configure at configured
    rw [configured_of_not_admitted unfit] at configured
    contradiction
  · intro admitted
    obtain ⟨t, configured, _⟩ := configure_of_admitted admitted
    rw [configured]
    rfl

theorem configured_of_configure {s t : StatlogDomain} (done : s.configure = some t) : Configured s t := by
  have admitted := (configure_isSome_iff s).mp (Option.isSome_of_eq_some done)
  obtain ⟨u, same, configured⟩ := configure_of_admitted admitted
  obtain rfl := Option.some.inj (done.symm.trans same)
  exact configured

/-- `configure_` stays within `def_sequence` exactly if none of the names it reads is "$" and each "#" among
them stands behind a default column. -/
theorem configure_in_bounds_iff (s : StatlogDomain) :
    s.configure.isSome ↔ Admitted [] s.options.tableFormat.firstNames :=
  configure_isSome_iff s

/-- An idle domain with these columns and widths configured. -/
def tableDomain (sequence : List String) (widths : List (String × Int)) : StatlogDomain :=
  { idleDomain false true with
    options := { StatlogConfig.default with
      tableFormat := { TableFormatOptions.default with
        tableLog := "stat", sequenceOfList := sequence, widthMap := widths } } }

/-- The documented flag "#" and the documented "$", each alone, are looked up beyond the end. -/
theorem configure_out_of_bounds :
    (tableDomain ["#"] []).configure.isSome = false ∧ (tableDomain ["$"] []).configure.isSome = false := by
  decide

theorem admitted_of_plain (hash : "#" ∉ names) (dollar : "$" ∉ names) : Admitted [] names := by
  rintro first name rest rfl
  have member : name ∈ first ++ name :: rest := List.mem_append_right _ List.mem_cons_self
  exact ⟨fun same => dollar (same ▸ member), fun same => (hash (same ▸ member)).elim⟩

theorem columnsOf_of_plain (hash : "#" ∉ names) :
    columnsOf names = names ++ defSequence.filter (· ∉ names) := by
  have last : names.getLast? ≠ some "#" := fun last => hash (List.mem_of_getLast? last)
  have kept : names.filter (· != "#") = names := by
    refine List.filter_eq_self.mpr fun name member => ?_
    simpa using fun same : name = "#" => hash (same ▸ member)
  unfold columnsOf
  rw [if_neg last, kept]

theorem count_missing_le (names : List String) (name : String) :
    (names ++ defSequence.filter (· ∉ names)).count name ≤ max 1 (names.count name) := by
  have once : (defSequence.filter (· ∉ names)).count name ≤ 1 :=
    (List.nodup_iff_count_le_one.mp (defSequence_nodup.filter _)) name
  rw [List.count_append]
  by_cases member : name ∈ names
  · have absent : (defSequence.filter (· ∉ names)).count name = 0 := by
      refine List.count_eq_zero.mpr fun missing => ?_
      have apart := (List.mem_filter.mp missing).2
      simp [member] at apart
    omega
  · rw [List.count_eq_zero.mpr member]
    omega

/-- Without "#" and "$" the columns are the first names as configured and the default columns that are not
among them. -/
theorem configure_plain (s : StatlogDomain) (hash : "#" ∉ s.options.tableFormat.sequenceOfList)
    (dollar : "$" ∉ s.options.tableFormat.sequenceOfList) :
    ∃ t, s.configure = some t ∧
      t.tableFormat.sequenceOfList = s.options.tableFormat.sequenceOfList.take 12 ++
        defSequence.filter (· ∉ s.options.tableFormat.sequenceOfList.take 12) ∧
      (∀ field ∈ defSequence, field ∈ t.tableFormat.sequenceOfList) ∧
      ∀ name, 1 < t.tableFormat.sequenceOfList.count name →
        1 < (s.options.tableFormat.sequenceOfList.take 12).count name := by
  have hash : "#" ∉ s.options.tableFormat.firstNames := fun member => hash (List.mem_of_mem_take member)
  have dollar : "$" ∉ s.options.tableFormat.firstNames := fun member => dollar (List.mem_of_mem_take member)
  obtain ⟨t, done, configured⟩ := configure_of_admitted (admitted_of_plain hash dollar)
  have columns := configured.columns
  rw [columnsOf_of_plain hash] at columns
  refine ⟨t, done, columns, ?_, ?_⟩
  · intro field listed
    rw [columns, List.mem_append]
    by_cases named : field ∈ s.options.tableFormat.firstNames
    · exact Or.inl named
    · exact Or.inr (List.mem_filter.mpr ⟨listed, by simpa using named⟩)
  · intro name twice
    rw [columns] at twice
    have bound := count_missing_le s.options.tableFormat.firstNames name
    show 1 < s.options.tableFormat.firstNames.count name
    omega

theorem configure_plain_user : ∃ t, (tableDomain ["max", "user"] []).configure = some t ∧
    t.tableFormat.sequenceOfList = ["max", "user"].take 12 ++
      defSequence.filter (· ∉ ["max", "user"].take 12) ∧
    (∀ field ∈ defSequence, field ∈ t.tableFormat.sequenceOfList) ∧
    ∀ name, 1 < t.tableFormat.sequenceOfList.count name → 1 < (["max", "user"].take 12).count name :=
  configure_plain (tableDomain ["max", "user"] []) (by decide) (by decide)

/-! ### The switches -/

/-- The fields of a record that a row has cells for. -/
def TableFormatOptions.rowColumns (format : TableFormatOptions) : List String :=
  format.sequenceOfList.filter (· ∈ defSequence)

theorem column_isSome_iff (ag : Aggregated) (field : String) : (ag.column field).isSome ↔ field ∈ defSequence := by
  unfold Aggregated.column
  split <;> simp_all [defSequence]

/-- A row is made of the cells of its columns, each with the text of its field. -/
theorem tableLine_eq (format : TableFormatOptions) (ag : Aggregated) :
    tableLine format ag = String.join (format.rowColumns.map fun field =>
      setw ((format.widthMap.lookup field).getD format.defaultFieldWidth) ((ag.column field).getD "") ++ " |") := by
  have cells (fields : List String) (part : fields ⊆ format.sequenceOfList) :
      fields.filterMap (fun field => (ag.column field).map (writeField format field)) =
        (fields.filter (· ∈ defSequence)).map fun field =>
          setw ((format.widthMap.lookup field).getD format.defaultFieldWidth) ((ag.column field).getD "") ++ " |" := by
    induction fields with
    | nil => rfl
    | cons field rest ih =>
      have ih := ih (List.subset_of_cons_subset part)
      have present : format.sequenceOfList.contains field = true := by simpa using part List.mem_cons_self
      cases text : ag.column field with
      | none =>
        have unknown : field ∉ defSequence := by simp [← column_isSome_iff ag, text]
        rw [List.filterMap_cons, text, Option.map_none, List.filter_cons_of_neg (by simpa using unknown)]
        exact ih
      | some text' =>
        have known : field ∈ defSequence := by simp [← column_isSome_iff ag, text]
        rw [List.filterMap_cons, text, Option.map_some, List.filter_cons_of_pos (by simpa using known),
          List.map_cons, ← ih, text]
        unfold writeField
        rw [present]
        rfl
  unfold tableLine TableFormatOptions.rowColumns
  rw [cells format.sequenceOfList (List.Subset.refl _)]

/-- As the comments of `table_format_options` have it: -1 switches a field off, and with "#" anywhere in the
list only the fields that are listed or have a width are shown. -/
def TableFormatOptions.Documented (format : TableFormatOptions) (field : String) : Prop :=
  format.widthMap.lookup field ≠ some (-1) ∧
    ("#" ∈ format.sequenceOfList → field ∈ format.sequenceOfList ∨ (format.widthMap.lookup field).isSome)

/-- The domain can be configured, and its rows have the documented fields. -/
def SwitchedAsDocumented (s : StatlogDomain) : Prop :=
  ∃ t, s.configure = some t ∧
    ∀ field ∈ defSequence, field ∈ t.tableFormat.rowColumns ↔ s.options.tableFormat.Documented field

/-- Behind a closing "#" a listed field is shown and no other, so -1 must not stand with the former, and no
other width and no later place in the list with the latter. -/
def TableFormatOptions.ClosedBy (format : TableFormatOptions) (field : String) : Prop :=
  if field ∈ format.firstNames then format.widthMap.lookup field ≠ some (-1)
  else format.widthMap.lookup field = some (-1) ∨
    (field ∉ format.sequenceOfList ∧ format.widthMap.lookup field = none)

/-- The configured lists and widths with which the switches work. -/
structure TableFormatOptions.Switchable (format : TableFormatOptions) : Prop where
  admitted : Admitted [] format.firstNames
  closed : format.firstNames.getLast? = some "#" → ∀ field ∈ defSequence, format.ClosedBy field
  unclosed : format.firstNames.getLast? ≠ some "#" → ∀ field ∈ defSequence,
    format.widthMap.lookup field ≠ some (-1) ∧
      ("#" ∈ format.sequenceOfList → field ∈ format.sequenceOfList ∨ (format.widthMap.lookup field).isSome)

theorem closedBy_iff {field : String} (last : format.firstNames.getLast? = some "#")
    (flag : "#" ∈ format.sequenceOfList) (part : field ∈ format.firstNames → field ∈ format.sequenceOfList) :
    ((format.firstNames.getLast? = some "#" → field ∈ format.firstNames) ↔ format.Documented field) ↔
      format.ClosedBy field := by
  unfold TableFormatOptions.Documented TableFormatOptions.ClosedBy
  by_cases named : field ∈ format.firstNames
  · simp [named, part named]
  · rw [if_neg named]
    cases width : format.widthMap.lookup field with
    | none => simp [last, flag, named]
    | some width => simp [last, named]

theorem mem_columnsOf {field : String} (listed : field ∈ defSequence) (names : List String) :
    field ∈ columnsOf names ↔ (names.getLast? = some "#" → field ∈ names) := by
  have named : field ≠ "#" := fun same => hash_notMem_defSequence (same ▸ listed)
  unfold columnsOf
  by_cases last : names.getLast? = some "#"
  · simp [last, named]
  · by_cases member : field ∈ names
    · simp [last, member, named]
    · simp [last, member, listed]

/-- The fields are switched as documented exactly if the list is admitted and, with "#" as the last name that
is read, no listed field has width -1 and no other is listed later or has a width but -1; without it, no field
has width -1 and, with a "#" in the list, every field is listed or has a width. -/
theorem switched_iff (s : StatlogDomain) : SwitchedAsDocumented s ↔ s.options.tableFormat.Switchable := by
  by_cases admitted : Admitted [] s.options.tableFormat.firstNames
  · obtain ⟨t, done, configured⟩ := configure_of_admitted admitted
    have shown {field : String} (listed : field ∈ defSequence) : field ∈ t.tableFormat.rowColumns ↔
        (s.options.tableFormat.firstNames.getLast? = some "#" → field ∈ s.options.tableFormat.firstNames) := by
      unfold TableFormatOptions.rowColumns
      rw [List.mem_filter, configured.columns, mem_columnsOf listed]
      simp [listed]
    have part {name : String} (member : name ∈ s.options.tableFormat.firstNames) :
        name ∈ s.options.tableFormat.sequenceOfList := List.mem_of_mem_take member
    have exactly : SwitchedAsDocumented s ↔ ∀ field ∈ defSequence,
        field ∈ t.tableFormat.rowColumns ↔ s.options.tableFormat.Documented field := by
      unfold SwitchedAsDocumented
      rw [done]
      simp
    rw [exactly]
    by_cases last : s.options.tableFormat.firstNames.getLast? = some "#"
    · have flag := part (List.mem_of_getLast? last)
      have closed : (∀ field ∈ defSequence,
          field ∈ t.tableFormat.rowColumns ↔ s.options.tableFormat.Documented field) ↔
          ∀ field ∈ defSequence, s.options.tableFormat.ClosedBy field := by
        refine forall₂_congr fun field listed => ?_
        rw [shown listed]
        exact closedBy_iff last flag part
      rw [closed]
      exact ⟨fun every => ⟨admitted, fun _ => every, fun open_ => (open_ last).elim⟩,
        fun switchable => switchable.closed last⟩
    · have unclosed : (∀ field ∈ defSequence,
          field ∈ t.tableFormat.rowColumns ↔ s.options.tableFormat.Documented field) ↔
          ∀ field ∈ defSequence, s.options.tableFormat.Documented field := by
        refine forall₂_congr fun field listed => ?_
        rw [shown listed]
        exact iff_true_left fun closed => (last closed).elim
      rw [unclosed]
      exact ⟨fun every => ⟨admitted, fun closed => (last closed).elim, fun _ => every⟩,
        fun switchable => switchable.unclosed last⟩
  · refine iff_of_false ?_ fun switchable => admitted switchable.admitted
    rintro ⟨t, done, _⟩
    exact admitted (configured_of_configure done).admitted

/-- A field with width -1 is shown. -/
theorem switched_off_shown :
    (∃ t, (tableDomain [] [("min", -1)]).configure = some t ∧ "min" ∈ t.tableFormat.rowColumns) ∧
    ¬ SwitchedAsDocumented (tableDomain [] [("min", -1)]) := by
  have shown : ((tableDomain [] [("min", -1)]).configure.map fun t =>
      decide ("min" ∈ t.tableFormat.rowColumns)) = some true := by decide
  obtain ⟨t, configured, row⟩ := Option.map_eq_some_iff.mp shown
  refine ⟨⟨t, configured, of_decide_eq_true row⟩, ?_⟩
  rintro ⟨u, same, documented⟩
  obtain rfl := Option.some.inj (configured.symm.trans same)
  exact ((documented "min" (by decide)).mp (of_decide_eq_true row)).1 (by decide)

end WfcCore.Statistics.Statlog

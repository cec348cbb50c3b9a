import WfcCore.Statistics.Columns

/-!
# Rows and their legends

The table log gets a row for each record and, before the first row of a record name, a legend. A legend has a
cell for every column of the sequence in force, a row only for the default columns of it. Reconfiguration
changes the sequence and keeps the names that have their legend.
-/

namespace WfcCore.Statistics.Statlog

open Foundation

/-! ### What is printed -/

inductive Line where
  | legend (format : TableFormatOptions) (name : String)
  | row (format : TableFormatOptions) (ag : Aggregated)

namespace Line

def text : Line → String
  | legend format _ => legendLine format
  | row format ag => tableLine format ag

/-- The columns of a legend for the name. -/
def announces (name : String) : Line → Option (List String)
  | legend format other => if other = name then some format.sequenceOfList else none
  | row _ _ => none

end Line

/-- The lines that `push_log_` writes to the table log. -/
def StatlogDomain.printed (s : StatlogDomain) (ag : Aggregated) : List Line :=
  (if s.options.tableFormat.showLegend ∧ ag.name ∉ s.legend then [.legend s.tableFormat ag.name] else []) ++
    if s.options.tableFormat.tableLog ≠ "" then [.row s.tableFormat ag] else []

/-- The columns of the last legend for the name. -/
def latestLegend (name : String) (lines : List Line) : Option (List String) :=
  lines.reverse.findSome? (Line.announces name)

/-- Every row stands behind a legend for its record, and the last one before it has the columns of the row. -/
def RowsMatch (lines : List Line) : Prop :=
  ∀ before format ag after, lines = before ++ .row format ag :: after →
    latestLegend ag.name before = some format.rowColumns

theorem logCommon_eq (fw : Framework) (s : StatlogDomain) (ag : Aggregated) :
    s.logCommon fw ag = { s with logged := (s.logCommon fw ag).logged } := by
  unfold StatlogDomain.logCommon
  split <;> rfl

/-- Behind the line for the common log, a record writes its lines to the table log and nothing more. -/
theorem pushLog_eq (fw : Framework) (s : StatlogDomain) (ag : Aggregated) :
    s.pushLog fw ag = { s with
      logged := (s.logCommon fw ag).logged ++
        (s.printed ag).map fun line => (s.options.tableFormat.tableLog, line.text)
      legend := if s.options.tableFormat.showLegend ∧ ag.name ∉ s.legend then s.legend ++ [ag.name]
        else s.legend } := by
  unfold StatlogDomain.pushLog
  rw [logCommon_eq]
  generalize (s.logCommon fw ag).logged = logged
  unfold StatlogDomain.logLegend StatlogDomain.logTable StatlogDomain.printed StatlogDomain.log
  by_cases fresh : s.options.tableFormat.showLegend ∧ ag.name ∉ s.legend
  · by_cases table : s.options.tableFormat.tableLog ≠ ""
    · simp [fresh, table, Line.text]
    · simp [fresh, table, Line.text]
  · by_cases table : s.options.tableFormat.tableLog ≠ ""
    · simp [fresh, table, Line.text]
    · simp [fresh, table]

theorem latestLegend_append (name : String) (lines : List Line) (line : Line) :
    latestLegend name (lines ++ [line]) = (line.announces name).or (latestLegend name lines) := by
  unfold latestLegend
  rw [List.reverse_append, List.reverse_singleton, List.singleton_append, List.findSome?_cons]
  cases line.announces name <;> rfl

theorem rowsMatch_nil : RowsMatch [] := by
  intro before format ag after split
  simp at split

theorem rowsMatch_append {lines : List Line} {line : Line} :
    RowsMatch (lines ++ [line]) ↔
      RowsMatch lines ∧ ∀ format ag, line = .row format ag → latestLegend ag.name lines = some format.rowColumns := by
  constructor
  · intro all
    constructor
    · intro before format ag after split
      refine all before format ag (after ++ [line]) ?_
      rw [split, List.append_assoc]
      rfl
    · rintro format ag rfl
      exact all lines format ag [] rfl
  · rintro ⟨old, new⟩ before format ag after split
    rcases List.eq_nil_or_concat after with rfl | ⟨after, last, rfl⟩
    · obtain ⟨rfl, same⟩ := List.append_inj' split rfl
      exact new format ag (List.cons.inj same).1
    · rw [List.concat_eq_append, ← List.cons_append, ← List.append_assoc] at split
      exact old before format ag after (List.append_inj' split rfl).1

theorem rowsMatch_legend {lines : List Line} {format : TableFormatOptions} {name : String} :
    RowsMatch (lines ++ [.legend format name]) ↔ RowsMatch lines := by
  rw [rowsMatch_append]
  simp

theorem rowsMatch_row {lines : List Line} {format : TableFormatOptions} {ag : Aggregated} :
    RowsMatch (lines ++ [.row format ag]) ↔
      RowsMatch lines ∧ latestLegend ag.name lines = some format.rowColumns := by
  rw [rowsMatch_append]
  refine and_congr_right fun _ => ⟨fun every => every format ag rfl, ?_⟩
  rintro latest _ _ same
  obtain ⟨rfl, rfl⟩ := Line.row.inj same
  exact latest

/-! ### Runs -/

/-- Options with the legend shown and a table log set. -/
structure TableConfig where
  options : StatlogConfig
  showLegend : options.tableFormat.showLegend = true
  tableLog : options.tableFormat.tableLog ≠ ""

inductive Action where
  | configure (config : TableConfig)
  | push (ag : Aggregated)

/-- A domain with the lines in its table log, and for each name that has its legend the names that were
configured when the legend was printed. There is no domain once `def_sequence` has been read past its end. -/
structure Table where
  domain : Option StatlogDomain
  lines : List Line
  announced : List (String × List String)

namespace Table

/-- `configure` and `reconfigure` do the same with the options that the domain then has. -/
def step (fw : Framework) (w : Table) : Action → Option Table
  | .configure config => w.domain.map fun s =>
    { w with domain := StatlogDomain.configure { s with options := config.options } }
  | .push ag => w.domain.map fun s =>
    { domain := some (s.pushLog fw ag)
      lines := w.lines ++ s.printed ag
      announced := if ag.name ∈ s.legend then w.announced
        else w.announced ++ [(ag.name, s.options.tableFormat.firstNames)] }

/-- A new domain after its `configure`. -/
def opened (config : TableConfig) : Table where
  domain := StatlogDomain.configure { idleDomain false true with options := config.options }
  lines := []
  announced := []

/-- The domain has stayed within bounds, and its rows match their legends. -/
def Legible (w : Table) : Prop :=
  w.domain.isSome ∧ RowsMatch w.lines

/-- A configuration is admitted. When a name first comes, only default columns are configured; when it comes
again, the names configured now give the columns of those configured then, unknown names apart. -/
def Fits (w : Table) : Action → Prop
  | .configure config => Admitted [] config.options.tableFormat.firstNames
  | .push ag => ∀ s, w.domain = some s →
    match w.announced.lookup ag.name with
    | none => ∀ name ∈ s.options.tableFormat.firstNames, name = "#" ∨ name ∈ defSequence
    | some names => (columnsOf s.options.tableFormat.firstNames).filter (· ∈ defSequence) = columnsOf names

/-- What the domain remembers of the lines in the log. -/
structure Remembers (w : Table) (s : StatlogDomain) : Prop where
  showLegend : s.options.tableFormat.showLegend = true
  tableLog : s.options.tableFormat.tableLog ≠ ""
  columns : s.tableFormat.sequenceOfList = columnsOf s.options.tableFormat.firstNames
  legend : ∀ name, name ∈ s.legend ↔ (w.announced.lookup name).isSome
  latest : ∀ name, latestLegend name w.lines = (w.announced.lookup name).map columnsOf

def Remembering (w : Table) : Prop :=
  ∀ s, w.domain = some s → Remembers w s

variable {fw : Framework} {w t : Table} {s u : StatlogDomain}

theorem remembers_configured {config : TableConfig} (legend : ∀ name, name ∈ s.legend ↔ (w.announced.lookup name).isSome)
    (latest : ∀ name, latestLegend name w.lines = (w.announced.lookup name).map columnsOf)
    (configured : StatlogDomain.configure { s with options := config.options } = some u) : Remembers w u := by
  have now := configured_of_configure configured
  have columns := now.columns
  rw [now.others] at columns ⊢
  exact ⟨config.showLegend, config.tableLog, columns, legend, latest⟩

/-! ### One record -/

theorem printed_known (remembers : Remembers w s) {ag : Aggregated} (known : ag.name ∈ s.legend) :
    s.printed ag = [.row s.tableFormat ag] := by
  unfold StatlogDomain.printed
  rw [if_neg (fun fresh => fresh.2 known), if_pos remembers.tableLog, List.nil_append]

theorem printed_new (remembers : Remembers w s) {ag : Aggregated} (fresh : ag.name ∉ s.legend) :
    s.printed ag = [.legend s.tableFormat ag.name] ++ [.row s.tableFormat ag] := by
  unfold StatlogDomain.printed
  rw [if_pos ⟨remembers.showLegend, fresh⟩, if_pos remembers.tableLog]

theorem step_push_known (remembers : Remembers w s) (present : w.domain = some s) {ag : Aggregated}
    (known : ag.name ∈ s.legend) :
    w.step fw (.push ag) = some
      { domain := some (s.pushLog fw ag), lines := w.lines ++ [.row s.tableFormat ag], announced := w.announced } := by
  simp only [step, present, Option.map_some, printed_known remembers known, if_pos known]

theorem step_push_new (remembers : Remembers w s) (present : w.domain = some s) {ag : Aggregated}
    (fresh : ag.name ∉ s.legend) :
    w.step fw (.push ag) = some
      { domain := some (s.pushLog fw ag)
        lines := w.lines ++ [.legend s.tableFormat ag.name] ++ [.row s.tableFormat ag]
        announced := w.announced ++ [(ag.name, s.options.tableFormat.firstNames)] } := by
  simp only [step, present, Option.map_some, printed_new remembers fresh, if_neg fresh, List.append_assoc]

theorem step_remembering (remembering : Remembering w) {a : Action} (taken : w.step fw a = some t) :
    Remembering t := by
  cases a with
  | configure config =>
    obtain ⟨s, present, rfl⟩ := Option.map_eq_some_iff.mp taken
    intro u configured
    have remembers := remembering s present
    have again := remembers_configured remembers.legend remembers.latest configured
    exact ⟨again.showLegend, again.tableLog, again.columns, again.legend, again.latest⟩
  | push ag =>
    obtain ⟨s, present, _⟩ := Option.map_eq_some_iff.mp taken
    have remembers := remembering s present
    by_cases known : ag.name ∈ s.legend
    · obtain rfl := Option.some.inj ((step_push_known remembers present known).symm.trans taken)
      intro u pushed
      obtain rfl := Option.some.inj pushed
      rw [pushLog_eq, if_neg fun fresh => fresh.2 known]
      refine ⟨remembers.showLegend, remembers.tableLog, remembers.columns, remembers.legend, fun name => ?_⟩
      rw [latestLegend_append]
      exact remembers.latest name
    · obtain rfl := Option.some.inj ((step_push_new remembers present known).symm.trans taken)
      intro u pushed
      obtain rfl := Option.some.inj pushed
      have first : w.announced.lookup ag.name = none :=
        Option.not_isSome_iff_eq_none.mp (mt (remembers.legend ag.name).mpr known)
      rw [pushLog_eq, if_pos ⟨remembers.showLegend, known⟩]
      refine ⟨remembers.showLegend, remembers.tableLog, remembers.columns, fun name => ?_, fun name => ?_⟩
      · by_cases same : name = ag.name
        · simp [List.lookup_append, same]
        · have away : (name == ag.name) = false := by simp [same]
          simp [List.lookup_append, List.lookup_cons, same, away, remembers.legend name]
      · rw [latestLegend_append, latestLegend_append, remembers.latest name]
        by_cases same : name = ag.name
        · subst same
          simp [Line.announces, List.lookup_append, first, remembers.columns]
        · have away : (name == ag.name) = false := by simp [same]
          simp [Line.announces, List.lookup_append, List.lookup_cons, away, Ne.symm same]

/-- The columns of a sequence are those of its rows if no name in it is unknown. -/
theorem columnsOf_known_iff (names : List String) :
    (columnsOf names).filter (· ∈ defSequence) = columnsOf names ↔
      ∀ name ∈ names, name = "#" ∨ name ∈ defSequence := by
  rw [List.filter_eq_self]
  constructor
  · intro every name member
    by_cases hash : name = "#"
    · exact Or.inl hash
    · have listed : name ∈ columnsOf names :=
        List.mem_append_left _ (List.mem_filter.mpr ⟨member, by simpa using hash⟩)
      exact Or.inr (of_decide_eq_true (every name listed))
  · intro every name listed
    apply decide_eq_true
    rcases List.mem_append.mp listed with named | missing
    · obtain ⟨member, hash⟩ := List.mem_filter.mp named
      exact (every name member).resolve_left (by simpa using hash)
    · split at missing
      · contradiction
      · exact (List.mem_filter.mp missing).1

theorem rowColumns_eq (remembers : Remembers w s) :
    s.tableFormat.rowColumns = (columnsOf s.options.tableFormat.firstNames).filter (· ∈ defSequence) := by
  unfold TableFormatOptions.rowColumns
  rw [remembers.columns]

theorem fits_known_iff (remembers : Remembers w s) (present : w.domain = some s) {ag : Aggregated}
    (known : ag.name ∈ s.legend) :
    w.Fits (.push ag) ↔ latestLegend ag.name w.lines = some s.tableFormat.rowColumns := by
  obtain ⟨names, listed⟩ := Option.isSome_iff_exists.mp ((remembers.legend ag.name).mp known)
  rw [remembers.latest ag.name, listed, Option.map_some, rowColumns_eq remembers]
  simp only [Fits, present, listed, Option.some.injEq, forall_eq']
  exact eq_comm

theorem fits_new_iff (remembers : Remembers w s) (present : w.domain = some s) {ag : Aggregated}
    (fresh : ag.name ∉ s.legend) :
    w.Fits (.push ag) ↔ s.tableFormat.sequenceOfList = s.tableFormat.rowColumns := by
  have first : w.announced.lookup ag.name = none :=
    Option.not_isSome_iff_eq_none.mp (mt (remembers.legend ag.name).mpr fresh)
  rw [rowColumns_eq remembers, remembers.columns]
  simp only [Fits, present, first, Option.some.injEq, forall_eq']
  rw [← columnsOf_known_iff]
  exact eq_comm

/-- A legible table stays legible over a step that fits, and over no other. -/
theorem step_legible_iff (remembering : Remembering w) (legible : Legible w) {a : Action}
    (taken : w.step fw a = some t) : Legible t ↔ w.Fits a := by
  cases a with
  | configure config =>
    obtain ⟨s, present, rfl⟩ := Option.map_eq_some_iff.mp taken
    have bounds := configure_isSome_iff { s with options := config.options }
    exact (and_iff_left legible.2).trans bounds
  | push ag =>
    obtain ⟨s, present, _⟩ := Option.map_eq_some_iff.mp taken
    have remembers := remembering s present
    by_cases known : ag.name ∈ s.legend
    · obtain rfl := Option.some.inj ((step_push_known remembers present known).symm.trans taken)
      rw [fits_known_iff remembers present known]
      exact (and_iff_right rfl).trans (rowsMatch_row.trans (and_iff_right legible.2))
    · obtain rfl := Option.some.inj ((step_push_new remembers present known).symm.trans taken)
      rw [fits_new_iff remembers present known]
      have latest : latestLegend ag.name (w.lines ++ [.legend s.tableFormat ag.name]) =
          some s.tableFormat.sequenceOfList := by
        rw [latestLegend_append, Line.announces, if_pos rfl, Option.some_or]
      refine (and_iff_right rfl).trans (rowsMatch_row.trans ?_)
      rw [latest, rowsMatch_legend, and_iff_right legible.2, Option.some.injEq]

theorem opened_remembering (config : TableConfig) : Remembering (opened config) := by
  intro u configured
  exact remembers_configured (by simp [opened, idleDomain]) (fun _ => rfl) configured

/-- Along every run, with the legend shown and a table log set, the rows match their legends exactly if the
configurations are admitted and every record comes while the columns are those of its legend. -/
theorem rows_match_iff (fw : Framework) (config : TableConfig) (actions : List Action) :
    Always (step fw) Legible (opened config) actions ↔
      Admitted [] config.options.tableFormat.firstNames ∧ Meets (step fw) Fits (opened config) actions := by
  have bounds := configure_isSome_iff { idleDomain false true with options := config.options }
  constructor
  · intro always
    refine ⟨bounds.mp always.head.1, ?_⟩
    exact (always_iff_meets Remembering (fun _ _ _ inv _ => step_remembering inv)
      (fun _ _ _ inv legible => step_legible_iff inv legible) (opened_remembering config) always.head actions).mp always
  · rintro ⟨admitted, fits⟩
    have legible : Legible (opened config) := ⟨bounds.mpr admitted, rowsMatch_nil⟩
    exact (always_iff_meets Remembering (fun _ _ _ inv _ => step_remembering inv)
      (fun _ _ _ inv legible => step_legible_iff inv legible) (opened_remembering config) legible actions).mpr fits

/-- A table of these columns. -/
def tableOf (sequence : List String) : TableConfig :=
  ⟨(tableDomain sequence []).options, rfl, by simp [tableDomain]⟩

/-- A record whose fields are all zero. -/
def zeros (name : String) : Aggregated :=
  ⟨name, 0, 0, 0, 0, 0, 0, 0, 0, 0, 0, 0, []⟩

/-- An unknown column stands in the legend and not in the row; after reconfiguration the old legend stays. -/
theorem rows_differ :
    ¬ Always (step nullTest) Legible (opened (tableOf ["user"])) [.push (zeros "cpu")] ∧
    ¬ Always (step nullTest) Legible (opened (tableOf []))
      [.push (zeros "cpu"), .configure (tableOf ["max"]), .push (zeros "cpu")] := by
  constructor
  · intro always
    have rows := (always.2 _ rfl).2
    have latest := rows [.legend _ "cpu"] _ _ [] rfl
    revert latest
    decide
  · intro always
    have rows := ((((always.2 _ rfl).2 _ rfl).2 _ rfl)).2
    have latest := rows [.legend _ "cpu", .row _ _] _ _ [] rfl
    revert latest
    decide

end Table

end WfcCore.Statistics.Statlog

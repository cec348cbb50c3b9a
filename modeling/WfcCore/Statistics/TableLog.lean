import WfcCore.Foundation.Cells
import WfcCore.Foundation.Scanf
import WfcCore.Statistics.Legend

/-!
# Reading the table log back

A line of the table log is made of cells that end with a bar, and a legend has one more bar in front. Whoever
reads the log takes the columns of a row from the last legend above it.
-/

namespace WfcCore.Statistics.Statlog

open Foundation

/-! ### A reader -/

def readCells (cells : List Char) : List String := (Cells.readLine '|' ' ' cells).map String.ofList

/-- The rows of a log, each as its fields with their columns, below a legend with `columns`. -/
def readTable (columns : List String) : List String → List (List (String × String))
  | [] => []
  | line :: rest =>
    if line.toList.head? = some '|' then readTable (readCells line.toList.tail) rest
    else columns.zip (readCells line.toList) :: readTable columns rest

/-- What a row shows of a record. -/
def fields (format : TableFormatOptions) (ag : Aggregated) : List (String × String) :=
  format.rowColumns.map fun field => (field, (ag.column field).getD "")

/-- Neither a bar nor a blank at the front. -/
abbrev PlainText (text : String) : Prop := Cells.Plain '|' ' ' text.toList

def tableLines (s : StatlogDomain) : List String :=
  (s.logged.filter fun line => line.1 = s.options.tableFormat.tableLog).map Prod.snd

/-! ### Cells -/

theorem pushn_toList (n : Nat) : ("".pushn ' ' n).toList = List.replicate n ' ' := by
  rw [String.pushn_eq_repeat_push]
  induction n with
  | zero => rfl
  | succ n ih => rw [Nat.repeat, String.toList_push, ih, List.replicate_succ']

theorem cell_toList (width : Int) (text : String) :
    (setw width text ++ " |").toList = Cells.write ' ' (width.toNat - text.utf8ByteSize) text.toList ++ ['|'] := by
  unfold setw Cells.write
  rw [String.toList_append, String.toList_append, pushn_toList, List.append_assoc, List.append_assoc, List.append_assoc]
  rfl

theorem decimal_plain (n : Int) : PlainText (toString n) := by
  unfold PlainText
  rw [Int.toString_eq_repr, Scanf.toList_repr]
  refine ⟨Scanf.notMem_decimal rfl (by decide) n, fun first => ?_⟩
  exact Scanf.notMem_decimal rfl (by decide) n (List.mem_of_mem_head? first)

theorem defSequence_plain : ∀ field ∈ defSequence, PlainText field := by decide

/-- Only the name of a record can fail to be plain. -/
theorem column_plain {ag : Aggregated} {field : String} (plain : field = "name" → PlainText ag.name) :
    PlainText ((ag.column field).getD "") := by
  unfold Aggregated.column
  split
  · exact plain rfl
  all_goals first | exact decimal_plain _ | decide

/-! ### Lines -/

variable {fw : Framework} {format : TableFormatOptions} {s t : StatlogDomain}

/-- A line of cells. -/
def line (columns : List String) (width : String → Nat) (text : String → String) : List Char :=
  columns.flatMap fun column => Cells.write ' ' (width column) (text column).toList ++ ['|']

theorem readCells_line (columns : List String) (width : String → Nat) (text : String → String)
    (plain : ∀ column ∈ columns, PlainText (text column)) :
    readCells (line columns width text) = columns.map text := by
  unfold readCells line
  rw [Cells.readLine_write (by decide) columns width (fun column => (text column).toList) plain, List.map_map]
  exact List.map_congr_left fun column _ => String.ofList_toList

/-- A line of plain cells does not begin with a bar. -/
theorem line_head (columns : List String) (width : String → Nat) (text : String → String)
    (plain : ∀ column ∈ columns, PlainText (text column)) : (line columns width text).head? ≠ some '|' := by
  cases columns with
  | nil => simp [line]
  | cons column rest =>
    have without := (plain column List.mem_cons_self).1
    have cell := Cells.write_without (by decide : ' ' ≠ '|') without (width column)
    intro first
    unfold line at first
    rw [List.flatMap_cons, List.append_assoc, List.head?_append_of_ne_nil _ (by simp [Cells.write])] at first
    exact cell (List.mem_of_mem_head? first)

/-- All names of the sequence are default columns. -/
def Known (format : TableFormatOptions) : Prop := ∀ field ∈ format.sequenceOfList, field ∈ defSequence

theorem rowColumns_known (known : Known format) : format.rowColumns = format.sequenceOfList :=
  List.filter_eq_self.mpr fun field member => by simpa using known field member

/-- The number of blanks before a text. -/
def padding (format : TableFormatOptions) (field text : String) : Nat :=
  ((format.widthMap.lookup field).getD format.defaultFieldWidth).toNat - text.utf8ByteSize

theorem legendLine_toList (format : TableFormatOptions) :
    (legendLine format).toList = '|' :: line format.sequenceOfList (fun field => padding format field field) id := by
  unfold legendLine
  rw [String.toList_append, String.toList_join, List.flatMap_map]
  refine congrArg ('|' :: ·) (List.flatMap_congr fun field member => ?_)
  have present : format.sequenceOfList.contains field = true := by simpa using member
  unfold writeField padding
  rw [present]
  exact cell_toList _ field

theorem tableLine_toList (format : TableFormatOptions) (ag : Aggregated) :
    (tableLine format ag).toList = line format.rowColumns
      (fun field => padding format field ((ag.column field).getD "")) fun field => (ag.column field).getD "" := by
  rw [tableLine_eq, String.toList_join, List.flatMap_map]
  exact List.flatMap_congr fun field _ => cell_toList _ _

theorem readTable_legend (known : Known format) (columns rest : List String) :
    readTable columns (legendLine format :: rest) = readTable format.sequenceOfList rest := by
  have cells : readCells (legendLine format).toList.tail = format.sequenceOfList := by
    rw [legendLine_toList, List.tail_cons,
      readCells_line _ _ id fun field member => defSequence_plain field (known field member)]
    exact List.map_id _
  rw [readTable, if_pos (by rw [legendLine_toList]; rfl), cells]

theorem readTable_row (known : Known format) {ag : Aggregated}
    (plain : "name" ∈ format.sequenceOfList → PlainText ag.name) (rest : List String) :
    readTable format.sequenceOfList (tableLine format ag :: rest) =
      fields format ag :: readTable format.sequenceOfList rest := by
  have shown : ∀ field ∈ format.rowColumns, PlainText ((ag.column field).getD "") := by
    intro field member
    rw [rowColumns_known known] at member
    exact column_plain fun same => plain (same ▸ member)
  rw [readTable, tableLine_toList, if_neg (line_head _ _ _ shown), readCells_line _ _ _ shown]
  have paired : format.sequenceOfList.zip (format.sequenceOfList.map fun field => (ag.column field).getD "") =
      format.sequenceOfList.map fun field => (field, (ag.column field).getD "") := by
    rw [← List.zip_map', List.map_id']
  unfold fields
  rw [rowColumns_known known, paired]

/-- Whatever the log, the fields that are read are plain. -/
theorem readTable_plain (columns lines : List String) :
    ∀ row ∈ readTable columns lines, ∀ cell ∈ row, PlainText cell.2 := by
  induction lines generalizing columns with
  | nil => simp [readTable]
  | cons text rest ih =>
    intro row member cell inside
    rw [readTable] at member
    split at member
    · exact ih _ row member cell inside
    · rcases List.mem_cons.mp member with rfl | later
      · obtain ⟨chars, read, same⟩ := List.mem_map.mp (List.of_mem_zip inside).2
        have plain := Cells.readFrom_plain text.toList List.not_mem_nil chars read
        unfold PlainText
        rw [← same, String.toList_ofList]
        exact plain
      · exact ih _ row later cell inside

/-! ### A table log -/

/-- The table has a log of its own, with a legend. -/
structure TableLog (options : StatlogConfig) : Prop where
  named : options.tableFormat.tableLog ≠ ""
  shown : options.tableFormat.showLegend = true
  apart : options.commonLog ≠ options.tableFormat.tableLog

theorem tableLines_pushLog (own : TableLog s.options) (ag : Aggregated) :
    tableLines (s.pushLog fw ag) = tableLines s ++ (s.printed ag).map Line.text := by
  have common : (s.logCommon fw ag).logged.filter (fun line => line.1 = s.options.tableFormat.tableLog) =
      s.logged.filter fun line => line.1 = s.options.tableFormat.tableLog := by
    unfold StatlogDomain.logCommon
    split
    · show (s.logged ++ [_]).filter _ = _
      rw [List.filter_append, List.filter_cons_of_neg (by simpa using own.apart), List.filter_nil, List.append_nil]
    · rfl
  have table : ((s.printed ag).map fun line => (s.options.tableFormat.tableLog, line.text)).filter
      (fun line => line.1 = s.options.tableFormat.tableLog) =
        (s.printed ag).map fun line => (s.options.tableFormat.tableLog, line.text) := by
    rw [List.filter_eq_self]
    intro line member
    obtain ⟨_, -, rfl⟩ := List.mem_map.mp member
    simp
  rw [pushLog_eq]
  unfold tableLines
  dsimp only
  rw [List.filter_append, common, table, List.map_append, List.map_map]
  rfl

/-- What records add to a table log is read as their fields. Before the first of them there is a legend above,
or none is known yet. -/
theorem read_pushed (fw : Framework) (own : TableLog s.options) (known : Known s.tableFormat) (columns : List String)
    (above : s.legend = [] ∨ columns = s.tableFormat.sequenceOfList) (ags : List Aggregated)
    (plain : "name" ∈ s.tableFormat.sequenceOfList → ∀ ag ∈ ags, PlainText ag.name) :
    ∃ added, tableLines (ags.foldl (StatlogDomain.pushLog fw) s) = tableLines s ++ added ∧
      readTable columns added = ags.map (fields s.tableFormat) := by
  induction ags generalizing s columns with
  | nil => exact ⟨[], (List.append_nil _).symm, rfl⟩
  | cons ag rest ih =>
    have frame := pushLog_eq fw s ag
    have options : (s.pushLog fw ag).options = s.options := by rw [frame]
    have format : (s.pushLog fw ag).tableFormat = s.tableFormat := by rw [frame]
    obtain ⟨added, lines, read⟩ := ih (s := s.pushLog fw ag) (options.symm ▸ own)
      (format.symm ▸ known) s.tableFormat.sequenceOfList (Or.inr (by rw [format]))
      (fun shown other member => plain (format ▸ shown) other (List.mem_cons_of_mem _ member))
    have row := readTable_row known (fun shown => plain shown ag List.mem_cons_self) added
    refine ⟨(s.printed ag).map Line.text ++ added, ?_, ?_⟩
    · rw [List.foldl_cons, lines, tableLines_pushLog own, List.append_assoc]
    · rw [List.map_cons, ← format, ← read, format, ← row]
      unfold StatlogDomain.printed
      rw [if_pos own.named]
      split
      · exact readTable_legend known columns _
      · rename_i old
        have listed : s.legend ≠ [] := by
          intro empty
          exact old ⟨own.shown, by simp [empty]⟩
        rw [above.resolve_left listed]
        rfl

/-- The table log of a configured domain whose columns are all known can be read back, record by record with
every field under its column, exactly if no shown name has a bar or begins with a blank. -/
theorem read_back_iff (fw : Framework) (configured : s.configure = some t) (own : TableLog s.options)
    (admissible : ∀ name ∈ s.options.tableFormat.firstNames, name = "#" ∨ name ∈ defSequence)
    (fresh : s.legend = []) (empty : s.logged = []) (ags : List Aggregated) :
    readTable [] (tableLines (ags.foldl (StatlogDomain.pushLog fw) t)) = ags.map (fields t.tableFormat) ↔
      ("name" ∈ t.tableFormat.sequenceOfList → ∀ ag ∈ ags, PlainText ag.name) := by
  have now := configured_of_configure configured
  have others := now.others
  have known : Known t.tableFormat := by
    have every := (Table.columnsOf_known_iff s.options.tableFormat.firstNames).mpr admissible
    intro field member
    rw [now.columns, ← every] at member
    exact of_decide_eq_true (List.mem_filter.mp member).2
  constructor
  · intro read shown ag member
    have row : fields t.tableFormat ag ∈ readTable [] (tableLines (ags.foldl (StatlogDomain.pushLog fw) t)) := by
      rw [read]
      exact List.mem_map_of_mem member
    refine readTable_plain _ _ _ row ("name", ag.name) (List.mem_map.mpr ⟨"name", ?_, rfl⟩)
    rw [rowColumns_known known]
    exact shown
  · intro plain
    have legend : t.legend = [] := by rw [others]; exact fresh
    have nothing : tableLines t = [] := by
      unfold tableLines
      rw [others]
      dsimp only
      rw [empty]
      rfl
    have table : TableLog t.options := by rw [others]; exact own
    obtain ⟨added, lines, read⟩ := read_pushed fw table known [] (Or.inl legend) ags plain
    rw [lines, nothing, List.nil_append, read]

theorem read_back_cpu :
    ∃ t, (tableDomain [] []).configure = some t ∧
      readTable [] (tableLines ([Table.zeros "cpu", Table.zeros "mem"].foldl (StatlogDomain.pushLog nullTest) t)) =
        [Table.zeros "cpu", Table.zeros "mem"].map (fields t.tableFormat) := by
  obtain ⟨t, configured, -⟩ := configure_of_admitted (s := tableDomain [] []) (admitted_nil [])
  refine ⟨t, configured, ?_⟩
  exact (read_back_iff nullTest configured ⟨by decide, rfl, by decide⟩ (by decide) rfl rfl
    [Table.zeros "cpu", Table.zeros "mem"]).mpr fun _ => by decide

end WfcCore.Statistics.Statlog

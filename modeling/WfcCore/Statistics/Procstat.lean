import WfcCore.Foundation.Scan
import WfcCore.Foundation.Scanf

/-!
# The status line of a process

`get_procstat` reads `/proc/<pid>/stat`. A text is the list of its bytes, a byte written as a character, and the
pointer to the record is not null.
-/

namespace WfcCore.Statistics.System

open Foundation Foundation.Scanf

abbrev CInt := IntType.int.Value

abbrev CUnsigned := IntType.unsignedInt.Value

structure Procstat where
  pid : CInt
  exName : List Char
  state : Char
  euid : CUnsigned
  egid : CUnsigned
  ppid : CInt
  pgrp : CInt
  session : CInt
  tty : CInt
  tpgid : CInt
  flags : CUnsigned
  minflt : CUnsigned
  cminflt : CUnsigned
  majflt : CUnsigned
  cmajflt : CUnsigned
  utime : CInt
  stime : CInt
  cutime : CInt
  cstime : CInt
  counter : CInt
  priority : CInt
  timeout : CUnsigned
  itrealvalue : CUnsigned
  starttime : CInt
  vsize : CUnsigned
  rss : CUnsigned
  rlim : CUnsigned
  startcode : CUnsigned
  endcode : CUnsigned
  startstack : CUnsigned
  kstkesp : CUnsigned
  kstkeip : CUnsigned
  signal : CInt
  blocked : CInt
  sigignore : CInt
  sigcatch : CInt
  wchan : CUnsigned

def noInt : CInt := ⟨0, by decide⟩

def noUnsigned : CUnsigned := ⟨0, by decide⟩

/-- The record that `procstat()` makes. -/
def Procstat.zero : Procstat where
  pid := noInt
  exName := []
  state := '\x00'
  euid := noUnsigned
  egid := noUnsigned
  ppid := noInt
  pgrp := noInt
  session := noInt
  tty := noInt
  tpgid := noInt
  flags := noUnsigned
  minflt := noUnsigned
  cminflt := noUnsigned
  majflt := noUnsigned
  cmajflt := noUnsigned
  utime := noInt
  stime := noInt
  cutime := noInt
  cstime := noInt
  counter := noInt
  priority := noInt
  timeout := noUnsigned
  itrealvalue := noUnsigned
  starttime := noInt
  vsize := noUnsigned
  rss := noUnsigned
  rlim := noUnsigned
  startcode := noUnsigned
  endcode := noUnsigned
  startstack := noUnsigned
  kstkesp := noUnsigned
  kstkeip := noUnsigned
  signal := noInt
  blocked := noInt
  sigignore := noInt
  sigcatch := noInt
  wchan := noUnsigned

/-- `owner` is what `stat` tells, and `content` what there is to read if the file can be opened. -/
structure ProcFile where
  accessible : Bool
  owner : Option (CUnsigned × CUnsigned)
  content : Option (List Char)

/-- The line that `fgets` stores, as the string that it is up to the first zero byte. -/
def fgets (size : Nat) (content : List Char) : Option (List Char) :=
  if content = [] then none
  else
    let line := content.takeWhile (· != '\n') ++ (content.dropWhile (· != '\n')).take 1
    some ((line.take (size - 1)).takeWhile (· != '\x00'))

/-- The numbers behind the state letter, in the order of the format, with their members. -/
def numberFields : List (Scanf.Field Procstat) := [
  ⟨.int, fun v ps => { ps with ppid := v }⟩,
  ⟨.int, fun v ps => { ps with pgrp := v }⟩,
  ⟨.int, fun v ps => { ps with session := v }⟩,
  ⟨.int, fun v ps => { ps with tty := v }⟩,
  ⟨.int, fun v ps => { ps with tpgid := v }⟩,
  ⟨.unsignedInt, fun v ps => { ps with flags := v }⟩,
  ⟨.unsignedInt, fun v ps => { ps with minflt := v }⟩,
  ⟨.unsignedInt, fun v ps => { ps with cminflt := v }⟩,
  ⟨.unsignedInt, fun v ps => { ps with majflt := v }⟩,
  ⟨.unsignedInt, fun v ps => { ps with cmajflt := v }⟩,
  ⟨.int, fun v ps => { ps with utime := v }⟩,
  ⟨.int, fun v ps => { ps with stime := v }⟩,
  ⟨.int, fun v ps => { ps with cutime := v }⟩,
  ⟨.int, fun v ps => { ps with cstime := v }⟩,
  ⟨.int, fun v ps => { ps with counter := v }⟩,
  ⟨.int, fun v ps => { ps with priority := v }⟩,
  ⟨.unsignedInt, fun v ps => { ps with timeout := v }⟩,
  ⟨.unsignedInt, fun v ps => { ps with itrealvalue := v }⟩,
  ⟨.int, fun v ps => { ps with starttime := v }⟩,
  ⟨.unsignedInt, fun v ps => { ps with vsize := v }⟩,
  ⟨.unsignedInt, fun v ps => { ps with rss := v }⟩,
  ⟨.unsignedInt, fun v ps => { ps with rlim := v }⟩,
  ⟨.unsignedInt, fun v ps => { ps with startcode := v }⟩,
  ⟨.unsignedInt, fun v ps => { ps with endcode := v }⟩,
  ⟨.unsignedInt, fun v ps => { ps with startstack := v }⟩,
  ⟨.unsignedInt, fun v ps => { ps with kstkesp := v }⟩,
  ⟨.unsignedInt, fun v ps => { ps with kstkeip := v }⟩,
  ⟨.int, fun v ps => { ps with signal := v }⟩,
  ⟨.int, fun v ps => { ps with blocked := v }⟩,
  ⟨.int, fun v ps => { ps with sigignore := v }⟩,
  ⟨.int, fun v ps => { ps with sigcatch := v }⟩,
  ⟨.unsignedInt, fun v ps => { ps with wchan := v }⟩]

def statFormat : List (Directive Procstat) :=
  .char (fun c ps => { ps with state := c }) :: format numberFields

/-- The part of `get_procstat` behind `fgets`. There is no result where a parenthesis is missing, the closing one
comes first, or `t + 2` stands behind the end of the string. -/
def parseStat (lib : Library) (szStatStr : List Char) (pinfo : Procstat) : Option (Int × Procstat) :=
  let pinfo := sscanf lib [.number .int fun v ps => { ps with pid := v }] szStatStr pinfo
  match Scan.find '(' szStatStr 0, Scan.find ')' szStatStr 0 with
  | some p, some t =>
    if p + 1 ≤ t ∧ t + 2 ≤ szStatStr.length then
      -- The name fits, as `exName` has more bytes than the buffer of the line.
      some (0, sscanf lib statFormat (szStatStr.drop (t + 2)) { pinfo with exName := Scan.slice szStatStr (p + 1) t })
    else none
  | _, _ => none

/-- The owner of the file, or -1 if it is not known. -/
def Procstat.withOwner (pinfo : Procstat) (owner : Option (CUnsigned × CUnsigned)) : Procstat :=
  match owner with
  | some (uid, gid) => { pinfo with euid := uid, egid := gid }
  | none => { pinfo with euid := IntType.unsignedInt.convert (-1), egid := IntType.unsignedInt.convert (-1) }

def Procstat.failed (pinfo : Procstat) : Int × Procstat := (-1, { pinfo with pid := IntType.int.convert (-1) })

/-- `none` stands for undefined behaviour. -/
def getProcstat (lib : Library) (file : ProcFile) (pinfo : Procstat) : Option (Int × Procstat) :=
  if !file.accessible then some pinfo.failed
  else
    let pinfo := pinfo.withOwner file.owner
    match file.content with
    | none => some pinfo.failed
    | some content =>
      match fgets 2048 content with
      | none => some pinfo.failed
      | some szStatStr => parseStat lib szStatStr pinfo

/-- The members that the statistics are about. -/
structure Measured where
  pid : CInt
  exName : List Char
  state : Char
  utime : CInt
  stime : CInt
  vsize : CUnsigned
  rss : CUnsigned

def Procstat.measured (ps : Procstat) : Measured where
  pid := ps.pid
  exName := ps.exName
  state := ps.state
  utime := ps.utime
  stime := ps.stime
  vsize := ps.vsize
  rss := ps.rss

/-! ### A line of the kernel -/

/-- The line up to some of its numbers. -/
def statText (pid : Int) (name : List Char) (state : Char) (numbers : List Int) : List Char :=
  decimal pid ++ ' ' :: '(' :: (name ++ ')' :: ' ' :: state :: spaced numbers)

def Procstat.numbers (ps : Procstat) : List Int := [
  ps.ppid, ps.pgrp, ps.session, ps.tty, ps.tpgid, ps.flags, ps.minflt, ps.cminflt, ps.majflt, ps.cmajflt,
  ps.utime, ps.stime, ps.cutime, ps.cstime, ps.counter, ps.priority, ps.timeout, ps.itrealvalue, ps.starttime,
  ps.vsize, ps.rss, ps.rlim, ps.startcode, ps.endcode, ps.startstack, ps.kstkesp, ps.kstkeip,
  ps.signal, ps.blocked, ps.sigignore, ps.sigcatch, ps.wchan]

def Plain (text : List Char) : Prop := ∀ c ∈ text, c ≠ '\n' ∧ c ≠ '\x00'

/-- The numbers behind those of the format, which has an end before that of the line, are any numbers. -/
structure StatLine where
  values : Procstat
  others : List Int
  plain : Plain values.exName
  letter : values.state.isAlpha = true

namespace StatLine

def text (line : StatLine) : List Char :=
  statText line.values.pid line.values.exName line.values.state (line.values.numbers ++ line.others)

/-- The line up to `rss`. -/
def head (line : StatLine) : List Char :=
  statText line.values.pid line.values.exName line.values.state (line.values.numbers.take 21)

def file (line : StatLine) (owner : Option (CUnsigned × CUnsigned)) : ProcFile where
  accessible := true
  owner := owner
  content := some (line.text ++ ['\n'])

/-- Whatever stands in the record before, the measured members get the values of the line. -/
def Parsed (lib : Library) (line : StatLine) (owner : Option (CUnsigned × CUnsigned)) : Prop :=
  ∀ pinfo, ∃ ps, getProcstat lib (line.file owner) pinfo = some (0, ps) ∧ ps.measured = line.values.measured

end StatLine

theorem Procstat.withOwner_rss (pinfo : Procstat) (owner : Option (CUnsigned × CUnsigned)) :
    (pinfo.withOwner owner).rss = pinfo.rss := by
  cases owner with
  | none => rfl
  | some ids => rfl

theorem statText_append (pid : Int) (name : List Char) (state : Char) (first more : List Int) :
    statText pid name state (first ++ more) = statText pid name state first ++ spaced more := by
  simp [statText, spaced]

theorem Plain.append {a b : List Char} (first : Plain a) (rest : Plain b) : Plain (a ++ b) := by
  intro c member
  rcases List.mem_append.mp member with here | there
  · exact first c here
  · exact rest c there

theorem Plain.cons {c : Char} {text : List Char} (first : c ≠ '\n' ∧ c ≠ '\x00') (rest : Plain text) :
    Plain (c :: text) := List.forall_mem_cons.mpr ⟨first, rest⟩

theorem plain_decimal (n : Int) : Plain (decimal n) := by
  intro c member
  constructor
  · rintro rfl
    exact notMem_decimal rfl (by decide) n member
  · rintro rfl
    exact notMem_decimal rfl (by decide) n member

theorem plain_spaced (numbers : List Int) : Plain (spaced numbers) := by
  induction numbers with
  | nil =>
    intro c member
    contradiction
  | cons n numbers ih => exact ((plain_decimal n).append ih).cons (by decide)

theorem plain_statText {pid : Int} {name : List Char} {state : Char} (plain : Plain name)
    (letter : state.isAlpha = true) (numbers : List Int) : Plain (statText pid name state numbers) := by
  have stateful : state ≠ '\n' ∧ state ≠ '\x00' := by
    constructor
    · rintro rfl
      contradiction
    · rintro rfl
      contradiction
  have fields : Plain (')' :: ' ' :: state :: spaced numbers) :=
    (((plain_spaced numbers).cons stateful).cons (by decide)).cons (by decide)
  exact (plain_decimal pid).append (((plain.append fields).cons (by decide)).cons (by decide))

theorem fgets_line {line : List Char} (plain : Plain line) (size : Nat) :
    fgets size (line ++ ['\n']) = some ((line ++ ['\n']).take (size - 1)) := by
  have newline : '\n' ∉ line := fun member => (plain _ member).1 rfl
  have zero : '\x00' ∉ (line ++ ['\n']).take (size - 1) := by
    intro member
    have member := List.mem_of_mem_take member
    simp at member
    exact (plain _ member).2 rfl
  unfold fgets
  rw [if_neg (by simp), Scan.takeWhile_append_cons newline, Scan.dropWhile_append_cons newline]
  exact congrArg some (Scan.takeWhile_of_notMem zero)

theorem getProcstat_line (lib : Library) {line : List Char} (plain : Plain line)
    (owner : Option (CUnsigned × CUnsigned)) (pinfo : Procstat) :
    getProcstat lib ⟨true, owner, some (line ++ ['\n'])⟩ pinfo =
      parseStat lib ((line ++ ['\n']).take 2047) (pinfo.withOwner owner) := by
  show (match fgets 2048 (line ++ ['\n']) with
    | none => some _
    | some szStatStr => parseStat lib szStatStr _) = _
  rw [fgets_line plain]

/-! ### Where the name ends -/

theorem paren_notMem_decimal (n : Int) : '(' ∉ decimal n ∧ ')' ∉ decimal n :=
  ⟨notMem_decimal rfl (by decide) n, notMem_decimal rfl (by decide) n⟩

/-- The first parenthesis opens the name. -/
theorem find_open (pid : Int) (rest : List Char) :
    Scan.find '(' (decimal pid ++ ' ' :: '(' :: rest) 0 = some ((decimal pid).length + 1) := by
  have absent : '(' ∉ decimal pid ++ [' '] := by simp [paren_notMem_decimal]
  have found := Scan.find_append_cons absent rest
  rwa [List.append_assoc, List.singleton_append, List.length_append, List.length_singleton] at found

/-- The second one closes the name if there is none in it. -/
theorem find_close (pid : Int) {name : List Char} (closed : ')' ∉ name) (rest : List Char) :
    Scan.find ')' (decimal pid ++ ' ' :: '(' :: (name ++ ')' :: rest)) 0 =
      some ((decimal pid).length + 2 + name.length) := by
  have absent : ')' ∉ decimal pid ++ ' ' :: '(' :: name := by simp [paren_notMem_decimal, closed]
  have found := Scan.find_append_cons absent rest
  rw [List.append_assoc, List.cons_append, List.cons_append] at found
  rw [found, List.length_append, List.length_cons, List.length_cons]
  congr 1
  omega

theorem sscanf_pid (lib : Library) (pid : Int) (rest : List Char) (pinfo : Procstat) :
    sscanf lib [.number .int fun v ps => { ps with pid := v }] (decimal pid ++ ' ' :: rest) pinfo =
      { pinfo with pid := lib.store .int pid } := by
  rw [sscanf, readNumber_decimal pid (ends_blank rest)]
  rfl

theorem parseStat_closed (lib : Library) (pid : Int) {name : List Char} (closed : ')' ∉ name) (rest : List Char)
    (pinfo : Procstat) :
    parseStat lib (decimal pid ++ ' ' :: '(' :: (name ++ ')' :: ' ' :: rest)) pinfo =
      some (0, sscanf lib statFormat rest { pinfo with pid := lib.store .int pid, exName := name }) := by
  have position : (decimal pid).length + 2 + name.length = (decimal pid).length + 1 + 1 + name.length := by omega
  have afterOpen : (decimal pid ++ ' ' :: '(' :: (name ++ ')' :: ' ' :: rest)).drop ((decimal pid).length + 1 + 1) =
      name ++ ')' :: ' ' :: rest := by
    rw [Nat.add_assoc, List.drop_length_add_append]
    rfl
  have cut : Scan.slice (decimal pid ++ ' ' :: '(' :: (name ++ ')' :: ' ' :: rest)) ((decimal pid).length + 1 + 1)
      ((decimal pid).length + 1 + 1 + name.length) = name := by
    rw [Scan.slice_add, afterOpen, List.take_left]
  have behind : (decimal pid ++ ' ' :: '(' :: (name ++ ')' :: ' ' :: rest)).drop
      ((decimal pid).length + 1 + 1 + name.length + 2) = rest := by
    rw [Nat.add_assoc, ← List.drop_drop, afterOpen, List.drop_length_add_append]
    rfl
  unfold parseStat
  rw [sscanf_pid, find_open, find_close pid closed, position]
  simp only [cut, behind]
  rw [if_pos]
  simp
  omega

/-- A string that ends with or before its first closing parenthesis cannot be read. -/
theorem parseStat_short (lib : Library) {opening : List Char} (closed : ')' ∉ opening) (rest : List Char)
    (pinfo : Procstat) {k : Nat} (short : k ≤ opening.length + 1) :
    parseStat lib ((opening ++ ')' :: rest).take k) pinfo = none := by
  rcases Nat.lt_or_eq_of_le short with within | rfl
  · have absent : ')' ∉ opening.take k := fun member => closed (List.mem_of_mem_take member)
    unfold parseStat
    rw [List.take_append_of_le_length (by omega), Scan.find_of_notMem absent]
    split
    · contradiction
    · rfl
  · unfold parseStat
    rw [List.take_length_add_append, List.take_succ_cons, List.take_zero, Scan.find_append_cons closed]
    split
    · rename_i p t _ found
      obtain rfl := Option.some.inj found
      rw [if_neg]
      simp
    · rfl

/-! ### The numbers -/

theorem keeps_exName : Keeps Procstat.exName numberFields := by
  simp [Keeps, numberFields]

theorem keeps_rss : Keeps Procstat.rss (numberFields.take 20) := by
  simp [Keeps, numberFields]

theorem keeps_measured : Keeps Procstat.measured (numberFields.drop 21) := by
  simp [Keeps, numberFields, Procstat.measured]

theorem sscanf_state (lib : Library) (state : Char) (text : List Char) (ps : Procstat) :
    sscanf lib statFormat (state :: text) ps = sscanf lib (format numberFields) text { ps with state := state } := rfl

/-- The name that is read has no closing parenthesis. -/
theorem parseStat_exName {lib : Library} {text : List Char} {pinfo ps : Procstat} {code : Int}
    (parsed : parseStat lib text pinfo = some (code, ps)) : ')' ∉ ps.exName := by
  unfold parseStat at parsed
  split at parsed
  · rename_i p t _ closing
    split at parsed
    · obtain ⟨-, rfl⟩ := Prod.mk.inj (Option.some.inj parsed)
      have kept (text : List Char) (s : Procstat) : (sscanf lib statFormat text s).exName = s.exName := by
        cases text with
        | nil => rfl
        | cons c text => exact sscanf_keeps keeps_exName text _
      rw [kept]
      intro member
      exact Scan.notMem_slice_of_find closing (List.drop_subset_drop_left _ (Nat.zero_le _) member)
    · contradiction
  · contradiction

theorem sscanf_measured (lib : Library) {first : List Int} (all : first.length = 21) {rest : List Char} (ends : Ends rest)
    (ps : Procstat) :
    (sscanf lib (format numberFields) (spaced first ++ rest) ps).measured =
      (assign lib (numberFields.take 21) first ps).measured := by
  have split : format numberFields = format (numberFields.take 21) ++ format (numberFields.drop 21) := rfl
  have same : (numberFields.take 21).length = first.length := all.symm
  rw [split, sscanf_spaced same ends, sscanf_keeps keeps_measured]

/-- A line with an end of the name that can be found, and with `rss` within the buffer. -/
theorem getProcstat_read (lib : Library) (pid : Int) {name : List Char} (plain : Plain name) (closed : ')' ∉ name)
    {state : Char} (letter : state.isAlpha = true) {first : List Int} (all : first.length = 21)
    (short : (statText pid name state first).length ≤ 2047) (more : List Int) (owner : Option (CUnsigned × CUnsigned))
    (pinfo : Procstat) :
    ∃ ps, getProcstat lib ⟨true, owner, some (statText pid name state (first ++ more) ++ ['\n'])⟩ pinfo = some (0, ps) ∧
      ps.measured = (assign lib (numberFields.take 21) first
        { pinfo.withOwner owner with pid := lib.store .int pid, exName := name, state := state }).measured := by
  have ends : Ends (spaced more ++ ['\n']) := by
    apply ends_spaced
    intro c newline
    obtain rfl := Option.some.inj newline
    rfl
  have shape : (statText pid name state (first ++ more) ++ ['\n']).take 2047 =
      decimal pid ++ ' ' :: '(' :: (name ++ ')' :: ' ' :: (state :: (spaced first ++
        (spaced more ++ ['\n']).take (2047 - (statText pid name state first).length)))) := by
    rw [statText_append, List.append_assoc, List.take_append, List.take_of_length_le short]
    simp [statText]
  rw [getProcstat_line lib (plain_statText plain letter _), shape, parseStat_closed lib pid closed]
  refine ⟨_, rfl, ?_⟩
  rw [sscanf_state, sscanf_measured lib all (ends_take ends _)]

theorem assign_measured (lib : Library) (values ps : Procstat) :
    (assign lib (numberFields.take 21) (values.numbers.take 21) ps).measured =
      { values.measured with pid := ps.pid, exName := ps.exName, state := ps.state } := by
  simp [numberFields, Procstat.numbers, Scanf.assign, Library.store_val, Procstat.measured]

/-- `vsize` and `rss` get what the library stores for their numbers, in or out of range. -/
theorem assign_memory (lib : Library) {before : List Int} (all : before.length = 19) (v r : Int) (ps : Procstat) :
    (assign lib (numberFields.take 21) (before ++ [v, r]) ps).vsize = lib.store .unsignedInt v ∧
      (assign lib (numberFields.take 21) (before ++ [v, r]) ps).rss = lib.store .unsignedInt r := by
  have fields : numberFields.take 21 = numberFields.take 19 ++ [
      ⟨.unsignedInt, fun v ps => { ps with vsize := v }⟩, ⟨.unsignedInt, fun v ps => { ps with rss := v }⟩] := rfl
  have same : (numberFields.take 19).length = before.length := all.symm
  rw [fields, assign_append same]
  exact ⟨rfl, rfl⟩

namespace StatLine

variable {lib : Library} {line : StatLine} {owner : Option (CUnsigned × CUnsigned)}

theorem parsed_of (closed : ')' ∉ line.values.exName) (short : line.head.length ≤ 2047) :
    line.Parsed lib owner := by
  intro pinfo
  obtain ⟨ps, filled, same⟩ := getProcstat_read lib line.values.pid line.plain closed line.letter rfl short
    (line.values.numbers.drop 21 ++ line.others) owner pinfo
  rw [← List.append_assoc, List.take_append_drop] at filled
  refine ⟨ps, filled, ?_⟩
  rw [same, assign_measured, lib.store_val]
  rfl

theorem getProcstat_file (lib : Library) (line : StatLine) (owner : Option (CUnsigned × CUnsigned)) (pinfo : Procstat) :
    getProcstat lib (line.file owner) pinfo =
      parseStat lib ((line.text ++ ['\n']).take 2047) (pinfo.withOwner owner) :=
  getProcstat_line lib (plain_statText line.plain line.letter _) owner pinfo

/-- A name with a closing parenthesis is never read as it is. -/
theorem closed_of_parsed (parsed : line.Parsed lib owner) : ')' ∉ line.values.exName := by
  obtain ⟨ps, filled, same⟩ := parsed line.values
  rw [getProcstat_file] at filled
  have read := parseStat_exName filled
  rwa [show ps.exName = line.values.exName from congrArg Measured.exName same] at read

/-- Of a line that is cut off before the end of `rss`, no more than a smaller number is read. -/
theorem rss_of_cut (lib : Library) (line : StatLine) (ps : Procstat) {k : Nat}
    (cut : k < (line.values.state :: spaced (line.values.numbers.take 21)).length) :
    let read := (sscanf lib statFormat ((line.values.state :: spaced (line.values.numbers.take 21)).take k) ps).rss
    read = ps.rss ∨ read.val < line.values.rss := by
  intro read
  cases k with
  | zero => exact Or.inl rfl
  | succ k =>
    obtain ⟨m, rss⟩ := Int.eq_ofNat_of_zero_le line.values.rss.property.1
    have numbers : line.values.numbers.take 21 = line.values.numbers.take 20 ++ [(m : Int)] := by
      rw [← rss]
      rfl
    have fields : numberFields = numberFields.take 20 ++
        ⟨.unsignedInt, fun v ps => { ps with rss := v }⟩ :: numberFields.drop 21 := rfl
    have cut : k < (spaced (line.values.numbers.take 20 ++ [(m : Int)])).length := by
      rw [← numbers]
      exact Nat.lt_of_succ_lt_succ cut
    have result : read = (sscanf lib (format numberFields)
        ((spaced (line.values.numbers.take 20 ++ [(m : Int)])).take k) { ps with state := line.values.state }).rss := by
      rw [← numbers]
      rfl
    rw [result, fields]
    rcases sscanf_cut keeps_rss rfl cut _ with unread | ⟨t, j, less, stored⟩
    · exact Or.inl unread
    · right
      obtain ⟨-, bound⟩ := IntType.unsignedInt_holds.mp line.values.rss.property
      rw [rss] at bound ⊢
      have holds : IntType.unsignedInt.Holds j := IntType.unsignedInt_holds.mpr ⟨by omega, by omega⟩
      rw [stored]
      show (lib.store .unsignedInt j).val < (m : Int)
      rw [lib.store_of_holds _ _ holds]
      omega

theorem short_of_parsed (parsed : line.Parsed lib owner) : line.head.length ≤ 2047 := by
  by_contra long
  have closed := closed_of_parsed parsed
  -- Another value in the record beforehand shows that `rss` has not been read.
  obtain ⟨other, different⟩ : ∃ other : CUnsigned, other ≠ line.values.rss := by
    by_cases zero : line.values.rss = ⟨0, by decide⟩
    · exact ⟨⟨1, by decide⟩, by rw [zero]; decide⟩
    · exact ⟨⟨0, by decide⟩, Ne.symm zero⟩
  obtain ⟨ps, filled, same⟩ := parsed { line.values with rss := other }
  have same : ps.rss = line.values.rss := congrArg Measured.rss same
  have whole : line.text ++ ['\n'] = line.head ++ (spaced (line.values.numbers.drop 21 ++ line.others) ++ ['\n']) := by
    rw [← List.append_assoc, StatLine.head, ← statText_append, ← List.append_assoc, List.take_append_drop]
    rfl
  let opening := decimal line.values.pid ++ ' ' :: '(' :: line.values.exName
  let numbers := line.values.state :: spaced (line.values.numbers.take 21)
  have head : line.head = opening ++ ')' :: ' ' :: numbers := by simp [StatLine.head, statText, opening, numbers]
  have unclosed : ')' ∉ opening := by simp [opening, paren_notMem_decimal, closed]
  rw [getProcstat_file, whole, List.take_append_of_le_length (by omega), head] at filled
  by_cases short : 2047 ≤ opening.length + 1
  · rw [parseStat_short lib unclosed _ _ short] at filled
    contradiction
  · obtain ⟨k, position⟩ : ∃ k, 2047 = opening.length + (k + 2) := ⟨2047 - opening.length - 2, by omega⟩
    have buffer : (opening ++ ')' :: ' ' :: numbers).take 2047 =
        decimal line.values.pid ++ ' ' :: '(' :: (line.values.exName ++ ')' :: ' ' :: numbers.take k) := by
      rw [position, List.take_length_add_append]
      simp [opening]
    have cut : k < numbers.length := by
      rw [head, List.length_append, List.length_cons, List.length_cons] at long
      omega
    rw [buffer, parseStat_closed lib _ closed] at filled
    obtain ⟨-, rfl⟩ := Prod.mk.inj (Option.some.inj filled)
    rcases rss_of_cut lib line _ cut with unread | less
    · have kept := Procstat.withOwner_rss { line.values with rss := other } owner
      exact different ((same.symm.trans (unread.trans kept)).symm)
    · rw [same] at less
      omega

/-- The line is parsed exactly if the name has no closing parenthesis and `rss` is within the buffer. -/
theorem parsed_iff (lib : Library) (line : StatLine) (owner : Option (CUnsigned × CUnsigned)) :
    line.Parsed lib owner ↔ ')' ∉ line.values.exName ∧ line.head.length ≤ 2047 :=
  ⟨fun parsed => ⟨closed_of_parsed parsed, short_of_parsed parsed⟩, fun ⟨closed, short⟩ => parsed_of closed short⟩

end StatLine

/-- A C library that keeps the low bits of a number out of range. -/
def lowBits : Library where
  store := fun τ n => τ.convert n
  store_of_holds := fun _ _ holds => IntType.convert_of_holds holds

/-- A process that has called itself `a)b`. -/
def bracketed : StatLine where
  values := { Procstat.zero with
    pid := ⟨7, by decide⟩, exName := ['a', ')', 'b'], state := 'S', utime := ⟨5, by decide⟩ }
  others := []
  plain := by simp [Plain]
  letter := by decide

/-- The name ends at its own parenthesis, the state is what follows it, and no number is read. -/
theorem bracketed_misread :
    (getProcstat lowBits (bracketed.file none) Procstat.zero).map
        (fun got => (got.1, got.2.exName, got.2.state, got.2.utime.val)) = some (0, ['a'], ')', 0) ∧
    ¬ bracketed.Parsed lowBits none := by
  refine ⟨by decide, fun parsed => ?_⟩
  exact StatLine.closed_of_parsed parsed (by decide)

end WfcCore.Statistics.System

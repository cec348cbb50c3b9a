import WfcCore.Core.SlidingWindow

/-!
# The status text

`get_status_text` writes a line with status and stage, and below it the messages of the status list: errors and
warnings up to a limit each.
-/

namespace WfcCore.Core

open Foundation

/-- The texts that the json enumerations have for a status and a stage. -/
structure StatusNames where
  status : CoreStatus → String
  stage : Option CoreStage → String

namespace StatusLog

def statusLine (names : StatusNames) (answer : Status) : String :=
  names.status answer.status ++ (if answer.stage ≠ some .isRun then " " ++ names.stage answer.stage else "") ++ "\n"

/-- The loop over the status list, with what is left of the two limits. -/
def statusLines : Nat → Nat → StatusList → String
  | _, _, [] => ""
  | errlogs, wrnlogs, s :: rest =>
    match s.1 with
    | .error => if errlogs = 0 then statusLines errlogs wrnlogs rest else s.2 ++ statusLines (errlogs - 1) wrnlogs rest
    | .warining => if wrnlogs = 0 then statusLines errlogs wrnlogs rest else s.2 ++ statusLines errlogs (wrnlogs - 1) rest
    | .ok | .abort | .hang => s.2 ++ statusLines errlogs wrnlogs rest

def getStatusText (names : StatusNames) (overflow : Overflow) (opt : StatusLogOptions) (log : StatusLog)
    (active : List ActiveThread) (clock : Clock) (errlogs wrnlogs : Nat) : StatusLog × String :=
  let got := log.getStatus overflow opt active clock []
  (got.1, statusLine names got.2 ++ if errlogs ≠ 0 then statusLines errlogs wrnlogs got.2.statusList else "")

/-! ### The messages within the limits -/

def reported (status : CoreStatus) (list : StatusList) : Nat := list.countP (·.1 == status)

/-- An entry is shown if it is a HANG or an ABORT, or not more entries of its kind than the limit come before it. -/
def Visible (errlogs wrnlogs : Nat) (before : StatusList) (s : CoreStatus × String) : Bool :=
  match s.1 with
  | .hang | .abort => true
  | .error => reported .error before < errlogs
  | .warining => reported .warining before < wrnlogs
  | .ok => false

def shownAfter (errlogs wrnlogs : Nat) (before : StatusList) : StatusList → List String
  | [] => []
  | s :: rest =>
    if Visible errlogs wrnlogs before s then s.2 :: shownAfter errlogs wrnlogs (before ++ [s]) rest
    else shownAfter errlogs wrnlogs (before ++ [s]) rest

/-- Every HANG and ABORT message, the first `errlogs` ERROR and the first `wrnlogs` WARNING messages. -/
def shown (errlogs wrnlogs : Nat) (list : StatusList) : List String := shownAfter errlogs wrnlogs [] list

theorem reported_snoc (status : CoreStatus) (before : StatusList) (s : CoreStatus × String) :
    reported status (before ++ [s]) = reported status before + if s.1 = status then 1 else 0 := by
  rw [reported, List.countP_append, List.countP_singleton]
  simp [reported]

/-- The loop counts down what the entries before have used up. -/
theorem statusLines_eq (errlogs wrnlogs : Nat) (before : StatusList) {list : StatusList} (noOk : ∀ s ∈ list, s.1 ≠ .ok) :
    statusLines (errlogs - reported .error before) (wrnlogs - reported .warining before) list =
      String.join (shownAfter errlogs wrnlogs before list) := by
  induction list generalizing before with
  | nil => rfl
  | cons s rest ih =>
    obtain ⟨status, message⟩ := s
    obtain ⟨here, later⟩ := List.forall_mem_cons.mp noOk
    have next := ih (before ++ [(status, message)]) later
    rw [reported_snoc, reported_snoc] at next
    cases status with
    | ok => exact (here rfl).elim
    | hang =>
      simp only [reduceCtorEq, if_false, Nat.add_zero] at next
      simp only [statusLines, shownAfter, Visible, if_true, String.join_cons, next]
    | abort =>
      simp only [reduceCtorEq, if_false, Nat.add_zero] at next
      simp only [statusLines, shownAfter, Visible, if_true, String.join_cons, next]
    | error =>
      simp only [reduceCtorEq, if_false, if_true, Nat.add_zero] at next
      simp only [statusLines, shownAfter, Visible, decide_eq_true_eq]
      by_cases within : reported .error before < errlogs
      · rw [if_neg (by omega), if_pos within, String.join_cons, ← next, Nat.sub_sub]
      · rw [if_pos (by omega), if_neg within, ← next]
        congr 1
        omega
    | warining =>
      simp only [reduceCtorEq, if_false, if_true, Nat.add_zero] at next
      simp only [statusLines, shownAfter, Visible, decide_eq_true_eq]
      by_cases within : reported .warining before < wrnlogs
      · rw [if_neg (by omega), if_pos within, String.join_cons, ← next, Nat.sub_sub]
      · rw [if_pos (by omega), if_neg within, ← next]
        congr 1
        omega

theorem join_eq_empty (texts : List String) : String.join texts = "" ↔ ∀ text ∈ texts, text = "" := by
  rw [← String.toList_inj, String.toList_join, String.toList_empty, List.flatMap_eq_nil_iff]
  simp

theorem getStatus_noOk (overflow : Overflow) (opt : StatusLogOptions) (log : StatusLog) (active : List ActiveThread)
    (clock : Clock) : ∀ s ∈ (log.getStatus overflow opt active clock []).2.statusList, s.1 ≠ .ok := by
  have hangs : ∀ s ∈ hung overflow opt active clock, s.1 = .hang := by
    unfold hung
    split
    · exact hangList_hang _ _ _ _ _
    · simp
  intro s member ok
  simp only [getStatus, List.nil_append, List.mem_append, listed, List.mem_map] at member
  rcases member with ((hang | ⟨_, _, rfl⟩) | ⟨_, _, rfl⟩) | ⟨_, _, rfl⟩
  · rw [hangs s hang] at ok
    contradiction
  all_goals contradiction

/-- With no errors allowed, the messages are those of the hangs and aborts and of the first warnings. -/
theorem mem_shownAfter_zero (wrnlogs : Nat) (before list : StatusList) (message : String) :
    message ∈ shownAfter 0 wrnlogs before list ↔
      (∃ s ∈ list, (s.1 = .hang ∨ s.1 = .abort) ∧ s.2 = message) ∨
        ∃ s ∈ (list.filter (·.1 == .warining)).take (wrnlogs - reported .warining before), s.2 = message := by
  induction list generalizing before with
  | nil => simp [shownAfter]
  | cons s rest ih =>
    obtain ⟨status, text⟩ := s
    have next := ih (before ++ [(status, text)])
    rw [reported_snoc] at next
    cases status with
    | ok => simpa [shownAfter, Visible] using next
    | hang =>
      simp only [reduceCtorEq, if_false, Nat.add_zero] at next
      simp only [shownAfter, Visible, if_true, List.mem_cons, next, @eq_comm _ message text]
      simp [or_assoc]
    | abort =>
      simp only [reduceCtorEq, if_false, Nat.add_zero] at next
      simp only [shownAfter, Visible, if_true, List.mem_cons, next, @eq_comm _ message text]
      simp [or_assoc]
    | error => simpa [shownAfter, Visible] using next
    | warining =>
      rw [if_pos rfl] at next
      by_cases within : reported .warining before < wrnlogs
      · have left : wrnlogs - reported .warining before = wrnlogs - (reported .warining before + 1) + 1 := by omega
        simp only [shownAfter, Visible, within, decide_true, if_true, List.mem_cons, next, @eq_comm _ message text]
        simp [left, or_left_comm]
      · have left : wrnlogs - reported .warining before = 0 := by omega
        have left' : wrnlogs - (reported .warining before + 1) = 0 := by omega
        simp [shownAfter, Visible, within, left, left', next]

/-- Nothing but errors has a text within the limit. -/
def OnlyErrors (wrnlogs : Nat) (list : StatusList) : Prop :=
  (∀ s ∈ list, s.1 = .hang ∨ s.1 = .abort → s.2 = "") ∧
    ∀ s ∈ (list.filter (·.1 == .warining)).take wrnlogs, s.2 = ""

theorem shown_zero_iff (wrnlogs : Nat) (list : StatusList) :
    String.join (shown 0 wrnlogs list) = "" ↔ OnlyErrors wrnlogs list := by
  rw [join_eq_empty]
  simp only [shown, mem_shownAfter_zero, reported, List.countP_nil, Nat.sub_zero]
  constructor
  · intro empty
    exact ⟨fun s member kind => empty _ (Or.inl ⟨s, member, kind, rfl⟩), fun s member => empty _ (Or.inr ⟨s, member, rfl⟩)⟩
  · rintro ⟨loud, warnings⟩ text (⟨s, member, kind, rfl⟩ | ⟨s, member, rfl⟩)
    · exact loud s member kind
    · exact warnings s member

/-- The text is the status line and the messages within the limits exactly if some errors are allowed or nothing
but errors would have been shown. -/
theorem getStatusText_shows_iff (names : StatusNames) (overflow : Overflow) (opt : StatusLogOptions) (log : StatusLog)
    (active : List ActiveThread) (clock : Clock) (errlogs wrnlogs : Nat) :
    let answer := (log.getStatus overflow opt active clock []).2
    (log.getStatusText names overflow opt active clock errlogs wrnlogs).2 =
        statusLine names answer ++ String.join (shown errlogs wrnlogs answer.statusList) ↔
      errlogs ≠ 0 ∨ OnlyErrors wrnlogs answer.statusList := by
  intro answer
  have lines := statusLines_eq errlogs wrnlogs [] (getStatus_noOk overflow opt log active clock)
  have text : (log.getStatusText names overflow opt active clock errlogs wrnlogs).2 =
      statusLine names answer ++ if errlogs ≠ 0 then statusLines errlogs wrnlogs answer.statusList else "" := rfl
  rw [text, String.append_right_inj]
  by_cases none : errlogs = 0
  · subst none
    rw [if_neg (by simp), eq_comm, shown_zero_iff]
    simp
  · rw [if_pos none]
    exact iff_of_true lines (Or.inl none)

/-- A fatal message is in the log and no errors are allowed. -/
theorem getStatusText_hides :
    let names : StatusNames := ⟨fun _ => "ABORT", fun _ => "RUN"⟩
    let wrap : Overflow := IntType.longInt.convert
    let opt := StatusLogOptions.default
    let log := logAfter wrap opt [.setStage (some .isRun), .setStatus .abort "disk is full" (.still 1)]
    (log.getStatusText names wrap opt [] (.still 2) 0 5).2 = "ABORT\n" ∧
      shown 0 5 (log.getStatus wrap opt [] (.still 2) []).2.statusList = ["disk is full"] ∧
      ¬ ∀ (log : StatusLog) (active : List ActiveThread) (clock : Clock) (errlogs wrnlogs : Nat),
        (log.getStatusText names wrap opt active clock errlogs wrnlogs).2 =
          statusLine names (log.getStatus wrap opt active clock []).2 ++
            String.join (shown errlogs wrnlogs (log.getStatus wrap opt active clock []).2.statusList) := by
  intro names wrap opt log
  refine ⟨by decide, by decide, fun shows => ?_⟩
  have text := shows log [] (.still 2) 0 5
  revert text
  decide

end StatusLog

end WfcCore.Core

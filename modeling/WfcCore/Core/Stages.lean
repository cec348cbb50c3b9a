import WfcCore.Core.Abort

/-!
# The stages that the core reports

`set_stage` is called by the main thread alone, four times in a sunrise that goes through. One that a stop or an
abort cuts short leaves stages out, and from then on no sunrise gets past its first stage.
-/

namespace WfcCore.Core

open Foundation Wfc

def stages (es : List Event) : List CoreStage :=
  es.filterMap fun | .stage s => some s | _ => none

def cycle : List CoreStage := [.configuring, .initializing, .starting, .isRun]

/-- `cut` is where a sunrise has begun after one that was cut short. -/
inductive Progress where
  | complete | configuring | initializing | starting | cut | stopped
deriving DecidableEq

def Progress.next : Progress → CoreStage → Option Progress
  | .complete, .configuring => some .configuring
  | .configuring, .initializing => some .initializing
  | .initializing, .starting => some .starting
  | .starting, .isRun => some .complete
  | .configuring, .configuring | .initializing, .configuring | .starting, .configuring | .cut, .configuring => some .cut
  | .stopped, .stopping => none
  | _, .stopping => some .stopped
  | _, _ => none

def Progress.broken : Progress → Bool
  | .complete | .stopped => false
  | _ => true

def Phase.reached : Phase → Progress
  | .initializing => .configuring
  | .starting => .initializing
  | .finishing => .starting

def Pc.stopping : Pc → Bool
  | .stopCollect | .stopEach _ | .stopAfter | .result | .returned _ => true
  | _ => false

/-- What has been reported where the main thread is. A sunrise is cut short by a flag that is up. -/
def ReportedAt (s : State) (q : Progress) : Prop :=
  match s.pc with
  | .run => q = .complete
  | .sunrise _ | .idleReconfigure | .idleClear => q = .complete ∨ q.broken = true ∧ s.abortFlag = true
  | .configureNext .. | .getConfig .. | .configure .. | .configureFailed .. =>
    q = .configuring ∨ q = .cut ∧ s.abortFlag = true
  | .checkStop _ next | .checkAbort _ next => q = next.reached ∨ q.broken = true ∧ s.abortFlag = true
  | .collect _ phase | .each _ phase _ | .invoke _ phase _ _ => q = phase.following.reached
  | .sunriseReturn _ | .checkStarted | .afterStart | .mainLoop | .idleSignal | .idleSetStop | .idleStop | .idleFinal =>
    q = .complete ∨ q.broken = true ∧ (s.stopFlag = true ∨ s.abortFlag = true)
  | .idleIoStop | .stop => q ≠ .stopped
  | .stopCollect | .stopEach _ | .stopAfter | .result | .returned _ => q = .stopped

variable {p : Program} {s t : State} {q : Progress}

theorem reportedAt_beside (beside : Beside s t) (reported : ReportedAt s q) : ReportedAt t q := by
  have raised : s.stopFlag = true ∨ s.abortFlag = true → t.stopFlag = true ∨ t.abortFlag = true :=
    Or.imp beside.stop beside.abort
  unfold ReportedAt at reported ⊢
  rw [beside.pc]
  split at reported
  all_goals first
    | exact reported
    | exact reported.imp_right (And.imp_right beside.abort)
    | exact reported.imp_right (And.imp_right raised)

theorem next_cut (broken : q.broken = true) : q.next .configuring = some .cut ∨ q = .complete := by
  cases q <;> first | contradiction | exact Or.inl rfl

theorem reached_broken (next : Phase) : next.reached.broken = true := by cases next <;> rfl

theorem broken_running (broken : q.broken = true) : q ≠ .stopped := by
  rintro rfl
  contradiction

theorem reportedAt_main (reported : ReportedAt s q) (h : mainStep p s = some t) :
    ∃ q', exec Progress.next q (stages s.emitted) = some q' ∧ ReportedAt t q' := by
  have quiet (none : stages s.emitted = []) (now : ReportedAt t q) :
      ∃ q', exec Progress.next q (stages s.emitted) = some q' ∧ ReportedAt t q' :=
    ⟨q, by rw [none]; rfl, now⟩
  have short (next : Phase) (at_ : q = next.reached ∨ q.broken = true ∧ s.abortFlag = true) : q.broken = true := by
    rcases at_ with rfl | ⟨broken, _⟩
    · exact reached_broken next
    · exact broken
  unfold mainStep at h
  split at h <;> rename_i pc
  all_goals try split at h
  all_goals first
    | contradiction
    | obtain rfl := Option.some.inj h
  all_goals simp only [ReportedAt, pc] at reported
  case h_2.isTrue | h_2.isFalse =>
    rcases reported with rfl | ⟨broken, abort⟩
    · exact ⟨.configuring, by simp [State.emitted, pc, stages, Progress.next], Or.inl rfl⟩
    · have cut := (next_cut broken).resolve_right (by rintro rfl; contradiction)
      exact ⟨.cut, by simp [State.emitted, pc, stages, cut], Or.inr ⟨rfl, abort⟩⟩
  case h_8.isFalse going =>
    obtain rfl := reported.resolve_right fun cut => going cut.2
    exact ⟨.complete, by simp [State.emitted, pc, stages, going, Phase.reached, Progress.next], Or.inl rfl⟩
  case h_9.isFalse next other going =>
    obtain rfl := reported.resolve_right fun cut => going cut.2
    refine ⟨next.following.reached, ?_, rfl⟩
    cases next with
    | finishing => exact absurd rfl other
    | initializing | starting =>
      simp [State.emitted, pc, stages, going, Phase.stage, Phase.reached, Phase.following, Progress.next]
  case h_25 =>
    refine ⟨.stopped, ?_, rfl⟩
    cases q <;> first | exact absurd rfl reported | simp [State.emitted, pc, stages, Progress.next]
  case h_14 phase m rest =>
    refine quiet ?_ reported
    cases phase <;> simp [State.emitted, pc, stages, Phase.event]
  case h_8.isTrue abort =>
    refine quiet (by simp [State.emitted, pc, stages, abort]) (Or.inr ⟨?_, Or.inr abort⟩)
    exact short Phase.finishing reported
  case h_9.isTrue next _ abort =>
    refine quiet (by cases next <;> simp [State.emitted, pc, stages, abort]) (Or.inr ⟨?_, abort⟩)
    exact short next reported
  all_goals refine quiet (by simp [State.emitted, pc, stages]) ?_
  case h_3 =>
    rcases reported with rfl | ⟨rfl, abort⟩
    · exact Or.inl rfl
    · exact Or.inr ⟨rfl, abort⟩
  case h_5 component rest =>
    by_cases empty : Config.getConfig component s.mainconf = ""
    · rw [if_pos empty]
      exact reported
    · rw [if_neg empty]
      exact reported
  case h_6 => exact reported.imp_right fun cut => ⟨cut.1, rfl⟩
  case h_7.isTrue next stop => exact Or.inr ⟨short next reported, Or.inl stop⟩
  case h_12 phase later =>
    cases phase with
    | initializing => exact absurd rfl later
    | starting | finishing => exact Or.inl reported
  case h_19 => exact reported.imp_right fun cut => ⟨cut.1, Or.inl rfl⟩
  case h_20.isTrue =>
    rcases reported with rfl | ⟨broken, _⟩
    · show Progress.complete ≠ .stopped
      decide
    · exact broken_running broken
  case h_20.isFalse going =>
    exact reported.imp_right fun cut => ⟨cut.1, cut.2.resolve_left going⟩
  all_goals first
    | exact reported
    | exact reported.imp_right (And.imp_right Or.inr)
    | exact Or.inl reported

theorem reportedAt_guided {a : Action} (reported : ReportedAt s q) (guided : Guided s t a) :
    stages t.events = stages s.events ∧ ReportedAt t q := by
  cases guided with
  | tick pc same =>
    rw [same]
    simp only [ReportedAt, pc] at reported
    exact ⟨by simp [stages, State.emit], reported⟩
  | configured ok caller component section_ rest pc same =>
    rw [same]
    simp only [ReportedAt, pc] at reported
    refine ⟨by simp [stages, State.emit], ?_⟩
    cases ok <;> exact reported
  | sorted order caller phase pc _ _ same =>
    rw [same]
    simp only [ReportedAt, pc] at reported
    exact ⟨rfl, reported⟩
  | stopSorted order pc _ _ same =>
    rw [same]
    simp only [ReportedAt, pc] at reported
    exact ⟨rfl, reported⟩

/-! ### The words that are accepted -/

/-- What is left over after the complete sunrises: one cut short, and the beginnings of later ones. -/
def Progress.fits (q : Progress) (cut : List CoreStage) (later : Nat) : Prop :=
  match q with
  | .complete => cut = [] ∧ later = 0
  | .configuring => cut = [.configuring] ∧ later = 0
  | .initializing => cut = [.configuring, .initializing] ∧ later = 0
  | .starting => cut = [.configuring, .initializing, .starting] ∧ later = 0
  | .cut | .stopped => cut <+: cycle

def word (n : Nat) (cut : List CoreStage) (later : Nat) : List CoreStage :=
  (List.replicate n cycle).flatten ++ cut ++ List.replicate later .configuring

theorem fits_prefix {cut : List CoreStage} {later : Nat} (fits : q.fits cut later) : cut <+: cycle := by
  cases q with
  | cut | stopped => exact fits
  | complete | configuring | initializing | starting =>
    obtain ⟨rfl, _⟩ := fits
    decide

theorem accepted_word {l : List CoreStage} (accepted : exec Progress.next .complete l = some q) :
    ∃ n cut later, q.fits cut later ∧
      l = word n cut later ++ if q = .stopped then [.stopping] else [] := by
  refine exec_history (fun l q => ∃ n cut later, q.fits cut later ∧
    l = word n cut later ++ if q = .stopped then [.stopping] else []) ?_ ?_ accepted
  · exact ⟨0, [], 0, ⟨rfl, rfl⟩, rfl⟩
  · rintro before q stage q' ⟨n, cut, later, fits, rfl⟩ taken
    have shorter := fits_prefix fits
    cases q with
    | complete =>
      obtain ⟨rfl, rfl⟩ := fits
      cases stage <;> first | contradiction | obtain rfl := Option.some.inj taken
      · exact ⟨n, [.configuring], 0, ⟨rfl, rfl⟩, by simp [word]⟩
      · exact ⟨n, [], 0, shorter, by simp [word]⟩
    | configuring =>
      obtain ⟨rfl, rfl⟩ := fits
      cases stage <;> first | contradiction | obtain rfl := Option.some.inj taken
      · exact ⟨n, [.configuring], 1, shorter, by simp [word]⟩
      · exact ⟨n, [.configuring, .initializing], 0, ⟨rfl, rfl⟩, by simp [word]⟩
      · exact ⟨n, [.configuring], 0, shorter, by simp [word]⟩
    | initializing =>
      obtain ⟨rfl, rfl⟩ := fits
      cases stage <;> first | contradiction | obtain rfl := Option.some.inj taken
      · exact ⟨n, [.configuring, .initializing], 1, shorter, by simp [word]⟩
      · exact ⟨n, [.configuring, .initializing, .starting], 0, ⟨rfl, rfl⟩, by simp [word]⟩
      · exact ⟨n, [.configuring, .initializing], 0, shorter, by simp [word]⟩
    | starting =>
      obtain ⟨rfl, rfl⟩ := fits
      cases stage <;> first | contradiction | obtain rfl := Option.some.inj taken
      · exact ⟨n, [.configuring, .initializing, .starting], 1, shorter, by simp [word]⟩
      · refine ⟨n + 1, [], 0, ⟨rfl, rfl⟩, ?_⟩
        simp [word, List.replicate_succ', cycle]
      · exact ⟨n, [.configuring, .initializing, .starting], 0, shorter, by simp [word]⟩
    | cut =>
      cases stage <;> first | contradiction | obtain rfl := Option.some.inj taken
      · exact ⟨n, cut, later + 1, shorter, by simp [word, List.replicate_succ']⟩
      · exact ⟨n, cut, later, shorter, by simp [word]⟩
    | stopped => cases stage <;> contradiction

/-- The stages are those of complete sunrises, then perhaps one that was cut short and the beginnings of later ones,
and at the end the stop. In the main loop with neither flag up all sunrises have gone through. -/
structure StagesReported (s : State) : Prop where
  inOrder : ∃ n cut later, cut <+: cycle ∧
    stages s.events = word n cut later ++ if s.pc.stopping then [.stopping] else []
  complete : s.pc = .mainLoop → s.stopFlag = false → s.abortFlag = false →
    ∃ n, stages s.events = (List.replicate (n + 1) cycle).flatten

/-- The stages so far are a path of `Progress`, and only before the first sunrise is it empty. -/
structure OnPath (s : State) : Prop where
  accepted : ∃ q, exec Progress.next .complete (stages s.events) = some q ∧ ReportedAt s q
  begun : s.pc = .run ∨ s.pc = .sunrise .run ∨ stages s.events ≠ []

theorem stages_append (es more : List Event) : stages (es ++ more) = stages es ++ stages more :=
  List.filterMap_append

theorem onPath_main (onPath : OnPath s) (h : mainStep p s = some t) : OnPath t := by
  obtain ⟨q, accepted, reported⟩ := onPath.accepted
  obtain ⟨q', taken, reported⟩ := reportedAt_main reported h
  have events := (mainStep_effect h).events
  refine ⟨⟨q', ?_, reported⟩, ?_⟩
  · rw [events, stages_append, exec_append, accepted, Option.bind_some, taken]
  · rcases onPath.begun with run | sunrise | some_
    · simp only [mainStep, run] at h
      obtain rfl := Option.some.inj h
      exact Or.inr (Or.inl rfl)
    · refine Or.inr (Or.inr ?_)
      rw [events, stages_append]
      simp [State.emitted, sunrise, stages]
    · refine Or.inr (Or.inr ?_)
      rw [events, stages_append]
      exact List.append_ne_nil_of_left_ne_nil some_ _

theorem onPath_step {a : Action} (onPath : OnPath s) (h : step p s a = some t) : OnPath t := by
  rcases step_cases h with ⟨_, beside⟩ | ⟨_, main⟩ | guided
  · obtain ⟨q, accepted, reported⟩ := onPath.accepted
    refine ⟨⟨q, by rw [beside.events]; exact accepted, reportedAt_beside beside reported⟩, ?_⟩
    rw [beside.pc, beside.events]
    exact onPath.begun
  · exact onPath_main onPath main
  · obtain ⟨q, accepted, reported⟩ := onPath.accepted
    obtain ⟨same, reported⟩ := reportedAt_guided reported guided
    refine ⟨⟨q, by rw [same]; exact accepted, reported⟩, ?_⟩
    rw [same]
    refine Or.inr (Or.inr ?_)
    rcases onPath.begun with run | sunrise | some_
    · cases guided <;> simp_all
    · cases guided <;> simp_all
    · exact some_

theorem stopping_iff (reported : ReportedAt s q) : s.pc.stopping = true ↔ q = .stopped := by
  have running {P : Prop} (at_ : q = .complete ∨ q.broken = true ∧ P) : q ≠ .stopped := by
    rcases at_ with rfl | ⟨broken, _⟩
    · decide
    · exact broken_running broken
  have short {P : Prop} {next : Phase} (at_ : q = next.reached ∨ q.broken = true ∧ P) : q ≠ .stopped := by
    rcases at_ with rfl | ⟨broken, _⟩
    · exact broken_running (reached_broken next)
    · exact broken_running broken
  unfold ReportedAt at reported
  have other (pc : Pc) (outside : pc.stopping = false) (different : q ≠ .stopped) :
      pc.stopping = true ↔ q = .stopped :=
    iff_of_false (by rw [outside]; exact Bool.false_ne_true) different
  split at reported <;> rename_i pc <;> rw [pc]
  case h_24 | h_25 | h_26 | h_27 | h_28 => exact iff_of_true rfl reported
  case h_5 | h_6 | h_7 | h_8 =>
    refine other _ rfl ?_
    rcases reported with rfl | ⟨rfl, _⟩ <;> decide
  all_goals refine other _ rfl ?_
  all_goals first
    | exact reported
    | exact running reported
    | exact short reported
    | exact reported ▸ broken_running (reached_broken _)
    | exact reported ▸ by decide

theorem stagesReported_of (onPath : OnPath s) : StagesReported s := by
  obtain ⟨q, accepted, reported⟩ := onPath.accepted
  obtain ⟨n, cut, later, fits, same⟩ := accepted_word accepted
  refine ⟨⟨n, cut, later, fits_prefix fits, ?_⟩, ?_⟩
  · rw [same]
    congr 1
    simp only [stopping_iff reported]
  · intro loop running going
    simp only [ReportedAt, loop, running, going] at reported
    obtain rfl := reported.resolve_right (by simp)
    obtain ⟨rfl, rfl⟩ := fits
    have some_ := (onPath.begun.resolve_left (by simp [loop])).resolve_left (by simp [loop])
    cases n with
    | zero => exact absurd same some_
    | succ n => exact ⟨n, by simpa [word] using same⟩

theorem stages_reported (p : Program) (restartFlag : Bool) (mainconf : Configuration) (dirty : Bool)
    (instances : List Instance) (as : List Action) :
    Always (step p) StagesReported (initial restartFlag mainconf dirty instances) as := by
  have begins : OnPath (initial restartFlag mainconf dirty instances) := ⟨⟨.complete, rfl, rfl⟩, Or.inl rfl⟩
  exact (always_invariant (fun _ _ _ onPath h => onPath_step onPath h) begins as).mono fun _ => stagesReported_of

end WfcCore.Core

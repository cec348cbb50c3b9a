import WfcCore.Config.Settling
import WfcCore.Core.Daemon

/-!
# Config in a fair run of the daemon

When files and options stay as they are, the timer of config goes on until no recorded time is out of date, and the
configuration is what `Settling` counts.
-/

namespace WfcCore.Core

open Foundation Wfc Config

namespace Daemon

variable {ω : Type} {x : External} {g : Global ω} {path : String} {p : Program} {s t : Daemon}
  {a : Action}

/-- Besides the core, config goes on, and so do the calls that have begun. -/
structure Fair (run : FairRun (step x g path p) Action.drives) : Prop where
  watches : ∀ n a t, a.watches → step x g path p (run.states n) a = some t → ∃ d, (run.labels (n + d)).watches
  calls : ∀ n i w rest, (run.states n).core.calls[i]? = some (w :: rest) → ∃ d, run.labels (n + d) = .core (.write i)

/-- From `n` on files and options stay as they are, and neither a stop nor an abort comes. -/
structure Quiet (run : FairRun (step x g path p) Action.drives) (n : Nat) : Prop where
  labels : ∀ m, n ≤ m → (run.labels m).quiet
  stop : ∀ m, n ≤ m → ¬ Stopping (run.states m).core
  abort : ∀ m, n ≤ m → (run.states m).core.abortFlag = false

theorem Quiet.later {run : FairRun (step x g path p) Action.drives} {n m : Nat} (quiet : Quiet run n) (later : n ≤ m) :
    Quiet run m :=
  ⟨fun k bound => quiet.labels k (later.trans bound), fun k bound => quiet.stop k (later.trans bound),
    fun k bound => quiet.abort k (later.trans bound)⟩

def Fair.watching {run : FairRun (step x g path p) Action.drives} (fair : Fair run) :
    FairRun (step x g path p) Action.watches :=
  ⟨run.states, run.labels, run.follows, fair.watches⟩

theorem still_step (quiet : a.quiet) (h : step x g path p s a = some t) :
    t.config.files = s.config.files ∧ t.config.config.options = s.config.config.options ∧
      (started s.config.pc = true → started t.config.pc = true) := by
  rcases step_cases h with ⟨b, rfl, _, _, _, same⟩ | ⟨b, rfl, taken, _⟩
  · rw [same]
    exact ⟨rfl, rfl, id⟩
  · rcases Watch.step_outside taken with ⟨rfl, main⟩ | outside
    · obtain ⟨files, options, begun⟩ := mainStep_still main
      exact ⟨files, options, fun before => begun (Bool.and_eq_true_iff.mp before).1⟩
    · cases outside with
      | tick _ _ same => rw [same]; exact ⟨rfl, rfl, fun _ => rfl⟩
      | clock _ same => rw [same]; exact ⟨rfl, rfl, id⟩
      | _ => contradiction

theorem idle_of_started {pc : Watch.Pc} (begun : started pc = true) (outside : pc.resting = true) :
    pc = .idle := by
  cases pc <;> first | rfl | contradiction

/-- A step of the core or of the clock, while config is idle. -/
theorem idle_step (quiet : a.quiet) (h : step x g path p s a = some t) (idle : s.config.pc = .idle)
    (other : ¬ a.watches) : t.config.pc = .idle ∧ t.config.config = s.config.config := by
  rcases step_cases h with ⟨b, rfl, _, _, _, same⟩ | ⟨b, rfl, taken, _⟩
  · rw [same]
    exact ⟨idle, rfl⟩
  · rcases Watch.step_outside taken with ⟨rfl, _⟩ | outside
    · exact absurd trivial other
    · cases outside with
      | tick => exact absurd trivial other
      | clock _ same => rw [same]; exact ⟨idle, rfl⟩
      | _ => contradiction

theorem tick_scans (h : step x g path p s (.config .tick) = some t) :
    t.config = s.config.goto (.scanning (s.config.config.changedMap.map Prod.fst)) := by
  rcases step_cases h with ⟨b, label, _⟩ | ⟨b, label, taken, _⟩
  · cases label
  · obtain rfl := Action.config.inj label
    exact (Option.some.inj (Option.ite_none_right_eq_some.mp taken).2).symm

theorem idle_watches (h : step x g path p s a = some t) (idle : s.config.pc = .idle) (watches : a.watches) :
    a = .config .tick := by
  cases a with
  | core b => exact watches.elim
  | config b =>
    cases b with
    | tick => rfl
    | main =>
      obtain ⟨c, taken, _⟩ := Option.map_eq_some_iff.mp h
      simp [Watch.step, Watch.mainStep, idle] at taken
    | _ => exact watches.elim

/-- Within a call nothing quiet changes what the call will leave. -/
theorem inside_whole (quiet : a.quiet) (h : step x g path p s a = some t) (inside : s.config.pc.resting = false) :
    (t.config.whole x g).config = (s.config.whole x g).config := by
  rcases step_cases h with ⟨b, rfl, _, _, _, same⟩ | ⟨b, rfl, taken, _⟩
  · rw [same]
  · rcases Watch.step_outside taken with ⟨rfl, main⟩ | outside
    · rw [Watch.whole_internal inside main]
    · cases outside with
      | tick idle => rw [idle] at inside; contradiction
      | clock now same => rw [same, Watch.whole_clock]
      | _ => contradiction

/-- No recorded time is out of date, and a scan that is under way finds nothing. -/
structure Resting (c : Watch.State) : Prop where
  nothing : changedFile c.files c.config.changedMap = none
  pc : c.pc = .idle ∨ ∃ rest, c.pc = .scanning rest ∧ ∀ file ∈ rest, c.changed file = false

theorem resting_main {c d : Watch.State} (resting : Resting c) (h : Watch.mainStep x g path c = some d) :
    Resting d ∧ d.config = c.config := by
  obtain ⟨nothing, idle | ⟨rest, scanning, clean⟩⟩ := resting
  · simp [Watch.mainStep, idle] at h
  · unfold Watch.mainStep at h
    rw [scanning] at h
    cases rest with
    | nil =>
      obtain rfl := Option.some.inj h
      exact ⟨⟨nothing, Or.inl rfl⟩, rfl⟩
    | cons file rest =>
      have moved : Resting (c.goto (.scanning rest)) :=
        ⟨nothing, Or.inr ⟨rest, rfl, fun other member => clean other (List.mem_cons_of_mem _ member)⟩⟩
      have same := clean file List.mem_cons_self
      unfold Watch.State.changed at same
      dsimp only at h
      split at h
      · obtain rfl := Option.some.inj h
        exact ⟨moved, rfl⟩
      · rename_i second known
        rw [known] at same
        rw [if_neg (of_decide_eq_false same)] at h
        obtain rfl := Option.some.inj h
        exact ⟨moved, rfl⟩

theorem resting_step (quiet : a.quiet) (ordered : Watch.Ordered s.config) (resting : Resting s.config)
    (h : step x g path p s a = some t) : Resting t.config ∧ t.config.config = s.config.config := by
  rcases step_cases h with ⟨b, rfl, _, _, _, same⟩ | ⟨b, rfl, taken, _⟩
  · rw [same]
    exact ⟨resting, rfl⟩
  · rcases Watch.step_outside taken with ⟨rfl, main⟩ | outside
    · exact resting_main resting main
    · cases outside with
      | tick _ _ same =>
        have clean := resting.nothing
        rw [Watch.changedFile_eq ordered, List.find?_eq_none] at clean
        rw [same]
        exact ⟨⟨resting.nothing, Or.inr ⟨_, rfl, fun file member => Bool.eq_false_iff.mpr (clean file member)⟩⟩, rfl⟩
      | clock _ same =>
        rw [same]
        exact ⟨⟨resting.nothing, resting.pc⟩, rfl⟩
      | _ => contradiction

section Config

variable {run : FairRun (step x g path p) Action.drives} {n : Nat}

theorem still_run {m : Nat} (later : n ≤ m) (quiet : Quiet run n)
    (begun : started (run.states n).config.pc = true) :
    (run.states m).config.files = (run.states n).config.files ∧
      (run.states m).config.config.options = (run.states n).config.config.options ∧
      started (run.states m).config.pc = true := by
  induction m, later using Nat.le_induction with
  | base => exact ⟨rfl, rfl, begun⟩
  | succ m later ih =>
    obtain ⟨files, options, keeps⟩ := still_step (quiet.labels m later) (run.follows m)
    exact ⟨files.trans ih.1, options.trans ih.2.1, keeps ih.2.2⟩

/-- Config comes to the end of the call that it is in. -/
theorem comes_idle (fair : Fair run) (quiet : Quiet run n) (begun : started (run.states n).config.pc = true) :
    ∃ m, n ≤ m ∧ (run.states m).config.pc = .idle ∧
      (run.states m).config.config = ((run.states n).config.whole x g).config := by
  by_cases outside : (run.states n).config.pc.resting = true
  · have idle := idle_of_started begun outside
    exact ⟨n, Nat.le_refl n, idle, by rw [Watch.whole_idle idle]⟩
  · let inside (u : Daemon) : Prop := u.config.pc.resting = false
    have enabled (u : Daemon) (within : inside u) : ∃ a t, a.watches ∧ step x g path p u a = some t := by
      obtain ⟨c, taken, _⟩ : ∃ c, Watch.mainStep x g path u.config = some c ∧ _ := Watch.inside_step within
      exact ⟨.config .main, _, trivial, Option.map_eq_some_iff.mpr ⟨c, taken, rfl⟩⟩
    have moves (u : Daemon) (a : Action) (t : Daemon) (within : inside u) (h : step x g path p u a = some t) :
        t.config.pc = u.config.pc ∧ ¬ a.watches ∨ t.config.pc.rank < u.config.pc.rank := by
      rcases step_cases h with ⟨b, rfl, _, _, _, same⟩ | ⟨b, rfl, taken, _⟩
      · exact Or.inl ⟨by rw [same], id⟩
      · rcases Watch.step_outside taken with ⟨rfl, main⟩ | outside
        · obtain ⟨c, taken', lower⟩ : ∃ c, Watch.mainStep x g path u.config = some c ∧ _ := Watch.inside_step within
          obtain rfl := Option.some.inj (taken'.symm.trans main)
          exact Or.inr lower
        · cases outside with
          | tick idle => simp [inside, idle, Watch.Pc.resting] at within
          | sighup idle => simp [inside, idle, Watch.Pc.resting] at within
          | reconfigured _ same => exact Or.inl ⟨by rw [same], id⟩
          | write _ _ same => exact Or.inl ⟨by rw [same], id⟩
          | clock _ same => exact Or.inl ⟨by rw [same], id⟩
    obtain ⟨d, within, out⟩ := fair.watching.leaves wellFounded_lt inside (fun u => u.config.pc.rank) enabled
      (fun u a t within h helps _ => (moves u a t within h).resolve_left fun same => same.2 helps)
      (fun u a t within h _ _ => (moves u a t within h).imp (fun same => by rw [same.1]) id)
      n (Bool.eq_false_iff.mpr outside)
    have kept (i : Nat) (bound : i ≤ d + 1) :
        ((run.states (n + i)).config.whole x g).config = ((run.states n).config.whole x g).config := by
      induction i with
      | zero => rfl
      | succ i ih =>
        have next := inside_whole (quiet.labels (n + i) (Nat.le_add_right n i)) (run.follows (n + i))
          (within i (Nat.le_of_succ_le_succ bound))
        exact next.trans (ih (Nat.le_of_succ_le bound))
    have idle : (run.states (n + d + 1)).config.pc = .idle :=
      idle_of_started (still_run (by omega) quiet begun).2.2 (Bool.eq_true_of_not_eq_false out)
    refine ⟨n + d + 1, by omega, idle, ?_⟩
    rw [← kept (d + 1) (Nat.le_refl _), Nat.add_assoc, Watch.whole_idle (by rwa [Nat.add_assoc] at idle)]

/-- Config ticks after it has come to rest. -/
theorem comes_tick (fair : Fair run) (quiet : Quiet run n) (idle : (run.states n).config.pc = .idle)
    (timer : (run.states n).config.config.options.reloadChangedMs ≠ 0) :
    ∃ m, n ≤ m ∧ run.labels m = .config .tick ∧ (run.states m).config.pc = .idle ∧
      (run.states m).config.config = (run.states n).config.config := by
  have ready : step x g path p (run.states n) (.config .tick) = some _ :=
    Option.map_eq_some_iff.mpr ⟨_, if_pos ⟨idle, timer⟩, rfl⟩
  obtain ⟨d, comes⟩ := fair.watches n (.config .tick) _ trivial ready
  obtain ⟨m, later, ⟨idle', same⟩, watches⟩ := run.until
    (Q := fun s : Daemon => s.config.pc = .idle ∧ s.config.config = (run.states n).config.config)
    (fun m later now other =>
      (idle_step (quiet.labels m later) (run.follows m) now.1 other).imp id fun same => same.trans now.2)
    ⟨idle, rfl⟩ comes
  exact ⟨m, later, idle_watches (run.follows m) idle' watches, idle', same⟩

/-- The next tick comes, and what it begins comes to its end. -/
theorem comes_again (fair : Fair run) (quiet : Quiet run n) (ordered : ∀ n, Watch.Ordered (run.states n).config)
    (idle : (run.states n).config.pc = .idle) (timer : (run.states n).config.config.options.reloadChangedMs ≠ 0) :
    ∃ m, n ≤ m ∧ (run.states m).config.pc = .idle ∧
      (run.states m).config.config = timerHandler x g (run.states n).config.files (run.states n).config.config := by
  obtain ⟨first, later, ticks, idle', same⟩ := comes_tick fair quiet idle timer
  have begun : started (run.states n).config.pc = true := by rw [idle]; rfl
  have files := (still_run later quiet begun).1
  have scan := tick_scans (ticks ▸ run.follows first)
  obtain ⟨m, after, rest, reached⟩ := comes_idle fair (quiet.later (Nat.le_succ_of_le later)) (by rw [scan]; rfl)
  refine ⟨m, by omega, rest, ?_⟩
  rw [reached, scan, Watch.whole_tick (ordered first), files, same]

theorem comes_settling (fair : Fair run) (quiet : Quiet run n) (ordered : ∀ n, Watch.Ordered (run.states n).config)
    (idle : (run.states n).config.pc = .idle) (timer : (run.states n).config.config.options.reloadChangedMs ≠ 0)
    (ticks : Nat) :
    ∃ m, n ≤ m ∧ (run.states m).config.pc = .idle ∧
      (run.states m).config.config = settling x g (run.states n).config.files (run.states n).config.config ticks := by
  have begun : started (run.states n).config.pc = true := by rw [idle]; rfl
  have sorted := (ordered n).times
  induction ticks with
  | zero => exact ⟨n, Nat.le_refl n, idle, by rw [← timerHandler_iterate sorted, Function.iterate_zero, id_eq]⟩
  | succ ticks ih =>
    obtain ⟨m, later, idle', same⟩ := ih
    obtain ⟨files, options, _⟩ := still_run later quiet begun
    obtain ⟨m', later', idle'', same'⟩ :=
      comes_again fair (quiet.later later) ordered idle' (by rw [options]; exact timer)
    exact ⟨m', later.trans later', idle'', by rw [same', files, same, timerHandler_settling sorted]⟩

theorem stays_resting {m : Nat} (later : n ≤ m) (quiet : Quiet run n)
    (ordered : ∀ n, Watch.Ordered (run.states n).config) (resting : Resting (run.states n).config) :
    Resting (run.states m).config ∧ (run.states m).config.config = (run.states n).config.config := by
  induction m, later using Nat.le_induction with
  | base => exact ⟨resting, rfl⟩
  | succ m later ih =>
    obtain ⟨resting', same⟩ := resting_step (quiet.labels m later) (ordered m) ih.1 (run.follows m)
    exact ⟨resting', same.trans ih.2⟩

/-- With quiet files config comes to rest, and holds then what the ticks that there may be have left. -/
theorem config_settles (fair : Fair run) (quiet : Quiet run n) (ordered : ∀ n, Watch.Ordered (run.states n).config)
    (begun : started (run.states n).config.pc = true)
    (timer : (run.states n).config.config.options.reloadChangedMs ≠ 0) :
    let files := (run.states n).config.files
    let c := ((run.states n).config.whole x g).config
    ∃ m, n ≤ m ∧ ∀ k, m ≤ k → Resting (run.states k).config ∧
      (run.states k).config.config = settling x g files c (staleFiles files c.changedMap).length := by
  intro files c
  obtain ⟨first, later, idle, reached⟩ := comes_idle fair quiet begun
  obtain ⟨same, options, _⟩ := still_run later quiet begun
  have sorted := (ordered first).times
  obtain ⟨m, later', idle', settled⟩ := comes_settling fair (quiet.later later) ordered idle
    (by rw [options]; exact timer) (staleFiles files c.changedMap).length
  obtain ⟨same', _, _⟩ := still_run later' (quiet.later later) (by rw [idle]; rfl)
  rw [same] at settled same'
  rw [reached] at settled sorted
  have nothing : changedFile (run.states m).config.files (run.states m).config.config.changedMap = none := by
    rw [same', settled, changedFile_settling sorted, List.getElem?_eq_none_iff]
    exact reloadOrder_length _ _
  refine ⟨m, later.trans later', fun k after => ?_⟩
  obtain ⟨resting, kept⟩ :=
    stays_resting after (quiet.later (later.trans later')) ordered ⟨nothing, Or.inl idle'⟩
  exact ⟨resting, kept.trans settled⟩

end Config

end Daemon

end WfcCore.Core

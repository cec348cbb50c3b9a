import WfcCore.Config.Reload
import WfcCore.Core.Watching

/-!
# How an edit comes to the components

An edit passes two loops before the components see it: the timer of config finds it and reloads, which raises
`_reconfigure_flag`, and the timer of the core finds the flag and begins a sunrise.
-/

namespace WfcCore.Core

open Foundation Wfc Config

namespace Daemon

variable {ω : Type} {x : External} {g : Global ω} {path : String} {p : Program} {components : List String}
  {s t : Daemon} {a : Action}

/-! ### The way to the next pass -/

section Core

variable {c d : State}

/-- The way to the next pass when a reconfiguration is asked for and no stop. -/
def turnRank (c : State) : Nat × Nat :=
  match c.pc with
  | .idleStop => (8, 0)
  | .idleReconfigure => (7, 0)
  | .idleClear => (6, 0)
  | _ => c.endRank

/-- `_idle` between its two questions. -/
def asking : Pc → Bool
  | .idleStop | .idleReconfigure | .idleClear => true
  | _ => false

theorem turnRank_eq (other : asking c.pc = false) : turnRank c = c.endRank := by
  unfold turnRank
  split <;> first | rfl | (rename_i pc; rw [pc] at other; contradiction)

theorem asking_main (h : mainStep p c = some d) (after : asking d.pc = true) :
    c.pc = .idleSignal ∨ c.pc = .idleSetStop ∨ asking c.pc = true := by
  unfold mainStep at h
  split at h <;> rename_i pc
  all_goals try split at h
  all_goals first
    | contradiction
    | obtain rfl := Option.some.inj h
  all_goals rw [pc]
  all_goals first
    | exact Or.inl rfl
    | exact Or.inr (Or.inl rfl)
    | exact Or.inr (Or.inr rfl)
    | contradiction
    | (simp only [goto_pc] at after; split at after <;> contradiction)

theorem turnRank_beside (beside : Beside c d) : turnRank d = turnRank c ∨ rankLess (turnRank d) (turnRank c) := by
  by_cases other : asking c.pc = false
  · rw [turnRank_eq other, turnRank_eq (by rw [beside.pc]; exact other)]
    exact endRank_beside beside
  · left
    unfold turnRank
    rw [beside.pc]
    cases pc : c.pc <;> first | rfl | (rw [pc] at other; exact absurd rfl other)

theorem turnRank_guided {b : Core.Action} (guided : Guided c d b) : rankLess (turnRank d) (turnRank c) := by
  have others : asking c.pc = false ∧ asking d.pc = false := by
    cases guided with
    | tick pc same => rw [pc, same]; exact ⟨rfl, rfl⟩
    | configured ok _ _ _ _ pc same => rw [pc, same]; cases ok <;> exact ⟨rfl, rfl⟩
    | sorted _ _ _ pc _ _ same => rw [pc, same]; exact ⟨rfl, rfl⟩
    | stopSorted _ pc _ _ same => rw [pc, same]; exact ⟨rfl, rfl⟩
  rw [turnRank_eq others.1, turnRank_eq others.2]
  exact endRank_guided guided

/-- While the flag stays up and no stop comes, a statement leads on towards the next pass. -/
theorem turnRank_main (before : ¬ Stopping c) (after : ¬ Stopping d) (flag : c.reconfigureFlag = true)
    (stays : d.reconfigureFlag = true) (h : mainStep p c = some d) : rankLess (turnRank d) (turnRank c) := by
  have down : c.gsStopSignal = false ∧ c.stopFlag = false := by simpa [Stopping] using before
  by_cases signal : c.pc = .idleSignal
  · simp only [mainStep, signal, down.1] at h
    obtain rfl := Option.some.inj h
    simp [turnRank, State.endRank, signal, State.goto, rankLess_iff]
  · by_cases stop : c.pc = .idleSetStop
    · simp only [mainStep, stop] at h
      obtain rfl := Option.some.inj h
      exact absurd (Or.inr rfl) after
    · by_cases asks : asking c.pc = true
      · cases pc : c.pc <;> first | (rw [pc] at asks; contradiction) | skip
        case idleStop =>
          simp only [mainStep, pc, down.2] at h
          obtain rfl := Option.some.inj h
          simp [turnRank, pc, State.goto, rankLess_iff]
        case idleReconfigure =>
          simp only [mainStep, pc, flag] at h
          obtain rfl := Option.some.inj h
          simp [turnRank, pc, State.goto, rankLess_iff]
        case idleClear =>
          simp only [mainStep, pc] at h
          obtain rfl := Option.some.inj h
          contradiction
      · have other : asking d.pc = false := by
          by_contra on
          rcases asking_main h (by simpa using on) with first | second | third
          · exact signal first
          · exact stop second
          · exact asks third
        rw [turnRank_eq other, turnRank_eq (Bool.eq_false_iff.mpr asks)]
        exact endRank_main (fun pc => absurd pc signal) h

/-- What is in force stays in force while nothing new is stored. -/
theorem current_step {b : Core.Action} (h : Core.step ⟨components, true⟩ c b = some d) (same : d.mainconf = c.mainconf)
    (settling : Settling components c) (current : ∀ component ∈ components, Current component c) :
    ∀ component ∈ components, Current component d := by
  intro component member
  have keeps (events : inForce component d.events = inForce component c.events) : Current component d :=
    current_congr same events (current component member)
  rcases Core.step_cases h with ⟨_, beside⟩ | ⟨_, main⟩ | guided
  · exact keeps (by rw [beside.events])
  · exact keeps (mainStep_inForce main component)
  · cases guided with
    | tick _ made =>
      apply keeps
      rw [made]
      show inForce component (c.events ++ [.tick c.abortFlag]) = _
      rw [inForce_append, inForce_quiet (by simp), Option.none_or]
    | configured ok caller name section_ rest pc made =>
      simp only [Settling, pc] at settling
      by_cases this : name = component
      · intro _
        rw [same, made]
        show inForce component (c.emit (.configure name section_ ok)).events = _
        rw [inForce_emit, if_pos this, settling.1, this]
      · apply keeps
        rw [made]
        show inForce component (c.emit (.configure name section_ ok)).events = _
        rw [inForce_emit, if_neg this]
    | sorted _ _ _ _ _ _ made => exact keeps (by rw [made]; rfl)
    | stopSorted _ _ _ _ made => exact keeps (by rw [made]; rfl)

end Core

section Core

variable {run : FairRun (step x g path ⟨components, true⟩) Action.drives} {n : Nat}

theorem loaded_step (h : step x g path p s a = some t) (ready : loaded s.config.pc = true) :
    loaded t.config.pc = true := by
  rcases step_cases h with ⟨_, _, _, _, _, same⟩ | ⟨_, _, taken, _⟩
  · rw [same]
    exact ready
  · exact step_loaded taken ready

theorem drives_enabled (ready : loaded s.config.pc = true) (running : s.core.pc.ended = false) :
    ∃ a t, a.drives ∧ step x g path p s a = some t := by
  obtain ⟨b, c, drives, taken⟩ := Core.drives_enabled p running
  have own : isReload b = false := by
    cases b with
    | call _ => rcases drives with advances | tick <;> contradiction
    | _ => rfl
  exact ⟨.core b, _, drives, if_pos ⟨ready, own⟩ |>.trans (Option.map_eq_some_iff.mpr ⟨c, taken, rfl⟩)⟩

theorem ended_leaves {pc : Pc} (within : pc.leaves = false) : pc.ended = false := by
  cases pc <;> first | rfl | contradiction

/-- A call of `core_reconfigure` that has begun raises the flag. -/
theorem comes_raised (fair : Fair run) (pending : Pending (run.states n).core) :
    ∃ m, n ≤ m ∧ (run.states m).core.reconfigureFlag = true := by
  obtain ⟨i, rest, waiting⟩ := pending
  obtain ⟨d, comes⟩ := fair.calls n i _ _ waiting
  obtain ⟨m, later, waiting, write⟩ := run.until (P := fun a => a = .core (.write i))
    (Q := fun s : Daemon => s.core.calls[i]? = some (.reconfigureFlag :: rest))
    (fun m _ now other => call_kept (run.follows m) other now) waiting comes
  refine ⟨m + 1, Nat.le_succ_of_le later, ?_⟩
  rcases step_cases (write ▸ run.follows m) with ⟨b, label, _, _, taken, _⟩ | ⟨b, label, _⟩
  · obtain rfl := Action.core.inj label
    obtain ⟨w, more, read, same⟩ := writeStep_some taken
    obtain rfl := (List.cons.inj (Option.some.inj (read.symm.trans waiting))).1
    rw [same]
    rfl
  · cases label

/-- With the flag up, a tick comes that clears it, and a sunrise begins. -/
theorem comes_sunrise (quiet : Quiet run n) (linked : ∀ n, Linked (run.states n))
    (ready : loaded (run.states n).config.pc = true) (raised : (run.states n).core.reconfigureFlag = true) :
    ∃ m, n ≤ m ∧ (run.states m).core.pc = .sunrise .idle := by
  let inside (u : Daemon) : Prop :=
    loaded u.config.pc = true ∧ u.core.pc.leaves = false ∧ ¬ Stopping u.core ∧ u.core.reconfigureFlag = true
  have ranked (u : Daemon) (a : Action) (t : Daemon) (within : inside u)
      (h : step x g path ⟨components, true⟩ u a = some t) (after : inside t) :
      rankLess (turnRank t.core) (turnRank u.core) ∨ ¬ a.drives ∧ Beside u.core t.core := by
    rcases (step_moves h).cases with beside | main | ⟨b, guided⟩
    · exact Or.inr beside
    · exact Or.inl (turnRank_main within.2.2.1 after.2.2.1 within.2.2.2 after.2.2.2 main)
    · exact Or.inl (turnRank_guided guided)
  have running (m : Nat) (later : n ≤ m) : (run.states m).core.pc.leaves = false := by
    by_contra leaves
    exact quiet.stop m later (Or.inr ((linked m).leaves (by simpa using leaves)))
  obtain ⟨d, within, out⟩ := run.leaves (WellFounded.prod_lex Nat.lt_wfRel.wf Nat.lt_wfRel.wf) inside
    (fun u => turnRank u.core) (fun u within => drives_enabled within.1 (ended_leaves within.2.1))
    (fun u a t within h helps after => (ranked u a t within h after).resolve_right fun beside => beside.1 helps)
    (fun u a t within h _ after => (ranked u a t within h after).elim Or.inr fun beside => turnRank_beside beside.2)
    n ⟨ready, running n (Nat.le_refl n), quiet.stop n (Nat.le_refl n), raised⟩
  obtain ⟨still, _, _, raised⟩ := within d (Nat.le_refl d)
  have h := run.follows (n + d)
  have cleared : (run.states (n + d + 1)).core.reconfigureFlag = false := by
    by_contra up
    exact out ⟨loaded_step h still, running _ (by omega), quiet.stop _ (by omega), by simpa using up⟩
  refine ⟨n + d + 1, by omega, ?_⟩
  rcases step_cases h with ⟨b, _, _, _, taken, _⟩ | ⟨b, _, _, core⟩
  · by_cases clears : b = .main ∧ (run.states (n + d)).core.pc = .idleClear
    · obtain ⟨rfl, pc⟩ := clears
      simp only [Core.step, mainStep, pc] at taken
      rw [← Option.some.inj taken]
      rfl
    · rw [reconfigureFlag_kept taken clears raised] at cleared
      contradiction
  · rw [core] at cleared
    exact absurd (cleared.symm.trans raised) Bool.false_ne_true

/-- A pass comes to its end. -/
theorem pass_ends (ready : loaded (run.states n).config.pc = true) :
    ∃ m, n ≤ m ∧ (run.states m).core.pc.inPass = false := by
  by_cases begun : (run.states n).core.pc.inPass = true
  · let inside (u : Daemon) : Prop := loaded u.config.pc = true ∧ u.core.pc.inPass = true
    have ranked (u : Daemon) (a : Action) (t : Daemon) (within : inside u)
        (h : step x g path ⟨components, true⟩ u a = some t) :
        rankLess t.core.endRank u.core.endRank ∨ ¬ a.drives ∧ Beside u.core t.core :=
      (step_moves h).endRank fun pc => by
        have pass := within.2
        rw [pc] at pass
        contradiction
    have running (u : Daemon) (within : inside u) : u.core.pc.ended = false := by
      have pass := within.2
      cases pc : u.core.pc <;> first | rfl | (rw [pc] at pass; contradiction)
    obtain ⟨d, within, out⟩ := run.leaves (WellFounded.prod_lex Nat.lt_wfRel.wf Nat.lt_wfRel.wf) inside
      (fun u => u.core.endRank) (fun u within => drives_enabled within.1 (running u within))
      (fun u a t within h helps _ => (ranked u a t within h).resolve_right fun beside => beside.1 helps)
      (fun u a t within h _ _ => (ranked u a t within h).elim Or.inr fun beside => endRank_beside beside.2)
      n ⟨ready, begun⟩
    refine ⟨n + d + 1, by omega, ?_⟩
    by_contra on
    exact out ⟨loaded_step (run.follows _) (within d (Nat.le_refl d)).1, by simpa using on⟩
  · exact ⟨n, Nat.le_refl n, Bool.eq_false_iff.mpr begun⟩

/-- Once nothing new is stored, every component comes to have its section, and keeps it. -/
theorem components_settle (fair : Fair run) (quiet : Quiet run n) (linked : ∀ n, Linked (run.states n))
    (ready : loaded (run.states n).config.pc = true) (coming : Coming components (run.states n).core)
    {conf : Configuration} (stored : ∀ m, n ≤ m → (run.states m).core.mainconf = conf) :
    ∃ m, n ≤ m ∧ ∀ k, m ≤ k → ∀ component ∈ components, Current component (run.states k).core := by
  have stays (m : Nat) (later : n ≤ m) : loaded (run.states m).config.pc = true := by
    induction m, later using Nat.le_induction with
    | base => exact ready
    | succ m _ ih => exact loaded_step (run.follows m) ih
  have sunrises (m : Nat) (later : n ≤ m) (raised : (run.states m).core.reconfigureFlag = true) :
      ∃ k, n ≤ k ∧ Settling components (run.states k).core := by
    obtain ⟨k, after, pc⟩ := comes_sunrise (quiet.later later) linked (stays m later) raised
    exact ⟨k, later.trans after, by simp [Settling, pc]⟩
  obtain ⟨first, later, begins⟩ : ∃ k, n ≤ k ∧ Settling components (run.states k).core := by
    rcases coming with aborted | raised | pending | settling
    · rw [quiet.abort n (Nat.le_refl n)] at aborted
      contradiction
    · exact sunrises n (Nat.le_refl n) raised
    · obtain ⟨m, later, raised⟩ := comes_raised fair pending
      exact sunrises m later raised
    · exact ⟨n, Nat.le_refl n, settling⟩
  have same (m : Nat) (after : first ≤ m) : (run.states (m + 1)).core.mainconf = (run.states m).core.mainconf := by
    rw [stored m (later.trans after), stored (m + 1) (later.trans (Nat.le_succ_of_le after))]
  have settling (m : Nat) (after : first ≤ m) : Settling components (run.states m).core := by
    induction m, after using Nat.le_induction with
    | base => exact begins
    | succ m after ih =>
      rcases step_cases (run.follows m) with ⟨b, _, _, _, taken, _⟩ | ⟨b, _, _, core⟩
      · refine (settling_step taken (same m after) ih).resolve_right fun aborted => ?_
        rw [quiet.abort (m + 1) (by omega)] at aborted
        contradiction
      · exact settling_congr (by rw [core]) (same m after) (by rw [core]) ih
  obtain ⟨m, after, past⟩ := pass_ends (stays first later)
  refine ⟨m, later.trans after, fun k since => ?_⟩
  induction k, since using Nat.le_induction with
  | base => exact settling_over (settling m after) past
  | succ k since ih =>
    rcases step_cases (run.follows k) with ⟨b, _, _, _, taken, _⟩ | ⟨b, _, _, core⟩
    · exact current_step taken (same k (after.trans since)) (settling k (after.trans since)) ih
    · intro component member
      exact current_congr (same k (after.trans since)) (by rw [core]) (ih component member)

end Core

theorem settling_mainconf (x : External) (g : Global ω) (files : Files) (c : ConfigState) :
    (settling x g files c (staleFiles files c.changedMap).length).mainconf =
      if staleFiles files c.changedMap = [] then c.mainconf
      else (parseLoaded x g (loadFromFile x g c.options.ini files c.path true).confstr).getD c.mainconf := by
  rw [settling, List.take_of_length_le (reloadOrder_length _ _)]
  cases staleFiles files c.changedMap <;> rfl

/-- From every reachable state, in every fair run in which files and options stay as they are and neither a stop nor an
abort comes: from some time on the stored configuration is what one reload of the files gives, or the old one where that
was refused or no recorded time was out of date; config reloads no more, and every component with a section has been
configured with it last. -/
theorem edits_delivered (x : External) (g : Global ω) (path : String) (components : List String) (files : Files)
    (clock : Int) (restartFlag dirty : Bool) (instances : List Instance) (as : List Action)
    (run : FairRun (step x g path ⟨components, true⟩) Action.drives)
    (reached : exec (step x g path ⟨components, true⟩) (start files clock restartFlag dirty instances) as =
      some (run.states 0))
    (fair : Fair run) (quiet : Quiet run 0) (begun : started (run.states 0).config.pc = true)
    (timer : (run.states 0).config.config.options.reloadChangedMs ≠ 0) :
    let present := (run.states 0).config.files
    let left := ((run.states 0).config.whole x g).config
    let conf := if staleFiles present left.changedMap = [] then left.mainconf
      else (parseLoaded x g (loadFromFile x g left.options.ini present left.path true).confstr).getD left.mainconf
    ∃ m, ∀ k, m ≤ k → (run.states k).config.config.mainconf = conf ∧
      changedFile present (run.states k).config.config.changedMap = none ∧
      ∀ component ∈ components, getConfig component conf ≠ "" →
        inForce component (run.states k).core.events = some (getConfig component conf) := by
  intro present left conf
  have keeps (s : Daemon) (a : Action) (t : Daemon) (now : Linked s ∧ Coming components s.core)
      (h : step x g path ⟨components, true⟩ s a = some t) : Linked t ∧ Coming components t.core :=
    ⟨linked_step now.1 h, coming_step now.1 h now.2⟩
  have begins : Linked (run.states 0) ∧ Coming components (run.states 0).core :=
    exec_invariant keeps
      ⟨linked_start files clock restartFlag dirty instances, Or.inr (Or.inr (Or.inr trivial))⟩ reached
  have together := run.invariant begins keeps
  have ordered (n : Nat) : Watch.Ordered (run.states n).config := (together n).1.ordered
  obtain ⟨first, later, settled⟩ := config_settles fair quiet ordered begun timer
  have still (k : Nat) (after : first ≤ k) := still_run (later.trans after) quiet begun
  have stored (k : Nat) (after : first ≤ k) : (run.states k).config.config.mainconf = conf := by
    rw [(settled k after).2]
    exact settling_mainconf x g present left
  obtain ⟨m, after, current⟩ := components_settle fair (quiet.later later) (fun n => (together n).1)
    (Bool.and_eq_true_iff.mp (still first (Nat.le_refl _)).2.2).1 (together first).2
    (fun k after => (together k).1.mainconf.trans (stored k after))
  refine ⟨m, fun k since => ⟨stored k (after.trans since), ?_, fun component member => ?_⟩⟩
  · have nothing := (settled k (after.trans since)).1.nothing
    rwa [(still k (after.trans since)).1] at nothing
  · have now := current k since component member
    rw [Current, (together k).1.mainconf, stored k (after.trans since)] at now
    exact now

/-! ### A log level is edited -/

def levelText (level : String) : String := Reload.braced ("\"logger\":" ++ Reload.loggerSection level)

/-- The parts outside the package on these texts. -/
def levels : External :=
  { External.plain with
    json := { External.plain.json with
      parseDict := fun s => ["1", "2"].findSome? fun level =>
        if s == levelText level then some [("logger", Reload.loggerSection level)] else none } }

def levelFile (file : String) : Option File := if file = "daemon.conf" then some ⟨levelText "1", 1⟩ else none

def untilEdit : List Action :=
  (List.replicate 5 .main ++ [.reconfigured { ConfigConfig.default with reloadChangedMs := 1000 }] :
      List Watch.Action).map .config ++
    (List.replicate 4 .main ++ [.configured true] ++ List.replicate 12 .main : List Core.Action).map .core ++
      [.config (.clock 3), .config (.write "daemon.conf" (levelText "2"))]

/-- The edited level is read, stored, and given to the component. -/
def delivery : List Action :=
  ([.tick, .main, .main, .main] : List Watch.Action).map .config ++
    ([.write 0, .tick] ++ List.replicate 7 .main ++ [.configured true] ++ List.replicate 11 .main :
      List Core.Action).map .core

def turn : List Action :=
  ([.tick, .main, .main] : List Watch.Action).map .config ++
    ([.tick] ++ List.replicate 4 .main : List Core.Action).map .core

def edited : Daemon where
  config :=
    { files := Function.update levelFile "daemon.conf" (some ⟨levelText "2", 3⟩)
      clock := 3
      config :=
        ⟨{ ConfigConfig.default with reloadChangedMs := 1000 }, [("logger", Reload.loggerSection "1")], "daemon.conf",
          [("daemon.conf", 1)]⟩
      seen := texts levelFile
      pc := .idle }
  core :=
    { initial false [("logger", Reload.loggerSection "1")] false [] with
      pc := .mainLoop
      events :=
        [.sunrise, .stage .configuring, .configure "logger" (Reload.loggerSection "1") true, .stage .initializing,
          .stage .starting, .stage .isRun, .sunriseEnd false, .afterStart] }

def delivered (events : List Event) : Daemon where
  config :=
    { edited.config with
      config :=
        ⟨{ ConfigConfig.default with reloadChangedMs := 1000 }, [("logger", Reload.loggerSection "2")], "daemon.conf",
          [("daemon.conf", 3)]⟩
      seen := texts edited.config.files }
  core :=
    { initial false [("logger", Reload.loggerSection "2")] false [] with
      pc := .mainLoop
      calls := [[]]
      events := events }

def levelStep : Daemon → Action → Option Daemon := step levels Reload.logger "daemon.conf" ⟨["logger"], true⟩

/-- A call that has begun makes its write now. -/
def goesOn : List (List Write) → Action → Bool
  | [], _ | [[]], _ | [[_]], .core (.write 0) => true
  | _, _ => false

def tended (s : Daemon) (a : Action) : Bool :=
  a.quiet && !s.core.gsStopSignal && !s.core.stopFlag && !s.core.abortFlag && goesOn s.core.calls a

theorem tended_quiet (h : tended s a = true) :
    a.quiet = true ∧ ¬ Stopping s.core ∧ s.core.abortFlag = false := by
  simp only [tended, Bool.and_eq_true, Bool.not_eq_true'] at h
  obtain ⟨⟨⟨⟨quiet, signal⟩, stop⟩, abort⟩, _⟩ := h
  exact ⟨quiet, by simp [Stopping, signal, stop], abort⟩

theorem tended_calls (h : tended s a = true) {i : Nat} {w : Write} {rest : List Write}
    (waiting : s.core.calls[i]? = some (w :: rest)) : a = .core (.write i) := by
  have goes := (Bool.and_eq_true_iff.mp h).2
  unfold goesOn at goes
  split at goes <;> rename_i calls
  · simp [calls] at waiting
  · rcases i with _ | i <;> simp [calls] at waiting
  · rcases i with _ | i
    · rfl
    · simp [calls] at waiting
  · contradiction

theorem edits_delivered_level : ∃ run : FairRun levelStep Action.drives, run.states 0 = edited ∧
    ∃ m, ∀ k, m ≤ k → (run.states k).config.config.mainconf = [("logger", Reload.loggerSection "2")] ∧
      changedFile edited.config.files (run.states k).config.config.changedMap = none ∧
      ∀ component ∈ ["logger"], getConfig component [("logger", Reload.loggerSection "2")] ≠ "" →
        inForce component (run.states k).core.events =
          some (getConfig component [("logger", Reload.loggerSection "2")]) := by
  have before : exec levelStep (start levelFile 2 false false []) untilEdit = some edited := by rfl
  have first : ∃ es, exec levelStep edited delivery = some (delivered es) := ⟨_, by rfl⟩
  obtain ⟨es, first⟩ := first
  have met : Meets levelStep (fun s a => tended s a = true) edited delivery := of_decide_eq_true (by rfl)
  have turns (u : Daemon) (now : ∃ es, u = delivered es) :
      ∃ v, exec levelStep u turn = some v ∧ (∃ es, v = delivered es) ∧
        Meets levelStep (fun s a => tended s a = true) u turn := by
    obtain ⟨es, rfl⟩ := now
    exact ⟨delivered _, by rfl, ⟨_, rfl⟩, of_decide_eq_true (by rfl)⟩
  have helps : ∃ a ∈ turn, a.drives := ⟨.core .tick, by simp [turn], Or.inr rfl⟩
  obtain ⟨run, starts, along, recurs⟩ := FairRun.exists_lasso (fun s a => tended s a = true) (∃ es, · = delivered es)
    first met ⟨es, rfl⟩ turns helps
  refine ⟨run, starts, ?_⟩
  have quiet : Quiet run 0 :=
    ⟨fun n _ => (tended_quiet (along n)).1, fun n _ => (tended_quiet (along n)).2.1,
      fun n _ => (tended_quiet (along n)).2.2⟩
  have fair : Fair run := by
    refine ⟨fun n _ _ _ _ => ?_, fun n i w rest waiting => ⟨0, tended_calls (along n) waiting⟩⟩
    obtain ⟨d, ticks⟩ := recurs n (.config .tick) (by simp [turn])
    exact ⟨d, by rw [ticks]; trivial⟩
  have reached : exec levelStep (start levelFile 2 false false []) untilEdit = some (run.states 0) := by
    rw [starts]
    exact before
  have delivers := edits_delivered levels Reload.logger "daemon.conf" ["logger"] levelFile 2 false false [] untilEdit
    run reached fair quiet (by rw [starts]; rfl) (by rw [starts]; decide)
  rw [starts] at delivers
  exact delivers

end Daemon

end WfcCore.Core

import WfcCore.Core.Calls

/-!
# Reconfigurations between config and core

A reload stores the new configuration and then raises `_reconfigure_flag`; a tick clears the flag and then
reads the configuration, component by component. So whenever no reload and no pass is under way, every
component with a section has been configured with it. A component without a section is not visited at
all, and stays configured as it was.
-/

namespace WfcCore.Core

open Foundation Wfc Config

def configuredWith (component : String) : Event → Option String
  | .configure name section_ _ => if name = component then some section_ else none
  | _ => none

/-- The text that a component was last configured with. -/
def inForce (component : String) (events : List Event) : Option String :=
  (events.filterMap (configuredWith component)).getLast?

/-- A component with a section in the stored configuration was last configured with that section. -/
def Current (component : String) (s : State) : Prop :=
  getConfig component s.mainconf ≠ "" → inForce component s.events = some (getConfig component s.mainconf)

/-- A reload has stored its configuration and has not raised `_reconfigure_flag` yet. -/
def BetweenSteps (as : List Action) : Prop :=
  ∃ i conf, (callsOf as)[i]? = some (.reload conf) ∧ writesOf i as = 1

/-- The first configure pass is still to come, or a pass is under way; the pass of a tick begins where the
tick has read the flag as raised. -/
def Pc.inPass : Pc → Bool
  | .run | .idleClear | .sunrise _ | .configureNext .. | .getConfig .. | .configure .. | .configureFailed .. => true
  | _ => false

structure Settled (as : List Action) (s : State) : Prop where
  flag : s.reconfigureFlag = false
  reloads : ¬ BetweenSteps as
  pass : s.pc.inPass = false
  abort : s.abortFlag = false

variable {p : Program} {components : List String} {s t : State} {as : List Action}

/-! ### What is in force -/

theorem inForce_append (component : String) (events es : List Event) :
    inForce component (events ++ es) = (inForce component es).or (inForce component events) := by
  unfold inForce
  rw [List.filterMap_append, List.getLast?_append]

theorem inForce_quiet {component : String} {es : List Event} (quiet : ∀ e ∈ es, ∀ name section_ ok,
    e ≠ .configure name section_ ok) : inForce component es = none := by
  have none_ : es.filterMap (configuredWith component) = [] := by
    apply List.filterMap_eq_nil_iff.mpr
    intro e member
    cases e with
    | configure name section_ ok => exact absurd rfl (quiet _ member name section_ ok)
    | _ => rfl
  unfold inForce
  rw [none_]
  rfl

theorem inForce_emit (component name section_ : String) (ok : Bool) (s : State) :
    inForce component (s.emit (.configure name section_ ok)).events =
      if name = component then some section_ else inForce component s.events := by
  show inForce component (s.events ++ [.configure name section_ ok]) = _
  rw [inForce_append]
  by_cases same : name = component <;> simp [inForce, configuredWith, same]

/-! ### Statements of the main thread -/

theorem emitted_no_configure (s : State) :
    ∀ e ∈ s.emitted, ∀ name section_ ok, e ≠ .configure name section_ ok := by
  unfold State.emitted
  split
  case h_4 phase _ _ _ => cases phase <;> simp [Phase.event]
  all_goals try split
  all_goals simp

theorem mainStep_inForce (h : mainStep p s = some t) (component : String) :
    inForce component t.events = inForce component s.events := by
  rw [(mainStep_effect h).events, inForce_append, inForce_quiet (emitted_no_configure s), Option.none_or]

/-! ### Nothing is lost -/

/-- What a pass still has to do, by where the main thread is. -/
def Settling (components : List String) (s : State) : Prop :=
  match s.pc with
  | .run | .idleClear | .sunrise _ | .configureFailed .. => True
  | .configureNext _ rest => ∀ c ∈ components, c ∉ rest → Current c s
  | .getConfig _ component rest => ∀ c ∈ components, c ≠ component → c ∉ rest → Current c s
  | .configure _ component section_ rest =>
    section_ = getConfig component s.mainconf ∧ ∀ c ∈ components, c ≠ component → c ∉ rest → Current c s
  | _ => ∀ c ∈ components, Current c s

theorem current_congr {component : String} (mainconf : t.mainconf = s.mainconf)
    (events : inForce component t.events = inForce component s.events) (current : Current component s) :
    Current component t := by
  unfold Current
  rw [mainconf, events]
  exact current

theorem settling_congr (pc : t.pc = s.pc) (mainconf : t.mainconf = s.mainconf) (events : t.events = s.events)
    (settling : Settling components s) : Settling components t := by
  have keeps {component : String} : Current component s → Current component t :=
    current_congr mainconf (by rw [events])
  unfold Settling at settling ⊢
  rw [pc, mainconf]
  split at settling
  case h_5 => exact fun c member read => keeps (settling c member read)
  case h_6 => exact fun c member other read => keeps (settling c member other read)
  case h_7 => exact ⟨settling.1, fun c member other read => keeps (settling.2 c member other read)⟩
  case h_8 => exact fun c member => keeps (settling c member)
  all_goals trivial

/-- A statement of the main thread keeps up with what it has read, unless an abort ends the pass. -/
theorem settling_main (h : mainStep ⟨components, true⟩ s = some t) (settling : Settling components s) :
    Settling components t ∨ t.abortFlag = true := by
  have keeps {component : String} : Current component s → Current component t :=
    current_congr (mainStep_effect h).kept.mainconf (mainStep_inForce h component)
  unfold Settling at settling
  unfold mainStep at h
  split at h <;> rename_i pc <;> simp only [pc] at settling
  all_goals try split at h
  all_goals first
    | contradiction
    | obtain rfl := Option.some.inj h
  case h_2.isTrue => exact Or.inl fun c member read => absurd member read
  case h_3 => exact Or.inl fun c member => keeps (settling c member (by simp))
  case h_4.isTrue aborted => exact Or.inr aborted
  case h_4.isFalse component rest _ =>
    refine Or.inl fun c member other read => keeps (settling c member ?_)
    simp [other, read]
  case h_5 component rest =>
    -- a component without a section has nothing to be configured with
    left
    by_cases empty : getConfig component s.mainconf = ""
    · simp only [empty, if_pos] at keeps ⊢
      intro c member read
      by_cases same : c = component
      · intro some_
        exact absurd (same ▸ empty) some_
      · exact keeps (settling c member same read)
    · simp only [empty, if_false] at keeps ⊢
      exact ⟨rfl, fun c member other read => keeps (settling c member other read)⟩
  all_goals first
    | exact Or.inl trivial
    | exact Or.inr rfl
    | exact Or.inl fun c member => keeps (settling c member)

theorem settling_guided {a : Action} (guided : Guided s t a) (settling : Settling components s) :
    Settling components t := by
  unfold Settling at settling
  cases guided with
  | tick pc same =>
    rw [pc] at settling
    rw [same]
    intro c member
    refine current_congr (s := s) rfl ?_ (settling c member)
    show inForce c (s.events ++ [.tick s.abortFlag]) = _
    rw [inForce_append, inForce_quiet (by simp), Option.none_or]
  | configured ok caller component section_ rest pc same =>
    simp only [pc] at settling
    obtain ⟨read, settling⟩ := settling
    rw [same]
    cases ok with
    | false => trivial
    | true =>
      intro c member later
      by_cases this : c = component
      · intro _
        show inForce c (s.emit (.configure component section_ true)).events = some (getConfig c s.mainconf)
        rw [inForce_emit, if_pos this.symm, read, this]
      · refine current_congr (s := s) rfl ?_ (settling c member this later)
        show inForce c (s.emit (.configure component section_ true)).events = _
        rw [inForce_emit, if_neg (Ne.symm this)]
  | sorted order caller phase pc _ _ same =>
    simp only [pc] at settling
    rw [same]
    exact settling
  | stopSorted order pc _ _ same =>
    simp only [pc] at settling
    rw [same]
    exact settling

/-- A step that stores nothing new keeps up with what is read, unless an abort ends the pass. -/
theorem settling_step {a : Action} (h : step ⟨components, true⟩ s a = some t) (same : t.mainconf = s.mainconf)
    (settling : Settling components s) : Settling components t ∨ t.abortFlag = true := by
  rcases step_cases h with ⟨_, beside⟩ | ⟨_, main⟩ | guided
  · exact Or.inl (settling_congr beside.pc same beside.events settling)
  · exact settling_main main settling
  · exact Or.inl (settling_guided guided settling)

theorem settling_over (settling : Settling components s) (past : s.pc.inPass = false) :
    ∀ component ∈ components, Current component s := by
  unfold Settling at settling
  split at settling
  all_goals first
    | exact settling
    | (rename_i pc; rw [pc] at past; contradiction)

/-! ### Steps beside the main thread -/

/-- A call that has a configuration to store is a reload at its beginning. -/
theorem stores_reload {i : Nat} {conf : Configuration} {rest : List Write} (aligned : Aligned as s)
    (read : s.calls[i]? = some (.mainconf conf :: rest)) :
    (callsOf as)[i]? = some (.reload conf) ∧ writesOf i as = 0 := by
  obtain ⟨c, found, left⟩ := Option.map_eq_some_iff.mp (read.symm.trans (aligned.pending i)).symm
  have writes : Write.mainconf conf ∈ c.writes := List.mem_of_mem_drop (left ▸ List.mem_cons_self)
  rw [found]
  cases c with
  | reload other =>
    generalize writesOf i as = n at left ⊢
    match n with
    | 0 =>
      obtain ⟨same, _⟩ := List.cons.inj left
      obtain rfl := Write.mainconf.inj same
      exact ⟨rfl, rfl⟩
    | 1 => simp [Call.writes] at left
    | n + 2 => simp [Call.writes] at left
  | _ => simp [Call.writes] at writes

/-- A reload between its steps stays there or raises the flag. -/
theorem betweenSteps_step {a : Action} (aligned : Aligned as s) (h : step p s a = some t)
    (between : BetweenSteps as) : BetweenSteps (as ++ [a]) ∨ t.reconfigureFlag = true := by
  obtain ⟨i, conf, found, once⟩ := between
  have called : (callsOf (as ++ [a]))[i]? = some (.reload conf) := by
    rw [callsOf_append, List.getElem?_append_left (List.getElem?_eq_some_iff.mp found).1]
    exact found
  by_cases write : a = .write i
  · obtain rfl := write
    obtain ⟨w, rest, read, rfl⟩ := writeStep_some h
    have pending := read.symm.trans (aligned.pending i)
    rw [found, once] at pending
    obtain ⟨rfl, _⟩ := List.cons.inj (Option.some.inj pending)
    exact Or.inr rfl
  · refine Or.inl ⟨i, conf, called, ?_⟩
    rw [writesOf_append, once]
    cases a with
    | write j =>
      have other : j ≠ i := fun same => write (same ▸ rfl)
      rw [writesOf_other other]
    | _ => rfl

theorem reconfigureFlag_kept {a : Action} (h : step p s a = some t) (other : ¬ (a = .main ∧ s.pc = .idleClear))
    (raised : s.reconfigureFlag = true) : t.reconfigureFlag = true := by
  rcases step_cases h with ⟨aside, _⟩ | ⟨rfl, main⟩ | guided
  · cases a with
    | write i =>
      obtain ⟨w, rest, read, rfl⟩ := writeStep_some h
      cases w <;> first | exact raised | rfl
    | call c =>
      obtain rfl := Option.some.inj h
      exact raised
    | registry dirty instances =>
      obtain rfl := Option.some.inj h
      exact raised
    | _ => contradiction
  · rw [(mainStep_effect main).reconfigure fun pc => other ⟨rfl, pc⟩]
    exact raised
  · obtain ⟨_, _, rfl⟩ := guided_moves guided
    exact raised

/-- What may stand in the way of a component being configured with its current section. -/
def Underway (components : List String) (as : List Action) (s : State) : Prop :=
  s.abortFlag = true ∨ s.reconfigureFlag = true ∨ BetweenSteps as ∨ Settling components s

theorem underway_beside {a : Action} (aligned : Aligned as s) (h : step p s a = some t) (aside : a.aside)
    (beside : Beside s t) (settling : Settling components s) : Underway components (as ++ [a]) t := by
  have same (mainconf : t.mainconf = s.mainconf) : Underway components (as ++ [a]) t :=
    Or.inr (Or.inr (Or.inr (settling_congr beside.pc mainconf beside.events settling)))
  cases a with
  | call c =>
    obtain rfl := Option.some.inj h
    exact same rfl
  | registry dirty instances =>
    obtain rfl := Option.some.inj h
    exact same rfl
  | write i =>
    obtain ⟨w, rest, read, rfl⟩ := writeStep_some h
    cases w with
    | mainconf conf =>
      obtain ⟨found, none_⟩ := stores_reload aligned read
      refine Or.inr (Or.inr (Or.inl ⟨i, conf, ?_, ?_⟩))
      · rw [callsOf_append, List.getElem?_append_left (List.getElem?_eq_some_iff.mp found).1]
        exact found
      · rw [writesOf_append, none_, writesOf_self]
    | _ => exact same rfl
  | _ => contradiction

theorem underway_step {a : Action} (aligned : Aligned as s) (h : step ⟨components, true⟩ s a = some t)
    (underway : Underway components as s) : Underway components (as ++ [a]) t := by
  rcases underway with aborted | raised | between | settling
  · exact Or.inl ((step_effect h).abort aborted)
  · by_cases clears : a = .main ∧ s.pc = .idleClear
    · -- the pass that follows reads every section
      obtain ⟨rfl, pc⟩ := clears
      simp only [step, mainStep, pc] at h
      obtain rfl := Option.some.inj h
      exact Or.inr (Or.inr (Or.inr trivial))
    · exact Or.inr (Or.inl (reconfigureFlag_kept h clears raised))
  · rcases betweenSteps_step aligned h between with still | raised
    · exact Or.inr (Or.inr (Or.inl still))
    · exact Or.inr (Or.inl raised)
  · rcases step_cases h with ⟨aside, beside⟩ | ⟨_, main⟩ | guided
    · exact underway_beside aligned h aside beside settling
    · rcases settling_main main settling with settled | aborted
      · exact Or.inr (Or.inr (Or.inr settled))
      · exact Or.inl aborted
    · exact Or.inr (Or.inr (Or.inr (settling_guided guided settling)))

/-- In every state of every run in which no reload and no pass is under way and no abort came between, every
component that has a section in the stored configuration was last configured with that section. -/
theorem no_reconfiguration_lost (components : List String) (restartFlag : Bool) (mainconf : Configuration)
    (dirty : Bool) (instances : List Instance) (as : List Action) (s : State)
    (run : exec (step ⟨components, true⟩) (initial restartFlag mainconf dirty instances) as = some s)
    (settled : Settled as s) : ∀ component ∈ components, Current component s := by
  have begins : Settling components (initial restartFlag mainconf dirty instances) := trivial
  have history : Aligned as s ∧ Underway components as s :=
    exec_history (fun as s => Aligned as s ∧ Underway components as s)
      ⟨aligned_start _ rfl, Or.inr (Or.inr (Or.inr begins))⟩
      (fun _ _ _ _ now h => ⟨aligned_step now.1 h, underway_step now.1 h now.2⟩) run
  rcases history.2 with aborted | raised | between | settling
  · rw [settled.abort] at aborted
    contradiction
  · rw [settled.flag] at raised
    contradiction
  · exact absurd between settled.reloads
  · exact settling_over settling settled.pass

/-- A first start, then a reload with a new section for the logger, and the tick that does its pass. -/
def loggerReloaded : List Action :=
  List.replicate 4 .main ++ [.configured true] ++ List.replicate 12 .main ++
    [.call (.reload [("logger", "[]")]), .write 0, .write 0, .tick] ++ List.replicate 7 .main ++
    [.configured true] ++ List.replicate 11 .main

theorem no_reconfiguration_lost_logger : ∃ s,
    exec (step ⟨["logger"], true⟩) (initial false [("logger", "{}")] false []) loggerReloaded = some s ∧
    s.pc = .mainLoop ∧ s.mainconf = [("logger", "[]")] ∧ ∀ component ∈ ["logger"], Current component s := by
  refine ⟨_, rfl, rfl, rfl, ?_⟩
  apply no_reconfiguration_lost ["logger"] false [("logger", "{}")] false [] loggerReloaded _ rfl
  refine ⟨rfl, ?_, rfl, rfl⟩
  rintro ⟨i, conf, found, once⟩
  cases i with
  | zero => cases once
  | succ i => cases found

/-! ### Reload and restart -/

/-- Every section that a component has been or is being configured with was read from an allowed configuration. -/
structure ReadFrom (allowed : Configuration → Prop) (s : State) : Prop where
  stored : allowed s.mainconf
  reading : ∀ caller component section_ rest, s.pc = .configure caller component section_ rest →
    ∃ conf, allowed conf ∧ section_ = getConfig component conf ∧ section_ ≠ ""
  read : ∀ component section_ ok, .configure component section_ ok ∈ s.events →
    ∃ conf, allowed conf ∧ section_ = getConfig component conf ∧ section_ ≠ ""

variable {allowed : Configuration → Prop}

theorem mainStep_reading {caller : Caller} {component section_ : String} {rest : List String}
    (h : mainStep p s = some t) (reading : t.pc = .configure caller component section_ rest) :
    section_ = getConfig component s.mainconf ∧ section_ ≠ "" := by
  unfold mainStep at h
  split at h <;> rename_i pc
  all_goals try split at h
  all_goals first
    | contradiction
    | obtain rfl := Option.some.inj h
  case h_5 name _ =>
    simp only [goto_pc] at reading
    split at reading
    · contradiction
    · rename_i some_
      obtain ⟨_, rfl, rfl, _⟩ := Pc.configure.inj reading
      exact ⟨rfl, some_⟩
  all_goals contradiction

theorem readFrom_main (h : mainStep p s = some t) (from_ : ReadFrom allowed s) : ReadFrom allowed t := by
  refine ⟨(mainStep_effect h).kept.mainconf ▸ from_.stored, ?_, ?_⟩
  · intro caller component section_ rest pc
    obtain ⟨same, some_⟩ := mainStep_reading h pc
    exact ⟨s.mainconf, from_.stored, same, some_⟩
  · intro component section_ ok member
    rw [(mainStep_effect h).events] at member
    rcases List.mem_append.mp member with old | new
    · exact from_.read component section_ ok old
    · exact absurd rfl (emitted_no_configure s _ new component section_ ok)

theorem readFrom_guided {a : Action} (guided : Guided s t a) (from_ : ReadFrom allowed s) : ReadFrom allowed t := by
  cases guided with
  | tick _ same =>
    rw [same]
    refine ⟨from_.stored, by simp, ?_⟩
    intro component section_ ok member
    rcases List.mem_append.mp member with old | new
    · exact from_.read component section_ ok old
    · simp at new
  | configured ok caller component section_ rest pc same =>
    rw [same]
    refine ⟨from_.stored, ?_, ?_⟩
    · cases ok <;> simp
    · intro name text answer member
      rcases List.mem_append.mp member with old | new
      · exact from_.read name text answer old
      · obtain ⟨rfl, rfl, _⟩ := Event.configure.inj (List.mem_singleton.mp new)
        exact from_.reading caller name text rest pc
  | sorted order caller phase _ _ _ same =>
    rw [same]
    exact ⟨from_.stored, by simp, from_.read⟩
  | stopSorted order _ _ _ same =>
    rw [same]
    exact ⟨from_.stored, by simp, from_.read⟩

/-- Nothing is ever stored but the configuration of a reload. -/
theorem stored_step {a : Action} (aligned : Aligned as s) (h : step p s a = some t) :
    t.mainconf = s.mainconf ∨ .reload t.mainconf ∈ callsOf as := by
  by_cases silent : a.silent = true
  · exact Or.inl (silent_kept silent h).mainconf
  · cases a with
    | call c =>
      obtain rfl := Option.some.inj h
      exact Or.inl rfl
    | write i =>
      obtain ⟨w, rest, read, rfl⟩ := writeStep_some h
      cases w with
      | mainconf conf => exact Or.inr (List.mem_of_getElem? (stores_reload aligned read).1)
      | _ => exact Or.inl rfl
    | _ => exact absurd rfl silent

theorem reloads_earlier {first rest : List Action} (reloads : ∀ conf, .reload conf ∈ callsOf (first ++ rest) → allowed conf)
    (conf : Configuration) (called : .reload conf ∈ callsOf first) : allowed conf := by
  apply reloads
  rw [callsOf_append]
  exact List.mem_append_left _ called

theorem readFrom_run {restartFlag dirty : Bool} {conf : Configuration} {instances : List Instance}
    (first : allowed conf) (reloads : ∀ conf, .reload conf ∈ callsOf as → allowed conf)
    (run : exec (step p) (initial restartFlag conf dirty instances) as = some s) : ReadFrom allowed s := by
  have begins : ReadFrom allowed (initial restartFlag conf dirty instances) :=
    ⟨first, by simp [initial], by simp [initial]⟩
  have history : Aligned as s ∧ ((∀ conf, .reload conf ∈ callsOf as → allowed conf) → ReadFrom allowed s) := by
    refine exec_history (fun as s => Aligned as s ∧
      ((∀ conf, .reload conf ∈ callsOf as → allowed conf) → ReadFrom allowed s))
      ⟨aligned_start _ rfl, fun _ => begins⟩ ?_ run
    rintro before m a next ⟨aligned, from_⟩ h
    refine ⟨aligned_step aligned h, fun reloads => ?_⟩
    have earlier := reloads_earlier reloads
    have from_ := from_ earlier
    rcases step_cases h with ⟨_, beside⟩ | ⟨_, main⟩ | guided
    · refine ⟨?_, beside.pc ▸ from_.reading, beside.events ▸ from_.read⟩
      rcases stored_step aligned h with same | reloaded
      · exact same ▸ from_.stored
      · exact earlier _ reloaded
    · exact readFrom_main main from_
    · exact readFrom_guided guided from_
  exact history.2 reloads

/-- Once a reload has stored the one configuration that is ever reloaded, that is what is stored. -/
theorem stored_reload {restartFlag dirty : Bool} {old new : Configuration} {instances : List Instance}
    (reloads : ∀ conf, .reload conf ∈ callsOf as → conf = new) (written : Written (.mainconf new) as)
    (run : exec (step p) (initial restartFlag old dirty instances) as = some s) : s.mainconf = new := by
  have history : Aligned as s ∧ ((∀ conf, .reload conf ∈ callsOf as → conf = new) →
      Written (.mainconf new) as → s.mainconf = new) := by
    refine exec_history (fun as s => Aligned as s ∧ ((∀ conf, .reload conf ∈ callsOf as → conf = new) →
      Written (.mainconf new) as → s.mainconf = new)) ⟨aligned_start _ rfl, ?_⟩ ?_ run
    · rintro _ ⟨i, c, found, _⟩
      contradiction
    · rintro before m a next ⟨aligned, stored⟩ h
      refine ⟨aligned_step aligned h, fun reloads written => ?_⟩
      have earlier := reloads_earlier reloads
      rcases stored_step aligned h with same | reloaded
      · by_cases write : ∃ i, a = .write i
        · obtain ⟨i, rfl⟩ := write
          obtain ⟨w, rest, read, rfl⟩ := writeStep_some h
          rcases (written_write aligned read _).mp written with old | rfl
          · exact same.trans (stored earlier old)
          · rfl
        · exact same.trans (stored earlier ((written_silent aligned (fun i this => write ⟨i, this⟩) _).mp written))
      · exact earlier _ reloaded
  exact history.2 reloads written

theorem inForce_read {component section_ : String} {events : List Event}
    (found : inForce component events = some section_) : ∃ ok, .configure component section_ ok ∈ events := by
  obtain ⟨e, member, same⟩ := List.mem_filterMap.mp (List.mem_of_getLast? found)
  cases e with
  | configure name text ok =>
    simp only [configuredWith] at same
    split at same
    · rename_i this
      obtain rfl := this
      obtain rfl := Option.some.inj same
      exact ⟨ok, member⟩
    · contradiction
  | _ => contradiction

/-- While only `conf` is reloaded, a pass over `conf` is kept up with until an abort. -/
theorem settling_run {before : List Action} {conf : Configuration} (aligned : Aligned before s)
    (only : ∀ other, .reload other ∈ callsOf (before ++ as) → other = conf) (now : s.mainconf = conf)
    (settling : Settling components s) (run : exec (step ⟨components, true⟩) s as = some t) :
    t.mainconf = conf ∧ (Settling components t ∨ t.abortFlag = true) := by
  have history : Aligned (before ++ as) t ∧ ((∀ other, .reload other ∈ callsOf (before ++ as) → other = conf) →
      t.mainconf = conf ∧ (Settling components t ∨ t.abortFlag = true)) := by
    refine exec_history (fun as t => Aligned (before ++ as) t ∧
      ((∀ other, .reload other ∈ callsOf (before ++ as) → other = conf) →
        t.mainconf = conf ∧ (Settling components t ∨ t.abortFlag = true))) ⟨?_, fun _ => ⟨now, Or.inl settling⟩⟩ ?_ run
    · rw [List.append_nil]
      exact aligned
    · rintro after m a next ⟨aligned, keeps⟩ h
      rw [← List.append_assoc]
      refine ⟨aligned_step aligned h, fun only => ?_⟩
      have earlier := reloads_earlier only
      obtain ⟨now, settling⟩ := keeps earlier
      have stored : next.mainconf = conf := by
        rcases stored_step aligned h with same | reloaded
        · exact same.trans now
        · exact earlier _ reloaded
      refine ⟨stored, ?_⟩
      rcases settling with settling | aborted
      · exact settling_step h (stored.trans now.symm) settling
      · exact Or.inr ((step_effect h).abort aborted)
  exact history.2 only

/-- A start on `conf` has run `as` without a reload, and its configure pass has ended without an abort. -/
structure StartedOn (components : List String) (conf : Configuration) (as : List Action) (s : State) : Prop where
  run : ∃ restartFlag dirty instances,
    exec (step ⟨components, true⟩) (initial restartFlag conf dirty instances) as = some s
  noReload : ∀ other, .reload other ∉ callsOf as
  pass : s.pc.inPass = false
  abort : s.abortFlag = false

theorem startedOn_inForce {conf : Configuration} (started : StartedOn components conf as s) {component : String}
    (member : component ∈ components) :
    inForce component s.events =
      if getConfig component conf = "" then none else some (getConfig component conf) := by
  obtain ⟨restartFlag, dirty, instances, run⟩ := started.run
  have only (other : Configuration) (reload : .reload other ∈ callsOf as) : other = conf :=
    absurd reload (started.noReload other)
  split
  · rename_i empty
    have from_ : ReadFrom (· = conf) s := readFrom_run rfl only run
    cases found : inForce component s.events with
    | none => rfl
    | some section_ =>
      obtain ⟨ok, configured⟩ := inForce_read found
      obtain ⟨_, rfl, rfl, some_⟩ := from_.read component section_ ok configured
      exact absurd empty some_
  · rename_i some_
    have begins : Settling components (initial restartFlag conf dirty instances) := trivial
    obtain ⟨now, settling | aborted⟩ := settling_run (aligned_start _ rfl) only rfl begins run
    · have current := settling_over settling started.pass component member
      unfold Current at current
      rw [now] at current
      exact current some_
    · rw [started.abort] at aborted
      contradiction

/-- A component whose section a reload has removed is left as the start has configured it. -/
theorem inForce_removed {components : List String} {old new : Configuration} {first later : List Action} {m s : State}
    (started : StartedOn components old first m) (run : exec (step ⟨components, true⟩) m later = some s)
    (only : ∀ conf, .reload conf ∈ callsOf (first ++ later) → conf = new) {component : String}
    (member : component ∈ components) (removed : getConfig component new = "") :
    inForce component s.events = if getConfig component old = "" then none else some (getConfig component old) := by
  obtain ⟨restartFlag, dirty, instances, start⟩ := started.run
  have whole : exec (step ⟨components, true⟩) (initial restartFlag old dirty instances) (first ++ later) = some s := by
    rw [exec_append, start]
    exact run
  have from_ : ReadFrom (fun conf => conf = old ∨ conf = new) s :=
    readFrom_run (Or.inl rfl) (fun conf called => Or.inr (only conf called)) whole
  have before := startedOn_inForce started member
  obtain ⟨es, events⟩ := exec_events run
  cases found : inForce component s.events with
  | none =>
    rw [← events, inForce_append, before] at found
    split
    · rfl
    · rename_i some_
      rw [if_neg some_] at found
      simp at found
  | some section_ =>
    obtain ⟨ok, configured⟩ := inForce_read found
    obtain ⟨conf, rfl | rfl, rfl, some_⟩ := from_.read component section_ ok configured
    · rw [if_neg some_]
    · exact absurd removed some_

/-- After a start on `old`, a reload of `new` and a sunrise without abort, a component is configured as after a
fresh start on `new`, exactly if its section was not removed; a component whose section was removed keeps its
old one. -/
theorem reload_as_restart_iff (components : List String) (old new : Configuration)
    (first reload sunrise fresh : List Action) (m r s f : State)
    (started : StartedOn components old first m)
    (reloaded : exec (step ⟨components, true⟩) m reload = some r)
    (stored : Written (.mainconf new) (first ++ reload))
    (begins : ∃ caller, r.pc = .sunrise caller)
    (run : exec (step ⟨components, true⟩) r sunrise = some s)
    (only : ∀ conf, .reload conf ∈ callsOf (reload ++ sunrise) → conf = new)
    (pass : s.pc.inPass = false) (abort : s.abortFlag = false)
    (restarted : StartedOn components new fresh f) (component : String) (member : component ∈ components) :
    (inForce component s.events = inForce component f.events ↔
      (getConfig component old ≠ "" → getConfig component new ≠ "")) ∧
    (getConfig component old ≠ "" → getConfig component new = "" →
      inForce component s.events = some (getConfig component old)) := by
  obtain ⟨restartFlag, dirty, instances, start⟩ := started.run
  obtain ⟨caller, pc⟩ := begins
  have toSunrise : exec (step ⟨components, true⟩) (initial restartFlag old dirty instances) (first ++ reload) =
      some r := by
    rw [exec_append, start]
    exact reloaded
  have onlyNew (conf : Configuration) (called : .reload conf ∈ callsOf (first ++ reload ++ sunrise)) :
      conf = new := by
    rw [List.append_assoc, callsOf_append] at called
    rcases List.mem_append.mp called with earlier | later
    · exact absurd earlier (started.noReload conf)
    · exact only conf later
  have now : r.mainconf = new := stored_reload (reloads_earlier onlyNew) stored toSunrise
  have begun : Settling components r := by
    unfold Settling
    rw [pc]
    trivial
  have settled : s.mainconf = new ∧ Settling components s := by
    obtain ⟨same, settling | aborted⟩ := settling_run (aligned_run toSunrise) onlyNew now begun run
    · exact ⟨same, settling⟩
    · rw [abort] at aborted
      contradiction
  have current := settling_over settled.2 pass component member
  unfold Current at current
  rw [settled.1] at current
  have restart := startedOn_inForce restarted member
  have onwards : exec (step ⟨components, true⟩) m (reload ++ sunrise) = some s := by
    rw [exec_append, reloaded]
    exact run
  have kept (removed : getConfig component new = "") :
      inForce component s.events = if getConfig component old = "" then none else some (getConfig component old) :=
    inForce_removed started onwards (by rw [← List.append_assoc]; exact onlyNew) member removed
  refine ⟨?_, ?_⟩
  · by_cases removed : getConfig component new = ""
    · rw [kept removed, restart, if_pos removed]
      by_cases empty : getConfig component old = "" <;> simp [empty, removed]
    · rw [current removed, restart, if_neg removed]
      exact iff_of_true rfl fun _ => removed
  · intro some_ removed
    rw [kept removed, if_neg some_]

/-- A section that a reload changes comes into force as after a restart. -/
theorem reload_as_restart_changed : ∃ m r s f,
    exec (step ⟨["logger"], true⟩) (initial false [("logger", "{}")] false [])
      (List.replicate 4 .main ++ [.configured true] ++ List.replicate 12 .main) = some m ∧
    exec (step ⟨["logger"], true⟩) m
      ([.call (.reload [("logger", "[]")]), .write 0, .write 0, .tick] ++ List.replicate 4 .main) = some r ∧
    exec (step ⟨["logger"], true⟩) r
      (List.replicate 3 .main ++ [.configured true] ++ List.replicate 11 .main) = some s ∧
    exec (step ⟨["logger"], true⟩) (initial false [("logger", "[]")] false [])
      (List.replicate 4 .main ++ [.configured true] ++ List.replicate 12 .main) = some f ∧
    (inForce "logger" s.events = inForce "logger" f.events ↔
      (getConfig "logger" [("logger", "{}")] ≠ "" → getConfig "logger" [("logger", "[]")] ≠ "")) ∧
    (getConfig "logger" [("logger", "{}")] ≠ "" → getConfig "logger" [("logger", "[]")] = "" →
      inForce "logger" s.events = some (getConfig "logger" [("logger", "{}")])) := by
  refine ⟨_, _, _, _, rfl, rfl, rfl, rfl, ?_⟩
  apply reload_as_restart_iff ["logger"] [("logger", "{}")] [("logger", "[]")]
    (List.replicate 4 .main ++ [.configured true] ++ List.replicate 12 .main)
    ([.call (.reload [("logger", "[]")]), .write 0, .write 0, .tick] ++ List.replicate 4 .main)
    (List.replicate 3 .main ++ [.configured true] ++ List.replicate 11 .main)
    (List.replicate 4 .main ++ [.configured true] ++ List.replicate 12 .main)
  · exact ⟨⟨false, false, [], rfl⟩, by simp [callsOf], rfl, rfl⟩
  · rfl
  · exact ⟨0, .reload [("logger", "[]")], rfl, List.mem_cons_self⟩
  · exact ⟨.idle, rfl⟩
  · rfl
  · simp [callsOf]
  · rfl
  · rfl
  · exact ⟨⟨false, false, [], rfl⟩, by simp [callsOf], rfl, rfl⟩
  · exact List.mem_cons_self

/-- A component whose section was removed is left as its old section has configured it. -/
theorem reload_keeps_removed : ∃ m r s f,
    StartedOn ["logger"] [("logger", "{}")]
      (List.replicate 4 .main ++ [.configured true] ++ List.replicate 12 .main) m ∧
    exec (step ⟨["logger"], true⟩) m
      ([.call (.reload []), .write 0, .write 0, .tick] ++ List.replicate 4 .main) = some r ∧
    r.pc = .sunrise .idle ∧ r.mainconf = [] ∧
    exec (step ⟨["logger"], true⟩) r (List.replicate 14 .main) = some s ∧
    s.pc = .mainLoop ∧ s.abortFlag = false ∧
    StartedOn ["logger"] [] (List.replicate 16 .main) f ∧
    inForce "logger" s.events = some "{}" ∧ inForce "logger" f.events = none := by
  refine ⟨_, _, _, _, ⟨⟨false, false, [], rfl⟩, by simp [callsOf], rfl, rfl⟩, rfl, rfl, rfl, rfl, rfl, rfl,
    ⟨⟨false, false, [], rfl⟩, by simp [callsOf], rfl, rfl⟩, rfl, rfl⟩

end WfcCore.Core

import Mathlib.Data.List.Nodup
import WfcCore.Config.Load
import WfcCore.Foundation.Run

/-!
# Loading is all or nothing

`_mainconf` and `_path` change only at the end of a successful `load_and_configure` or
`reload_and_reconfigure`, and what is stored there has passed the parsers of the components.
-/

namespace WfcCore.Config

open Foundation Wfc

namespace Atomic

/-- The calls that read configuration files. `files` is what they find on the disk. -/
inductive Call where
  | loadAndConfigure (path : String)
  | reloadAndReconfigure
  | loadAndCheck (path : String)
  | loadConfig (path : String)

/-- `ok` is the answer of a call; `loadConfig` answers with a text and never fails. `reconfigures`
tells whether it called `core_reconfigure`. -/
structure Outcome where
  config : ConfigState
  ok : Bool
  reconfigures : Bool

variable {ω : Type}

def perform (x : External) (g : Global ω) (files : Files) (c : ConfigState) : Call → Outcome
  | .loadAndConfigure path =>
    let r := Config.loadAndConfigure x g files c path
    ⟨r.1, r.2, false⟩
  | .reloadAndReconfigure =>
    let r := Config.reloadAndReconfigure x g files c
    ⟨r.1, r.2, r.2⟩
  | .loadAndCheck path =>
    let r := Config.loadAndCheck x g files c path
    ⟨r.1, r.2, false⟩
  | .loadConfig path => ⟨(Config.loadConfig x g files c path).1, true, false⟩

/-- `configured` is the core handing the config section to the config component. -/
inductive Action where
  | call (files : Files) (c : Call)
  | configured (options : ConfigConfig)

def step (x : External) (g : Global ω) (c : ConfigState) : Action → Option ConfigState
  | .call files call => some (perform x g files c call).config
  | .configured options => some { c with options := options }

def Call.onlyReads : Call → Bool
  | .loadAndCheck _ | .loadConfig _ => true
  | _ => false

/-- A call that only reads, and one that fails, is as if it had not been made. -/
def AllOrNothing (x : External) (g : Global ω) (c : ConfigState) (files : Files) (call : Call) : Prop :=
  let outcome := perform x g files c call
  call.onlyReads = true ∨ outcome.ok = false →
    outcome.config.mainconf = c.mainconf ∧ outcome.config.path = c.path ∧ outcome.reconfigures = false

/-- The sections have different names, and each was accepted by the registered component it names. -/
structure Accepted (g : Global ω) (mainconf : Configuration) : Prop where
  distinct : (mainconf.map Prod.fst).Nodup
  parsed : ∀ item ∈ mainconf, ∃ m, g.getComponent item.1 = some m ∧ m.parse item.2 = true

structure Sound (x : External) (g : Global ω) (c : ConfigState) : Prop where
  atomic : ∀ files call, AllOrNothing x g c files call
  accepted : Accepted g c.mainconf

/-! ### The merge keeps names apart -/

theorem confFind_none {name : String} {conf : Configuration} (absent : confFind name conf = none) :
    name ∉ conf.map Prod.fst := by
  intro member
  obtain ⟨item, present, rfl⟩ := List.mem_map.mp member
  have differs := List.find?_eq_none.mp absent item present
  simp at differs

theorem confAssign_names (name value : String) (conf : Configuration) :
    (confAssign name value conf).map Prod.fst = conf.map Prod.fst := by
  induction conf with
  | nil => rfl
  | cons item rest ih =>
    unfold confAssign
    split
    · rename_i same
      rw [List.map_cons, List.map_cons, beq_iff_eq.mp same]
    · rw [List.map_cons, List.map_cons, ih]

/-- A turn of the merge appends the item under a new name, or assigns to the section of its name. -/
theorem despaced_some {json : Json} {despace : Bool} {str : String} {map' : Configuration}
    {next : String → Option Configuration}
    (h : (if despace then (json.despace str).bind next else (some str).bind next) = some map') :
    ∃ second, next second = some map' := by
  split at h
  · obtain ⟨second, _, h⟩ := Option.bind_eq_some_iff.mp h
    exact ⟨second, h⟩
  · exact ⟨str, h⟩

theorem normalizeItem_cases {json : Json} {despace : Bool} {map map' : Configuration} {item : ConfPair}
    (h : normalizeItem json despace map item = some map') :
    (∃ second, confFind item.1 map = none ∧ map' = map ++ [(item.1, second)]) ∨
    (∃ merged, map' = confAssign item.1 merged map) := by
  unfold normalizeItem at h
  obtain ⟨second, h⟩ := despaced_some h
  cases found : confFind item.1 map with
  | none =>
    simp only [found] at h
    exact Or.inl ⟨second, rfl, (Option.some.inj h).symm⟩
  | some itr =>
    simp only [found] at h
    split at h
    · obtain ⟨first, _, h⟩ := Option.bind_eq_some_iff.mp h
      obtain ⟨merged, _, h⟩ := Option.bind_eq_some_iff.mp h
      exact Or.inr ⟨_, (Option.some.inj h).symm⟩
    · contradiction

theorem normalizeItem_distinct {json : Json} {despace : Bool} {map map' : Configuration} {item : ConfPair}
    (distinct : (map.map Prod.fst).Nodup) (h : normalizeItem json despace map item = some map') :
    (map'.map Prod.fst).Nodup := by
  rcases normalizeItem_cases h with ⟨second, absent, rfl⟩ | ⟨merged, rfl⟩
  · rw [List.map_append, List.nodup_append]
    refine ⟨distinct, List.nodup_singleton _, fun a left b right same => ?_⟩
    obtain rfl := List.mem_singleton.mp right
    exact confFind_none absent (same ▸ left)
  · rw [confAssign_names]
    exact distinct

theorem normalizeItems_distinct {json : Json} {despace : Bool} {items map map' : Configuration}
    (distinct : (map.map Prod.fst).Nodup)
    (h : items.foldlM (normalizeItem json despace) map = some map') : (map'.map Prod.fst).Nodup := by
  induction items generalizing map with
  | nil =>
    obtain rfl := Option.some.inj h
    exact distinct
  | cons item rest ih =>
    rw [List.foldlM_cons] at h
    obtain ⟨next, first, h⟩ := Option.bind_eq_some_iff.mp h
    exact ih (normalizeItem_distinct distinct first) h

theorem normalizeJsonMultimap_distinct {json : Json} {str : String} {despace : Bool} {map map' : Configuration}
    (distinct : (map.map Prod.fst).Nodup) (h : normalizeJsonMultimap json str despace map = some map') :
    (map'.map Prod.fst).Nodup := by
  obtain ⟨items, _, h⟩ := Option.bind_eq_some_iff.mp h
  exact normalizeItems_distinct distinct h

theorem parseLoaded_accepted {x : External} {g : Global ω} {confstr : String} {mainconf : Configuration}
    (h : parseLoaded x g confstr = some mainconf) : Accepted g mainconf := by
  unfold parseLoaded at h
  split at h
  · contradiction
  · unfold parseConfigure at h
    split at h
    · rename_i merged normal
      split at h
      · rename_i all
        obtain rfl := Option.some.inj h
        refine ⟨normalizeJsonMultimap_distinct (by simp) normal, fun item member => ?_⟩
        have parsed := List.all_eq_true.mp all item member
        unfold parseSection at parsed
        split at parsed
        · rename_i m found
          exact ⟨m, found, parsed⟩
        · contradiction
      · contradiction
    · contradiction

/-! ### What a call stores -/

theorem loadAndConfigure_cases (x : External) (g : Global ω) (files : Files) (c : ConfigState) (path : String) :
    let r := loadAndConfigure x g files c path
    (r.2 = true ∧ ∃ confstr, parseLoaded x g confstr = some r.1.mainconf) ∨
    (r.1.mainconf = c.mainconf ∧ r.1.path = c.path) := by
  intro r
  have eq : r = _ := loadAndConfigure_eq x g files c path
  rw [eq]
  cases parsed : parseLoaded x g
      (loadFromFile x g c.options.ini files (x.findConfig files path) false).confstr with
  | none => exact Or.inr ⟨rfl, rfl⟩
  | some mainconf => exact Or.inl ⟨rfl, _, parsed⟩

theorem reloadAndReconfigure_cases (x : External) (g : Global ω) (files : Files) (c : ConfigState) :
    let r := reloadAndReconfigure x g files c
    (r.2 = true ∧ ∃ confstr, parseLoaded x g confstr = some r.1.mainconf) ∨
    (r.1.mainconf = c.mainconf ∧ r.1.path = c.path ∧ r.2 = false) := by
  intro r
  have eq : r = _ := reloadAndReconfigure_eq x g files c
  rw [eq]
  cases parsed : parseLoaded x g (loadFromFile x g c.options.ini files c.path true).confstr with
  | none => exact Or.inr ⟨rfl, rfl, rfl⟩
  | some mainconf => exact Or.inl ⟨rfl, _, parsed⟩

theorem loadConfig_frame (x : External) (g : Global ω) (files : Files) (c : ConfigState) (path : String) :
    let r := loadConfig x g files c path
    r.1.mainconf = c.mainconf ∧ r.1.path = c.path := by
  intro r
  have loaded : r.1 = (c.load x g files path false).1 := by
    show (loadConfig x g files c path).1 = _
    unfold loadConfig
    dsimp only
    split
    · split <;> rfl
    · rfl
  rw [loaded]
  exact ⟨rfl, rfl⟩

/-- A call stores an accepted configuration and succeeds, or it leaves the stored one alone. -/
theorem perform_cases (x : External) (g : Global ω) (files : Files) (c : ConfigState) (call : Call) :
    let outcome := perform x g files c call
    (call.onlyReads = false ∧ outcome.ok = true ∧
      ∃ confstr, parseLoaded x g confstr = some outcome.config.mainconf) ∨
    (outcome.config.mainconf = c.mainconf ∧ outcome.config.path = c.path ∧ outcome.reconfigures = false) := by
  intro outcome
  cases call with
  | loadAndConfigure path =>
    rcases loadAndConfigure_cases x g files c path with ⟨done, accepted⟩ | ⟨mainconf, same⟩
    · exact Or.inl ⟨rfl, done, accepted⟩
    · exact Or.inr ⟨mainconf, same, rfl⟩
  | reloadAndReconfigure =>
    rcases reloadAndReconfigure_cases x g files c with ⟨done, accepted⟩ | unchanged
    · exact Or.inl ⟨rfl, done, accepted⟩
    · exact Or.inr unchanged
  | loadAndCheck path => exact Or.inr ⟨rfl, rfl, rfl⟩
  | loadConfig path =>
    obtain ⟨mainconf, same⟩ := loadConfig_frame x g files c path
    exact Or.inr ⟨mainconf, same, rfl⟩

theorem all_or_nothing (x : External) (g : Global ω) (c : ConfigState) (files : Files) (call : Call) :
    AllOrNothing x g c files call := by
  unfold AllOrNothing
  intro outcome silent
  rcases perform_cases x g files c call with ⟨stores, succeeds, _⟩ | kept
  · rcases silent with reads | fails
    · rw [stores] at reads
      contradiction
    · rw [show outcome.ok = true from succeeds] at fails
      contradiction
  · exact kept

theorem accepted_step {x : External} {g : Global ω} (c : ConfigState) (a : Action) (c' : ConfigState)
    (accepted : Accepted g c.mainconf) (h : step x g c a = some c') : Accepted g c'.mainconf := by
  cases a with
  | call files call =>
    obtain rfl := Option.some.inj h
    rcases perform_cases x g files c call with ⟨_, _, confstr, parsed⟩ | ⟨same, _⟩
    · exact parseLoaded_accepted parsed
    · rw [same]
      exact accepted
  | configured options =>
    obtain rfl := Option.some.inj h
    exact accepted

/-- In every state of every sequence of calls over any files, a call that fails and one that only
reads changes neither `_mainconf` nor `_path` and requests nothing of the core, and the stored
sections are distinct and accepted by their components. -/
theorem loading_atomic (x : External) (g : Global ω) (as : List Action) :
    Always (step x g) (Sound x g) .fresh as := by
  have accepted : Always (step x g) (fun c => Accepted g c.mainconf) .fresh as :=
    always_invariant accepted_step ⟨by simp [ConfigState.fresh], by simp [ConfigState.fresh]⟩ as
  exact accepted.mono fun c h => ⟨all_or_nothing x g c, h⟩

end Atomic

end WfcCore.Config

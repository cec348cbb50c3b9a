import WfcCore.Config.Refinement
import Mathlib.Logic.Function.Iterate

/-!
# How the watch on the files settles

A tick of the timer reloads for the first file whose recorded time is out of date. When the files stay as
they are, the ticks that reload are counted, and so is what they leave.
-/

namespace WfcCore.Config

open Foundation Wfc

variable {ω : Type}

def staleTimes (files : Files) (changedMap : ChangedMap) : List (String × Int) :=
  changedMap.filter fun file => file.2 != 0 && getModifyTime files file.1 != file.2

def staleFiles (files : Files) (changedMap : ChangedMap) : List String :=
  (staleTimes files changedMap).map Prod.fst

/-- The files for which ticks reload, when each reload records `includes`. -/
def reloadOrder (includes : List String) : List String → List String
  | [] => []
  | first :: rest => first :: rest.filter (· ∉ includes)

/-- What `ticks` ticks leave, with the files as they are. -/
def settling (x : External) (g : Global ω) (files : Files) (c : ConfigState) (ticks : Nat) : ConfigState :=
  let loaded := loadFromFile x g c.options.ini files c.path true
  match (reloadOrder loaded.includes (staleFiles files c.changedMap)).take ticks with
  | [] => c
  | reloads =>
    { c with
      changedMap := recordTimes files (reloads ++ loaded.includes) c.changedMap
      mainconf := (parseLoaded x g loaded.confstr).getD c.mainconf }

theorem changedFile_eq_head (files : Files) (changedMap : ChangedMap) :
    changedFile files changedMap = (staleFiles files changedMap).head? := by
  rw [changedFile, staleFiles, staleTimes, List.head?_map, List.head?_filter]

variable {files : Files} {changedMap : ChangedMap}

theorem staleFiles_recordTime (sorted : Sorted changedMap) (file : String) :
    staleFiles files (recordTime files changedMap file) = (staleFiles files changedMap).filter (· != file) := by
  rw [staleFiles, staleTimes, recordTime, sorted.filter_assign (by simp), staleFiles, staleTimes, List.filter_map]
  rfl

theorem staleFiles_recordTimes (sorted : Sorted changedMap) (includes : List String) :
    staleFiles files (recordTimes files includes changedMap) =
      (staleFiles files changedMap).filter (· ∉ includes) := by
  induction includes generalizing changedMap with
  | nil => simp [recordTimes]
  | cons file includes ih =>
    show staleFiles files (recordTimes files includes (recordTime files changedMap file)) = _
    have next : Sorted (recordTime files changedMap file) := sorted.assign file _
    rw [ih next, staleFiles_recordTime sorted, List.filter_filter]
    apply List.filter_congr
    intro other _
    by_cases same : other = file <;> simp [same]

theorem lookup_recordTimes (includes : List String) (changedMap : ChangedMap) (file : String) :
    (recordTimes files includes changedMap).lookup file =
      if file ∈ includes then some (getModifyTime files file) else changedMap.lookup file := by
  induction includes generalizing changedMap with
  | nil => rfl
  | cons first includes ih =>
    show (recordTimes files includes (recordTime files changedMap first)).lookup file = _
    rw [ih, recordTime]
    by_cases later : file ∈ includes
    · rw [if_pos later, if_pos (List.mem_cons_of_mem _ later)]
    · rw [if_neg later]
      by_cases same : file = first
      · rw [same, lookup_assign_self, if_pos List.mem_cons_self]
      · rw [lookup_assign_ne same, if_neg (by simp [same, later])]

theorem staleFiles_nodup (sorted : Sorted changedMap) : (staleFiles files changedMap).Nodup :=
  sorted.keys_nodup.sublist (List.filter_sublist.map Prod.fst)

theorem filter_not_mem_take {names : List String} (once : names.Nodup) (n : Nat) :
    names.filter (· ∉ names.take n) = names.drop n := by
  induction names generalizing n with
  | nil => simp
  | cons first rest ih =>
    cases n with
    | zero => simp
    | succ n =>
      obtain ⟨fresh, once⟩ := List.nodup_cons.mp once
      rw [List.take_succ_cons, List.drop_succ_cons, List.filter_cons_of_neg (by simp), ← ih once n]
      apply List.filter_congr
      intro other member
      have different : other ≠ first := fun same => fresh (same ▸ member)
      simp [different]

theorem reloadOrder_head (includes stale : List String) : (reloadOrder includes stale).head? = stale.head? := by
  cases stale <;> rfl

theorem reloadOrder_length (includes stale : List String) : (reloadOrder includes stale).length ≤ stale.length := by
  cases stale with
  | nil => exact Nat.le_refl 0
  | cons first rest => exact Nat.succ_le_succ (List.length_filter_le _ _)

variable {x : External} {g : Global ω} {c : ConfigState}

theorem staleFiles_settling {includes stale reloads : List String} {n : Nat} (once : stale.Nodup)
    (done : (reloadOrder includes stale).take n = reloads) (begun : reloads ≠ []) :
    stale.filter (· ∉ reloads ++ includes) = (reloadOrder includes stale).drop n := by
  cases stale with
  | nil => simp [reloadOrder] at done; exact absurd done begun
  | cons first rest =>
    cases n with
    | zero => exact absurd done.symm begun
    | succ n =>
      obtain ⟨fresh, once⟩ := List.nodup_cons.mp once
      rw [reloadOrder, List.take_succ_cons] at done
      obtain rfl := done
      rw [reloadOrder, List.drop_succ_cons, List.filter_cons_of_neg (by simp),
        ← filter_not_mem_take (once.filter _) n, List.filter_filter]
      apply List.filter_congr
      intro other member
      have different : other ≠ first := fun same => fresh (same ▸ member)
      simp [different, Bool.and_comm]

/-- The tick after `n` ticks reloads for the next file of the order, if there is one. -/
theorem changedFile_settling (sorted : Sorted c.changedMap) (n : Nat) :
    changedFile files (settling x g files c n).changedMap =
      (reloadOrder (loadFromFile x g c.options.ini files c.path true).includes
        (staleFiles files c.changedMap))[n]? := by
  rw [changedFile_eq_head, settling]
  obtain ⟨includes, same⟩ : ∃ includes, (loadFromFile x g c.options.ini files c.path true).includes = includes :=
    ⟨_, rfl⟩
  simp only [same]
  obtain ⟨reloads, done⟩ : ∃ reloads, (reloadOrder includes (staleFiles files c.changedMap)).take n = reloads :=
    ⟨_, rfl⟩
  rw [done]
  cases reloads with
  | nil =>
    show (staleFiles files c.changedMap).head? = _
    rw [← reloadOrder_head includes]
    rcases List.take_eq_nil_iff.mp done with rfl | empty
    · rw [List.head?_eq_getElem?]
    · rw [empty]
      rfl
  | cons first rest =>
    show (staleFiles files (recordTimes files (first :: rest ++ includes) c.changedMap)).head? = _
    rw [staleFiles_recordTimes sorted, staleFiles_settling (staleFiles_nodup sorted) done (by simp),
      List.head?_drop]

theorem recordTimes_again (files : Files) (sorted : Sorted changedMap) (reloads includes : List String) (file : String) :
    recordTimes files includes (recordTime files (recordTimes files (reloads ++ includes) changedMap) file) =
      recordTimes files (reloads ++ [file] ++ includes) changedMap := by
  have before : Sorted (recordTimes files (reloads ++ includes) changedMap) := Watch.sorted_recordTimes sorted _
  have during : Sorted (recordTime files (recordTimes files (reloads ++ includes) changedMap) file) :=
    before.assign file _
  apply (Watch.sorted_recordTimes during includes).ext (Watch.sorted_recordTimes sorted _)
  intro other
  rw [lookup_recordTimes, lookup_recordTimes, recordTime]
  by_cases same : other = file
  · rw [same, lookup_assign_self]
    simp
  · rw [lookup_assign_ne same, lookup_recordTimes]
    simp [same]
    grind

theorem timerHandler_settling (sorted : Sorted c.changedMap) (n : Nat) :
    timerHandler x g files (settling x g files c n) = settling x g files c (n + 1) := by
  have next : changedFile files (settling x g files c n).changedMap = _ := changedFile_settling sorted n
  obtain ⟨loaded, read⟩ : ∃ loaded, loadFromFile x g c.options.ini files c.path true = loaded := ⟨_, rfl⟩
  obtain ⟨order, same⟩ : ∃ order, reloadOrder loaded.includes (staleFiles files c.changedMap) = order := ⟨_, rfl⟩
  rw [read, same] at next
  rw [timerHandler, next]
  cases found : order[n]? with
  | none =>
    have done : order.length ≤ n := List.getElem?_eq_none_iff.mp found
    simp only [settling, read, same, List.take_of_length_le done, List.take_of_length_le (Nat.le_succ_of_le done)]
  | some file =>
    simp only [settling, read, same, List.take_add_one, found, Option.toList_some]
    cases reloads : order.take n with
    | nil =>
      simp only [List.nil_append, reloadAndReconfigure_eq, read]
      rfl
    | cons first rest =>
      simp only [List.cons_append, reloadAndReconfigure_eq, read]
      have times := recordTimes_again files sorted (first :: rest) loaded.includes file
      simp only [List.cons_append] at times
      rw [times]
      cases parseLoaded x g loaded.confstr <;> rfl

theorem timerHandler_iterate (sorted : Sorted c.changedMap) (n : Nat) :
    (timerHandler x g files)^[n] c = settling x g files c n := by
  induction n with
  | zero => simp [settling]
  | succ n ih => rw [Function.iterate_succ_apply', ih, timerHandler_settling sorted]

namespace Watch

def Action.isTick : Action → Bool
  | .tick => true
  | _ => false

def Alone (as : List Action) : Prop :=
  ∀ a ∈ as, a = .main ∨ a = .tick

variable {path : String}

theorem whole_ticks {w v : Whole} {as : List Action} (alone : Alone as) (started : w.phase = .started)
    (run : exec (Whole.step x g path) w as = some v) :
    v = { w with config := (timerHandler x g w.files)^[as.countP Action.isTick] w.config } := by
  induction as generalizing w with
  | nil => exact (Option.some.inj run).symm
  | cons a rest ih =>
    obtain ⟨m, first, run⟩ := exec_cons_some run
    have later : Alone rest := fun b member => alone b (List.mem_cons_of_mem _ member)
    rcases alone a List.mem_cons_self with rfl | rfl
    · simp only [Whole.step, started] at first
      contradiction
    · simp only [Whole.step] at first
      split at first
      · obtain rfl := Option.some.inj first
        rw [ih later (by exact started) run, List.countP_cons_of_pos rfl, Function.iterate_succ_apply]
      · contradiction

theorem alone_cons {a : Action} {rest : List Action} (alone : Alone (a :: rest)) :
    (a = .main ∨ a = .tick) ∧ Alone rest :=
  ⟨alone a List.mem_cons_self, fun b member => alone b (List.mem_cons_of_mem _ member)⟩

variable {s t : State} {as : List Action}

theorem calm_alone (alone : Alone as) : Meets (step x g path) Calm s as := by
  induction as generalizing s with
  | nil => trivial
  | cons a rest ih =>
    obtain ⟨now, later⟩ := alone_cons alone
    intro m taken
    refine ⟨?_, ih later⟩
    rcases now with rfl | rfl
    · trivial
    · obtain ⟨ready, _⟩ := Option.ite_none_right_eq_some.mp taken
      show s.pc.resting = true
      rw [ready.1]
      rfl

theorem trace_alone (alone : Alone as) (run : exec (step x g path) s as = some t) :
    Alone ((calls x g path).trace s as) ∧
      ((calls x g path).trace s as).countP Action.isTick = as.countP Action.isTick := by
  induction as generalizing s with
  | nil => exact ⟨alone, rfl⟩
  | cons a rest ih =>
    obtain ⟨now, later⟩ := alone_cons alone
    obtain ⟨m, taken, run⟩ := exec_cons_some run
    obtain ⟨calls', count⟩ := ih later run
    rw [Refinement.trace_cons _ rest taken]
    have labelled : ((calls x g path).label s a).toList = [] ∧ a = .main ∨
        ((calls x g path).label s a).toList = [a] := by
      rcases now with rfl | rfl
      · show (State.call s .main).toList = [] ∧ _ ∨ (State.call s .main).toList = _
        rw [State.call]
        split
        · exact Or.inr rfl
        · exact Or.inl ⟨rfl, rfl⟩
      · exact Or.inr rfl
    rcases labelled with ⟨internal, rfl⟩ | begun
    · rw [internal]
      exact ⟨calls', count⟩
    · rw [begun, List.singleton_append, List.countP_cons, List.countP_cons, count]
      refine ⟨?_, rfl⟩
      intro b member
      rcases List.mem_cons.mp member with rfl | member
      · exact now
      · exact calls' b member

theorem ordered_exec (ordered : Ordered s) (run : exec (step x g path) s as = some t) : Ordered t :=
  exec_invariant (fun _ _ _ ordered taken => ordered_step ordered taken) ordered run

/-- From the last edit on the timer reloads once for each file of the order and then never again, and after the
first of these reloads the configuration stays. -/
theorem changes_settle {clock : Int} {bs : List Action} (run : exec (step x g path) (initial files clock) as = some s)
    (idle : s.pc = .idle) (alone : Alone bs) (run' : exec (step x g path) s bs = some t) (idle' : t.pc = .idle) :
    let ticks := bs.countP Action.isTick
    let order := reloadOrder (loadFromFile x g s.config.options.ini s.files s.config.path true).includes
      (staleFiles s.files s.config.changedMap)
    t.files = s.files ∧ t.config = settling x g s.files s.config ticks ∧
      changedFile t.files t.config.changedMap = order[ticks]? := by
  intro ticks order
  have ordered := ordered_exec (ordered_initial files clock) run
  obtain ⟨_, upper⟩ := (calls x g path).run ordered (calm_alone alone) run'
  obtain ⟨alone', count⟩ := trace_alone alone run'
  have before : (calls x g path).abs s = ⟨s.files, s.clock, s.config, .started⟩ := whole_idle idle
  have after : (calls x g path).abs t = ⟨t.files, t.clock, t.config, .started⟩ := whole_idle idle'
  rw [before, after] at upper
  have reached := whole_ticks alone' rfl upper
  rw [count, timerHandler_iterate ordered.times] at reached
  simp only [Whole.mk.injEq] at reached
  obtain ⟨same, _, config, _⟩ := reached
  refine ⟨same, config, ?_⟩
  rw [same, config]
  exact changedFile_settling ordered.times ticks

def editedOnce : List Action :=
  List.replicate 5 .main ++ [.reconfigured { ConfigConfig.default with reloadChangedMs := 1000 }, .clock 3,
    .write "daemon.conf" "{ }"]

def twoTicks : List Action := [.tick, .main, .main, .main, .tick, .main, .main]

theorem edited_once_settles :
    ∃ s t, exec (step .plain unpackaged "daemon.conf") (initial daemonConf 2) editedOnce = some s ∧
      exec (step .plain unpackaged "daemon.conf") s twoTicks = some t ∧ s.config.changedMap = [("daemon.conf", 1)] ∧
      t.files = s.files ∧ t.config = settling .plain unpackaged s.files s.config 2 := by
  have first : (exec (step .plain unpackaged "daemon.conf") (initial daemonConf 2) editedOnce).map
      (fun s => (s.pc, s.config.changedMap)) = some (.idle, [("daemon.conf", 1)]) := by decide
  have whole : (exec (step .plain unpackaged "daemon.conf") (initial daemonConf 2) (editedOnce ++ twoTicks)).map
      State.pc = some .idle := by decide
  obtain ⟨s, run, shown⟩ := Option.map_eq_some_iff.mp first
  obtain ⟨idle, recorded⟩ := Prod.mk.inj shown
  rw [exec_append, run, Option.bind_some] at whole
  obtain ⟨t, run', idle'⟩ := Option.map_eq_some_iff.mp whole
  have alone : Alone twoTicks := by simp [Alone, twoTicks]
  obtain ⟨files, config, _⟩ := changes_settle run idle alone run' idle'
  exact ⟨s, t, run, run', recorded, files, config⟩

end Watch

end WfcCore.Config

import Mathlib.Logic.Function.Basic
import WfcCore.Core.StatusLog
import WfcCore.Foundation.Run

/-!
# Scrapes of the status gauges

`prometheus_domain::impl::update` writes one gauge after another, and other threads may read any gauge between any
two writes. The run of such writes and reads says what a scrape can see.
-/

namespace WfcCore.Prometheus

open WfcCore.Core Foundation

inductive Gauge where
  | errors | warnings | fatals | hang | ok | stage | time
deriving DecidableEq

abbrev Gauges := Gauge → Int

inductive Write where
  | set (gauge : Gauge) (value : Int)
  | increment (gauge : Gauge)
deriving DecidableEq

def Write.apply (g : Gauges) : Write → Gauges
  | .set gauge value => Function.update g gauge value
  | .increment gauge => Function.update g gauge (g gauge + 1)

def applyAll (g : Gauges) (ws : List Write) : Gauges := ws.foldl Write.apply g

/-- What `get_status` answers to an update. No write before that of `ok` depends on it. -/
structure Answer where
  status : CoreStatus
  stage : Option CoreStage
  statusList : StatusList

def stageValue : Option CoreStage → Int
  | some .isRun => 0
  | some .configuring => 3
  | some .initializing => 2
  | some .starting => 1
  | some .stopping => -1
  | none => -10

/-- The gauge that counts the entries of a status. -/
def counter : CoreStatus → Option Gauge
  | .warining => some .warnings
  | .error => some .errors
  | .abort => some .fatals
  | .hang => some .hang
  | .ok => none

def countWrites (i : CoreStatus × String) : List Write :=
  match counter i.1 with
  | some gauge => [.increment gauge]
  | none => []

def resets : List Write :=
  [.increment .time, .set .errors 0, .set .warnings 0, .set .fatals 0, .set .hang 0]

def okValue (status : CoreStatus) : Int := if status = .ok then 1 else 0

/-- The writes of an update, in program order. -/
def update (answer : Answer) : List Write :=
  resets ++ [.set .ok (okValue answer.status), .set .stage (stageValue answer.stage)] ++
    answer.statusList.flatMap countWrites

/-- The value of a gauge that a scrape has read. How many updates had finished, and whether another was in progress,
is kept to say what the value was. -/
structure Read where
  scrape : Nat
  gauge : Gauge
  value : Int
  finished : Nat
  inside : Bool

structure State where
  gauges : Gauges
  pending : List Write
  last : Option Answer
  now : Option Answer
  finished : Nat
  reads : List Read

def State.start : State where
  gauges := fun _ => 0
  pending := []
  last := none
  now := none
  finished := 0
  reads := []

/-- The timer begins an update with the core still there, the update writes a gauge or returns, and the exposer reads
a gauge for one of its scrapes. A scrape reads the gauges in any order, and several may go on at once. -/
inductive Action where
  | update (answer : Answer)
  | write
  | finish
  | read (scrape : Nat) (gauge : Gauge)

def step (s : State) : Action → Option State
  | .update answer =>
    if s.now.isNone then some { s with pending := Prometheus.update answer, now := some answer } else none
  | .write =>
    match s.pending with
    | [] => none
    | w :: rest => some { s with gauges := w.apply s.gauges, pending := rest }
  | .finish =>
    if s.now.isSome ∧ s.pending = [] then
      some { s with last := s.now, now := none, finished := s.finished + 1 }
    else none
  | .read scrape gauge =>
    some { s with reads := s.reads ++ [⟨scrape, gauge, s.gauges gauge, s.finished, s.now.isSome⟩] }

def State.readsOf (s : State) (scrape : Nat) : List Read := s.reads.filter (·.scrape == scrape)

/-! ### What can be seen -/

def count (status : CoreStatus) (list : StatusList) : Int := list.countP (·.1 == status)

/-- The values of a result of `get_status`. Before the first update all gauges are zero. -/
def lastCount (status : CoreStatus) (last : Option Answer) : Int := (last.map fun a => count status a.statusList).getD 0

def lastOk (last : Option Answer) : Int := (last.map fun a => okValue a.status).getD 0

/-- The gauges show a result of `get_status`, or nothing before the first. -/
structure Shows (g : Gauges) (last : Option Answer) : Prop where
  counts : ∀ status gauge, counter status = some gauge → g gauge = lastCount status last
  ok : g .ok = lastOk last

/-- Before the new `ok` is written, each counter may have been reset. -/
structure Resetting (g : Gauges) (last : Option Answer) : Prop where
  counts : ∀ status gauge, counter status = some gauge → g gauge = lastCount status last ∨ g gauge = 0
  ok : g .ok = lastOk last

/-- After that, a beginning of the list has been counted. -/
structure Counting (g : Gauges) (answer : Answer) : Prop where
  counts : ∃ counted, counted <+: answer.statusList ∧
    ∀ status gauge, counter status = some gauge → g gauge = count status counted
  ok : g .ok = okValue answer.status

/-- Between updates the gauges show the whole result of the last one, during an update a part of it. -/
def Seen (g : Gauges) (last now : Option Answer) : Prop :=
  match now with
  | none => Shows g last
  | some answer => Resetting g last ∨ Counting g answer

def answers (as : List Action) : List Answer :=
  as.filterMap fun
    | .update answer => some answer
    | _ => none

/-- The value is that of a gauge as the updates before the reading, and the one in progress, have left it. -/
def Read.Explained (results : List Answer) (r : Read) : Prop :=
  ∃ g, Seen g (results.take r.finished).getLast? (if r.inside then results[r.finished]? else none) ∧
    r.value = g r.gauge

/-- The value is that of a result of `get_status`, or zero before the first. -/
structure Read.Tells (r : Read) (last : Option Answer) : Prop where
  counts : ∀ status, counter status = some r.gauge → r.value = lastCount status last
  ok : r.gauge = .ok → r.value = lastOk last

/-- The values are those of one of the results. -/
def Whole (results : List Answer) (reads : List Read) : Prop := ∃ a ∈ results, ∀ r ∈ reads, r.Tells (some a)

/-! ### Writes -/

theorem applyAll_append (g : Gauges) (first rest : List Write) :
    applyAll g (first ++ rest) = applyAll (applyAll g first) rest := List.foldl_append

theorem count_cons (status : CoreStatus) (i : CoreStatus × String) (rest : StatusList) :
    count status (i :: rest) = count status rest + if i.1 = status then 1 else 0 := by
  simp only [count, List.countP_cons, beq_iff_eq]
  split <;> simp

theorem counter_injective {status other : CoreStatus} {gauge : Gauge} (h : counter status = some gauge)
    (h' : counter other = some gauge) : status = other := by
  cases status <;> cases h <;> cases other <;> first | rfl | cases h'

theorem counter_ne {status : CoreStatus} {gauge : Gauge} (h : counter status = some gauge) :
    gauge ≠ .ok ∧ gauge ≠ .stage ∧ gauge ≠ .time := by
  cases status <;> cases h <;> decide

theorem countWrites_counter (g : Gauges) (i : CoreStatus × String) {status : CoreStatus} {gauge : Gauge}
    (h : counter status = some gauge) :
    applyAll g (countWrites i) gauge = g gauge + if i.1 = status then 1 else 0 := by
  unfold countWrites
  cases own : counter i.1 with
  | none =>
    have other : i.1 ≠ status := by
      rintro rfl
      rw [h] at own
      contradiction
    rw [if_neg other, Int.add_zero]
    rfl
  | some target =>
    rcases eq_or_ne target gauge with rfl | apart
    · rw [if_pos (counter_injective own h)]
      exact Function.update_self ..
    · have other : i.1 ≠ status := by
        rintro rfl
        exact apart (Option.some.inj (own.symm.trans h))
      rw [if_neg other, Int.add_zero]
      exact Function.update_of_ne apart.symm ..

theorem countWrites_ok (g : Gauges) (i : CoreStatus × String) : applyAll g (countWrites i) .ok = g .ok := by
  unfold countWrites
  cases own : counter i.1 with
  | none => rfl
  | some target => exact Function.update_of_ne (counter_ne own).1.symm ..

theorem counted_counter (g : Gauges) (list : StatusList) {status : CoreStatus} {gauge : Gauge}
    (h : counter status = some gauge) :
    applyAll g (list.flatMap countWrites) gauge = g gauge + count status list := by
  induction list generalizing g with
  | nil => exact (Int.add_zero _).symm
  | cons i rest ih =>
    rw [List.flatMap_cons, applyAll_append, ih, countWrites_counter g i h, count_cons]
    omega

theorem counted_ok (g : Gauges) (list : StatusList) : applyAll g (list.flatMap countWrites) .ok = g .ok := by
  induction list generalizing g with
  | nil => rfl
  | cons i rest ih => rw [List.flatMap_cons, applyAll_append, ih, countWrites_ok]

theorem countWrites_short (i : CoreStatus × String) : countWrites i = [] ∨ ∃ w, countWrites i = [w] := by
  unfold countWrites
  cases counter i.1 with
  | none => exact Or.inl rfl
  | some gauge => exact Or.inr ⟨_, rfl⟩

/-- An entry has at most one write, so what comes before a cut counts a beginning of the list. -/
theorem prefix_countWrites {list : StatusList} {ws : List Write} (h : ws <+: list.flatMap countWrites) :
    ∃ counted, counted <+: list ∧ ws = counted.flatMap countWrites := by
  induction list generalizing ws with
  | nil => exact ⟨[], List.prefix_rfl, List.prefix_nil.mp h⟩
  | cons i rest ih =>
    have later {tail : List Write} (h : tail <+: rest.flatMap countWrites) :
        ∃ counted, counted <+: i :: rest ∧ countWrites i ++ tail = counted.flatMap countWrites := by
      obtain ⟨counted, before, rfl⟩ := ih h
      exact ⟨i :: counted, List.cons_prefix_cons.mpr ⟨rfl, before⟩, List.flatMap_cons.symm⟩
    rw [List.flatMap_cons] at h
    rcases countWrites_short i with none | ⟨w, one⟩
    · rw [none, List.nil_append] at h
      rw [none] at later
      exact later h
    · rw [one, List.singleton_append] at h
      rw [one] at later
      rcases List.prefix_cons_iff.mp h with rfl | ⟨tail, rfl, inside⟩
      · exact ⟨[], List.nil_prefix, rfl⟩
      · exact later inside

/-! ### Inside an update -/

theorem Shows.resetting {g : Gauges} {last : Option Answer} (h : Shows g last) : Resetting g last where
  counts status gauge counts := Or.inl (h.counts status gauge counts)
  ok := h.ok

theorem Resetting.reset {g : Gauges} {last : Option Answer} (h : Resetting g last) {target : Gauge}
    (notOk : Gauge.ok ≠ target) : Resetting (Function.update g target 0) last where
  counts status gauge counts := by
    rcases eq_or_ne gauge target with rfl | apart
    · exact Or.inr (Function.update_self ..)
    · rw [Function.update_of_ne apart]
      exact h.counts status gauge counts
  ok := by
    rw [Function.update_of_ne notOk]
    exact h.ok

theorem Resetting.tick {g : Gauges} {last : Option Answer} (h : Resetting g last) (value : Int) :
    Resetting (Function.update g .time value) last where
  counts status gauge counts := by
    rw [Function.update_of_ne (counter_ne counts).2.2]
    exact h.counts status gauge counts
  ok := by
    rw [Function.update_of_ne (by decide)]
    exact h.ok

theorem Resetting.write {g : Gauges} {last : Option Answer} (h : Resetting g last) {w : Write} (reset : w ∈ resets) :
    Resetting (w.apply g) last := by
  simp only [resets, List.mem_cons, List.not_mem_nil, or_false] at reset
  rcases reset with rfl | rfl | rfl | rfl | rfl
  · exact h.tick _
  all_goals exact h.reset (by decide)

theorem Resetting.writes {g : Gauges} {last : Option Answer} {ws : List Write} (h : Resetting g last)
    (reset : ∀ w ∈ ws, w ∈ resets) : Resetting (applyAll g ws) last := by
  induction ws generalizing g with
  | nil => exact h
  | cons w rest ih =>
    obtain ⟨now, later⟩ := List.forall_mem_cons.mp reset
    exact ih (h.write now) later

theorem resets_counter (g : Gauges) {status : CoreStatus} {gauge : Gauge} (h : counter status = some gauge) :
    applyAll g resets gauge = 0 := by
  cases status <;> cases h <;> rfl

/-- The gauges once `ok` is written, whether or not the stage is. -/
theorem counting_entries {g : Gauges} {answer : Answer} {counted : StatusList}
    (zero : ∀ status gauge, counter status = some gauge → g gauge = 0) (ok : g .ok = okValue answer.status)
    (before : counted <+: answer.statusList) :
    Counting (applyAll g (counted.flatMap countWrites)) answer where
  counts := by
    refine ⟨counted, before, fun status gauge counts => ?_⟩
    rw [counted_counter g counted counts, zero status gauge counts, Int.zero_add]
  ok := by rw [counted_ok, ok]

/-- The gauges when the new `ok` is written, and when the stage is too. -/
def opened (g : Gauges) (answer : Answer) : Gauges :=
  Function.update (applyAll g resets) .ok (okValue answer.status)

def staged (g : Gauges) (answer : Answer) : Gauges :=
  Function.update (opened g answer) .stage (stageValue answer.stage)

theorem opened_counter (g : Gauges) (answer : Answer) (status : CoreStatus) (gauge : Gauge)
    (h : counter status = some gauge) : opened g answer gauge = 0 := by
  rw [opened, Function.update_of_ne (counter_ne h).1, resets_counter g h]

theorem opened_ok (g : Gauges) (answer : Answer) : opened g answer .ok = okValue answer.status :=
  Function.update_self ..

theorem staged_counter (g : Gauges) (answer : Answer) (status : CoreStatus) (gauge : Gauge)
    (h : counter status = some gauge) : staged g answer gauge = 0 := by
  rw [staged, Function.update_of_ne (counter_ne h).2.1, opened_counter g answer status gauge h]

theorem staged_ok (g : Gauges) (answer : Answer) : staged g answer .ok = okValue answer.status := by
  rw [staged, Function.update_of_ne (by decide), opened_ok]

theorem applyAll_update (g : Gauges) (answer : Answer) :
    applyAll g (update answer) = applyAll (staged g answer) (answer.statusList.flatMap countWrites) := by
  rw [update, applyAll_append, applyAll_append]
  rfl

/-- The step lemma of a reading: wherever an update is cut. -/
theorem update_cut {g : Gauges} {last : Option Answer} {answer : Answer} {done pending : List Write}
    (base : Shows g last) (cut : update answer = done ++ pending) :
    Resetting (applyAll g done) last ∨ Counting (applyAll g done) answer := by
  rw [update, List.append_assoc] at cut
  rcases List.append_eq_append_iff.mp cut with ⟨later, rfl, tail⟩ | ⟨more, all, -⟩
  · rw [applyAll_append]
    match later, tail with
    | [], _ => exact Or.inl (base.resetting.writes fun w reset => reset)
    | [_], tail =>
      obtain ⟨rfl, -⟩ := List.cons.inj tail
      have none : Counting (applyAll (opened g answer) (List.flatMap countWrites [])) answer :=
        counting_entries (opened_counter g answer) (opened_ok g answer) List.nil_prefix
      exact Or.inr none
    | _ :: _ :: later, tail =>
      obtain ⟨rfl, rest⟩ := List.cons.inj tail
      obtain ⟨rfl, entries⟩ := List.cons.inj rest
      obtain ⟨counted, before, rfl⟩ := prefix_countWrites ⟨pending, entries.symm⟩
      exact Or.inr (counting_entries (staged_counter g answer) (staged_ok g answer) before)
  · refine Or.inl (base.resetting.writes fun w reset => ?_)
    rw [all]
    exact List.mem_append_left more reset

theorem update_whole (g : Gauges) (answer : Answer) : Shows (applyAll g (update answer)) (some answer) where
  counts status gauge counts := by
    rw [applyAll_update, counted_counter _ _ counts, staged_counter g answer status gauge counts, Int.zero_add]
    rfl
  ok := by
    rw [applyAll_update, counted_ok, staged_ok]
    rfl

/-! ### Runs -/

structure Consistent (s : State) : Prop where
  idle : s.now = none → s.pending = [] ∧ Shows s.gauges s.last
  busy : ∀ answer, s.now = some answer → ∃ base done,
    Shows base s.last ∧ update answer = done ++ s.pending ∧ s.gauges = applyAll base done

theorem consistent_start : Consistent State.start where
  idle _ := ⟨rfl, fun _ _ _ => rfl, rfl⟩
  busy answer h := by simp [State.start] at h

theorem Consistent.seen {s : State} (h : Consistent s) : Seen s.gauges s.last s.now := by
  unfold Seen
  cases now : s.now with
  | none => exact (h.idle now).2
  | some answer =>
    obtain ⟨base, done, shows, cut, gauges⟩ := h.busy answer now
    simp only
    rw [gauges]
    exact update_cut shows cut

/-- What a step can do. -/
theorem step_cases {s t : State} {a : Action} (taken : step s a = some t) :
    (∃ answer, a = .update answer ∧ s.now = none ∧
      t = { s with pending := Prometheus.update answer, now := some answer }) ∨
    (∃ w rest, a = .write ∧ s.pending = w :: rest ∧ t = { s with gauges := w.apply s.gauges, pending := rest }) ∨
    (∃ answer, a = .finish ∧ s.now = some answer ∧ s.pending = [] ∧
      t = { s with last := s.now, now := none, finished := s.finished + 1 }) ∨
    (∃ scrape gauge, a = .read scrape gauge ∧
      t = { s with reads := s.reads ++ [⟨scrape, gauge, s.gauges gauge, s.finished, s.now.isSome⟩] }) := by
  cases a with
  | update answer =>
    simp only [step, Option.ite_none_right_eq_some, Option.isNone_iff_eq_none, Option.some.injEq] at taken
    obtain ⟨idle, rfl⟩ := taken
    exact Or.inl ⟨answer, rfl, idle, rfl⟩
  | write =>
    cases pending : s.pending with
    | nil => simp [step, pending] at taken
    | cons w rest =>
      simp only [step, pending, Option.some.injEq] at taken
      exact Or.inr (Or.inl ⟨w, rest, rfl, rfl, taken.symm⟩)
  | finish =>
    simp only [step, Option.ite_none_right_eq_some, Option.isSome_iff_exists, Option.some.injEq] at taken
    obtain ⟨⟨⟨answer, now⟩, finished⟩, rfl⟩ := taken
    exact Or.inr (Or.inr (Or.inl ⟨answer, rfl, now, finished, rfl⟩))
  | read scrape gauge =>
    simp only [step, Option.some.injEq] at taken
    exact Or.inr (Or.inr (Or.inr ⟨scrape, gauge, rfl, taken.symm⟩))

theorem consistent_step (s : State) (a : Action) (t : State) (h : Consistent s) (taken : step s a = some t) :
    Consistent t := by
  obtain ⟨answer, rfl, idle, rfl⟩ | ⟨w, rest, rfl, pending, rfl⟩ | ⟨answer, rfl, now, finished, rfl⟩ |
    ⟨scrape, gauge, rfl, rfl⟩ := step_cases taken
  · obtain ⟨-, shows⟩ := h.idle idle
    refine ⟨fun busy => (Option.some_ne_none _ busy).elim, fun other same => ?_⟩
    obtain rfl := Option.some.inj same
    exact ⟨s.gauges, [], shows, rfl, rfl⟩
  · refine ⟨fun idle => ?_, fun answer now => ?_⟩
    · obtain ⟨none, -⟩ := h.idle idle
      rw [pending] at none
      contradiction
    · obtain ⟨base, done, shows, cut, gauges⟩ := h.busy answer now
      refine ⟨base, done ++ [w], shows, ?_, ?_⟩
      · rw [cut, pending, List.append_cons]
      · rw [applyAll_append, ← gauges]
        rfl
  · obtain ⟨base, done, shows, cut, gauges⟩ := h.busy answer now
    refine ⟨fun _ => ⟨finished, ?_⟩, fun other busy => (Option.some_ne_none _ busy.symm).elim⟩
    rw [finished, List.append_nil] at cut
    simp only
    rw [now, gauges, ← cut]
    exact update_whole base answer
  · exact ⟨h.idle, h.busy⟩

/-- The updates that a value speaks of have begun. -/
def Read.Within (results : List Answer) (r : Read) : Prop :=
  r.finished ≤ results.length ∧ (r.inside = true → r.finished < results.length)

theorem Read.Explained.later {results : List Answer} {r : Read} (explained : r.Explained results)
    (within : r.Within results) (more : List Answer) : r.Explained (results ++ more) := by
  obtain ⟨g, seen, value⟩ := explained
  refine ⟨g, ?_, value⟩
  rw [List.take_append_of_le_length within.1]
  cases inside : r.inside with
  | false => simpa [inside] using seen
  | true =>
    rw [List.getElem?_append_left (within.2 inside)]
    simpa [inside] using seen

theorem Read.Within.later {results : List Answer} {r : Read} (within : r.Within results) (more : List Answer) :
    r.Within (results ++ more) := by
  obtain ⟨begun, busy⟩ := within
  rw [Read.Within, List.length_append]
  exact ⟨by omega, fun inside => by have := busy inside; omega⟩

/-- The results of the run are those of the finished updates and that of the one in progress. -/
structure Told (as : List Action) (s : State) : Prop where
  results : ∃ done, answers as = done ++ s.now.toList ∧ s.last = done.getLast? ∧ s.finished = done.length
  reads : ∀ r ∈ s.reads, r.Explained (answers as) ∧ r.Within (answers as)

theorem answers_append (as : List Action) (a : Action) : answers (as ++ [a]) = answers as ++ answers [a] :=
  List.filterMap_append

theorem Told.later {as : List Action} {s : State} (told : Told as s) (a : Action) :
    ∀ r ∈ s.reads, r.Explained (answers (as ++ [a])) ∧ r.Within (answers (as ++ [a])) := by
  intro r member
  obtain ⟨explained, within⟩ := told.reads r member
  rw [answers_append]
  exact ⟨explained.later within _, within.later _⟩

theorem Told.read {as : List Action} {s : State} (told : Told as s) (consistent : Consistent s) (scrape : Nat)
    (gauge : Gauge) :
    let r : Read := ⟨scrape, gauge, s.gauges gauge, s.finished, s.now.isSome⟩
    r.Explained (answers as) ∧ r.Within (answers as) := by
  intro r
  obtain ⟨done, results, last, finished⟩ := told.results
  have seen := consistent.seen
  have before : ((answers as).take s.finished).getLast? = s.last := by
    rw [results, finished, List.take_left, last]
  have here : (if s.now.isSome then (answers as)[s.finished]? else none) = s.now := by
    rw [results, finished, List.getElem?_append_right (Nat.le_refl _), Nat.sub_self]
    cases s.now <;> rfl
  refine ⟨⟨s.gauges, ?_, rfl⟩, ?_⟩
  · show Seen s.gauges ((answers as).take s.finished).getLast?
      (if s.now.isSome then (answers as)[s.finished]? else none)
    rw [before, here]
    exact seen
  · show s.finished ≤ (answers as).length ∧ (s.now.isSome = true → s.finished < (answers as).length)
    rw [results, finished, List.length_append]
    cases s.now <;> simp

theorem told_step (before : List Action) (s : State) (a : Action) (t : State) (h : Consistent s ∧ Told before s)
    (taken : step s a = some t) : Consistent t ∧ Told (before ++ [a]) t := by
  obtain ⟨consistent, told⟩ := h
  refine ⟨consistent_step s a t consistent taken, ?_⟩
  obtain ⟨done, results, last, finished⟩ := told.results
  have reads := told.later a
  obtain ⟨answer, rfl, idle, rfl⟩ | ⟨w, rest, rfl, -, rfl⟩ | ⟨answer, rfl, now, -, rfl⟩ | ⟨scrape, gauge, rfl, rfl⟩ :=
    step_cases taken
  · refine ⟨⟨done, ?_, last, finished⟩, reads⟩
    rw [answers_append, results, idle, Option.toList_none, List.append_nil]
    rfl
  · refine ⟨⟨done, ?_, last, finished⟩, reads⟩
    rw [answers_append, results]
    exact List.append_nil _
  · refine ⟨⟨done ++ [answer], ?_, ?_, ?_⟩, reads⟩
    · rw [answers_append, results, now]
      rfl
    · rw [List.getLast?_concat]
      exact now
    · rw [List.length_append, List.length_singleton, ← finished]
  · refine ⟨⟨done, ?_, last, finished⟩, fun r member => ?_⟩
    · rw [answers_append, results]
      exact List.append_nil _
    · rcases List.mem_append.mp member with old | new
      · exact reads r old
      · obtain rfl := List.mem_singleton.mp new
        rw [answers_append]
        obtain ⟨explained, within⟩ := told.read consistent scrape gauge
        exact ⟨explained.later within _, within.later _⟩

theorem told_exec {as : List Action} {s : State} (run : exec step State.start as = some s) : Told as s := by
  have start : Consistent State.start ∧ Told [] State.start :=
    ⟨consistent_start, ⟨[], rfl, rfl, rfl⟩, List.forall_mem_nil _⟩
  exact (exec_history (fun before s => Consistent s ∧ Told before s) start told_step run).2

theorem Read.Explained.tells {results : List Answer} {r : Read} (explained : r.Explained results)
    (outside : r.inside = false) : r.Tells (results.take r.finished).getLast? := by
  obtain ⟨g, seen, value⟩ := explained
  rw [outside] at seen
  have shows : Shows g (results.take r.finished).getLast? := seen
  exact ⟨fun status counts => value.trans (shows.counts status _ counts),
    fun ok => by rw [value, ok]; exact shows.ok⟩

/-- Every value that a scrape reads is explained by the updates before it and the one in progress. A scrape that
reads all its values between two updates sees the whole result of the earlier one. -/
theorem scrapes_seen {as : List Action} {s : State} (run : exec step State.start as = some s) :
    (∀ r ∈ s.reads, r.Explained (answers as) ∧ r.Within (answers as)) ∧
      ∀ scrape finished, (∀ r ∈ s.readsOf scrape, r.finished = finished ∧ r.inside = false) →
        ∀ r ∈ s.readsOf scrape, r.Tells ((answers as).take finished).getLast? := by
  have told := told_exec run
  refine ⟨told.reads, fun scrape finished quiet r member => ?_⟩
  obtain ⟨rfl, outside⟩ := quiet r member
  have explained := (told.reads r (List.mem_of_mem_filter member)).1
  exact explained.tells outside

/-- The first result is fine, and one scrape reads it. The second has one error, and another scrape comes before that
is counted. -/
def tornRun : List Action :=
  .update ⟨.ok, some .isRun, []⟩ :: List.replicate 7 .write ++ [.finish, .read 1 .ok, .read 1 .errors] ++
    .update ⟨.error, some .isRun, [(.error, "disk")]⟩ :: List.replicate 6 .write ++ [.read 2 .errors, .read 2 .ok]

theorem scrapes_seen_torn : ∃ s, exec step State.start tornRun = some s ∧
    (∀ r ∈ s.reads, r.Explained (answers tornRun) ∧ r.Within (answers tornRun)) ∧
    ∀ r ∈ s.readsOf 1, r.Tells (some ⟨.ok, some .isRun, []⟩) := by
  obtain ⟨s, run, quiet⟩ : ∃ s, exec step State.start tornRun = some s ∧
      ∀ r ∈ s.readsOf 1, r.finished = 1 ∧ r.inside = false := ⟨_, rfl, by decide⟩
  obtain ⟨explained, whole⟩ := scrapes_seen run
  exact ⟨s, run, explained, whole 1 1 quiet⟩

theorem scrape_torn :
    ¬ ∀ as s, exec step State.start as = some s → ∀ scrape, Whole (answers as) (s.readsOf scrape) := by
  intro h
  obtain ⟨s, run, reads⟩ : ∃ s, exec step State.start tornRun = some s ∧
      s.readsOf 2 = [⟨2, .errors, 0, 1, true⟩, ⟨2, .ok, 0, 1, true⟩] := ⟨_, rfl, rfl⟩
  obtain ⟨answer, result, tells⟩ := h tornRun s run 2
  rw [reads] at tells
  have errors := (tells _ List.mem_cons_self).counts .error rfl
  have ok := (tells _ (List.mem_cons_of_mem _ List.mem_cons_self)).ok rfl
  have results : answers tornRun = [⟨.ok, some .isRun, []⟩, ⟨.error, some .isRun, [(.error, "disk")]⟩] := rfl
  rw [results, List.mem_cons, List.mem_singleton] at result
  rcases result with rfl | rfl
  · exact absurd ok (by decide)
  · exact absurd errors (by decide)

end WfcCore.Prometheus

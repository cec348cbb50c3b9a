import Mathlib.Data.List.Forall2
import WfcCore.Config.Load

/-!
# Generation with a default argument

`generate_config` takes a map of component names to arguments. The argument of "all" becomes the default for
the other names, and "all" alone asks for every component; next to other names it stays in the map, and the
loop looks it up like any name.
-/

namespace WfcCore.Config

open Foundation Wfc

variable {ω : Type} {g : Global ω} {go : List (String × String)} {defarg : String}

/-! ### The loop -/

/-- A loop that stops at its first error succeeds with one result for each entry. -/
theorem mapM_ok_iff {α β ε : Type} (f : α → Except ε β) (entries : List α) (results : List β) :
    entries.mapM f = .ok results ↔ List.Forall₂ (fun entry result => f entry = .ok result) entries results := by
  induction entries generalizing results with
  | nil =>
    rw [List.mapM_nil, List.forall₂_nil_left_iff]
    exact ⟨fun same => (Except.ok.inj same).symm, fun same => same ▸ rfl⟩
  | cons entry entries ih =>
    rw [List.mapM_cons, List.forall₂_cons_left_iff]
    constructor
    · intro done
      cases first : f entry with
      | error e =>
        rw [first] at done
        contradiction
      | ok result =>
        cases later : entries.mapM f with
        | error e =>
          rw [first, later] at done
          contradiction
        | ok rest =>
          rw [first, later] at done
          exact ⟨result, rest, rfl, (ih rest).mp later, (Except.ok.inj done).symm⟩
    · rintro ⟨result, rest, first, later, rfl⟩
      rw [first, (ih rest).mpr later]
      rfl

/-- The section for a name of the map: its component, generated with the argument of the name or else with
the default. -/
def IsSection (g : Global ω) (defarg : String) (opt : String × String) (part : ConfPair) : Prop :=
  ∃ obj, g.getComponent opt.1 = some obj ∧ part = (opt.1, obj.generate (if opt.2 = "" then defarg else opt.2))

def Registered (g : Global ω) (go : List (String × String)) : Prop :=
  ∀ opt ∈ go, (g.getComponent opt.1).isSome

theorem generateComponent_ok_iff {opt : String × String} {part : ConfPair} :
    generateComponent g defarg opt = .ok part ↔ IsSection g defarg opt part := by
  unfold generateComponent IsSection
  cases g.getComponent opt.1 with
  | none => simp
  | some obj =>
    constructor
    · intro made
      exact ⟨obj, rfl, (Except.ok.inj made).symm⟩
    · rintro ⟨other, found, rfl⟩
      obtain rfl := Option.some.inj found
      rfl

theorem sections_iff {parts : List ConfPair} :
    go.mapM (generateComponent g defarg) = .ok parts ↔ List.Forall₂ (IsSection g defarg) go parts := by
  rw [mapM_ok_iff]
  simp only [generateComponent_ok_iff]

theorem exists_sections_iff : (∃ parts, List.Forall₂ (IsSection g defarg) go parts) ↔ Registered g go := by
  induction go with
  | nil => exact iff_of_true ⟨[], List.Forall₂.nil⟩ (by simp [Registered])
  | cons opt go ih =>
    unfold Registered at ih ⊢
    rw [List.forall_mem_cons, ← ih]
    constructor
    · rintro ⟨parts, made⟩
      obtain ⟨part, rest, ⟨obj, found, _⟩, later, _⟩ := List.forall₂_cons_left_iff.mp made
      exact ⟨Option.isSome_of_eq_some found, rest, later⟩
    · rintro ⟨registered, rest, later⟩
      obtain ⟨obj, found⟩ := Option.isSome_iff_exists.mp registered
      exact ⟨_, List.Forall₂.cons ⟨obj, found, rfl⟩ later⟩

/-! ### The result -/

variable (x : External) (writable : String → Bool) (now : Int) (path : String) (files : Files)

theorem generateConfig_result : (generateConfig x g writable now go path files).2 = generated x g go := by
  unfold generateConfig
  cases generated x g go <;> rfl

/-- The names beside "all". -/
def others (go : List (String × String)) : List (String × String) :=
  go.filter (·.1 != "all")

theorem lookup_all_isSome : (go.lookup "all").isSome ↔ ∃ opt ∈ go, opt.1 = "all" := by
  rw [List.lookup_isSome_iff]
  simp only [beq_iff_eq]
  exact exists_congr fun opt => and_congr_right fun _ => eq_comm

theorem generated_loop (named : others go ≠ []) :
    generated x g go = (go.mapM (generateComponent g ((go.lookup "all").getD ""))).map x.json.writeDict := by
  obtain ⟨opt, member⟩ := List.exists_mem_of_ne_nil _ named
  obtain ⟨listed, other⟩ := List.mem_filter.mp member
  have loops : ¬ (go = [] ∨ (go.lookup "all" ≠ none ∧ go.length = 1)) := by
    rintro (rfl | ⟨all, single⟩)
    · contradiction
    · obtain ⟨item, rfl⟩ := List.length_eq_one_iff.mp single
      obtain rfl := List.mem_singleton.mp listed
      obtain ⟨_, only, same⟩ := lookup_all_isSome.mp (Option.isSome_iff_ne_none.mpr all)
      obtain rfl := List.mem_singleton.mp only
      rw [same] at other
      contradiction
  unfold generated
  rw [if_neg loops]

/-- Next to other names "all" is looked up as a component. -/
theorem generated_all_fails (noAll : g.getComponent "all" = none) (all : (go.lookup "all").isSome)
    (named : others go ≠ []) : ∃ text, generated x g go = .error text := by
  rw [generated_loop x named]
  cases made : go.mapM (generateComponent g ((go.lookup "all").getD "")) with
  | error text => exact ⟨text, rfl⟩
  | ok parts =>
    have registered := exists_sections_iff.mp ⟨parts, sections_iff.mp made⟩
    obtain ⟨opt, listed, same⟩ := lookup_all_isSome.mp all
    have found := registered opt listed
    rw [same, noAll] at found
    contradiction

/-- Without "all" generation succeeds exactly if every name is a registered component. -/
theorem generated_ok_iff (noAll : (go.lookup "all") = none) :
    (∃ text, generated x g go = .ok text) ↔ Registered g go := by
  have same : others go = go := by
    refine List.filter_eq_self.mpr fun opt listed => ?_
    have away := mt lookup_all_isSome.mpr (by rw [noAll]; exact Bool.false_ne_true)
    simpa using fun all : opt.1 = "all" => away ⟨opt, listed, all⟩
  by_cases empty : go = []
  · subst empty
    exact iff_of_true ⟨_, rfl⟩ (by simp [Registered])
  · have sections := @exists_sections_iff ω g go ((go.lookup "all").getD "")
    simp only [← sections_iff] at sections
    rw [generated_loop x (same.symm ▸ empty), ← sections]
    cases go.mapM (generateComponent g ((go.lookup "all").getD "")) with
    | error text => exact iff_of_false (by rintro ⟨_, made⟩; contradiction) (by rintro ⟨_, made⟩; contradiction)
    | ok parts => exact iff_of_true ⟨_, rfl⟩ ⟨parts, rfl⟩

/-- What the map asks for: with "all" next to other names one section for each of these, all other things as
the components have it; without "all" a configuration of the names if they are registered. -/
structure Generates (g : Global ω) (go : List (String × String)) (result : Except String String) : Prop where
  withAll : ∀ arg, go.lookup "all" = some arg → others go ≠ [] → Registered g (others go) →
    ∃ parts, List.Forall₂ (IsSection g arg) (others go) parts ∧ result = .ok (x.json.writeDict parts)
  withoutAll : go.lookup "all" = none → ((∃ text, result = .ok text) ↔ Registered g go)

/-- Generation does as the map asks exactly if "all" does not stand next to other names that are all
registered. -/
theorem generateConfig_iff (noAll : g.getComponent "all" = none) :
    Generates x g go (generateConfig x g writable now go path files).2 ↔
      ¬ ((go.lookup "all").isSome ∧ others go ≠ [] ∧ Registered g (others go)) := by
  rw [generateConfig_result]
  constructor
  · rintro generates ⟨all, named, registered⟩
    obtain ⟨arg, given⟩ := Option.isSome_iff_exists.mp all
    obtain ⟨parts, _, done⟩ := generates.withAll arg given named registered
    obtain ⟨text, failed⟩ := generated_all_fails x noAll all named
    rw [failed] at done
    contradiction
  · intro apart
    constructor
    · intro arg given named registered
      exact (apart ⟨Option.isSome_of_eq_some given, named, registered⟩).elim
    · exact fun without => generated_ok_iff x without

/-- A component that generates its argument as it is. -/
def echoGlobal : Global Unit :=
  .new default default [
    { name := "core", description := "", buildInfo := none, showOrder := 0, modules := [
        { name := "core", description := "", components := [
            { name := "core", interfaceName := "icore", description := "", help := fun _ => "", parse := fun _ => true,
              generate := id }] }] }]

theorem generateConfig_echo :
    Generates .plain echoGlobal [("core", "1")]
        (generateConfig .plain echoGlobal (fun _ => true) 0 [("core", "1")] "wfc.conf" (fun _ => none)).2 ↔
      ¬ (([("core", "1")].lookup "all").isSome ∧ others [("core", "1")] ≠ [] ∧
        Registered echoGlobal (others [("core", "1")])) :=
  generateConfig_iff .plain (fun _ => true) 0 "wfc.conf" (fun _ => none) rfl

/-- With a default argument for a registered name, generation fails. -/
theorem generateConfig_all_echo :
    ¬ Generates .plain echoGlobal [("all", "1"), ("core", "")]
      (generateConfig .plain echoGlobal (fun _ => true) 0 [("all", "1"), ("core", "")] "wfc.conf" (fun _ => none)).2 := by
  intro generates
  have registered : Registered echoGlobal (others [("all", "1"), ("core", "")]) := by
    intro opt listed
    obtain rfl : opt = ("core", "") := by simpa [others] using listed
    rfl
  obtain ⟨parts, _, done⟩ := generates.withAll "1" rfl (by decide) registered
  contradiction

end WfcCore.Config

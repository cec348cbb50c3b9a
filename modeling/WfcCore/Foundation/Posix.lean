import Mathlib.Logic.Function.Basic

/-!
# Files, descriptions and advisory locks

A small POSIX file system: names lead to inodes, an open file description holds an inode and an
offset, processes hold descriptors of descriptions, and `flock` locks an inode for a description.
A name can be removed while its inode is open. The descriptor of a process is identified with the
description it refers to.
-/

namespace WfcCore.Foundation.Posix

abbrev Bytes := List UInt8

structure Description where
  inode : Nat
  offset : Nat
deriving DecidableEq

/-- Inodes and descriptions are numbered in the order of their creation. `fds` lists the descriptors,
as pairs of a process and a description. -/
structure Fs (ρ : Type) where
  accessible : ρ → Bool
  names : ρ → Option Nat
  data : Nat → Bytes
  opened : Nat → Option Description
  lock : Nat → Option Nat
  fds : List (Nat × Nat)
  inodes : Nat
  descriptions : Nat
  names_lt : ∀ path i, names path = some i → i < inodes
  opened_lt : ∀ f d, opened f = some d → f < descriptions ∧ d.inode < inodes
  fds_opened : ∀ q f, (q, f) ∈ fds → (opened f).isSome
  lock_opened : ∀ i f, lock i = some f → ∃ d, opened f = some d ∧ d.inode = i

def Fs.empty (ρ : Type) : Fs ρ where
  accessible := fun _ => true
  names := fun _ => none
  data := fun _ => []
  opened := fun _ => none
  lock := fun _ => none
  fds := []
  inodes := 0
  descriptions := 0
  names_lt := by simp
  opened_lt := by simp
  fds_opened := by simp
  lock_opened := by simp

variable {ρ : Type} [DecidableEq ρ]

inductive Errno where
  | ewouldblock | ebadf
deriving DecidableEq

def Fs.boot (fs : Fs ρ) : Fs ρ where
  accessible := fs.accessible
  names := fs.names
  data := fs.data
  opened := fs.opened
  lock := fun _ => none
  fds := []
  inodes := fs.inodes
  descriptions := fs.descriptions
  names_lt := fs.names_lt
  opened_lt := fs.opened_lt
  fds_opened := by simp
  lock_opened := by simp

def Fs.create (fs : Fs ρ) (path : ρ) : Fs ρ where
  accessible := fs.accessible
  names := if fs.names path = none then Function.update fs.names path (some fs.inodes) else fs.names
  data := if fs.names path = none then Function.update fs.data fs.inodes [] else fs.data
  opened := fs.opened
  lock := fs.lock
  fds := fs.fds
  inodes := if fs.names path = none then fs.inodes + 1 else fs.inodes
  descriptions := fs.descriptions
  names_lt := by
    intro other i named
    split at named
    · rename_i free
      rw [if_pos free]
      by_cases same : other = path
      · subst same
        simp at named
        omega
      · rw [Function.update_of_ne same] at named
        have := fs.names_lt other i named
        omega
    · rename_i taken
      rw [if_neg taken]
      exact fs.names_lt other i named
  opened_lt := by
    intro f d isOpen
    have := fs.opened_lt f d isOpen
    split <;> omega
  fds_opened := fs.fds_opened
  lock_opened := fs.lock_opened

def Fs.openInode (fs : Fs ρ) (process i : Nat) (known : i < fs.inodes) : Fs ρ where
  accessible := fs.accessible
  names := fs.names
  data := fs.data
  opened := Function.update fs.opened fs.descriptions (some ⟨i, 0⟩)
  lock := fs.lock
  fds := (process, fs.descriptions) :: fs.fds
  inodes := fs.inodes
  descriptions := fs.descriptions + 1
  names_lt := fs.names_lt
  opened_lt := by
    intro f d isOpen
    by_cases same : f = fs.descriptions
    · subst same
      rw [Function.update_self] at isOpen
      obtain rfl := Option.some.inj isOpen
      exact ⟨by omega, known⟩
    · rw [Function.update_of_ne same] at isOpen
      have := fs.opened_lt f d isOpen
      omega
  fds_opened := by
    intro q f member
    by_cases same : f = fs.descriptions
    · simp [same]
    · rw [Function.update_of_ne same]
      rcases List.mem_cons.mp member with new | old
      · exact absurd (Prod.mk.inj new).2 same
      · exact fs.fds_opened q f old
  lock_opened := by
    intro i f locked
    obtain ⟨d, isOpen, inode⟩ := fs.lock_opened i f locked
    have := (fs.opened_lt f d isOpen).1
    exact ⟨d, by rw [Function.update_of_ne (by omega)]; exact isOpen, inode⟩

/-- `open(path, O_CREAT | O_RDWR)`: the new description, or nothing when the path is not accessible. -/
def Fs.openCreate (fs : Fs ρ) (process : Nat) (path : ρ) : Option (Fs ρ × Nat) :=
  match named : (fs.create path).names path with
  | some i =>
    if fs.accessible path then
      some ((fs.create path).openInode process i ((fs.create path).names_lt path i named), fs.descriptions)
    else none
  | none => none

/-- `flock(f, LOCK_EX | LOCK_NB)`. -/
def Fs.flock (fs : Fs ρ) (f : Nat) : Except Errno (Fs ρ) :=
  match isOpen : fs.opened f with
  | none => .error .ebadf
  | some d =>
    if fs.lock d.inode = some f then .ok fs
    else if fs.lock d.inode = none then
      .ok { fs with
        lock := Function.update fs.lock d.inode (some f)
        lock_opened := by
          intro i g locked
          by_cases same : i = d.inode
          · subst same
            rw [Function.update_self] at locked
            obtain rfl := Option.some.inj locked
            exact ⟨d, isOpen, rfl⟩
          · rw [Function.update_of_ne same] at locked
            exact fs.lock_opened i g locked }
    else .error .ewouldblock

/-- `ftruncate`: the length changes, the offset does not. -/
def Fs.ftruncate (fs : Fs ρ) (f length : Nat) : Option (Fs ρ) :=
  match fs.opened f with
  | none => none
  | some d =>
    let old := fs.data d.inode
    some { fs with
      data := Function.update fs.data d.inode (old.take length ++ List.replicate (length - old.length) 0) }

/-- `write` at the offset of the description; a gap before it is filled with zero bytes. -/
def Fs.write (fs : Fs ρ) (f : Nat) (bytes : Bytes) : Option (Fs ρ) :=
  match isOpen : fs.opened f with
  | none => none
  | some d =>
    let old := fs.data d.inode
    some { fs with
      data := Function.update fs.data d.inode
        (old.take d.offset ++ List.replicate (d.offset - old.length) 0 ++ bytes ++
          old.drop (d.offset + bytes.length))
      opened := Function.update fs.opened f (some { d with offset := d.offset + bytes.length })
      opened_lt := by
        intro g e found
        by_cases same : g = f
        · subst same
          rw [Function.update_self] at found
          obtain rfl := Option.some.inj found
          exact fs.opened_lt g d isOpen
        · rw [Function.update_of_ne same] at found
          exact fs.opened_lt g e found
      fds_opened := by
        intro q g member
        by_cases same : g = f
        · simp [same]
        · rw [Function.update_of_ne same]
          exact fs.fds_opened q g member
      lock_opened := by
        intro i g locked
        obtain ⟨e, found, inode⟩ := fs.lock_opened i g locked
        by_cases same : g = f
        · subst same
          obtain rfl := Option.some.inj (isOpen.symm.trans found)
          exact ⟨_, Function.update_self _ _ _, inode⟩
        · exact ⟨e, by rw [Function.update_of_ne same]; exact found, inode⟩ }

/-- `remove`: the name goes, the inode stays with those who have it open. -/
def Fs.unlink (fs : Fs ρ) (path : ρ) : Fs ρ :=
  { fs with
    names := Function.update fs.names path none
    names_lt := by
      intro other i named
      by_cases same : other = path
      · subst same
        simp at named
      · rw [Function.update_of_ne same] at named
        exact fs.names_lt other i named }

def Fs.fork (fs : Fs ρ) (parent child : Nat) : Fs ρ :=
  { fs with
    fds := fs.fds ++ (fs.fds.filter (·.1 == parent)).map fun fd => (child, fd.2)
    fds_opened := by
      intro q f member
      rcases List.mem_append.mp member with old | new
      · exact fs.fds_opened q f old
      · obtain ⟨fd, kept, same⟩ := List.mem_map.mp new
        obtain ⟨rfl, rfl⟩ := Prod.mk.inj same
        exact fs.fds_opened fd.1 fd.2 (List.mem_filter.mp kept).1 }

/-- The end of a process. A lock goes with the last descriptor of its description. -/
def Fs.exit (fs : Fs ρ) (process : Nat) : Fs ρ :=
  { fs with
    fds := fs.fds.filter (·.1 != process)
    lock := fun i => (fs.lock i).filter fun f => (fs.fds.filter (·.1 != process)).any (·.2 == f)
    fds_opened := fun q f member => fs.fds_opened q f (List.mem_filter.mp member).1
    lock_opened := fun i f locked => fs.lock_opened i f (Option.filter_eq_some_iff.mp locked).1 }

/-! ### Fresh numbers -/

omit [DecidableEq ρ] in
theorem opened_fresh (fs : Fs ρ) : fs.opened fs.descriptions = none := by
  cases found : fs.opened fs.descriptions with
  | none => rfl
  | some d =>
    have := (fs.opened_lt _ d found).1
    omega

omit [DecidableEq ρ] in
theorem fds_fresh (fs : Fs ρ) (q : Nat) : (q, fs.descriptions) ∉ fs.fds := by
  intro member
  have isOpen := fs.fds_opened q _ member
  rw [opened_fresh] at isOpen
  contradiction

omit [DecidableEq ρ] in
theorem lock_free (fs : Fs ρ) {i : Nat} (unused : fs.inodes ≤ i) : fs.lock i = none := by
  cases locked : fs.lock i with
  | none => rfl
  | some f =>
    obtain ⟨d, found, inode⟩ := fs.lock_opened i f locked
    have := (fs.opened_lt f d found).2
    omega

omit [DecidableEq ρ] in
theorem lock_fresh (fs : Fs ρ) (i : Nat) : fs.lock i ≠ some fs.descriptions := by
  intro locked
  obtain ⟨d, found, _⟩ := fs.lock_opened i _ locked
  rw [opened_fresh] at found
  contradiction

/-! ### What the calls do -/

def Fs.inodeAt (fs : Fs ρ) (path : ρ) : Nat := (fs.names path).getD fs.inodes

theorem create_names (fs : Fs ρ) (path : ρ) : (fs.create path).names path = some (fs.inodeAt path) := by
  show (if fs.names path = none then Function.update fs.names path (some fs.inodes) else fs.names) path =
    some ((fs.names path).getD fs.inodes)
  cases named : fs.names path with
  | none => simp
  | some i => simp [named]

structure OpenEffect (fs : Fs ρ) (process : Nat) (path : ρ) (t : Fs ρ) (f : Nat) : Prop where
  description : f = fs.descriptions
  names : t.names path = some (fs.inodeAt path)
  opened : t.opened = Function.update fs.opened f (some ⟨fs.inodeAt path, 0⟩)
  data : t.data = if fs.names path = none then Function.update fs.data fs.inodes [] else fs.data
  lock : t.lock = fs.lock
  fds : t.fds = (process, f) :: fs.fds
  allowed : fs.accessible path = true
  accessible : t.accessible = fs.accessible

theorem openCreate_some {fs t : Fs ρ} {process f : Nat} {path : ρ}
    (h : fs.openCreate process path = some (t, f)) : OpenEffect fs process path t f := by
  unfold Fs.openCreate at h
  split at h
  · rename_i i named
    split at h
    · rename_i allowed
      obtain ⟨rfl, rfl⟩ := Prod.mk.inj (Option.some.inj h)
      rw [create_names] at named
      obtain rfl := Option.some.inj named
      exact ⟨rfl, create_names fs path, rfl, rfl, rfl, rfl, allowed, rfl⟩
    · contradiction
  · contradiction

theorem openCreate_none {fs : Fs ρ} {process : Nat} {path : ρ} (h : fs.openCreate process path = none) :
    fs.accessible path = false := by
  unfold Fs.openCreate at h
  split at h
  · split at h
    · contradiction
    · rename_i denied
      simpa using denied
  · rename_i unnamed
    rw [create_names] at unnamed
    contradiction

structure LockEffect (fs : Fs ρ) (f : Nat) (d : Description) (t : Fs ρ) : Prop where
  opened : fs.opened f = some d
  free : fs.lock d.inode = none ∨ fs.lock d.inode = some f
  lock : t.lock = Function.update fs.lock d.inode (some f)
  names : t.names = fs.names
  data : t.data = fs.data
  same : t.opened = fs.opened
  fds : t.fds = fs.fds
  accessible : t.accessible = fs.accessible

omit [DecidableEq ρ] in
theorem flock_ok {fs t : Fs ρ} {f : Nat} (h : fs.flock f = .ok t) : ∃ d, LockEffect fs f d t := by
  unfold Fs.flock at h
  split at h
  · contradiction
  · rename_i d isOpen
    split at h
    · rename_i own
      obtain rfl := Except.ok.inj h
      have unchanged : fs.lock = Function.update fs.lock d.inode (some f) := by
        rw [← own, Function.update_eq_self]
      exact ⟨d, isOpen, Or.inr own, unchanged, rfl, rfl, rfl, rfl, rfl⟩
    · split at h
      · rename_i free
        obtain rfl := Except.ok.inj h
        exact ⟨d, isOpen, Or.inl free, rfl, rfl, rfl, rfl, rfl, rfl⟩
      · contradiction

omit [DecidableEq ρ] in
theorem flock_error {fs : Fs ρ} {f : Nat} {e : Errno} (h : fs.flock f = .error e) {d : Description}
    (isOpen : fs.opened f = some d) : e = .ewouldblock ∧ ∃ g, g ≠ f ∧ fs.lock d.inode = some g := by
  unfold Fs.flock at h
  split at h
  · rename_i closed
    rw [isOpen] at closed
    contradiction
  · rename_i d' found
    obtain rfl := Option.some.inj (isOpen.symm.trans found)
    split at h
    · contradiction
    · rename_i foreign
      split at h
      · contradiction
      · rename_i taken
        obtain ⟨g, locked⟩ := Option.ne_none_iff_exists'.mp taken
        refine ⟨(Except.error.inj h).symm, g, ?_, locked⟩
        rintro rfl
        exact foreign locked

structure TruncateEffect (fs : Fs ρ) (f : Nat) (d : Description) (t : Fs ρ) : Prop where
  opened : fs.opened f = some d
  data : t.data = Function.update fs.data d.inode []
  names : t.names = fs.names
  lock : t.lock = fs.lock
  same : t.opened = fs.opened
  fds : t.fds = fs.fds
  accessible : t.accessible = fs.accessible

omit [DecidableEq ρ] in
theorem ftruncate_some {fs t : Fs ρ} {f : Nat} (h : fs.ftruncate f 0 = some t) : ∃ d, TruncateEffect fs f d t := by
  unfold Fs.ftruncate at h
  split at h
  · contradiction
  · rename_i d isOpen
    obtain rfl := Option.some.inj h
    exact ⟨d, isOpen, by simp, rfl, rfl, rfl, rfl, rfl⟩

omit [DecidableEq ρ] in
theorem ftruncate_none {fs : Fs ρ} {f length : Nat} (h : fs.ftruncate f length = none) : fs.opened f = none := by
  unfold Fs.ftruncate at h
  split at h
  · assumption
  · contradiction

structure WriteEffect (fs : Fs ρ) (f : Nat) (bytes : Bytes) (d : Description) (t : Fs ρ) : Prop where
  opened : fs.opened f = some d
  data : t.data = Function.update fs.data d.inode
    ((fs.data d.inode).take d.offset ++ List.replicate (d.offset - (fs.data d.inode).length) 0 ++ bytes ++
      (fs.data d.inode).drop (d.offset + bytes.length))
  moved : t.opened = Function.update fs.opened f (some ⟨d.inode, d.offset + bytes.length⟩)
  names : t.names = fs.names
  lock : t.lock = fs.lock
  fds : t.fds = fs.fds
  accessible : t.accessible = fs.accessible

omit [DecidableEq ρ] in
theorem write_some {fs t : Fs ρ} {f : Nat} {bytes : Bytes} (h : fs.write f bytes = some t) :
    ∃ d, WriteEffect fs f bytes d t := by
  unfold Fs.write at h
  split at h
  · contradiction
  · rename_i d isOpen
    obtain rfl := Option.some.inj h
    exact ⟨d, isOpen, rfl, rfl, rfl, rfl, rfl, rfl⟩

omit [DecidableEq ρ] in
theorem write_none {fs : Fs ρ} {f : Nat} {bytes : Bytes} (h : fs.write f bytes = none) : fs.opened f = none := by
  unfold Fs.write at h
  split at h
  · assumption
  · contradiction

omit [DecidableEq ρ] in
theorem WriteEffect.padded {fs t : Fs ρ} {f : Nat} {bytes : Bytes} {d : Description} (effect : WriteEffect fs f bytes d t)
    (emptied : fs.data d.inode = []) : t.data d.inode = List.replicate d.offset 0 ++ bytes := by
  rw [effect.data, Function.update_self, emptied]
  simp

omit [DecidableEq ρ] in
theorem exit_fds {fs : Fs ρ} {q r f : Nat} : (r, f) ∈ (fs.exit q).fds ↔ (r, f) ∈ fs.fds ∧ r ≠ q := by
  show (r, f) ∈ fs.fds.filter (·.1 != q) ↔ _
  simp [List.mem_filter]

omit [DecidableEq ρ] in
theorem exit_lock {fs : Fs ρ} {q i f : Nat} :
    (fs.exit q).lock i = some f ↔ fs.lock i = some f ∧ ∃ r, (r, f) ∈ (fs.exit q).fds := by
  show (fs.lock i).filter (fun f => (fs.exit q).fds.any (·.2 == f)) = some f ↔ _
  rw [Option.filter_eq_some_iff]
  simp

end WfcCore.Foundation.Posix

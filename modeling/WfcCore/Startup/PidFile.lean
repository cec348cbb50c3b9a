import WfcCore.Foundation.Posix

/-!
# The pid file

`loc_file_pid` and `write_loc_pid` of `startup.cpp`. A file id is an `int` as in the source, and a
negative one names no open file.
-/

namespace WfcCore.Startup

open Foundation.Posix

variable {ρ : Type} [DecidableEq ρ]

/-- The second half of `loc_file_pid`, after `open`. A file that could not be locked stays open. -/
def lockPidFile (fs : Fs ρ) (pidFile : Nat) : Fs ρ × Int :=
  match fs.flock pidFile with
  | .ok fs => (fs, pidFile)
  | .error .ewouldblock => (fs, -2)
  | .error _ => (fs, -1)

def locFilePid (fs : Fs ρ) (process : Nat) (fname : ρ) : Fs ρ × Int :=
  match fs.openCreate process fname with
  | none => (fs, -1)
  | some (fs, pidFile) => lockPidFile fs pidFile

def decimal (pid : Nat) : Bytes := (Nat.toDigits 10 pid).map fun c => UInt8.ofNat c.toNat

def ftruncate (fs : Fs ρ) (fileid : Int) : Option (Fs ρ) :=
  if fileid < 0 then none else fs.ftruncate fileid.toNat 0

def write (fs : Fs ρ) (fileid : Int) (bytes : Bytes) : Option (Fs ρ) :=
  if fileid < 0 then none else fs.write fileid.toNat bytes

def writeLocPid (fs : Fs ρ) (fileid : Int) (pid : Nat) : Fs ρ × Int :=
  match ftruncate fs fileid with
  | none => (fs, -1)
  | some fs =>
    match write fs fileid (decimal pid) with
    | none => (fs, -1)
    | some fs => (fs, 0)

omit [DecidableEq ρ] in
theorem lockPidFile_cases (fs : Fs ρ) (f : Nat) :
    (∃ t d, lockPidFile fs f = (t, (f : Int)) ∧ LockEffect fs f d t) ∨
      (∃ code : Int, code < 0 ∧ lockPidFile fs f = (fs, code) ∧
        ∀ d, fs.opened f = some d → ∃ g, g ≠ f ∧ fs.lock d.inode = some g) := by
  cases result : fs.flock f with
  | ok t =>
    obtain ⟨d, effect⟩ := flock_ok result
    exact Or.inl ⟨t, d, by rw [lockPidFile, result], effect⟩
  | error e =>
    refine Or.inr ?_
    have foreign : ∀ d, fs.opened f = some d → ∃ g, g ≠ f ∧ fs.lock d.inode = some g :=
      fun d isOpen => (flock_error result isOpen).2
    cases e with
    | ewouldblock => exact ⟨-2, by omega, by rw [lockPidFile, result], foreign⟩
    | ebadf => exact ⟨-1, by omega, by rw [lockPidFile, result], foreign⟩

theorem locFilePid_cases (fs : Fs ρ) (process : Nat) (fname : ρ) :
    (fs.accessible fname = false ∧ locFilePid fs process fname = (fs, -1)) ∨
      ∃ t f, OpenEffect fs process fname t f ∧ locFilePid fs process fname = lockPidFile t f := by
  cases opens : fs.openCreate process fname with
  | none => exact Or.inl ⟨openCreate_none opens, by rw [locFilePid, opens]⟩
  | some opened =>
    obtain ⟨t, f⟩ := opened
    exact Or.inr ⟨t, f, openCreate_some opens, by rw [locFilePid, opens]⟩

omit [DecidableEq ρ] in
@[simp] theorem ftruncate_natCast (fs : Fs ρ) (f : Nat) : ftruncate fs f = fs.ftruncate f 0 := by
  simp [ftruncate, show ¬ (f : Int) < 0 by omega]

omit [DecidableEq ρ] in
@[simp] theorem write_natCast (fs : Fs ρ) (f : Nat) (bytes : Bytes) : write fs f bytes = fs.write f bytes := by
  simp [write, show ¬ (f : Int) < 0 by omega]

omit [DecidableEq ρ] in
theorem writeLocPid_negative (fs : Fs ρ) {fileid : Int} (negative : fileid < 0) (pid : Nat) :
    writeLocPid fs fileid pid = (fs, -1) := by
  simp [writeLocPid, ftruncate, negative]

omit [DecidableEq ρ] in
theorem writeLocPid_natCast {fs : Fs ρ} {f : Nat} {d : Description} (isOpen : fs.opened f = some d) (pid : Nat) :
    ∃ m t, TruncateEffect fs f d m ∧ WriteEffect m f (decimal pid) d t ∧ writeLocPid fs f pid = (t, 0) := by
  cases first : fs.ftruncate f 0 with
  | none =>
    rw [ftruncate_none first] at isOpen
    contradiction
  | some m =>
    obtain ⟨d', truncate⟩ := ftruncate_some first
    obtain rfl := Option.some.inj (isOpen.symm.trans truncate.opened)
    cases second : m.write f (decimal pid) with
    | none =>
      rw [← truncate.same, write_none second] at isOpen
      contradiction
    | some t =>
      obtain ⟨d', write⟩ := write_some second
      rw [← truncate.same] at isOpen
      obtain rfl := Option.some.inj (isOpen.symm.trans write.opened)
      exact ⟨m, t, truncate, write, by simp [writeLocPid, first, second]⟩

theorem decimal_injective : Function.Injective decimal := by
  intro a b same
  have digits (n : Nat) : (decimal n).map (fun byte => Char.ofNat byte.toNat) = Nat.toDigits 10 n := by
    unfold decimal
    rw [List.map_map]
    refine (List.map_congr_left fun c member => ?_).trans (List.map_id _)
    have digit : c.toNat ≤ 57 := by
      have isDigit := Nat.isDigit_of_mem_toDigits (by decide) (by decide) member
      simp only [Char.isDigit, Bool.and_eq_true, decide_eq_true_eq] at isDigit
      exact isDigit.2
    have small : (UInt8.ofNat c.toNat).toNat = c.toNat := by
      rw [UInt8.toNat_ofNat']
      omega
    simp [small, Char.ofNat_toNat]
  rw [← Nat.ofDigitChars_ten_toDigits (n := a), ← digits, same, digits, Nat.ofDigitChars_ten_toDigits]

theorem decimal_ne_nil (pid : Nat) : decimal pid ≠ [] := by
  simp [decimal, Nat.toDigits_ne_nil]

end WfcCore.Startup

import Hyproxy.LogRotate
import Mathlib.Data.List.Induction

/-!
What the rotating writer keeps while the file operations succeed: the last of the lines, in order
and whole, in files that are not too long.
-/
namespace Hyproxy.RotationSuffix

open LogRotate

/-- The files by their age: the live file, then the archives. -/
def name : ℕ → Name
  | 0 => .live
  | i + 1 => .archive (i + 1)

/-- The parts with the numbers up to this one, the highest first. -/
def oldestFirst {α : Type} (part : ℕ → List α) : ℕ → List α
  | 0 => part 0
  | i + 1 => part (i + 1) ++ oldestFirst part i

def contents (disk : Disk) (i : ℕ) : Bytes := (disk (name i)).getD []

/-- The bytes of the file are not too many, or they are those of one line. -/
def Fits (maxBytes : ℤ) (lines : List Bytes) : Prop :=
  (lines.flatten.length : ℤ) ≤ maxBytes ∨ lines.flatten ∈ lines

/-! ### The files during a rotation -/

theorem rename_free (disk : Disk) (old new : Name) (hne : old ≠ new) (hnew : disk new = none) :
    ((rename disk old new).getD disk) old = none ∧
      ((rename disk old new).getD disk) new = disk old ∧
        ∀ other, other ≠ old → other ≠ new →
          ((rename disk old new).getD disk) other = disk other := by
  cases hold : disk old with
  | none => simp [rename, hold, hnew]
  | some content =>
    simp only [rename, hold, Option.map_some, Option.getD_some]
    refine ⟨?_, Function.update_self _ _ _, fun other hother hother' => ?_⟩
    · rw [Function.update_of_ne hne, Function.update_self]
    · rw [Function.update_of_ne hother', Function.update_of_ne hother]

/-- The archives move up by one when the place above them is free. -/
theorem shift_moves (i : ℕ) (disk : Disk) (hfree : disk (.archive (i + 1)) = none) :
    shift noFaults.shift i disk .live = disk .live ∧
      shift noFaults.shift i disk (.archive 1) = none ∧
      (∀ j : ℤ, 2 ≤ j → j ≤ i + 1 →
        shift noFaults.shift i disk (.archive j) = disk (.archive (j - 1))) ∧
      ∀ j : ℤ, j < 1 ∨ i + 1 < j →
        shift noFaults.shift i disk (.archive j) = disk (.archive j) := by
  induction i generalizing disk with
  | zero =>
    refine ⟨rfl, hfree, fun j hlow hhigh => ?_, fun _ _ => rfl⟩
    omega
  | succ i ih =>
    have hne : Name.archive ((i : ℤ) + 1) ≠ .archive (i + 2) := by
      intro h
      have hnumber := Name.archive.inj h
      omega
    have hfree' : disk (.archive ((i : ℤ) + 2)) = none := by
      rw [← hfree]
      congr 2
    obtain ⟨hold, hnew, hothers⟩ := rename_free disk _ _ hne hfree'
    obtain ⟨hlive, hfirst, hmoved, hsame⟩ :=
      ih ((rename disk (.archive (i + 1)) (.archive (i + 2))).getD disk) hold
    have hother : ∀ j : ℤ, j ≠ i + 1 → j ≠ i + 2 →
        (rename disk (.archive (i + 1)) (.archive (i + 2))).getD disk (.archive j) =
          disk (.archive j) :=
      fun j hlow hhigh => hothers _ (fun h => hlow (Name.archive.inj h))
        fun h => hhigh (Name.archive.inj h)
    have hshift : shift noFaults.shift (i + 1) disk = shift noFaults.shift i
        ((rename disk (.archive (i + 1)) (.archive (i + 2))).getD disk) := rfl
    rw [hshift]
    push_cast
    refine ⟨?_, hfirst, fun j hlow hhigh => ?_, fun j hj => ?_⟩
    · rw [hlive, hothers _ (by simp) (by simp)]
    · by_cases htop : j = i + 2
      · subst htop
        rw [hsame _ (by omega), hnew]
        congr 2
        omega
      · rw [hmoved j hlow (by omega), hother _ (by omega) (by omega)]
    · rw [hsame j (by omega), hother j (by omega) (by omega)]

theorem openLive_new (w : Writer) (disk : Disk) (h : disk .live = none) :
    (openLive ⟨w, disk⟩ noFaults).1 =
      ⟨{ w with isOpen := true, size := 0 }, Function.update disk .live (some [])⟩ := by
  simp only [openLive, noFaults, Bool.false_eq_true, if_false, h]
  rfl

/-- What a rotation leaves: a new live file, and every file at the place of the next older one. -/
theorem rotate_moves (s : State) (b : ℕ) (hopen : s.writer.isOpen = true)
    (hbackups : s.writer.backups = b + 1)
    (hnone : ∀ j : ℤ, j < 1 ∨ b + 1 < j → s.disk (.archive j) = none) :
    (rotate s noFaults).1.writer = { s.writer with isOpen := true, size := 0 } ∧
      (rotate s noFaults).1.disk .live = some [] ∧
      (∀ i ≤ b, (rotate s noFaults).1.disk (name (i + 1)) = s.disk (name i)) ∧
      ∀ j : ℤ, j < 1 ∨ b + 1 < j → (rotate s noFaults).1.disk (.archive j) = none := by
  have hmoves : moveArchives s noFaults =
      shift noFaults.shift b (remove s.disk (.archive (b + 1))) := by
    rw [moveArchives, hbackups]
    congr 1
    omega
  have hremoved : ∀ other, other ≠ .archive ((b : ℤ) + 1) →
      remove s.disk (.archive (b + 1)) other = s.disk other :=
    fun other hne => Function.update_of_ne hne _ _
  obtain ⟨hlive, hfirst, hmoved, hsame⟩ :=
    shift_moves b (remove s.disk (.archive (b + 1))) (Function.update_self _ _ _)
  rw [← hmoves] at hlive hfirst hmoved hsame
  obtain ⟨hold, hnew, hothers⟩ := rename_free (moveArchives s noFaults) .live (.archive 1)
    (by simp) hfirst
  have harchive : archiveLive (moveArchives s noFaults) noFaults.live =
      some ((rename (moveArchives s noFaults) .live (.archive 1)).getD
        (moveArchives s noFaults)) := rfl
  have hclose : ¬ (!s.writer.isOpen || noFaults.close) = true := by simp [hopen, noFaults]
  have hrotate : (rotate s noFaults).1 =
      (openLive ⟨s.closed.writer, (rename (moveArchives s noFaults) .live (.archive 1)).getD
        (moveArchives s noFaults)⟩ noFaults).1 := by
    rw [rotate, if_neg hclose, harchive]
  generalize (rename (moveArchives s noFaults) .live (.archive 1)).getD (moveArchives s noFaults) =
    next at hold hnew hothers hrotate
  rw [openLive_new _ _ hold] at hrotate
  have hat : ∀ other, (rotate s noFaults).1.disk other =
      Function.update next .live (some []) other := fun other => by rw [hrotate]
  have hdisk : ∀ j : ℤ, (rotate s noFaults).1.disk (.archive j) = next (.archive j) := by
    intro j
    rw [hat, Function.update_of_ne (by simp)]
  refine ⟨?_, ?_, fun i hi => ?_, fun j hj => ?_⟩
  · rw [hrotate]
    rfl
  · rw [hat, Function.update_self]
  · rw [name, hdisk]
    cases i with
    | zero =>
      rw [show ((0 : ℕ) : ℤ) + 1 = 1 from rfl, hnew, hlive]
      exact hremoved _ (by simp)
    | succ i =>
      rw [hothers _ (by simp) (fun h => by have := Name.archive.inj h; omega),
        hmoved _ (by omega) (by omega), name, hremoved _ (fun h => ?_)]
      · congr 2
        omega
      · have hnumber := Name.archive.inj h
        omega
  · rw [hdisk, hothers _ (by simp) (fun h => by have := Name.archive.inj h; omega),
      hsame j hj, hremoved _ (fun h => by have := Name.archive.inj h; omega)]
    exact hnone j hj

/-! ### The lines in the files -/

/-- The lines of the files after a rotation and one more line. -/
def push (line : Bytes) (files : ℕ → List Bytes) : ℕ → List Bytes
  | 0 => [line]
  | i + 1 => files i

theorem oldestFirst_push (line : Bytes) (files : ℕ → List Bytes) (b : ℕ) :
    oldestFirst (push line files) (b + 1) = oldestFirst files b ++ [line] := by
  induction b with
  | zero => rfl
  | succ b ih =>
    rw [oldestFirst, ih, ← List.append_assoc]
    rfl

theorem oldestFirst_append (line : Bytes) (files : ℕ → List Bytes) (b : ℕ) :
    oldestFirst (Function.update files 0 (files 0 ++ [line])) b =
      oldestFirst files b ++ [line] := by
  induction b with
  | zero => exact Function.update_self _ _ _
  | succ b ih =>
    rw [oldestFirst, ih, Function.update_of_ne (Nat.succ_ne_zero b), ← List.append_assoc]
    rfl

theorem oldestFirst_flatten (part : ℕ → Bytes) (files : ℕ → List Bytes) (b : ℕ)
    (h : ∀ i ≤ b, part i = (files i).flatten) :
    oldestFirst part b = (oldestFirst files b).flatten := by
  induction b with
  | zero => exact h 0 (Nat.le_refl 0)
  | succ b ih =>
    rw [oldestFirst, oldestFirst, List.flatten_append, h (b + 1) (Nat.le_refl _),
      ih fun i hi => h i (Nat.le_succ_of_le hi)]

/-- The files hold the last of the lines, and each file is as it should be. -/
structure Retains (maxBytes : ℤ) (b : ℕ) (lines : List Bytes) (s : State) (dropped : List Bytes)
    (files : ℕ → List Bytes) : Prop where
  isOpen : s.writer.isOpen = true
  bound : s.writer.maxBytes = maxBytes
  backups : s.writer.backups = b
  live : s.disk .live = some (files 0).flatten
  size : s.writer.size = (files 0).flatten.length
  split : lines = dropped ++ oldestFirst files b
  contents : ∀ i ≤ b, contents s.disk i = (files i).flatten
  fits : ∀ i ≤ b, Fits maxBytes (files i)
  others : ∀ j : ℤ, j < 1 ∨ b < j → s.disk (.archive j) = none

theorem appendLive_all (s : State) (p : Bytes) (h : s.writer.isOpen = true) :
    (appendLive s p none).state = ⟨{ s.writer with size := s.writer.size + p.length },
      Function.update s.disk .live (some ((s.disk .live).getD [] ++ p))⟩ := by
  simp only [appendLive, if_pos h]
  rfl

theorem appendLive_disk (s : State) (p : Bytes) (other : Name) (h : s.writer.isOpen = true) :
    (appendLive s p none).state.disk other =
      if other = .live then some ((s.disk .live).getD [] ++ p) else s.disk other := by
  rw [appendLive_all s p h]
  exact Function.update_apply _ _ _ _

theorem appendLive_live (s : State) (p : Bytes) (h : s.writer.isOpen = true) :
    (appendLive s p none).state.disk .live = some ((s.disk .live).getD [] ++ p) := by
  rw [appendLive_disk s p .live h, if_pos rfl]

theorem appendLive_archive (s : State) (p : Bytes) (j : ℤ) (h : s.writer.isOpen = true) :
    (appendLive s p none).state.disk (.archive j) = s.disk (.archive j) := by
  rw [appendLive_disk s p (.archive j) h, if_neg (by simp)]

theorem retains_append {maxBytes : ℤ} {b : ℕ} {lines dropped : List Bytes} {s : State}
    {files : ℕ → List Bytes} (h : Retains maxBytes b lines s dropped files) (p : Bytes)
    (hmax : 0 < maxBytes) (hdue : ¬ Due s.writer p) :
    Retains maxBytes b (lines ++ [p]) (appendLive s p none).state dropped
      (Function.update files 0 (files 0 ++ [p])) := by
  have hflatten : (files 0 ++ [p]).flatten = (files 0).flatten ++ p := by simp
  have hlive : (appendLive s p none).state.disk .live = some ((files 0).flatten ++ p) := by
    rw [appendLive_live s p h.isOpen, h.live, Option.getD_some]
  have harchive : ∀ j : ℤ, (appendLive s p none).state.disk (.archive j) = s.disk (.archive j) :=
    fun j => appendLive_archive s p j h.isOpen
  refine ⟨?_, ?_, ?_, ?_, ?_, ?_, ?_, ?_, ?_⟩
  · rw [appendLive_all s p h.isOpen]
    exact h.isOpen
  · rw [appendLive_all s p h.isOpen]
    exact h.bound
  · rw [appendLive_all s p h.isOpen]
    exact h.backups
  · rw [hlive, Function.update_self, hflatten]
  · rw [appendLive_all s p h.isOpen, Function.update_self, hflatten, List.length_append]
    exact congrArg (· + p.length) h.size
  · rw [oldestFirst_append, h.split, List.append_assoc]
  · intro i hi
    cases i with
    | zero => rw [contents, name, hlive, Function.update_self, hflatten, Option.getD_some]
    | succ i =>
      rw [contents, name, harchive, Function.update_of_ne (Nat.succ_ne_zero i)]
      exact h.contents (i + 1) hi
  · intro i hi
    cases i with
    | zero =>
      rw [Function.update_self, Fits, hflatten]
      by_cases hempty : s.writer.size = 0
      · rw [h.size, List.length_eq_zero_iff] at hempty
        rw [hempty, List.nil_append]
        exact Or.inr (by simp)
      · refine Or.inl ?_
        have hsize := h.size
        have hbound := h.bound
        unfold Due at hdue
        rw [List.length_append]
        omega
    | succ i =>
      rw [Function.update_of_ne (Nat.succ_ne_zero i)]
      exact h.fits (i + 1) hi
  · intro j hj
    rw [harchive]
    exact h.others j hj

theorem retains_rotate {maxBytes : ℤ} {b : ℕ} {lines dropped : List Bytes} {s : State}
    {files : ℕ → List Bytes} (h : Retains maxBytes (b + 1) lines s dropped files) (p : Bytes) :
    Retains maxBytes (b + 1) (lines ++ [p]) (appendLive (rotate s noFaults).1 p none).state
      (dropped ++ files (b + 1)) (push p files) := by
  obtain ⟨hwriter, hlive, hmoved, hothers⟩ := rotate_moves s b h.isOpen
    (by rw [h.backups]; push_cast; rfl) (fun j hj => h.others j (by push_cast; exact hj))
  generalize (rotate s noFaults).1 = r at hwriter hlive hmoved hothers
  have hopen : r.writer.isOpen = true := by rw [hwriter]
  have hlive' : (appendLive r p none).state.disk .live = some p := by
    rw [appendLive_live r p hopen, hlive, Option.getD_some, List.nil_append]
  have harchive : ∀ j : ℤ, (appendLive r p none).state.disk (.archive j) = r.disk (.archive j) :=
    fun j => appendLive_archive r p j hopen
  refine ⟨?_, ?_, ?_, ?_, ?_, ?_, ?_, ?_, ?_⟩
  · rw [appendLive_all r p hopen]
    exact hopen
  · rw [appendLive_all r p hopen, hwriter]
    exact h.bound
  · rw [appendLive_all r p hopen, hwriter]
    exact h.backups
  · rw [hlive']
    simp [push]
  · rw [appendLive_all r p hopen, hwriter]
    simp [push]
  · rw [oldestFirst_push, h.split, oldestFirst]
    simp
  · intro i hi
    cases i with
    | zero =>
      rw [contents, name, hlive']
      simp [push]
    | succ i =>
      have hsame := hmoved i (Nat.le_of_succ_le_succ hi)
      rw [contents, name, harchive]
      rw [name] at hsame
      rw [hsame]
      exact h.contents i (by omega)
  · intro i hi
    cases i with
    | zero => exact Or.inr (by simp [push])
    | succ i => exact h.fits i (by omega)
  · intro j hj
    rw [harchive]
    exact hothers j (by push_cast at hj; exact hj)

theorem retains_write {maxBytes : ℤ} {b : ℕ} {lines dropped : List Bytes} {s : State}
    {files : ℕ → List Bytes} (h : Retains maxBytes (b + 1) lines s dropped files) (p : Bytes)
    (hmax : 0 < maxBytes) : ∃ dropped' files',
      Retains maxBytes (b + 1) (lines ++ [p]) (write s p noFaults).state dropped' files' := by
  by_cases hdue : Due s.writer p
  · rw [write, if_pos hdue]
    exact ⟨_, _, retains_rotate h p⟩
  · rw [write, if_neg hdue]
    exact ⟨_, _, retains_append h p hmax hdue⟩

theorem oldestFirst_nil (b : ℕ) : oldestFirst (fun _ => ([] : List Bytes)) b = [] := by
  induction b with
  | zero => rfl
  | succ b ih => rw [oldestFirst, ih, List.append_nil]

theorem retains_new (maxBytes : ℤ) (b : ℕ) (hmax : 0 < maxBytes) (s : State)
    (h : newWriter maxBytes b (fun _ => none) noFaults = some s) :
    Retains maxBytes b [] s [] fun _ => [] := by
  have hlive : ∀ other, (Function.update (fun _ => none) .live (some []) : Disk) other =
      if other = .live then some [] else none := fun other => by rw [Function.update_apply]
  obtain rfl := Option.some.inj h
  refine ⟨rfl, rfl, rfl, ?_, rfl, ?_, ?_, ?_, ?_⟩
  · exact (hlive .live).trans (if_pos rfl)
  · rw [oldestFirst_nil, List.append_nil]
  · intro i _
    cases i with
    | zero => exact congrArg (·.getD []) ((hlive .live).trans (if_pos rfl))
    | succ i => exact congrArg (·.getD []) ((hlive (.archive (i + 1))).trans (if_neg (by simp)))
  · exact fun _ _ => Or.inl (by simpa using Int.le_of_lt hmax)
  · exact fun j _ => (hlive (.archive j)).trans (if_neg (by simp))

theorem retains_run (maxBytes : ℤ) (b : ℕ) (hmax : 0 < maxBytes) (s : State)
    (h : newWriter maxBytes (b + 1 : ℕ) (fun _ => none) noFaults = some s) (lines : List Bytes) :
    ∃ dropped files, Retains maxBytes (b + 1) lines (after s (lines.map fun p => (p, noFaults)))
      dropped files := by
  induction lines using List.reverseRecOn with
  | nil => exact ⟨_, _, retains_new maxBytes (b + 1) hmax s h⟩
  | append_singleton past p ih =>
    obtain ⟨dropped, files, hretains⟩ := ih
    rw [List.map_append, List.map_singleton, after_concat]
    exact retains_write hretains p hmax

/-- The files hold the last lines that were written, the oldest first; no line is in two files,
and no file is longer than allowed, but for one line that is. There are as many archives as
allowed at most, and the writer knows the length of the live file. -/
theorem suffix_retained (maxBytes backups : ℤ) (hmax : 0 < maxBytes) (hbackups : 1 ≤ backups)
    (s : State) (h : newWriter maxBytes backups (fun _ => none) noFaults = some s)
    (lines : List Bytes) :
    ∃ (dropped : List Bytes) (files : ℕ → List Bytes),
      lines = dropped ++ oldestFirst files backups.toNat ∧
      (∀ i ≤ backups.toNat,
        contents (after s (lines.map fun p => (p, noFaults))).disk i = (files i).flatten) ∧
      oldestFirst (contents (after s (lines.map fun p => (p, noFaults))).disk) backups.toNat =
        (oldestFirst files backups.toNat).flatten ∧
      (∀ i ≤ backups.toNat, Fits maxBytes (files i)) ∧
      (∀ j : ℤ, (after s (lines.map fun p => (p, noFaults))).disk (.archive j) ≠ none →
        1 ≤ j ∧ j ≤ backups) ∧
      ∃ live, (after s (lines.map fun p => (p, noFaults))).disk .live = some live ∧
        (after s (lines.map fun p => (p, noFaults))).writer.size = live.length := by
  obtain ⟨b, rfl⟩ : ∃ b : ℕ, backups = ((b + 1 : ℕ) : ℤ) := ⟨(backups - 1).toNat, by omega⟩
  obtain ⟨dropped, files, hretains⟩ := retains_run maxBytes b hmax s h lines
  rw [Int.toNat_natCast]
  refine ⟨dropped, files, hretains.split, hretains.contents,
    oldestFirst_flatten _ _ _ hretains.contents, hretains.fits, fun j hj => ?_,
    _, hretains.live, hretains.size⟩
  by_contra hout
  exact hj (hretains.others j (by omega))

def sampleWriter : State :=
  ⟨⟨true, 3, 1, 0⟩, Function.update (fun _ => none) .live (some [])⟩

def sampleLines : List Bytes := [[1, 2], [3, 4], [5], [6, 7]]

theorem suffix_retained_sample : ∃ (dropped : List Bytes) (files : ℕ → List Bytes),
    sampleLines = dropped ++ oldestFirst files 1 ∧
      (oldestFirst files 1).flatten = [3, 4, 5, 6, 7] := by
  obtain ⟨dropped, files, hsplit, -, hbytes, -⟩ := suffix_retained 3 1 (by decide) (by decide)
    sampleWriter rfl sampleLines
  exact ⟨dropped, files, hsplit, hbytes.symm.trans rfl⟩

end Hyproxy.RotationSuffix

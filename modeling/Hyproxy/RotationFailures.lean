import Hyproxy.LogRotate
import Mathlib.Data.List.Induction

/-!
What becomes of a line when a rotation fails. The file that was closed is not opened again, so the
line is lost, and so are all that follow. A rotation that fails only on the archives loses nothing.
-/
namespace Hyproxy.RotationFailures

open LogRotate

/-- The bytes are at the end of the live file, or the write to an open file has failed. -/
def Kept (s : State) (op : Op) : Prop :=
  match op.2.write with
  | none => (write s op.1 op.2).error = none ∧
      ∃ base, (write s op.1 op.2).state.disk .live = some (base ++ op.1)
  | some _ => (write s op.1 op.2).error = some .io

/-- The live file cannot be closed or renamed, or the next one cannot be opened. -/
def Breaks (f : Faults) : Prop :=
  f.close = true ∨ f.live = some .other ∨ f.openFile = true ∨ f.stat = true

theorem openLive_open (s : State) (f : Faults) (h : ¬ Breaks f) :
    (openLive s f).1.writer.isOpen = true := by
  simp only [Breaks, not_or, Bool.not_eq_true] at h
  simp only [openLive, h.2.2.1, h.2.2.2, Bool.false_eq_true, if_false]

theorem openLive_closed (s : State) (f : Faults) (hs : s.writer.isOpen = false)
    (h : f.openFile = true ∨ f.stat = true) : (openLive s f).1.writer.isOpen = false := by
  unfold openLive
  split_ifs with hopen hstat
  · exact hs
  · exact hs
  · exact absurd h (by simp [hopen, hstat])

theorem rotate_open (s : State) (f : Faults) (hs : s.writer.isOpen = true) (h : ¬ Breaks f) :
    (rotate s f).1.writer.isOpen = true := by
  have hbreaks := h
  simp only [Breaks, not_or, Bool.not_eq_true] at hbreaks
  have harchive : ∃ next, archiveLive (moveArchives s f) f.live = some next := by
    unfold archiveLive
    split
    · rename_i hlive
      exact absurd hlive hbreaks.2.1
    · exact ⟨_, rfl⟩
    · exact ⟨_, rfl⟩
  obtain ⟨next, hnext⟩ := harchive
  simp only [rotate, hs, hbreaks.1, Bool.not_true, Bool.or_self, Bool.false_eq_true, if_false,
    hnext]
  exact openLive_open _ f h

theorem rotate_closed (s : State) (f : Faults) (h : Breaks f) :
    (rotate s f).1.writer.isOpen = false := by
  unfold rotate
  split_ifs with hclose
  · rfl
  · split
    · rfl
    · rename_i disk hdisk
      refine openLive_closed _ f rfl ?_
      rcases h with hfault | hfault | hfault
      · exact absurd (by simp [hfault]) hclose
      · rw [hfault] at hdisk
        cases hdisk
      · exact hfault

theorem appendLive_kept (s : State) (p : Bytes) (fault : Option ℕ) (hs : s.writer.isOpen = true) :
    (appendLive s p fault).error = fault.map (fun _ => .io) ∧
      (appendLive s p fault).state.writer.isOpen = true ∧
        (fault = none → ∃ base, (appendLive s p fault).state.disk .live = some (base ++ p)) := by
  simp only [appendLive, if_pos hs]
  refine ⟨trivial, hs, ?_⟩
  rintro rfl
  exact ⟨(s.disk .live).getD [], Function.update_self _ _ _⟩

/-- The line is kept when the file is open after the rotation, if there is one. -/
theorem kept_of_open (s : State) (op : Op)
    (h : (if Due s.writer op.1 then (rotate s op.2).1 else s).writer.isOpen = true) :
    Kept s op ∧ (write s op.1 op.2).state.writer.isOpen = true := by
  obtain ⟨herror, hopen, hlive⟩ := appendLive_kept _ op.1 op.2.write h
  refine ⟨?_, hopen⟩
  unfold Kept
  cases hfault : op.2.write with
  | none =>
    rw [hfault] at herror hlive
    exact ⟨by rw [write, hfault, herror]; rfl, by rw [write, hfault]; exact hlive rfl⟩
  | some n =>
    rw [hfault] at herror
    dsimp only
    rw [write, hfault, herror]
    rfl

theorem not_kept_of_closed (s : State) (op : Op)
    (h : (if Due s.writer op.1 then (rotate s op.2).1 else s).writer.isOpen = false) :
    ¬ Kept s op := by
  have herror : (write s op.1 op.2).error = some .closed := by
    simp only [write, appendLive, h, Bool.false_eq_true, if_false]
  unfold Kept
  split
  · rw [herror]
    exact fun hkept => by cases hkept.1
  · rw [herror]
    exact fun hkept => by cases hkept

theorem newWriter_open (maxBytes backups : ℤ) (disk : Disk) (f : Faults) (s : State)
    (h : newWriter maxBytes backups disk f = some s) : s.writer.isOpen = true := by
  unfold newWriter openLive at h
  cases hopen : f.openFile with
  | true => simp [hopen] at h
  | false =>
    cases hstat : f.stat with
    | true => simp [hopen, hstat] at h
    | false =>
      simp only [hopen, hstat, Bool.false_eq_true, if_false] at h
      rw [← Option.some.inj h]

/-- The file stays open while no rotation that is due fails on the live file. -/
theorem open_after (s : State) (hs : s.writer.isOpen = true) (ops : List Op)
    (h : ∀ past op rest, ops = past ++ op :: rest →
      Due (after s past).writer op.1 → ¬ Breaks op.2) : (after s ops).writer.isOpen = true := by
  induction ops using List.reverseRecOn with
  | nil => exact hs
  | append_singleton past op ih =>
    have hopen := ih fun past' op' rest hsplit => h past' op' (rest ++ [op]) (by simp [hsplit])
    rw [after_concat]
    refine (kept_of_open _ op ?_).2
    split_ifs with hdue
    · exact rotate_open _ _ hopen (h past op [] rfl hdue)
    · exact hopen

/-- Every line of a run is kept just when no rotation that is due fails on the live file. -/
theorem kept_iff (maxBytes backups : ℤ) (disk : Disk) (f : Faults) (s : State)
    (h : newWriter maxBytes backups disk f = some s) (ops : List Op) :
    (∀ past op rest, ops = past ++ op :: rest → Kept (after s past) op) ↔
      ∀ past op rest, ops = past ++ op :: rest →
        Due (after s past).writer op.1 → ¬ Breaks op.2 := by
  constructor
  · intro hkept past op rest hsplit hdue hbreaks
    refine not_kept_of_closed _ op ?_ (hkept past op rest hsplit)
    rw [if_pos hdue]
    exact rotate_closed _ _ hbreaks
  · intro hwhen past op rest hsplit
    have hopen : (after s past).writer.isOpen = true := by
      refine open_after s (newWriter_open _ _ _ _ _ h) past fun past' op' rest' hsplit' => ?_
      exact hwhen past' op' (rest' ++ op :: rest) (by simp [hsplit, hsplit'])
    refine (kept_of_open _ op ?_).1
    split_ifs with hdue
    · exact rotate_open _ _ hopen (hwhen past op rest hsplit hdue)
    · exact hopen

def sampleWriter : State :=
  ⟨⟨true, 3, 1, 0⟩, Function.update (fun _ => none) .live (some [])⟩

def firstLine : Op := ([97, 98], noFaults)

/-- The live file cannot be renamed when this line is written. -/
def secondLine : Op := ([99, 100], { noFaults with live := some .other })

def thirdLine : Op := ([101, 102], noFaults)

theorem kept_iff_sample : Kept sampleWriter firstLine ∧ Kept (after sampleWriter [firstLine])
    ([99, 100], noFaults) := by
  have hiff := kept_iff 3 1 (fun _ => none) noFaults sampleWriter rfl
    [firstLine, ([99, 100], noFaults)]
  have hwhen : ∀ op ∈ [firstLine, ([99, 100], noFaults)], ¬ Breaks op.2 := by
    intro op hop
    simp only [List.mem_cons, List.not_mem_nil, or_false] at hop
    rcases hop with rfl | rfl <;> simp [Breaks, firstLine, noFaults]
  have hkept := hiff.mpr fun past op rest hsplit _ => hwhen op (by simp [hsplit])
  exact ⟨hkept [] firstLine [([99, 100], noFaults)] rfl,
    hkept [firstLine] ([99, 100], noFaults) [] rfl⟩

theorem rename_failure_loses_lines :
    newWriter 3 1 (fun _ => none) noFaults = some sampleWriter ∧
      ¬ (∀ past op rest, [firstLine, secondLine, thirdLine] = past ++ op :: rest →
        Kept (after sampleWriter past) op) ∧
      (write (after sampleWriter [firstLine]) [99, 100] secondLine.2).error = some .closed ∧
      (write (after sampleWriter [firstLine, secondLine]) [101, 102] noFaults).error =
        some .closed := by
  refine ⟨rfl, fun hkept => ?_, rfl, rfl⟩
  have hsecond := hkept [firstLine] secondLine [thirdLine] rfl
  exact absurd hsecond.1 (by decide)

end Hyproxy.RotationFailures

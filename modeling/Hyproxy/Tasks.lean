import Mathlib.Data.Nat.Notation
import Mathlib.Tactic.SplitIfs

/-!
Tasks that share one state and take turns. A task runs from where it waits to
where it waits next, or to its end, and nothing else runs meanwhile; which task
goes on, and with what outcome of its wait, is up to the run.
-/

namespace Hyproxy.Tasks

variable {σ ι ο π : Type}

/-- The shared state that a turn leaves, and where the task then waits, if it has not ended. -/
structure Program (σ ι ο π : Type) where
  start : σ → ι → σ × Option π
  resume : σ → π → ο → σ × Option π

/-- A task that has not ended. -/
structure Waiting (π : Type) where
  id : ℕ
  point : π
  deriving Repr, DecidableEq

structure System (σ π : Type) where
  shared : σ
  tasks : List (Waiting π)
  next : ℕ
  deriving Repr, DecidableEq

inductive Event (ι ο : Type)
  | start (i : ι)
  | resume (id : ℕ) (o : ο)
  deriving Repr, DecidableEq

def System.task (s : System σ π) (id : ℕ) : Option (Waiting π) := s.tasks.find? fun x => x.id == id

/-- The tasks after a turn of one of them. -/
def settle (tasks : List (Waiting π)) (id : ℕ) : Option π → List (Waiting π)
  | none => tasks.filter fun x => x.id != id
  | some p => tasks.map fun x => if x.id = id then ⟨id, p⟩ else x

def spawn (tasks : List (Waiting π)) (id : ℕ) : Option π → List (Waiting π)
  | none => tasks
  | some p => ⟨id, p⟩ :: tasks

def step (P : Program σ ι ο π) (s : System σ π) : Event ι ο → System σ π
  | .start i =>
    ⟨(P.start s.shared i).1, spawn s.tasks s.next (P.start s.shared i).2, s.next + 1⟩
  | .resume id o =>
    match s.task id with
    | none => s
    | some x =>
      ⟨(P.resume s.shared x.point o).1, settle s.tasks x.id (P.resume s.shared x.point o).2, s.next⟩

/-- What a step can do. -/
inductive Effect (P : Program σ ι ο π) (s : System σ π) : Event ι ο → System σ π → Prop
  | none (id : ℕ) (o : ο) : Effect P s (.resume id o) s
  | start (i : ι) : Effect P s (.start i)
      ⟨(P.start s.shared i).1, spawn s.tasks s.next (P.start s.shared i).2, s.next + 1⟩
  | resume (x : Waiting π) (o : ο) (hmem : x ∈ s.tasks) : Effect P s (.resume x.id o)
      ⟨(P.resume s.shared x.point o).1, settle s.tasks x.id (P.resume s.shared x.point o).2, s.next⟩

theorem step_effect (P : Program σ ι ο π) (s : System σ π) (e : Event ι ο) :
    Effect P s e (step P s e) := by
  cases e with
  | start i => exact .start i
  | resume id o =>
    simp only [step]
    split
    · exact .none id o
    · rename_i x hx
      obtain rfl : x.id = id := by simpa using List.find?_some hx
      exact .resume x o (List.mem_of_find?_eq_some hx)

/-- A task after a turn is the one that took it, or another one as it was. -/
theorem mem_settle (tasks : List (Waiting π)) (id : ℕ) (r : Option π) (y : Waiting π)
    (h : y ∈ settle tasks id r) : (r = some y.point ∧ y.id = id) ∨ (y ∈ tasks ∧ y.id ≠ id) := by
  cases r with
  | none =>
    simp only [settle, List.mem_filter, bne_iff_ne] at h
    exact Or.inr h
  | some p =>
    obtain ⟨x, hx, rfl⟩ := List.mem_map.mp h
    split_ifs with hid
    · exact Or.inl ⟨rfl, rfl⟩
    · exact Or.inr ⟨hx, hid⟩

theorem mem_spawn (tasks : List (Waiting π)) (id : ℕ) (r : Option π) (y : Waiting π)
    (h : y ∈ spawn tasks id r) : (r = some y.point ∧ y.id = id) ∨ y ∈ tasks := by
  cases r with
  | none => exact Or.inr h
  | some p =>
    rcases List.mem_cons.mp h with rfl | h
    · exact Or.inl ⟨rfl, rfl⟩
    · exact Or.inr h

/-- The other tasks are there after a turn. -/
theorem settle_of_mem (tasks : List (Waiting π)) (id : ℕ) (r : Option π) (y : Waiting π)
    (h : y ∈ tasks) (hne : y.id ≠ id) : y ∈ settle tasks id r := by
  cases r with
  | none => simp [settle, h, hne]
  | some p => exact List.mem_map.mpr ⟨y, h, by rw [if_neg hne]⟩

theorem settle_self (tasks : List (Waiting π)) (x : Waiting π) (p : π) (h : x ∈ tasks) :
    ⟨x.id, p⟩ ∈ settle tasks x.id (some p) :=
  List.mem_map.mpr ⟨x, h, by rw [if_pos rfl]⟩

theorem spawn_of_mem (tasks : List (Waiting π)) (id : ℕ) (r : Option π) (y : Waiting π)
    (h : y ∈ tasks) : y ∈ spawn tasks id r := by
  cases r with
  | none => exact h
  | some p => exact List.mem_cons_of_mem _ h

/-- Tasks have identifiers of their own. -/
structure Distinct (s : System σ π) : Prop where
  below : ∀ x ∈ s.tasks, x.id < s.next
  inj : ∀ x ∈ s.tasks, ∀ y ∈ s.tasks, x.id = y.id → x = y

theorem distinct_step (P : Program σ ι ο π) (s : System σ π) (e : Event ι ο) (h : Distinct s) :
    Distinct (step P s e) := by
  generalize ht : step P s e = s'
  have heffect := ht ▸ step_effect P s e
  cases heffect with
  | none => exact h
  | start i =>
    refine ⟨fun x hx => ?_, fun x hx y hy hid => ?_⟩
    · rcases mem_spawn _ _ _ x hx with ⟨_, hid⟩ | hx
      · exact hid ▸ Nat.lt_succ_self _
      · exact Nat.lt_succ_of_lt (h.below x hx)
    · rcases mem_spawn _ _ _ x hx with ⟨hpx, hidx⟩ | hx <;>
        rcases mem_spawn _ _ _ y hy with ⟨hpy, hidy⟩ | hy
      · obtain ⟨idx, px⟩ := x
        obtain ⟨idy, py⟩ := y
        rw [hpx, Option.some.injEq] at hpy
        cases hpy
        cases hid
        rfl
      · have hlt := h.below y hy
        omega
      · have hlt := h.below x hx
        omega
      · exact h.inj x hx y hy hid
  | resume z o hmem =>
    refine ⟨fun x hx => ?_, fun x hx y hy hid => ?_⟩
    · rcases mem_settle _ _ _ x hx with ⟨_, hid⟩ | ⟨hx, _⟩
      · exact hid ▸ h.below z hmem
      · exact h.below x hx
    · rcases mem_settle _ _ _ x hx with ⟨hpx, hidx⟩ | ⟨hx, hnex⟩ <;>
        rcases mem_settle _ _ _ y hy with ⟨hpy, hidy⟩ | ⟨hy, hney⟩
      · obtain ⟨idx, px⟩ := x
        obtain ⟨idy, py⟩ := y
        rw [hpx, Option.some.injEq] at hpy
        cases hpy
        cases hid
        rfl
      · exact absurd (hid.symm.trans hidx) hney
      · exact absurd (hid.trans hidy) hnex
      · exact h.inj x hx y hy hid

theorem nodup_step (P : Program σ ι ο π) (s : System σ π) (e : Event ι ο) (hs : Distinct s)
    (h : (s.tasks.map Waiting.id).Nodup) : ((step P s e).tasks.map Waiting.id).Nodup := by
  generalize ht : step P s e = s'
  have heffect := ht ▸ step_effect P s e
  cases heffect with
  | none => exact h
  | start i =>
    cases (P.start s.shared i).2 with
    | none => exact h
    | some p =>
      refine List.nodup_cons.mpr ⟨fun hmem => ?_, h⟩
      obtain ⟨x, hx, hid⟩ := List.mem_map.mp hmem
      exact absurd (hs.below x hx) (hid ▸ Nat.lt_irrefl _)
  | resume x o hmem =>
    cases (P.resume s.shared x.point o).2 with
    | none => exact h.sublist (List.filter_sublist.map _)
    | some p =>
      have hsame : (settle s.tasks x.id (some p)).map Waiting.id = s.tasks.map Waiting.id := by
        rw [settle, List.map_map]
        refine List.map_congr_left fun y _ => ?_
        rw [Function.comp_apply]
        split_ifs with hid
        · exact hid.symm
        · rfl
      exact hsame ▸ h

/-- A turn changes what is counted by the task that takes it. -/
theorem countP_settle (tasks : List (Waiting π)) (f : Waiting π → Bool) (x : Waiting π)
    (r : Option π) (hx : x ∈ tasks) (h : (tasks.map Waiting.id).Nodup) :
    (settle tasks x.id r).countP f + (if f x then 1 else 0) =
      tasks.countP f + (r.map fun p => if f ⟨x.id, p⟩ then 1 else 0).getD 0 := by
  induction tasks with
  | nil => cases hx
  | cons y rest ih =>
    rw [List.map_cons, List.nodup_cons] at h
    rcases List.mem_cons.mp hx with rfl | hmem
    · have hother : ∀ y ∈ rest, y.id ≠ x.id := fun y hy hid =>
        h.1 (List.mem_map.mpr ⟨y, hy, hid⟩)
      cases r with
      | none =>
        have hrest : settle (x :: rest) x.id none = rest := by
          rw [settle, List.filter_cons_of_neg (by simp)]
          exact List.filter_eq_self.mpr fun y hy => bne_iff_ne.mpr (hother y hy)
        rw [hrest, List.countP_cons]
        rfl
      | some p =>
        have hrest : settle (x :: rest) x.id (some p) = ⟨x.id, p⟩ :: rest := by
          rw [settle, List.map_cons, if_pos rfl]
          congr 1
          exact (List.map_congr_left fun y hy => if_neg (hother y hy)).trans (List.map_id _)
        rw [hrest, List.countP_cons, List.countP_cons, Option.map_some, Option.getD_some]
        omega
    · have hne : y.id ≠ x.id := fun hid => h.1 (List.mem_map.mpr ⟨x, hmem, hid.symm⟩)
      have hcons : settle (y :: rest) x.id r = y :: settle rest x.id r := by
        cases r with
        | none => rw [settle, List.filter_cons_of_pos (by simp [hne]), settle]
        | some p => rw [settle, List.map_cons, if_neg hne, settle]
      have hrest := ih hmem h.2
      rw [hcons, List.countP_cons, List.countP_cons]
      omega

end Hyproxy.Tasks

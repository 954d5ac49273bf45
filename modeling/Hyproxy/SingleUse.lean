import Mathlib.Data.Int.Notation
import Mathlib.Data.List.Nodup
import Mathlib.Tactic.Common
import Mathlib.Tactic.SplitIfs

/-!
Rows that may be used once. A row is looked up by its key; a spending names the key,
bears a time, and is allowed by some rows. A transaction is a list of changes, each of
which finds its row as it needs it: a new row has a key of its own, and what is spent
was not spent before. Transactions that wait for each other have no key in common.
-/
namespace Hyproxy.SingleUse

variable {α ε κ : Type} [DecidableEq κ]

structure Table (α ε κ : Type) where
  key : α → κ
  consumedAt : α → Option ℤ
  keyOf : ε → κ
  time : ε → ℤ
  allows : ε → α → Prop
  consume : ℤ → α → α
  key_consume : ∀ now a, key (consume now a) = key a
  consumedAt_consume : ∀ now a, consumedAt (consume now a) = some now
  allows_consume : ∀ now e a, allows e a → allows e (consume now a)

inductive Change (α ε : Type)
  | mint (a : α)
  | spend (e : ε)

variable (T : Table α ε κ)

def Change.key : Change α ε → κ
  | .mint a => T.key a
  | .spend e => T.keyOf e

def Change.spent : Change α ε → List ε
  | .mint _ => []
  | .spend e => [e]

def apply (rows : List α) : Change α ε → List α
  | .mint a => rows ++ [a]
  | .spend e => rows.map fun a => if T.key a = T.keyOf e then T.consume (T.time e) a else a

def spendings (changes : List (Change α ε)) : List ε := changes.flatMap Change.spent

def rowsAt (k : κ) (rows : List α) : List α := rows.filter fun a => T.key a = k

/-- A change finds the rows of its key as it needs them. -/
def Finds (rows : List α) : Change α ε → Prop
  | .mint _ => rows = []
  | .spend e => ∃ a ∈ rows, T.consumedAt a = none ∧ T.allows e a

def FindsAll : List α → List (Change α ε) → Prop
  | _, [] => True
  | rows, c :: rest => Finds T rows c ∧ FindsAll (apply T rows c) rest

/-- A transaction finds all its rows. -/
def Ready (rows : List α) (changes : List (Change α ε)) : Prop :=
  ∀ k, FindsAll T (rowsAt T k rows) (changes.filter fun c => c.key T = k)

/-- What was spent so far: nothing twice, and all as the rows allowed it. -/
structure Spent (rows : List α) (log : List ε) : Prop where
  keys : ∀ k, (rowsAt T k rows).length ≤ 1
  once : (log.map T.keyOf).Nodup
  stamped : ∀ e ∈ log, ∃ a ∈ rows,
    T.key a = T.keyOf e ∧ T.consumedAt a = some (T.time e) ∧ T.allows e a

theorem mem_rowsAt (k : κ) (rows : List α) (a : α) :
    a ∈ rowsAt T k rows ↔ a ∈ rows ∧ T.key a = k := by
  simp [rowsAt]

theorem rowsAt_spend (k : κ) (rows : List α) (e : ε) :
    rowsAt T k (apply T rows (.spend e)) = apply T (rowsAt T k rows) (.spend e) := by
  have hkey : ∀ a, T.key (if T.key a = T.keyOf e then T.consume (T.time e) a else a) =
      T.key a := by
    intro a
    split_ifs
    · exact T.key_consume _ a
    · rfl
  simp only [rowsAt, apply, List.filter_map, Function.comp_def, hkey]

theorem rowsAt_apply (k : κ) (rows : List α) (c : Change α ε) (h : c.key T = k) :
    rowsAt T k (apply T rows c) = apply T (rowsAt T k rows) c := by
  cases c with
  | mint a =>
    have hkey : T.key a = k := h
    simp [rowsAt, apply, hkey]
  | spend e => exact rowsAt_spend T k rows e

theorem rowsAt_apply_of_ne (k : κ) (rows : List α) (c : Change α ε) (h : c.key T ≠ k) :
    rowsAt T k (apply T rows c) = rowsAt T k rows := by
  cases c with
  | mint a =>
    have hkey : T.key a ≠ k := h
    simp [rowsAt, apply, hkey]
  | spend e =>
    rw [rowsAt_spend]
    refine (List.map_congr_left fun a ha => if_neg ?_).trans (List.map_id _)
    rw [((mem_rowsAt T k rows a).mp ha).2]
    exact fun heq => h heq.symm

theorem rowsAt_foldl_of_ne (k : κ) (changes : List (Change α ε)) (rows : List α)
    (h : ∀ c ∈ changes, c.key T ≠ k) :
    rowsAt T k (changes.foldl (apply T) rows) = rowsAt T k rows := by
  induction changes generalizing rows with
  | nil => rfl
  | cons c rest ih =>
    rw [List.foldl_cons, ih _ fun d hd => h d (List.mem_cons_of_mem _ hd)]
    exact rowsAt_apply_of_ne T k rows c (h c (List.mem_cons_self ..))

theorem ready_nil (rows : List α) : Ready T rows [] := fun _ => trivial

theorem ready_cons (rows : List α) (c : Change α ε) (rest : List (Change α ε)) :
    Ready T rows (c :: rest) ↔
      Finds T (rowsAt T (c.key T) rows) c ∧ Ready T (apply T rows c) rest := by
  constructor
  · intro h
    have hc := h (c.key T)
    rw [List.filter_cons_of_pos (by simp)] at hc
    refine ⟨hc.1, fun k => ?_⟩
    by_cases hk : c.key T = k
    · subst hk
      rw [rowsAt_apply T _ rows c rfl]
      exact hc.2
    · have hother := h k
      rw [List.filter_cons_of_neg (by simpa using hk)] at hother
      rw [rowsAt_apply_of_ne T k rows c hk]
      exact hother
  · rintro ⟨hfinds, hrest⟩ k
    by_cases hk : c.key T = k
    · subst hk
      rw [List.filter_cons_of_pos (by simp)]
      have hmore := hrest (c.key T)
      rw [rowsAt_apply T _ rows c rfl] at hmore
      exact ⟨hfinds, hmore⟩
    · rw [List.filter_cons_of_neg (by simpa using hk)]
      have hmore := hrest k
      rwa [rowsAt_apply_of_ne T k rows c hk] at hmore

theorem ready_append (rows : List α) (left right : List (Change α ε)) :
    Ready T rows (left ++ right) ↔
      Ready T rows left ∧ Ready T (left.foldl (apply T) rows) right := by
  induction left generalizing rows with
  | nil => exact ⟨fun h => ⟨ready_nil T rows, h⟩, fun h => h.2⟩
  | cons c left ih => rw [List.cons_append, ready_cons, ih, ready_cons, List.foldl_cons, and_assoc]

/-- A transaction is not disturbed by one that it has no key in common with. -/
theorem ready_other (rows : List α) (changes others : List (Change α ε))
    (h : Ready T rows changes)
    (hapart : ∀ c ∈ changes, ∀ d ∈ others, c.key T ≠ d.key T) :
    Ready T (others.foldl (apply T) rows) changes := by
  intro k
  by_cases hk : ∃ c ∈ changes, c.key T = k
  · obtain ⟨c, hc, rfl⟩ := hk
    rw [rowsAt_foldl_of_ne T _ others rows fun d hd heq => hapart c hc d hd heq.symm]
    exact h (c.key T)
  · have hnone : changes.filter (fun c => c.key T = k) = [] := by
      rw [List.filter_eq_nil_iff]
      intro c hc
      simpa using fun heq => hk ⟨c, hc, heq⟩
    rw [hnone]
    trivial

theorem spent_mint (rows : List α) (log : List ε) (a : α) (h : Spent T rows log)
    (hfinds : Finds T (rowsAt T (T.key a) rows) (.mint a)) : Spent T (rows ++ [a]) log where
  keys k := by
    by_cases hk : T.key a = k
    · subst hk
      have hnone : rowsAt T (T.key a) rows = [] := hfinds
      have happly := rowsAt_apply T (T.key a) rows (.mint a) rfl
      simp only [apply] at happly
      rw [happly, hnone]
      exact Nat.le_refl 1
    · have happly := rowsAt_apply_of_ne T k rows (.mint a) hk
      simp only [apply] at happly
      rw [happly]
      exact h.keys k
  once := h.once
  stamped e he := by
    obtain ⟨b, hb, hstamped⟩ := h.stamped e he
    exact ⟨b, List.mem_append_left _ hb, hstamped⟩

theorem eq_of_key (rows : List α) (log : List ε) (h : Spent T rows log) (a b : α) (ha : a ∈ rows)
    (hb : b ∈ rows) (hkey : T.key a = T.key b) : a = b := by
  have hlength := h.keys (T.key b)
  have ha' := (mem_rowsAt T (T.key b) rows a).mpr ⟨ha, hkey⟩
  have hb' := (mem_rowsAt T (T.key b) rows b).mpr ⟨hb, rfl⟩
  match hrows : rowsAt T (T.key b) rows with
  | [] =>
    rw [hrows] at ha'
    cases ha'
  | [c] =>
    rw [hrows, List.mem_singleton] at ha' hb'
    rw [ha', hb']
  | c :: d :: rest =>
    rw [hrows] at hlength
    simp at hlength

theorem spent_spend (rows : List α) (log : List ε) (e : ε) (h : Spent T rows log)
    (hfinds : Finds T (rowsAt T (T.keyOf e) rows) (.spend e)) :
    Spent T (apply T rows (.spend e)) (log ++ [e]) := by
  obtain ⟨a, ha, hfree, hallows⟩ := hfinds
  obtain ⟨ha, hkey⟩ := (mem_rowsAt T _ rows a).mp ha
  refine ⟨fun k => ?_, ?_, fun f hf => ?_⟩
  · by_cases hk : T.keyOf e = k
    · rw [rowsAt_apply T k rows (.spend e) hk, apply, List.length_map]
      exact h.keys k
    · rw [rowsAt_apply_of_ne T k rows (.spend e) hk]
      exact h.keys k
  · rw [List.map_append, List.map_singleton, List.nodup_append]
    refine ⟨h.once, List.nodup_singleton _, ?_⟩
    rintro k hk k' hk' rfl
    obtain ⟨f, hf, hfk⟩ := List.mem_map.mp hk
    rw [List.mem_singleton] at hk'
    obtain ⟨b, hb, hbkey, hspent, -⟩ := h.stamped f hf
    have hsame := eq_of_key T rows log h a b ha hb
      (by rw [hkey, hbkey, hfk, hk'])
    rw [hsame, hspent] at hfree
    cases hfree
  · rcases List.mem_append.mp hf with hf | hf
    · obtain ⟨b, hb, hbkey, hspent, hballows⟩ := h.stamped f hf
      have hne : T.key b ≠ T.keyOf e := by
        intro heq
        rw [eq_of_key T rows log h b a hb ha (heq.trans hkey.symm), hfree] at hspent
        cases hspent
      exact ⟨b, List.mem_map.mpr ⟨b, hb, if_neg hne⟩, hbkey, hspent, hballows⟩
    · rw [List.mem_singleton.mp hf]
      refine ⟨T.consume (T.time e) a, List.mem_map.mpr ⟨a, ha, if_pos hkey⟩, ?_, ?_, ?_⟩
      · rw [T.key_consume, hkey]
      · exact T.consumedAt_consume _ a
      · exact T.allows_consume _ e a hallows

/-- What a transaction spends was not spent before. -/
theorem spent_all (rows : List α) (log : List ε) (changes : List (Change α ε))
    (h : Spent T rows log) (hready : Ready T rows changes) :
    Spent T (changes.foldl (apply T) rows) (log ++ spendings changes) := by
  induction changes generalizing rows log with
  | nil =>
    rw [spendings, List.flatMap_nil, List.append_nil]
    exact h
  | cons c rest ih =>
    obtain ⟨hfinds, hrest⟩ := (ready_cons T rows c rest).mp hready
    rw [List.foldl_cons, spendings, List.flatMap_cons, ← List.append_assoc]
    cases c with
    | mint a =>
      rw [Change.spent, List.append_nil]
      exact ih _ log (spent_mint T rows log a h hfinds) hrest
    | spend e => exact ih _ _ (spent_spend T rows log e h hfinds) hrest

theorem spent_nil : Spent T [] [] :=
  ⟨fun _ => Nat.zero_le 1, List.nodup_nil, fun _ he => absurd he List.not_mem_nil⟩

end Hyproxy.SingleUse

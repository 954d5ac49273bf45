import Hyproxy.RouteTables
import Mathlib.Data.List.Nodup
import Mathlib.Data.List.Perm.Basic

/-!
The lists of entries of `RouteTables` as maps: what a lookup finds after entries
were set one after the other, and that it finds each entry of a list whose keys
are distinct. Two lists are the same map when their lookups agree.
-/
namespace Hyproxy.RouteMaps

variable {α : Type}

/-- The keys of a map are distinct. -/
def Distinct (m : List (List Char × α)) : Prop := (m.map Prod.fst).Nodup

def SameMap (m₁ m₂ : List (List Char × α)) : Prop := ∀ host, m₁.lookup host = m₂.lookup host

theorem lookup_cons (entry : List Char × α) (m : List (List Char × α)) (host : List Char) :
    (entry :: m).lookup host = if host = entry.1 then some entry.2 else m.lookup host := by
  obtain ⟨key, value⟩ := entry
  by_cases h : host = key
  · rw [h, List.lookup_cons_self, if_pos rfl]
  · rw [if_neg h, List.lookup_cons, beq_eq_false_iff_ne.mpr h]

theorem lookup_append (left right : List (List Char × α)) (host : List Char) :
    (left ++ right).lookup host = (left.lookup host).or (right.lookup host) := by
  induction left with
  | nil => rfl
  | cons entry rest ih =>
    rw [List.cons_append, lookup_cons, lookup_cons, ih]
    split_ifs <;> rfl

theorem mem_of_lookup (m : List (List Char × α)) (host : List Char) (value : α)
    (h : m.lookup host = some value) : (host, value) ∈ m := by
  obtain ⟨before, after, hsplit, -⟩ := List.lookup_eq_some_iff.mp h
  rw [hsplit]
  simp

theorem lookup_of_mem (m : List (List Char × α)) (hdistinct : Distinct m) (entry : List Char × α)
    (h : entry ∈ m) : m.lookup entry.1 = some entry.2 := by
  induction m with
  | nil => cases h
  | cons other rest ih =>
    obtain ⟨hnew, hrest⟩ := List.nodup_cons.mp hdistinct
    rw [lookup_cons]
    rcases List.mem_cons.mp h with rfl | h
    · rw [if_pos rfl]
    · have hne : entry.1 ≠ other.1 := fun heq => hnew (heq ▸ List.mem_map_of_mem h)
      rw [if_neg hne, ih hrest h]

theorem lookup_none_iff (m : List (List Char × α)) (host : List Char) :
    m.lookup host = none ↔ ∀ entry ∈ m, entry.1 ≠ host := by
  induction m with
  | nil => simp
  | cons other rest ih =>
    rw [lookup_cons, List.forall_mem_cons, ← ih]
    by_cases h : host = other.1
    · simp [h]
    · rw [if_neg h]
      exact ⟨fun hrest => ⟨Ne.symm h, hrest⟩, fun hboth => hboth.2⟩

/-- The entries that meet a condition on their values. -/
theorem lookup_filter (m : List (List Char × α)) (hdistinct : Distinct m) (keep : α → Bool)
    (host : List Char) :
    (m.filter fun entry => keep entry.2).lookup host = (m.lookup host).filter keep := by
  induction m with
  | nil => rfl
  | cons other rest ih =>
    obtain ⟨hnew, hrest⟩ := List.nodup_cons.mp hdistinct
    rw [List.filter_cons, lookup_cons]
    by_cases hkeep : keep other.2 = true
    · rw [if_pos hkeep, lookup_cons, ih hrest]
      split_ifs with h
      · rw [Option.filter_some, if_pos hkeep]
      · rfl
    · rw [if_neg hkeep, ih hrest]
      split_ifs with h
      · have hnone : rest.lookup host = none := by
          rw [lookup_none_iff]
          intro entry hentry heq
          exact hnew (h ▸ heq ▸ List.mem_map_of_mem hentry)
        rw [hnone, Option.filter_some, if_neg hkeep]
        rfl
      · rfl

theorem lookup_insert (m : List (List Char × α)) (entry : List Char × α) (host : List Char) :
    (RouteTables.insert m entry).lookup host =
      if host = entry.1 then some entry.2 else m.lookup host := by
  rw [RouteTables.insert, lookup_append]
  have hothers : (m.filter fun other => other.1 != entry.1).lookup host =
      if host = entry.1 then none else m.lookup host := by
    induction m with
    | nil => simp
    | cons other rest ih =>
      rw [List.filter_cons, lookup_cons]
      by_cases hkey : other.1 = entry.1
      · rw [if_neg (by simp [hkey]), ih, hkey]
        split_ifs <;> rfl
      · rw [if_pos (by simp [hkey]), lookup_cons, ih]
        by_cases h : host = other.1
        · rw [if_pos h, if_neg (fun heq => hkey (h.symm.trans heq)), if_pos h]
        · rw [if_neg h, if_neg h]
  rw [hothers, lookup_cons]
  split_ifs
  · rfl
  · simp

theorem distinct_insert (m : List (List Char × α)) (entry : List Char × α) (h : Distinct m) :
    Distinct (RouteTables.insert m entry) := by
  rw [Distinct, RouteTables.insert, List.map_append]
  refine List.nodup_append.mpr ⟨(List.filter_sublist.map _).nodup h, List.nodup_singleton _, ?_⟩
  rintro key hkey other hother rfl
  obtain ⟨found, hfound, rfl⟩ := List.mem_map.mp hkey
  have heq : found.1 = entry.1 := by simpa using hother
  simpa [heq] using (List.mem_filter.mp hfound).2

theorem distinct_foldl_insert (entries m : List (List Char × α)) (h : Distinct m) :
    Distinct (entries.foldl RouteTables.insert m) := by
  induction entries generalizing m with
  | nil => exact h
  | cons entry rest ih => exact ih (RouteTables.insert m entry) (distinct_insert m entry h)

/-- The entry that was set last is found. -/
theorem lookup_foldl_insert (entries m : List (List Char × α)) (host : List Char) :
    (entries.foldl RouteTables.insert m).lookup host =
      (entries.reverse.lookup host).or (m.lookup host) := by
  induction entries generalizing m with
  | nil => rfl
  | cons entry rest ih =>
    rw [List.foldl_cons, ih, lookup_insert, List.reverse_cons, lookup_append, lookup_cons,
      Option.or_assoc]
    split_ifs <;> rfl

theorem lookup_reverse (m : List (List Char × α)) (h : Distinct m) (host : List Char) :
    m.reverse.lookup host = m.lookup host := by
  cases hfound : m.lookup host with
  | none =>
    rw [lookup_none_iff] at hfound ⊢
    exact fun entry hentry => hfound entry (List.mem_reverse.mp hentry)
  | some value =>
    have hdistinct : Distinct m.reverse := by
      rw [Distinct, List.map_reverse, List.nodup_reverse]
      exact h
    have hmem := mem_of_lookup m host value hfound
    exact lookup_of_mem m.reverse hdistinct (host, value) (List.mem_reverse.mpr hmem)

/-- Lists with the same entries are the same map when no key has two values. -/
theorem sameMap_of_mem_iff (m₁ m₂ : List (List Char × α)) (hmem : ∀ entry, entry ∈ m₁ ↔ entry ∈ m₂)
    (hagree : ∀ a ∈ m₁, ∀ b ∈ m₁, a.1 = b.1 → a.2 = b.2) : SameMap m₁ m₂ := by
  intro host
  cases hfound : m₁.lookup host with
  | none =>
    symm
    rw [lookup_none_iff] at hfound ⊢
    exact fun entry hentry => hfound entry ((hmem entry).mpr hentry)
  | some value =>
    have hin := mem_of_lookup m₁ host value hfound
    cases hother : m₂.lookup host with
    | none =>
      rw [lookup_none_iff] at hother
      exact absurd rfl (hother _ ((hmem _).mp hin))
    | some other =>
      have hback := (hmem _).mpr (mem_of_lookup m₂ host other hother)
      exact congrArg some (hagree _ hin _ hback rfl)

end Hyproxy.RouteMaps

import Mathlib.Data.List.Basic
import Mathlib.Tactic.Common
import Mathlib.Tactic.SplitIfs

/-!
Maps that forget: an entry that is no longer live is dropped when it is looked up, and a map that
is full drops what is not live, or else everything, to make room for one more entry.
-/
namespace Hyproxy.BoundedMaps

variable {Key Entry : Type*} [DecidableEq Key]

def get (live : Entry → Bool) (m : List (Key × Entry)) (key : Key) :
    Option Entry × List (Key × Entry) :=
  match m.lookup key with
  | none => (none, m)
  | some e => if live e then (some e, m) else (none, m.filter (fun p => p.1 ≠ key))

def evict (max : ℕ) (live : Entry → Bool) (m : List (Key × Entry)) : List (Key × Entry) :=
  if max ≤ m.length then
    let m := m.filter (fun p => live p.2)
    if max ≤ m.length then [] else m
  else m

def put (max : ℕ) (live : Entry → Bool) (m : List (Key × Entry)) (key : Key) (e : Entry) :
    List (Key × Entry) :=
  (key, e) :: (evict max live m).filter (fun p => p.1 ≠ key)

/-- What is found is live and was there; nothing comes in by looking. -/
theorem get_cases (live : Entry → Bool) (m : List (Key × Entry)) (key : Key) :
    (∃ e, get live m key = (some e, m) ∧ (key, e) ∈ m ∧ live e = true) ∨
      ∃ rest, get live m key = (none, rest) ∧ List.Sublist rest m := by
  unfold get
  cases hlookup : m.lookup key with
  | none => exact .inr ⟨m, rfl, List.Sublist.refl m⟩
  | some e =>
    simp only
    split_ifs with hlive
    · obtain ⟨before, after, rfl, -⟩ := List.lookup_eq_some_iff.mp hlookup
      exact .inl ⟨e, rfl, by simp, hlive⟩
    · exact .inr ⟨_, rfl, List.filter_sublist⟩

theorem get_some (live : Entry → Bool) (m : List (Key × Entry)) (key : Key) (e : Entry)
    (h : (get live m key).1 = some e) : (key, e) ∈ m ∧ live e = true := by
  rcases get_cases live m key with ⟨found, hget, hmem, hlive⟩ | ⟨rest, hget, -⟩
  · rw [hget] at h
    obtain rfl := Option.some.inj h
    exact ⟨hmem, hlive⟩
  · rw [hget] at h
    exact absurd h (by simp)

theorem get_sublist (live : Entry → Bool) (m : List (Key × Entry)) (key : Key) :
    List.Sublist (get live m key).2 m := by
  rcases get_cases live m key with ⟨found, hget, -, -⟩ | ⟨rest, hget, hrest⟩
  · rw [hget]
  · rw [hget]
    exact hrest

omit [DecidableEq Key] in
theorem evict_sublist (max : ℕ) (live : Entry → Bool) (m : List (Key × Entry)) :
    List.Sublist (evict max live m) m := by
  unfold evict
  simp only
  split_ifs
  · exact List.nil_sublist m
  · exact List.filter_sublist
  · exact List.Sublist.refl m

omit [DecidableEq Key] in
theorem length_evict (max : ℕ) (live : Entry → Bool) (m : List (Key × Entry)) (hmax : 0 < max) :
    (evict max live m).length < max := by
  unfold evict
  simp only
  split_ifs with hfull hstill
  · exact hmax
  · omega
  · omega

theorem mem_put (max : ℕ) (live : Entry → Bool) (m : List (Key × Entry)) (key : Key) (e : Entry)
    (p : Key × Entry) (hp : p ∈ put max live m key e) : p ∈ m ∨ p = (key, e) := by
  rcases List.mem_cons.mp hp with rfl | hp
  · exact .inr rfl
  · exact .inl ((evict_sublist max live m).subset (List.mem_of_mem_filter hp))

theorem length_put (max : ℕ) (live : Entry → Bool) (m : List (Key × Entry)) (key : Key) (e : Entry)
    (hmax : 0 < max) : (put max live m key e).length ≤ max := by
  have hevict := length_evict max live m hmax
  have hfilter := List.length_filter_le (fun p => Decidable.decide (p.1 ≠ key)) (evict max live m)
  rw [put, List.length_cons]
  omega

end Hyproxy.BoundedMaps

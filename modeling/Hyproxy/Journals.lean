import Hyproxy.Runs
import Mathlib.Data.List.Nodup

/-!
Systems that keep a journal of their changes. The journal is read by a function that takes a view
of the state from one record to the next; where each step adds records that lead from the view
before it to the view after it, the records of a run do so as well. Tables in a view are lists of
rows with their keys.
-/
namespace Hyproxy.Journals

open Runs (Along along_append)

variable {κ α β δ ε σ ρ : Type}

/-! ### Tables -/

section Tables

variable (key : β → κ) (value : β → α)

/-- The rows of a table, as a view shows them. -/
def shown (rows : List β) : List (κ × α) := rows.map fun row => (key row, value row)

theorem shown_append (left right : List β) :
    shown key value (left ++ right) = shown key value left ++ shown key value right :=
  List.map_append

theorem mem_shown (rows : List β) (row : β) (h : row ∈ rows) :
    (key row, value row) ∈ shown key value rows := List.mem_map.mpr ⟨row, h, rfl⟩

/-- An update that no view shows. -/
theorem shown_congr (rows : List β) (f : β → β)
    (h : ∀ row ∈ rows, key (f row) = key row ∧ value (f row) = value row) :
    shown key value (rows.map f) = shown key value rows := by
  rw [shown, shown, List.map_map]
  refine List.map_congr_left fun row hrow => ?_
  rw [Function.comp_apply, (h row hrow).1, (h row hrow).2]

/-- The rows of some values. -/
theorem shown_keep (rows : List β) (keep : α → Bool) :
    shown key value (rows.filter fun row => keep (value row)) =
      (shown key value rows).filter fun row => keep row.2 := by
  rw [shown, shown, List.filter_map]
  rfl

variable [DecidableEq κ]

/-- The rows of this key get this value. -/
def put (rows : List (κ × α)) (key : κ) (value : α) : List (κ × α) :=
  rows.map fun row => if row.1 = key then (key, value) else row

/-- The rows of other keys. -/
def drop (rows : List (κ × α)) (key : κ) : List (κ × α) := rows.filter fun row => row.1 ≠ key

/-- An update of the rows of one key to one value; the other rows are shown as before. -/
theorem shown_update (value' : β → α) (rows : List β) (k : κ) (v : α) (f : β → β)
    (h : ∀ row ∈ rows, key row = k → key (f row) = k ∧ value' (f row) = v)
    (hother : ∀ row ∈ rows, key row ≠ k → value' row = value row) :
    shown key value' (rows.map fun row => if key row = k then f row else row) =
      put (shown key value rows) k v := by
  rw [shown, put, shown, List.map_map, List.map_map]
  refine List.map_congr_left fun row hrow => ?_
  by_cases hkey : key row = k
  · obtain ⟨hk, hv⟩ := h row hrow hkey
    simp only [Function.comp_apply, if_pos hkey, hk, hv]
  · simp only [Function.comp_apply, if_neg hkey, hother row hrow hkey]

theorem shown_filter (rows : List β) (k : κ) :
    shown key value (rows.filter fun row => key row ≠ k) = drop (shown key value rows) k := by
  rw [shown, drop, shown, List.filter_map]
  rfl

/-! #### The row of a key -/

end Tables

/-! ### Journals -/

structure Journal (δ ρ σ : Type) where
  records : δ → List ρ
  view : δ → σ
  replay : σ → ρ → σ

/-- The records that one state has more than another lead from the view of the one to that of the
other, and each tells what is so in the view that it finds. -/
structure Leads (J : Journal δ ρ σ) (tells : σ → ρ → Prop) (old new : δ) : Prop where
  witness : ∃ added, J.records new = J.records old ++ added ∧
    J.view new = added.foldl J.replay (J.view old) ∧ Along J.replay tells (J.view old) added

variable (J : Journal δ ρ σ) (tells : σ → ρ → Prop)

/-- A step without a record, which changes nothing that the view shows. -/
theorem Leads.silent (old new : δ) (hrecords : J.records new = J.records old)
    (hview : J.view new = J.view old) : Leads J tells old new :=
  ⟨[], by rw [hrecords, List.append_nil], hview, trivial⟩

/-- A step with one record. -/
theorem Leads.one (old new : δ) (r : ρ) (hrecords : J.records new = J.records old ++ [r])
    (hview : J.view new = J.replay (J.view old) r) (htells : tells (J.view old) r) :
    Leads J tells old new :=
  ⟨[r], hrecords, hview, htells, trivial⟩

theorem Leads.trans {J : Journal δ ρ σ} {tells : σ → ρ → Prop} {a b c : δ} (h : Leads J tells a b)
    (k : Leads J tells b c) : Leads J tells a c := by
  obtain ⟨left, hleft, hview, htells⟩ := h
  obtain ⟨right, hright, hview', htells'⟩ := k
  refine ⟨left ++ right, ?_, ?_, ?_⟩
  · rw [hright, hleft, List.append_assoc]
  · rw [hview', hview, List.foldl_append]
  · exact (along_append J.replay tells _ left right).mpr ⟨htells, hview ▸ htells'⟩

end Hyproxy.Journals

import Hyproxy.BoundedMaps
import Mathlib.Data.Int.Notation
import Mathlib.Data.List.Basic
import Mathlib.Tactic.Common
import Mathlib.Tactic.SplitIfs

/-!
The cache of host-wide allow decisions (`authzcache.go`): one entry a key, an
expiry that is capped at a minute, and a bound on the number of entries beyond
which expired ones, or else all, are dropped. Times are nanoseconds.
-/
namespace Hyproxy.DecisionCache

def maxEntries : ℕ := 4096

def ttlCap : ℤ := 60 * 1000000000

structure Entry (Headers : Type) where
  headers : Headers
  expires : ℤ

abbrev Cache (Key Headers : Type) := List (Key × Entry Headers)

variable {Key Headers : Type} [DecidableEq Key]

def Entry.live (e : Entry Headers) (now : ℤ) : Bool := now ≤ e.expires

/-- A hit returns the stored headers; an expired entry is removed. -/
def get (c : Cache Key Headers) (key : Key) (now : ℤ) : Option Headers × Cache Key Headers :=
  match c.lookup key with
  | none => (none, c)
  | some e =>
    if e.live now then (some e.headers, c) else (none, c.filter (fun p => p.1 ≠ key))

/-- Make room for one more entry. -/
def evict (c : Cache Key Headers) (now : ℤ) : Cache Key Headers :=
  if maxEntries ≤ c.length then
    let c := c.filter (fun p => p.2.live now)
    if maxEntries ≤ c.length then [] else c
  else c

def put (c : Cache Key Headers) (key : Key) (headers : Headers) (ttl now : ℤ) :
    Cache Key Headers :=
  if ttl ≤ 0 then c
  else (key, ⟨headers, now + min ttl ttlCap⟩) :: (evict c now).filter (fun p => p.1 ≠ key)

def purge (_ : Cache Key Headers) : Cache Key Headers := []

/-- The hit of the map that forgets, without its expiry. -/
theorem get_eq (c : Cache Key Headers) (key : Key) (now : ℤ) :
    get c key now = ((BoundedMaps.get (fun e => e.live now) c key).1.map Entry.headers,
      (BoundedMaps.get (fun e => e.live now) c key).2) := by
  unfold get BoundedMaps.get
  cases c.lookup key with
  | none => rfl
  | some e =>
    simp only
    split_ifs
    · rfl
    · rfl

theorem put_eq (c : Cache Key Headers) (key : Key) (headers : Headers) (ttl now : ℤ)
    (httl : 0 < ttl) : put c key headers ttl now =
      BoundedMaps.put maxEntries (fun e => e.live now) c key ⟨headers, now + min ttl ttlCap⟩ :=
  if_neg (by omega)

theorem mem_get_cache (c : Cache Key Headers) (key : Key) (now : ℤ) (p : Key × Entry Headers)
    (h : p ∈ (get c key now).2) : p ∈ c := by
  rw [get_eq] at h
  exact (BoundedMaps.get_sublist _ c key).subset h

theorem mem_put_entry (c : Cache Key Headers) (key : Key) (headers : Headers) (ttl now : ℤ)
    (p : Key × Entry Headers) (hp : p ∈ put c key headers ttl now) :
    p ∈ c ∨ (0 < ttl ∧ p = (key, ⟨headers, now + min ttl ttlCap⟩)) := by
  by_cases httl : 0 < ttl
  · rw [put_eq c key headers ttl now httl] at hp
    exact (BoundedMaps.mem_put _ _ c key _ p hp).imp id fun heq => ⟨httl, heq⟩
  · rw [put, if_pos (by omega)] at hp
    exact .inl hp

theorem mem_put (c : Cache Key Headers) (key : Key) (headers : Headers) (ttl now : ℤ)
    (p : Key × Entry Headers) (h : p ∈ put c key headers ttl now) :
    p ∈ c ∨ (p.1 = key ∧ p.2.headers = headers) := by
  rcases mem_put_entry c key headers ttl now p h with hold | ⟨-, rfl⟩
  · exact .inl hold
  · exact .inr ⟨rfl, rfl⟩

theorem get_some (c : Cache Key Headers) (key : Key) (now : ℤ) (headers : Headers)
    (h : (get c key now).1 = some headers) :
    ∃ e, (key, e) ∈ c ∧ e.headers = headers ∧ now ≤ e.expires := by
  rw [get_eq] at h
  obtain ⟨e, hfound, hheaders⟩ := Option.map_eq_some_iff.mp h
  obtain ⟨hmem, hlive⟩ := BoundedMaps.get_some _ c key e hfound
  exact ⟨e, hmem, hheaders, of_decide_eq_true hlive⟩

theorem mem_of_get (c : Cache Key Headers) (key : Key) (now : ℤ) (headers : Headers)
    (h : (get c key now).1 = some headers) : ∃ e, (key, e) ∈ c ∧ e.headers = headers := by
  obtain ⟨e, hmem, hheaders, -⟩ := get_some c key now headers h
  exact ⟨e, hmem, hheaders⟩

theorem length_get (c : Cache Key Headers) (key : Key) (now : ℤ) :
    (get c key now).2.length ≤ c.length := by
  rw [get_eq]
  exact (BoundedMaps.get_sublist _ c key).length_le

theorem length_put (c : Cache Key Headers) (key : Key) (headers : Headers) (ttl now : ℤ)
    (hc : c.length ≤ maxEntries) : (put c key headers ttl now).length ≤ maxEntries := by
  by_cases httl : 0 < ttl
  · rw [put_eq c key headers ttl now httl]
    exact BoundedMaps.length_put maxEntries _ c key _ (Nat.zero_lt_succ _)
  · rw [put, if_pos (by omega)]
    exact hc

/-! ### Entries that carry more -/

variable {More : Type}

/-- The cache with something else in place of the headers. -/
def mapHeaders (f : More → Headers) (c : Cache Key More) : Cache Key Headers :=
  c.map fun p => (p.1, ⟨f p.2.headers, p.2.expires⟩)

theorem lookup_mapHeaders (f : More → Headers) (c : Cache Key More) (key : Key) :
    (mapHeaders f c).lookup key =
      (c.lookup key).map fun e => (⟨f e.headers, e.expires⟩ : Entry Headers) := by
  induction c with
  | nil => rfl
  | cons p rest ih =>
    rw [mapHeaders, List.map_cons, List.lookup_cons, List.lookup_cons]
    cases key == p.1
    · exact ih
    · rfl

omit [DecidableEq Key] in
theorem filter_mapHeaders (f : More → Headers) (c : Cache Key More) (keep : Key → ℤ → Bool) :
    (mapHeaders f c).filter (fun p => keep p.1 p.2.expires) =
      mapHeaders f (c.filter fun p => keep p.1 p.2.expires) := by
  rw [mapHeaders, List.filter_map]
  rfl

theorem get_mapHeaders (f : More → Headers) (c : Cache Key More) (key : Key) (now : ℤ) :
    get (mapHeaders f c) key now =
      ((get c key now).1.map f, mapHeaders f (get c key now).2) := by
  unfold get
  rw [lookup_mapHeaders]
  cases c.lookup key with
  | none => rfl
  | some e =>
    have hsame : (⟨f e.headers, e.expires⟩ : Entry Headers).live now = e.live now := rfl
    simp only [Option.map_some, hsame]
    cases e.live now with
    | true => rfl
    | false => exact Prod.ext rfl (filter_mapHeaders f c fun k _ => decide (k ≠ key))

omit [DecidableEq Key] in
theorem evict_mapHeaders (f : More → Headers) (c : Cache Key More) (now : ℤ) :
    evict (mapHeaders f c) now = mapHeaders f (evict c now) := by
  have hlive := filter_mapHeaders f c fun _ expires => decide (now ≤ expires)
  have hlength : ∀ c : Cache Key More, (mapHeaders f c).length = c.length := fun c => List.length_map _
  unfold evict Entry.live
  simp only [hlive, hlength]
  split_ifs <;> rfl

theorem put_mapHeaders (f : More → Headers) (c : Cache Key More) (key : Key) (headers : More)
    (ttl now : ℤ) :
    put (mapHeaders f c) key (f headers) ttl now = mapHeaders f (put c key headers ttl now) := by
  unfold put
  split_ifs
  · rfl
  · rw [evict_mapHeaders, filter_mapHeaders f _ fun k _ => decide (k ≠ key)]
    rfl

end Hyproxy.DecisionCache

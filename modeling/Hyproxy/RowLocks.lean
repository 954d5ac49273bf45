import Mathlib.Data.List.Induction
import Mathlib.Data.List.Nodup
import Mathlib.Data.Nat.Notation
import Mathlib.Logic.Function.Basic
import Mathlib.Tactic.SplitIfs

/-!
Transactions at READ COMMITTED over a table whose rows are found by a key. Each
statement is one step and sees the committed rows with the writes of its own
transaction. A row that a transaction has locked or written is held until the end of the
transaction, and a statement that takes a row held by another one waits. An insertion
that does nothing on a conflict waits for writes only, and it holds the row only when
it has inserted it.
-/

namespace Hyproxy.RowLocks

variable {κ ν ι π ρ : Type}

/-- How an open transaction holds a row. -/
inductive Hold (ν : Type)
  | locked
  | wrote (row : Option ν)
  deriving Repr, DecidableEq

/-- SELECT, SELECT FOR UPDATE, INSERT ON CONFLICT DO NOTHING, UPDATE and DELETE of the row with a
key. The program may raise on what it has selected for update. -/
inductive Statement (κ ν π : Type)
  | select (k : κ) (next : Option ν → π)
  | lock (k : κ) (next : Option ν → Option π)
  | insert (k : κ) (row : ν) (next : π)
  | update (k : κ) (row : ν) (next : π)
  | delete (k : κ) (next : π)

/-- The requests of a database; a transaction stands at a statement or at its answer. -/
structure Program (ι κ ν π ρ : Type) where
  start : ι → π
  stand : π → Statement κ ν π ⊕ ρ

structure Txn (κ ν ι π : Type) where
  id : ℕ
  request : ι
  point : π
  holds : κ → Option (Hold ν)

/-- The answer of a transaction that is committed. -/
structure Answered (ι ρ : Type) where
  id : ℕ
  request : ι
  answer : ρ

structure State (κ ν ι π ρ : Type) where
  rows : κ → Option ν
  txns : List (Txn κ ν ι π)
  answers : List (Answered ι ρ)
  serial : ℕ

inductive Event (ι : Type)
  | arrive (request : ι)
  | statement (t : ℕ)
  | commit (t : ℕ)
  | rollback (t : ℕ)
  deriving Repr, DecidableEq

/-- What the statements of the transaction see of a row, and what its commit leaves of it. -/
def Txn.view (x : Txn κ ν ι π) (rows : κ → Option ν) (k : κ) : Option ν :=
  match x.holds k with
  | some (.wrote row) => row
  | _ => rows k

def Txn.write [DecidableEq κ] (x : Txn κ ν ι π) (k : κ) (row : Option ν) (next : π) :
    Txn κ ν ι π :=
  ⟨x.id, x.request, next, Function.update x.holds k (some (.wrote row))⟩

def Txn.lock [DecidableEq κ] (x : Txn κ ν ι π) (k : κ) (next : π) : Txn κ ν ι π :=
  ⟨x.id, x.request, next, Function.update x.holds k (some ((x.holds k).getD .locked))⟩

def Hold.isWrite : Option (Hold ν) → Bool
  | some (.wrote _) => true
  | _ => false

/-- Another open transaction holds the row. -/
def held (s : State κ ν ι π ρ) (t : ℕ) (k : κ) : Bool :=
  s.txns.any fun y => y.id != t && (y.holds k).isSome

/-- Another open transaction has written the row. -/
def written (s : State κ ν ι π ρ) (t : ℕ) (k : κ) : Bool :=
  s.txns.any fun y => y.id != t && Hold.isWrite (y.holds k)

inductive Outcome (κ ν ι π : Type)
  | waits
  | raises
  | moves (x : Txn κ ν ι π)

/-- A write of a row that the statement sees. -/
def rewrite [DecidableEq κ] (s : State κ ν ι π ρ) (x : Txn κ ν ι π) (k : κ) (row : Option ν)
    (next : π) : Outcome κ ν ι π :=
  match x.view s.rows k with
  | none => .moves { x with point := next }
  | some _ => if held s x.id k then .waits else .moves (x.write k row next)

def execute [DecidableEq κ] (s : State κ ν ι π ρ) (x : Txn κ ν ι π) :
    Statement κ ν π → Outcome κ ν ι π
  | .select k next => .moves { x with point := next (x.view s.rows k) }
  | .lock k next =>
    match x.view s.rows k with
    | none =>
      match next none with
      | none => .raises
      | some p => .moves { x with point := p }
    | some row =>
      if held s x.id k then .waits
      else
        match next (some row) with
        | none => .raises
        | some p => .moves (x.lock k p)
  | .insert k row next =>
    if written s x.id k then .waits
    else
      match x.view s.rows k with
      | none => .moves (x.write k (some row) next)
      | some _ => .moves { x with point := next }
  | .update k row next => rewrite s x k (some row) next
  | .delete k next => rewrite s x k none next

def State.txn (s : State κ ν ι π ρ) (t : ℕ) : Option (Txn κ ν ι π) :=
  s.txns.find? fun x => x.id == t

def State.put (s : State κ ν ι π ρ) (x : Txn κ ν ι π) : List (Txn κ ν ι π) :=
  s.txns.map fun y => if y.id = x.id then x else y

def State.drop (s : State κ ν ι π ρ) (t : ℕ) : List (Txn κ ν ι π) :=
  s.txns.filter fun y => y.id != t

def State.wait (s : State κ ν ι π ρ) : State κ ν ι π ρ := { s with serial := s.serial + 1 }

/-- The number of the step in which a transaction arrives is its identifier. -/
def opened (P : Program ι κ ν π ρ) (t : ℕ) (request : ι) : Txn κ ν ι π :=
  ⟨t, request, P.start request, fun _ => none⟩

def step [DecidableEq κ] (P : Program ι κ ν π ρ) (s : State κ ν ι π ρ) :
    Event ι → State κ ν ι π ρ
  | .arrive request => { s.wait with txns := opened P s.serial request :: s.txns }
  | .statement t =>
    match s.txn t with
    | none => s.wait
    | some x =>
      match P.stand x.point with
      | .inr _ => s.wait
      | .inl q =>
        match execute s x q with
        | .waits => s.wait
        | .raises => { s.wait with txns := s.drop t }
        | .moves y => { s.wait with txns := s.put y }
  | .commit t =>
    match s.txn t with
    | none => s.wait
    | some x =>
      match P.stand x.point with
      | .inl _ => s.wait
      | .inr r => ⟨x.view s.rows, s.drop t, s.answers ++ [⟨t, x.request, r⟩], s.serial + 1⟩
  | .rollback t => { s.wait with txns := s.drop t }

/-- The state that a run leaves, from a table with no open transaction. -/
def after [DecidableEq κ] (P : Program ι κ ν π ρ) (rows : κ → Option ν) (events : List (Event ι)) :
    State κ ν ι π ρ :=
  events.foldl (step P) ⟨rows, [], [], 0⟩

theorem after_append [DecidableEq κ] (P : Program ι κ ν π ρ) (rows : κ → Option ν)
    (past : List (Event ι)) (e : Event ι) :
    after P rows (past ++ [e]) = step P (after P rows past) e := by
  simp [after]

/-- What a step can do. -/
inductive Effect [DecidableEq κ] (P : Program ι κ ν π ρ) (s : State κ ν ι π ρ) :
    Event ι → State κ ν ι π ρ → Prop
  | wait (e : Event ι) : Effect P s e s.wait
  | arrive (request : ι) :
    Effect P s (.arrive request) { s.wait with txns := opened P s.serial request :: s.txns }
  | moves (x y : Txn κ ν ι π) (q : Statement κ ν π) (hmem : x ∈ s.txns)
      (hstand : P.stand x.point = .inl q) (hmoves : execute s x q = .moves y) :
    Effect P s (.statement x.id) { s.wait with txns := s.put y }
  | raises (x : Txn κ ν ι π) (q : Statement κ ν π) (hmem : x ∈ s.txns)
      (hstand : P.stand x.point = .inl q) (hraises : execute s x q = .raises) :
    Effect P s (.statement x.id) { s.wait with txns := s.drop x.id }
  | commit (x : Txn κ ν ι π) (r : ρ) (hmem : x ∈ s.txns) (hstand : P.stand x.point = .inr r) :
    Effect P s (.commit x.id)
      ⟨x.view s.rows, s.drop x.id, s.answers ++ [⟨x.id, x.request, r⟩], s.serial + 1⟩
  | rollback (t : ℕ) : Effect P s (.rollback t) { s.wait with txns := s.drop t }

theorem txn_some (s : State κ ν ι π ρ) (t : ℕ) (x : Txn κ ν ι π) (h : s.txn t = some x) :
    x ∈ s.txns ∧ x.id = t := by
  refine ⟨List.mem_of_find?_eq_some h, ?_⟩
  simpa using List.find?_some h

theorem step_effect [DecidableEq κ] (P : Program ι κ ν π ρ) (s : State κ ν ι π ρ) (e : Event ι) :
    Effect P s e (step P s e) := by
  cases e with
  | arrive request => exact .arrive request
  | statement t =>
    simp only [step]
    split
    · exact .wait _
    · rename_i x hx
      obtain ⟨hmem, rfl⟩ := txn_some s t x hx
      split
      · exact .wait _
      · rename_i q hstand
        split
        · exact .wait _
        · rename_i hraises
          exact .raises x q hmem hstand hraises
        · rename_i y hmoves
          exact .moves x y q hmem hstand hmoves
  | commit t =>
    simp only [step]
    split
    · exact .wait _
    · rename_i x hx
      obtain ⟨hmem, rfl⟩ := txn_some s t x hx
      split
      · exact .wait _
      · rename_i r hstand
        exact .commit x r hmem hstand
  | rollback t => exact .rollback t

/-! ### Rows that are held -/

theorem view_of_free (x : Txn κ ν ι π) (rows : κ → Option ν) (k : κ) (h : x.holds k = none) :
    x.view rows k = rows k := by
  rw [Txn.view, h]

theorem view_of_wrote (x : Txn κ ν ι π) (rows : κ → Option ν) (k : κ) (row : Option ν)
    (h : x.holds k = some (.wrote row)) : x.view rows k = row := by
  rw [Txn.view, h]

theorem view_of_not_wrote (x : Txn κ ν ι π) (rows : κ → Option ν) (k : κ)
    (h : Hold.isWrite (x.holds k) = false) : x.view rows k = rows k := by
  unfold Txn.view
  cases hhold : x.holds k with
  | none => rfl
  | some hold =>
    cases hold with
    | locked => rfl
    | wrote row =>
      rw [hhold] at h
      cases h

theorem free_of_held (s : State κ ν ι π ρ) (t : ℕ) (k : κ) (h : held s t k = false) :
    ∀ y ∈ s.txns, y.id ≠ t → y.holds k = none := by
  intro y hy hne
  have hnone := List.any_eq_false.mp h y hy
  simpa [hne] using hnone

theorem unwritten_of_written (s : State κ ν ι π ρ) (t : ℕ) (k : κ) (h : written s t k = false) :
    ∀ y ∈ s.txns, y.id ≠ t → Hold.isWrite (y.holds k) = false := by
  intro y hy hne
  have hnone := List.any_eq_false.mp h y hy
  simpa [hne] using hnone

/-- Open transactions have identifiers of their own, no row is held by two of them, and a row that
is only locked is committed. -/
structure Exclusive (s : State κ ν ι π ρ) : Prop where
  ids : ∀ x ∈ s.txns, ∀ y ∈ s.txns, x.id = y.id → x = y
  known : ∀ x ∈ s.txns, x.id < s.serial
  rows : ∀ x ∈ s.txns, ∀ y ∈ s.txns, x.id ≠ y.id → ∀ k, x.holds k = none ∨ y.holds k = none
  locked : ∀ x ∈ s.txns, ∀ k, x.holds k = some .locked → s.rows k ≠ none

/-- What a statement does to the holds of its transaction: it keeps them, or it takes one row that
no other transaction holds. -/
inductive Took (s : State κ ν ι π ρ) (x y : Txn κ ν ι π) : Prop
  | same (h : y.holds = x.holds) : Took s x y
  | row [DecidableEq κ] (k : κ) (hold : Hold ν)
    (h : y.holds = Function.update x.holds k (some hold))
    (hfree : ∀ z ∈ s.txns, z.id ≠ x.id → z.holds k = none)
    (hlocked : hold = .locked → s.rows k ≠ none) : Took s x y

theorem took_rewrite [DecidableEq κ] (s : State κ ν ι π ρ) (x y : Txn κ ν ι π) (k : κ)
    (row : Option ν) (next : π) (h : rewrite s x k row next = .moves y) :
    y.id = x.id ∧ y.request = x.request ∧ Took s x y := by
  unfold rewrite at h
  split at h
  · obtain rfl := Outcome.moves.inj h
    exact ⟨rfl, rfl, .same rfl⟩
  · split_ifs at h with hheld
    obtain rfl := Outcome.moves.inj h
    exact ⟨rfl, rfl, .row k _ rfl (free_of_held s x.id k (by simpa using hheld)) (by simp)⟩

theorem took_execute [DecidableEq κ] (s : State κ ν ι π ρ) (x y : Txn κ ν ι π)
    (q : Statement κ ν π) (hs : Exclusive s) (hx : x ∈ s.txns) (h : execute s x q = .moves y) :
    y.id = x.id ∧ y.request = x.request ∧ Took s x y := by
  cases q with
  | select k next =>
    obtain rfl := Outcome.moves.inj h
    exact ⟨rfl, rfl, .same rfl⟩
  | lock k next =>
    simp only [execute] at h
    split at h
    · split at h
      · cases h
      · obtain rfl := Outcome.moves.inj h
        exact ⟨rfl, rfl, .same rfl⟩
    · rename_i row hview
      split_ifs at h with hheld
      split at h
      · cases h
      · obtain rfl := Outcome.moves.inj h
        refine ⟨rfl, rfl, .row k _ rfl (free_of_held s x.id k (by simpa using hheld)) ?_⟩
        intro hlocked hnone
        cases hhold : x.holds k with
        | none => simp [view_of_free x s.rows k hhold, hnone] at hview
        | some hold =>
          rw [hhold, Option.getD_some] at hlocked
          exact hs.locked x hx k (hhold.trans (by rw [hlocked])) hnone
  | insert k row next =>
    simp only [execute] at h
    split_ifs at h with hwritten
    split at h
    · rename_i hview
      obtain rfl := Outcome.moves.inj h
      refine ⟨rfl, rfl, .row k _ rfl (fun z hz hne => ?_) (by simp)⟩
      have hunwritten := unwritten_of_written s x.id k (by simpa using hwritten) z hz hne
      rcases hs.rows z hz x hx hne k with hfree | hfree
      · exact hfree
      · rw [view_of_free x s.rows k hfree] at hview
        cases hhold : z.holds k with
        | none => rfl
        | some hold =>
          cases hold with
          | locked => exact absurd hview (hs.locked z hz k hhold)
          | wrote row =>
            rw [hhold] at hunwritten
            cases hunwritten
    · obtain rfl := Outcome.moves.inj h
      exact ⟨rfl, rfl, .same rfl⟩
  | update k row next => exact took_rewrite s x y k (some row) next h
  | delete k next => exact took_rewrite s x y k none next h

theorem mem_put (s : State κ ν ι π ρ) (x y : Txn κ ν ι π) (h : y ∈ s.put x) :
    y = x ∨ (y ∈ s.txns ∧ y.id ≠ x.id) := by
  obtain ⟨z, hz, rfl⟩ := List.mem_map.mp h
  split_ifs with hid
  · exact Or.inl rfl
  · exact Or.inr ⟨hz, hid⟩

theorem mem_drop (s : State κ ν ι π ρ) (t : ℕ) (y : Txn κ ν ι π) :
    y ∈ s.drop t ↔ y ∈ s.txns ∧ y.id ≠ t := by
  simp [State.drop]

theorem self_mem_put (s : State κ ν ι π ρ) (x y : Txn κ ν ι π) (h : x ∈ s.txns)
    (hid : y.id = x.id) : y ∈ s.put y :=
  List.mem_map.mpr ⟨x, h, by rw [if_pos hid.symm]⟩

theorem mem_put_of_ne (s : State κ ν ι π ρ) (x y : Txn κ ν ι π) (h : y ∈ s.txns)
    (hne : y.id ≠ x.id) : y ∈ s.put x :=
  List.mem_map.mpr ⟨y, h, by rw [if_neg hne]⟩

/-- A commit leaves the rows that another transaction holds. -/
theorem view_of_other (s : State κ ν ι π ρ) (x y : Txn κ ν ι π) (hs : Exclusive s)
    (hx : x ∈ s.txns) (hy : y ∈ s.txns) (hne : y.id ≠ x.id) (k : κ) (h : y.holds k ≠ none) :
    x.view s.rows k = s.rows k :=
  view_of_free x s.rows k ((hs.rows y hy x hx hne k).resolve_left h)

theorem txn_of_mem (s : State κ ν ι π ρ) (x : Txn κ ν ι π) (hs : Exclusive s) (hx : x ∈ s.txns) :
    s.txn x.id = some x := by
  cases hfound : s.txn x.id with
  | none => exact absurd (List.find?_eq_none.mp hfound x hx) (by simp)
  | some y =>
    obtain ⟨hy, hid⟩ := txn_some s x.id y hfound
    rw [hs.ids y hy x hx hid]

theorem step_commit [DecidableEq κ] (P : Program ι κ ν π ρ) (s : State κ ν ι π ρ)
    (x : Txn κ ν ι π) (r : ρ) (hs : Exclusive s) (hx : x ∈ s.txns)
    (hstand : P.stand x.point = .inr r) :
    step P s (.commit x.id) =
      ⟨x.view s.rows, s.drop x.id, s.answers ++ [⟨x.id, x.request, r⟩], s.serial + 1⟩ := by
  simp only [step, txn_of_mem s x hs hx, hstand]

theorem exclusive_drop (s : State κ ν ι π ρ) (t : ℕ) (hs : Exclusive s) :
    Exclusive { s.wait with txns := s.drop t } where
  ids y hy z hz := hs.ids y ((mem_drop s t y).mp hy).1 z ((mem_drop s t z).mp hz).1
  known y hy := Nat.lt_succ_of_lt (hs.known y ((mem_drop s t y).mp hy).1)
  rows y hy z hz := hs.rows y ((mem_drop s t y).mp hy).1 z ((mem_drop s t z).mp hz).1
  locked y hy := hs.locked y ((mem_drop s t y).mp hy).1

theorem exclusive_arrive (P : Program ι κ ν π ρ) (s : State κ ν ι π ρ) (request : ι)
    (hs : Exclusive s) :
    Exclusive { s.wait with txns := opened P s.serial request :: s.txns } where
  ids := by
    intro y hy z hz hid
    rcases List.mem_cons.mp hy with heqy | hmemy <;> rcases List.mem_cons.mp hz with heqz | hmemz
    · rw [heqy, heqz]
    · have hknown := hs.known z hmemz
      rw [← hid, heqy] at hknown
      exact absurd hknown (Nat.lt_irrefl _)
    · have hknown := hs.known y hmemy
      rw [hid, heqz] at hknown
      exact absurd hknown (Nat.lt_irrefl _)
    · exact hs.ids y hmemy z hmemz hid
  known := by
    intro y hy
    rcases List.mem_cons.mp hy with rfl | hmem
    · exact Nat.lt_succ_self s.serial
    · exact Nat.lt_succ_of_lt (hs.known y hmem)
  rows := by
    intro y hy z hz hne k
    rcases List.mem_cons.mp hy with rfl | hy
    · exact Or.inl rfl
    · rcases List.mem_cons.mp hz with rfl | hz
      · exact Or.inr rfl
      · exact hs.rows y hy z hz hne k
  locked := by
    intro y hy k hhold
    rcases List.mem_cons.mp hy with rfl | hy
    · cases hhold
    · exact hs.locked y hy k hhold

/-- A hold after a statement is an old one, or it is on a row that nobody else holds. -/
theorem Took.holds {s : State κ ν ι π ρ} {x y : Txn κ ν ι π} (h : Took s x y) (k : κ) :
    y.holds k = x.holds k ∨ ((∀ z ∈ s.txns, z.id ≠ x.id → z.holds k = none) ∧
      (y.holds k = some .locked → s.rows k ≠ none)) := by
  cases h with
  | same h => exact Or.inl (by rw [h])
  | row k' hold h hfree hlocked =>
    by_cases hk : k = k'
    · subst hk
      refine Or.inr ⟨hfree, fun hhold => hlocked ?_⟩
      rw [h, Function.update_self] at hhold
      exact Option.some.inj hhold
    · exact Or.inl (by rw [h, Function.update_of_ne hk])

theorem exclusive_put (s : State κ ν ι π ρ) (x y : Txn κ ν ι π) (hs : Exclusive s)
    (hx : x ∈ s.txns) (hid : y.id = x.id) (htook : Took s x y) :
    Exclusive { s.wait with txns := s.put y } where
  ids := by
    intro z hz w hw heq
    rcases mem_put s y z hz with rfl | ⟨hz, hnez⟩ <;> rcases mem_put s _ w hw with rfl | ⟨hw, hnew⟩
    · rfl
    · exact absurd heq.symm hnew
    · exact absurd heq hnez
    · exact hs.ids z hz w hw heq
  known := by
    intro z hz
    rcases mem_put s y z hz with rfl | ⟨hz, -⟩
    · exact hid ▸ Nat.lt_succ_of_lt (hs.known x hx)
    · exact Nat.lt_succ_of_lt (hs.known z hz)
  rows := by
    have hother : ∀ z ∈ s.txns, z.id ≠ y.id → ∀ k, y.holds k = none ∨ z.holds k = none := by
      intro z hz hne k
      rcases htook.holds k with heq | ⟨hfree, -⟩
      · exact heq ▸ hs.rows x hx z hz (hid ▸ hne.symm) k
      · exact Or.inr (hfree z hz (hid ▸ hne))
    intro z hz w hw hne k
    rcases mem_put s y z hz with heqz | ⟨hz, hnez⟩ <;>
      rcases mem_put s y w hw with heqw | ⟨hw, hnew⟩
    · exact absurd (by rw [heqz, heqw]) hne
    · rw [heqz]
      exact hother w hw hnew k
    · rw [heqw]
      exact (hother z hz hnez k).symm
    · exact hs.rows z hz w hw hne k
  locked := by
    intro z hz k hhold
    rcases mem_put s y z hz with rfl | ⟨hz, -⟩
    · rcases htook.holds k with heq | ⟨-, hlocked⟩
      · exact hs.locked x hx k (heq ▸ hhold)
      · exact hlocked hhold
    · exact hs.locked z hz k hhold

theorem exclusive_commit (s : State κ ν ι π ρ) (x : Txn κ ν ι π) (answers : List (Answered ι ρ))
    (hs : Exclusive s) (hx : x ∈ s.txns) :
    Exclusive ⟨x.view s.rows, s.drop x.id, answers, s.serial + 1⟩ where
  ids := (exclusive_drop s x.id hs).ids
  known := (exclusive_drop s x.id hs).known
  rows := (exclusive_drop s x.id hs).rows
  locked := by
    intro y hy k hhold
    obtain ⟨hy, hne⟩ := (mem_drop s x.id y).mp hy
    have hview := view_of_other s x y hs hx hy hne k (by simp [hhold])
    exact fun hnone => hs.locked y hy k hhold (hview.symm.trans hnone)

theorem exclusive_step [DecidableEq κ] (P : Program ι κ ν π ρ) (s : State κ ν ι π ρ) (e : Event ι)
    (hs : Exclusive s) : Exclusive (step P s e) := by
  generalize ht : step P s e = s'
  have heffect := ht ▸ step_effect P s e
  cases heffect with
  | wait => exact ⟨hs.ids, fun x hx => Nat.lt_succ_of_lt (hs.known x hx), hs.rows, hs.locked⟩
  | arrive request => exact exclusive_arrive P s request hs
  | moves x y q hmem hstand hmoves =>
    obtain ⟨hid, -, htook⟩ := took_execute s x y q hs hmem hmoves
    exact exclusive_put s x y hs hmem hid htook
  | raises x q hmem hstand hraises => exact exclusive_drop s x.id hs
  | commit x r hmem hstand => exact exclusive_commit s x _ hs hmem
  | rollback t => exact exclusive_drop s t hs

theorem exclusive_after [DecidableEq κ] (P : Program ι κ ν π ρ) (rows : κ → Option ν)
    (events : List (Event ι)) : Exclusive (after P rows events) := by
  induction events using List.reverseRecOn with
  | nil => exact ⟨by simp [after], by simp [after], by simp [after], by simp [after]⟩
  | append_singleton past e ih =>
    rw [after_append]
    exact exclusive_step P _ e ih

theorem serial_after [DecidableEq κ] (P : Program ι κ ν π ρ) (rows : κ → Option ν)
    (events : List (Event ι)) : (after P rows events).serial = events.length := by
  induction events using List.reverseRecOn with
  | nil => rfl
  | append_singleton past e ih =>
    rw [after_append, List.length_append, List.length_singleton, ← ih]
    generalize ht : step P (after P rows past) e = s'
    have heffect := ht ▸ step_effect P _ e
    cases heffect <;> rfl

/-- The calls that were answered are known, each once, and not open. -/
structure Closed (s : State κ ν ι π ρ) : Prop where
  known : ∀ a ∈ s.answers, a.id < s.serial
  shut : ∀ a ∈ s.answers, ∀ x ∈ s.txns, x.id ≠ a.id
  nodup : (s.answers.map Answered.id).Nodup

theorem closed_after [DecidableEq κ] (P : Program ι κ ν π ρ) (rows : κ → Option ν)
    (events : List (Event ι)) : Closed (after P rows events) := by
  induction events using List.reverseRecOn with
  | nil => exact ⟨by simp [after], by simp [after], by simp [after]⟩
  | append_singleton past e ih =>
    have hs := exclusive_after P rows past
    rw [after_append]
    generalize after P rows past = s at ih hs ⊢
    generalize ht : step P s e = s'
    have heffect := ht ▸ step_effect P s e
    have hlater : ∀ a ∈ s.answers, a.id < s.serial + 1 := fun a ha => Nat.lt_succ_of_lt (ih.known a ha)
    have hdrop : ∀ t, ∀ a ∈ s.answers, ∀ x ∈ s.drop t, x.id ≠ a.id := fun t a ha x hx =>
      ih.shut a ha x ((mem_drop s t x).mp hx).1
    cases heffect with
    | wait => exact ⟨hlater, ih.shut, ih.nodup⟩
    | arrive request =>
      refine ⟨hlater, fun a ha x hx => ?_, ih.nodup⟩
      rcases List.mem_cons.mp hx with rfl | hx
      · exact Nat.ne_of_gt (ih.known a ha)
      · exact ih.shut a ha x hx
    | moves x y q hmem hstand hmoves =>
      refine ⟨hlater, fun a ha z hz => ?_, ih.nodup⟩
      rcases mem_put s y z hz with rfl | ⟨hz, -⟩
      · obtain ⟨hid, -, -⟩ := took_execute s x z q hs hmem hmoves
        rw [hid]
        exact ih.shut a ha x hmem
      · exact ih.shut a ha z hz
    | raises x q hmem hstand hraises => exact ⟨hlater, hdrop x.id, ih.nodup⟩
    | commit x r hmem hstand =>
      refine ⟨fun a ha => ?_, fun a ha z hz => ?_, ?_⟩
      · rcases List.mem_append.mp ha with ha | ha
        · exact hlater a ha
        · rw [List.mem_singleton.mp ha]
          exact Nat.lt_succ_of_lt (hs.known x hmem)
      · rcases List.mem_append.mp ha with ha | ha
        · exact hdrop x.id a ha z hz
        · rw [List.mem_singleton.mp ha]
          exact ((mem_drop s x.id z).mp hz).2
      · rw [List.map_append, List.nodup_append]
        refine ⟨ih.nodup, List.nodup_singleton _, fun t ht u hu => ?_⟩
        obtain ⟨a, ha, rfl⟩ := List.mem_map.mp ht
        rw [List.map_singleton, List.mem_singleton] at hu
        exact hu ▸ (ih.shut a ha x hmem).symm
    | rollback t => exact ⟨hlater, hdrop t, ih.nodup⟩

/-- A call that is answered later was answered before, is open, or has not arrived. -/
theorem answered_origin [DecidableEq κ] (P : Program ι κ ν π ρ) (rows : κ → Option ν)
    (past rest : List (Event ι)) (a : Answered ι ρ) (h : a ∈ (after P rows (past ++ rest)).answers) :
    a ∈ (after P rows past).answers ∨ (∃ x ∈ (after P rows past).txns, x.id = a.id) ∨
      (after P rows past).serial ≤ a.id := by
  induction rest generalizing past with
  | nil =>
    rw [List.append_nil] at h
    exact .inl h
  | cons e rest ih =>
    have hnext := ih (past ++ [e]) (by rwa [List.append_assoc])
    have hs := exclusive_after P rows past
    rw [after_append] at hnext
    generalize after P rows past = s at hnext hs ⊢
    generalize ht : step P s e = s' at hnext
    have heffect := ht ▸ step_effect P s e
    have hdropped : ∀ t, (∃ x ∈ s.drop t, x.id = a.id) → ∃ x ∈ s.txns, x.id = a.id :=
      fun t ⟨x, hx, hid⟩ => ⟨x, ((mem_drop s t x).mp hx).1, hid⟩
    have hsooner : s.serial + 1 ≤ a.id → s.serial ≤ a.id := fun hle => by omega
    cases heffect with
    | wait => exact hnext.imp_right (Or.imp_right hsooner)
    | arrive request =>
      refine hnext.imp_right (Or.elim · (fun ⟨x, hx, hid⟩ => ?_) fun hle => .inr (hsooner hle))
      rcases List.mem_cons.mp hx with rfl | hx
      · exact .inr (Nat.le_of_eq hid)
      · exact .inl ⟨x, hx, hid⟩
    | moves x y q hmem hstand hmoves =>
      refine hnext.imp_right (Or.imp (fun ⟨z, hz, hid⟩ => ?_) hsooner)
      rcases mem_put s y z hz with rfl | ⟨hz, -⟩
      · exact ⟨x, hmem, (took_execute s x z q hs hmem hmoves).1 ▸ hid⟩
      · exact ⟨z, hz, hid⟩
    | raises x q hmem hstand hraises => exact hnext.imp_right (Or.imp (hdropped x.id) hsooner)
    | commit x r hmem hstand =>
      rcases hnext with ha | hopen | hle
      · rcases List.mem_append.mp ha with ha | ha
        · exact .inl ha
        · rw [List.mem_singleton.mp ha]
          exact .inr (.inl ⟨x, hmem, rfl⟩)
      · exact .inr (.inl (hdropped x.id hopen))
      · exact .inr (.inr (hsooner hle))
    | rollback t => exact hnext.imp_right (Or.imp (hdropped t) hsooner)

/-- Answers stay. -/
theorem answers_grow [DecidableEq κ] (P : Program ι κ ν π ρ) (rows : κ → Option ν)
    (past rest : List (Event ι)) :
    (after P rows past).answers ⊆ (after P rows (past ++ rest)).answers := by
  induction rest using List.reverseRecOn with
  | nil =>
    rw [List.append_nil]
    exact List.Subset.refl _
  | append_singleton rest e ih =>
    rw [← List.append_assoc, after_append]
    generalize ht : step P (after P rows (past ++ rest)) e = s'
    have heffect := ht ▸ step_effect P _ e
    cases heffect with
    | commit x r hmem hstand => exact fun a ha => List.mem_append_left _ (ih ha)
    | wait => exact ih
    | arrive request => exact ih
    | moves x y q hmem hstand hmoves => exact ih
    | raises x q hmem hstand hraises => exact ih
    | rollback t => exact ih

/-- Only a commit changes the rows. -/
theorem rows_step [DecidableEq κ] (P : Program ι κ ν π ρ) (s : State κ ν ι π ρ) (e : Event ι) :
    (step P s e).rows = s.rows ∨ ∃ x r, x ∈ s.txns ∧ P.stand x.point = .inr r ∧
      e = .commit x.id ∧ (step P s e).rows = x.view s.rows := by
  generalize ht : step P s e = s'
  have heffect := ht ▸ step_effect P s e
  cases heffect with
  | commit x r hmem hstand => exact Or.inr ⟨x, r, hmem, hstand, rfl, rfl⟩
  | wait => exact Or.inl rfl
  | arrive request => exact Or.inl rfl
  | moves x y q hmem hstand hmoves => exact Or.inl rfl
  | raises x q hmem hstand hraises => exact Or.inl rfl
  | rollback t => exact Or.inl rfl

theorem rows_statement [DecidableEq κ] (P : Program ι κ ν π ρ) (s : State κ ν ι π ρ) (t : ℕ) :
    (step P s (.statement t)).rows = s.rows := by
  rcases rows_step P s (.statement t) with h | ⟨x, r, -, -, he, -⟩
  · exact h
  · cases he

/-! ### The rule for what holds of each transaction -/

/-- What holds of a transaction in a run, when it holds at its start, its own statements keep it,
and the steps of the others keep it as they cannot change the rows that it holds. -/
structure Local [DecidableEq κ] (P : Program ι κ ν π ρ) (rows : κ → Option ν)
    (T : List (Event ι) → Txn κ ν ι π → Prop) : Prop where
  opens : ∀ past request, T (past ++ [.arrive request]) (opened P past.length request)
  moves : ∀ past x y q, x ∈ (after P rows past).txns → T past x → P.stand x.point = .inl q →
    execute (after P rows past) x q = .moves y → T (past ++ [.statement x.id]) y
  frame : ∀ past e x, x ∈ (after P rows past).txns → T past x → (∀ k, x.holds k ≠ none →
    (after P rows (past ++ [e])).rows k = (after P rows past).rows k) → T (past ++ [e]) x

theorem Local.run [DecidableEq κ] {P : Program ι κ ν π ρ} {rows : κ → Option ν}
    {T : List (Event ι) → Txn κ ν ι π → Prop} (h : Local P rows T) (events : List (Event ι)) :
    ∀ x ∈ (after P rows events).txns, T events x := by
  induction events using List.reverseRecOn with
  | nil => simp [after]
  | append_singleton past e ih =>
    have hframe := h.frame past e
    rw [after_append] at hframe ⊢
    have hs := exclusive_after P rows past
    have hserial := serial_after P rows past
    generalize hstate : after P rows past = s at ih hframe hs hserial ⊢
    generalize ht : step P s e = s' at hframe ⊢
    have heffect := ht ▸ step_effect P s e
    cases heffect with
    | wait => exact fun x hx => hframe x hx (ih x hx) fun _ _ => rfl
    | arrive request =>
      intro x hx
      rcases List.mem_cons.mp hx with rfl | hx
      · rw [hserial]
        exact h.opens past request
      · exact hframe x hx (ih x hx) fun _ _ => rfl
    | moves y z q hmem hstand hmoves =>
      intro x hx
      rcases mem_put s z x hx with rfl | ⟨hx, -⟩
      · exact h.moves past y x q (hstate ▸ hmem) (ih y hmem) hstand (hstate ▸ hmoves)
      · exact hframe x hx (ih x hx) fun _ _ => rfl
    | raises y q hmem hstand hraises =>
      intro x hx
      obtain ⟨hx, -⟩ := (mem_drop s y.id x).mp hx
      exact hframe x hx (ih x hx) fun _ _ => rfl
    | commit y r hmem hstand =>
      intro x hx
      obtain ⟨hx, hne⟩ := (mem_drop s y.id x).mp hx
      exact hframe x hx (ih x hx) (view_of_other s y x hs hmem hx hne)
    | rollback t =>
      intro x hx
      obtain ⟨hx, -⟩ := (mem_drop s t x).mp hx
      exact hframe x hx (ih x hx) fun _ _ => rfl

/-- What holds of the answers of a run, when it holds as they are given and stays. -/
theorem Local.answers [DecidableEq κ] {P : Program ι κ ν π ρ} {rows : κ → Option ν}
    {T : List (Event ι) → Txn κ ν ι π → Prop} (h : Local P rows T)
    (R : List (Event ι) → Answered ι ρ → Prop)
    (hcommit : ∀ past x r, T past x → P.stand x.point = .inr r →
      R (past ++ [.commit x.id]) ⟨x.id, x.request, r⟩)
    (hstays : ∀ past e a, R past a → R (past ++ [e]) a) (events : List (Event ι)) :
    ∀ a ∈ (after P rows events).answers, R events a := by
  induction events using List.reverseRecOn with
  | nil => simp [after]
  | append_singleton past e ih =>
    have hrun := h.run past
    rw [after_append]
    generalize after P rows past = s at ih hrun ⊢
    generalize ht : step P s e = s'
    have heffect := ht ▸ step_effect P s e
    cases heffect with
    | commit x r hmem hstand =>
      intro a ha
      rcases List.mem_append.mp ha with ha | ha
      · exact hstays past _ a (ih a ha)
      · rw [List.mem_singleton.mp ha]
        exact hcommit past x r (hrun x hmem) hstand
    | wait => exact fun a ha => hstays past e a (ih a ha)
    | arrive request => exact fun a ha => hstays past _ a (ih a ha)
    | moves x y q hmem hstand hmoves => exact fun a ha => hstays past _ a (ih a ha)
    | raises x q hmem hstand hraises => exact fun a ha => hstays past _ a (ih a ha)
    | rollback t => exact fun a ha => hstays past _ a (ih a ha)

end Hyproxy.RowLocks

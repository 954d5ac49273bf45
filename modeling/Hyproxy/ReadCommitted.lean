import Mathlib.Data.Int.Notation
import Mathlib.Data.Nat.Notation
import Mathlib.Tactic.SplitIfs

/-!
Transactions at READ COMMITTED. Each request is one transaction and runs one
statement at a time. A statement sees what is committed and what its own
transaction wrote; it waits while another open transaction has written a row
that it writes too. The writes reach the others at the commit.
-/

namespace Hyproxy.ReadCommitted

variable {ι δ κ ω π ρ : Type}

/-- The requests of a database. `statement` is what the next statement of a transaction
writes and where the transaction then stands, or none when it raises; a transaction that
stands at an answer is ready to commit. The number given to a statement has been given to
no other, so identifiers are drawn from it. -/
structure Program (ι δ κ ω π ρ : Type) where
  start : ι → ℤ → π
  statement : δ → ℕ → ℤ → π → Option (List ω × π)
  answer : π → Option ρ
  apply : δ → ω → δ
  row : ω → κ

structure Txn (ω π : Type) where
  id : ℕ
  point : π
  writes : List ω
  deriving Repr, DecidableEq

structure State (δ ω π ρ : Type) where
  db : δ
  txns : List (Txn ω π)
  answers : List ρ
  serial : ℕ

inductive Event (ι : Type)
  | arrive (t : ℕ) (request : ι) (now : ℤ)
  | statement (t : ℕ) (now : ℤ)
  | commit (t : ℕ)
  | rollback (t : ℕ)
  deriving Repr, DecidableEq

/-- What the statements of the transaction see. -/
def Txn.view (P : Program ι δ κ ω π ρ) (x : Txn ω π) (db : δ) : δ := x.writes.foldl P.apply db

def State.txn (s : State δ ω π ρ) (t : ℕ) : Option (Txn ω π) := s.txns.find? (fun x => x.id == t)

def State.put (s : State δ ω π ρ) (x : Txn ω π) : List (Txn ω π) :=
  s.txns.map fun y => if y.id = x.id then x else y

def State.drop (s : State δ ω π ρ) (t : ℕ) : List (Txn ω π) := s.txns.filter fun y => y.id != t

/-- Another open transaction has locked one of the rows. -/
def blocked [DecidableEq κ] (P : Program ι δ κ ω π ρ) (s : State δ ω π ρ) (t : ℕ)
    (writes : List ω) : Bool :=
  s.txns.any fun y => y.id != t &&
    y.writes.any fun held => writes.any fun w => P.row w == P.row held

def State.wait (s : State δ ω π ρ) : State δ ω π ρ := { s with serial := s.serial + 1 }

/-- The next statement of an open transaction. -/
def runStatement [DecidableEq κ] (P : Program ι δ κ ω π ρ) (s : State δ ω π ρ) (x : Txn ω π)
    (now : ℤ) : State δ ω π ρ :=
  match P.statement (x.view P s.db) s.serial now x.point with
  | none => { s.wait with txns := s.drop x.id }
  | some (writes, p) =>
    if blocked P s x.id writes then s.wait
    else { s.wait with txns := s.put ⟨x.id, p, x.writes ++ writes⟩ }

def step [DecidableEq κ] (P : Program ι δ κ ω π ρ) (s : State δ ω π ρ) :
    Event ι → State δ ω π ρ
  | .arrive t request now =>
    if (s.txn t).isSome then s.wait
    else { s.wait with txns := ⟨t, P.start request now, []⟩ :: s.txns }
  | .statement t now =>
    match s.txn t with
    | none => s.wait
    | some x => if (P.answer x.point).isSome then s.wait else runStatement P s x now
  | .commit t =>
    match s.txn t with
    | none => s.wait
    | some x =>
      match P.answer x.point with
      | none => s.wait
      | some r => ⟨x.view P s.db, s.drop x.id, s.answers ++ [r], s.serial + 1⟩
  | .rollback t => { s.wait with txns := s.drop t }

/-- What a step can do. -/
inductive Effect [DecidableEq κ] (P : Program ι δ κ ω π ρ) (s : State δ ω π ρ) :
    Event ι → State δ ω π ρ → Prop
  | wait (e : Event ι) : Effect P s e s.wait
  | arrive (t : ℕ) (request : ι) (now : ℤ) (hnew : ∀ y ∈ s.txns, y.id ≠ t) :
    Effect P s (.arrive t request now)
      { s.wait with txns := ⟨t, P.start request now, []⟩ :: s.txns }
  | statement (x : Txn ω π) (now : ℤ) (writes : List ω) (p : π) (hmem : x ∈ s.txns)
      (hanswer : P.answer x.point = none)
      (hstatement : P.statement (x.view P s.db) s.serial now x.point = some (writes, p))
      (hfree : blocked P s x.id writes = false) :
    Effect P s (.statement x.id now)
      { s.wait with txns := s.put ⟨x.id, p, x.writes ++ writes⟩ }
  | commit (x : Txn ω π) (r : ρ) (hmem : x ∈ s.txns) (hanswer : P.answer x.point = some r) :
    Effect P s (.commit x.id) ⟨x.view P s.db, s.drop x.id, s.answers ++ [r], s.serial + 1⟩
  | abandon (e : Event ι) (t : ℕ) (hwhy : e = .rollback t ∨ ∃ x ∈ s.txns, x.id = t ∧
      P.answer x.point = none ∧ ∃ now, e = .statement t now ∧
        P.statement (x.view P s.db) s.serial now x.point = none) :
    Effect P s e { s.wait with txns := s.drop t }

theorem txn_some (s : State δ ω π ρ) (t : ℕ) (x : Txn ω π) (h : s.txn t = some x) :
    x ∈ s.txns ∧ x.id = t := by
  refine ⟨List.mem_of_find?_eq_some h, ?_⟩
  simpa using List.find?_some h

theorem txn_none (s : State δ ω π ρ) (t : ℕ) (h : s.txn t = none) : ∀ y ∈ s.txns, y.id ≠ t := by
  intro y hy
  simpa using List.find?_eq_none.mp h y hy

theorem step_effect [DecidableEq κ] (P : Program ι δ κ ω π ρ) (s : State δ ω π ρ) (e : Event ι) :
    Effect P s e (step P s e) := by
  cases e with
  | arrive t request now =>
    simp only [step]
    split_ifs with hopen
    · exact .wait _
    · exact .arrive t request now (txn_none s t (by simpa using hopen))
  | statement t now =>
    simp only [step]
    split
    · exact .wait _
    · rename_i x hx
      obtain ⟨hmem, rfl⟩ := txn_some s t x hx
      split_ifs with hanswer
      · exact .wait _
      · unfold runStatement
        split
        · rename_i hraise
          exact .abandon _ x.id
            (Or.inr ⟨x, hmem, rfl, by simpa using hanswer, now, rfl, hraise⟩)
        · rename_i writes p hstatement
          split_ifs with hblocked
          · exact .wait _
          · exact .statement x now writes p hmem (by simpa using hanswer) hstatement
              (by simpa using hblocked)
  | commit t =>
    simp only [step]
    split
    · exact .wait _
    · rename_i x hx
      obtain ⟨hmem, rfl⟩ := txn_some s t x hx
      split
      · exact .wait _
      · rename_i r hanswer
        exact .commit x r hmem hanswer
  | rollback t => exact .abandon _ t (Or.inl rfl)

theorem step_serial [DecidableEq κ] (P : Program ι δ κ ω π ρ) (s : State δ ω π ρ) (e : Event ι) :
    (step P s e).serial = s.serial + 1 := by
  generalize hnext : step P s e = next
  have heffect := hnext ▸ step_effect P s e
  cases heffect <;> rfl

/-- The number given to a statement says how many events came before. -/
theorem run_serial [DecidableEq κ] (P : Program ι δ κ ω π ρ) (s : State δ ω π ρ)
    (events : List (Event ι)) : (events.foldl (step P) s).serial = s.serial + events.length := by
  induction events generalizing s with
  | nil => rfl
  | cons e rest ih =>
    rw [List.foldl_cons, ih, step_serial, List.length_cons]
    omega

/-- The open transactions after a statement: the one that ran it, and the others. -/
theorem mem_put (s : State δ ω π ρ) (x y : Txn ω π) (h : y ∈ s.put x) :
    y = x ∨ (y ∈ s.txns ∧ y.id ≠ x.id) := by
  obtain ⟨z, hz, rfl⟩ := List.mem_map.mp h
  split_ifs with hid
  · exact Or.inl rfl
  · exact Or.inr ⟨hz, hid⟩

theorem mem_drop (s : State δ ω π ρ) (t : ℕ) (y : Txn ω π) :
    y ∈ s.drop t ↔ y ∈ s.txns ∧ y.id ≠ t := by
  simp [State.drop]

theorem self_mem_put (s : State δ ω π ρ) (x y : Txn ω π) (h : x ∈ s.txns) (hid : y.id = x.id) :
    y ∈ s.put y :=
  List.mem_map.mpr ⟨x, h, by rw [if_pos hid.symm]⟩

theorem mem_put_of_ne (s : State δ ω π ρ) (x y : Txn ω π) (h : y ∈ s.txns) (hne : y.id ≠ x.id) :
    y ∈ s.put x :=
  List.mem_map.mpr ⟨y, h, by rw [if_neg hne]⟩

theorem unblocked [DecidableEq κ] (P : Program ι δ κ ω π ρ) (s : State δ ω π ρ) (t : ℕ)
    (writes : List ω) (h : blocked P s t writes = false) (y : Txn ω π) (hy : y ∈ s.txns)
    (hne : y.id ≠ t) : ∀ v ∈ y.writes, ∀ w ∈ writes, P.row w ≠ P.row v := by
  simp only [blocked, List.any_eq_false, Bool.and_eq_true, List.any_eq_true, beq_iff_eq,
    bne_iff_ne, not_and, not_exists] at h
  intro v hv w hw heq
  exact h y hy hne v hv w hw heq

/-- Open transactions have identifiers of their own, and no two have written the same row. -/
structure Locked (P : Program ι δ κ ω π ρ) (s : State δ ω π ρ) : Prop where
  ids : ∀ x ∈ s.txns, ∀ y ∈ s.txns, x.id = y.id → x = y
  rows : ∀ x ∈ s.txns, ∀ y ∈ s.txns, x.id ≠ y.id → ∀ v ∈ x.writes, ∀ w ∈ y.writes,
    P.row v ≠ P.row w

theorem txn_of_mem (P : Program ι δ κ ω π ρ) (s : State δ ω π ρ) (x : Txn ω π) (h : Locked P s)
    (hx : x ∈ s.txns) : s.txn x.id = some x := by
  cases hfound : s.txn x.id with
  | none => exact absurd rfl (txn_none s x.id hfound x hx)
  | some y =>
    obtain ⟨hy, hid⟩ := txn_some s x.id y hfound
    rw [h.ids y hy x hx hid]

/-- A statement that writes nothing never waits. -/
theorem step_read [DecidableEq κ] (P : Program ι δ κ ω π ρ) (s : State δ ω π ρ) (x : Txn ω π)
    (now : ℤ) (p : π) (hx : s.txn x.id = some x) (hanswer : P.answer x.point = none)
    (hstatement : P.statement (x.view P s.db) s.serial now x.point = some ([], p)) :
    step P s (.statement x.id now) = { s.wait with txns := s.put ⟨x.id, p, x.writes⟩ } := by
  have hfree : blocked P s x.id [] = false := by simp [blocked]
  simp only [step, hx, hanswer, Option.isSome_none, Bool.false_eq_true, if_false, runStatement,
    hstatement, hfree, List.append_nil]

theorem locked_fewer (P : Program ι δ κ ω π ρ) (s s' : State δ ω π ρ) (h : Locked P s)
    (hsub : ∀ x ∈ s'.txns, x ∈ s.txns) : Locked P s' where
  ids x hx y hy := h.ids x (hsub x hx) y (hsub y hy)
  rows x hx y hy := h.rows x (hsub x hx) y (hsub y hy)

theorem locked_arrive (P : Program ι δ κ ω π ρ) (s : State δ ω π ρ) (x : Txn ω π)
    (h : Locked P s) (hnew : ∀ y ∈ s.txns, y.id ≠ x.id) (hnil : x.writes = []) :
    Locked P { s.wait with txns := x :: s.txns } where
  ids := by
    intro y hy z hz hid
    rcases List.mem_cons.mp hy with heqy | hmemy <;> rcases List.mem_cons.mp hz with heqz | hmemz
    · rw [heqy, heqz]
    · exact absurd (heqy ▸ hid.symm) (hnew z hmemz)
    · exact absurd (heqz ▸ hid) (hnew y hmemy)
    · exact h.ids y hmemy z hmemz hid
  rows := by
    intro y hy z hz hne v hv w hw
    rcases List.mem_cons.mp hy with rfl | hy
    · rw [hnil] at hv
      cases hv
    · rcases List.mem_cons.mp hz with rfl | hz
      · rw [hnil] at hw
        cases hw
      · exact h.rows y hy z hz hne v hv w hw

theorem locked_put [DecidableEq κ] (P : Program ι δ κ ω π ρ) (s : State δ ω π ρ) (x : Txn ω π)
    (p : π) (writes : List ω) (h : Locked P s) (hx : x ∈ s.txns)
    (hfree : blocked P s x.id writes = false) :
    Locked P { s.wait with txns := s.put ⟨x.id, p, x.writes ++ writes⟩ } where
  ids := by
    intro y hy z hz hid
    rcases mem_put s _ y hy with rfl | ⟨hy, hney⟩ <;> rcases mem_put s _ z hz with rfl | ⟨hz, hnez⟩
    · rfl
    · exact absurd hid.symm hnez
    · exact absurd hid hney
    · exact h.ids y hy z hz hid
  rows := by
    have hother : ∀ y ∈ s.txns, y.id ≠ x.id → ∀ v ∈ x.writes ++ writes, ∀ w ∈ y.writes,
        P.row v ≠ P.row w := by
      intro y hy hne v hv w hw
      rcases List.mem_append.mp hv with hv | hv
      · exact h.rows x hx y hy hne.symm v hv w hw
      · exact unblocked P s x.id writes hfree y hy hne w hw v hv
    intro y hy z hz hne v hv w hw
    rcases mem_put s _ y hy with rfl | ⟨hy, hney⟩ <;> rcases mem_put s _ z hz with rfl | ⟨hz, hnez⟩
    · exact absurd rfl hne
    · exact hother z hz hnez v hv w hw
    · exact (hother y hy hney w hw v hv).symm
    · exact h.rows y hy z hz hne v hv w hw

theorem locked_step [DecidableEq κ] (P : Program ι δ κ ω π ρ) (s : State δ ω π ρ) (e : Event ι)
    (h : Locked P s) : Locked P (step P s e) := by
  generalize ht : step P s e = s'
  have heffect := ht ▸ step_effect P s e
  cases heffect with
  | wait => exact locked_fewer P s _ h fun _ hx => hx
  | arrive t request now hnew => exact locked_arrive P s _ h hnew rfl
  | statement x now writes p hmem _ _ hfree => exact locked_put P s x p writes h hmem hfree
  | commit x => exact locked_fewer P s _ h fun y hy => ((mem_drop s x.id y).mp hy).1
  | abandon _ t => exact locked_fewer P s _ h fun y hy => ((mem_drop s t y).mp hy).1

/-- What holds of the writes and the point after a statement that only reads. -/
theorem read_only (S : List ω → π → Prop) {writes writes' : List ω} {p p' : π}
    (h : some (([] : List ω), p) = some (writes', p')) (hs : S writes p) :
    S (writes ++ writes') p' := by
  obtain ⟨rfl, rfl⟩ := Prod.mk.inj (Option.some.inj h)
  rw [List.append_nil]
  exact hs

/-- What holds of the writes and the point after a statement that writes. -/
theorem written (S : List ω → π → Prop) {writes new writes' : List ω} {p p' : π}
    (h : some (new, p) = some (writes', p')) (hs : S (writes ++ new) p) : S (writes ++ writes') p' := by
  obtain ⟨rfl, rfl⟩ := Prod.mk.inj (Option.some.inj h)
  exact hs

/-- What becomes of a transaction that has the database to itself. -/
inductive Fate (δ ρ : Type)
  | commits (answer : ρ) (db : δ)
  | raises
  | unfinished
  deriving Repr, DecidableEq

/-- A transaction with no other between its statements, for as many statements as are given. -/
def runAlone (P : Program ι δ κ ω π ρ) (now : ℤ) : ℕ → ℕ → δ → π → Fate δ ρ
  | 0, _, _, _ => .unfinished
  | fuel + 1, serial, db, p =>
    match P.answer p with
    | some r => .commits r db
    | none =>
      match P.statement db serial now p with
      | none => .raises
      | some (writes, p) => runAlone P now fuel (serial + 1) (writes.foldl P.apply db) p

/-- The invariant rule for a transaction that runs alone. -/
theorem runAlone_invariant (P : Program ι δ κ ω π ρ) (now : ℤ) (I : δ → π → Prop)
    (hstep : ∀ db serial p writes p', P.answer p = none → I db p →
      P.statement db serial now p = some (writes, p') → I (writes.foldl P.apply db) p')
    (fuel serial : ℕ) (db db' : δ) (p : π) (r : ρ) (hstart : I db p)
    (h : runAlone P now fuel serial db p = .commits r db') :
    ∃ p', I db' p' ∧ P.answer p' = some r := by
  induction fuel generalizing serial db p with
  | zero => cases h
  | succ fuel ih =>
    rw [runAlone] at h
    cases hanswer : P.answer p with
    | some answer =>
      rw [hanswer] at h
      obtain ⟨rfl, rfl⟩ := Fate.commits.inj h
      exact ⟨p, hstart, hanswer⟩
    | none =>
      rw [hanswer] at h
      cases hstatement : P.statement db serial now p with
      | none =>
        rw [hstatement] at h
        cases h
      | some next =>
        rw [hstatement] at h
        exact ih (serial + 1) _ next.2 (hstep db serial p next.1 next.2 hanswer hstart hstatement) h

/-- A transaction whose rank falls at each statement comes to its end. -/
theorem runAlone_finishes (P : Program ι δ κ ω π ρ) (now : ℤ) (rank : δ → π → ℕ)
    (hfalls : ∀ db serial p writes p', P.answer p = none →
      P.statement db serial now p = some (writes, p') →
      rank (writes.foldl P.apply db) p' < rank db p)
    (fuel serial : ℕ) (db : δ) (p : π) (h : rank db p < fuel) :
    runAlone P now fuel serial db p ≠ .unfinished := by
  induction fuel generalizing serial db p with
  | zero => omega
  | succ fuel ih =>
    rw [runAlone]
    cases hanswer : P.answer p with
    | some answer => simp
    | none =>
      cases hstatement : P.statement db serial now p with
      | none => simp
      | some next =>
        have hnext := hfalls db serial p next.1 next.2 hanswer hstatement
        exact ih (serial + 1) _ next.2 (by omega)

end Hyproxy.ReadCommitted

import Hyproxy.GatewayLogin
import Mathlib.Logic.Function.Defs

/-!
What holds of the open transactions of the gateway. The callback that deletes a
login state locks its row until it ends, and once it has committed the state is
gone for good.
-/

namespace Hyproxy.LoginStateLocks

open GatewayLogin ReadCommitted

/-- The transaction has deleted a login state and presented a code. -/
def Spent (x : Txn Write Point) : Prop :=
  match x.point with
  | .getSession _ _ _ => True
  | .addGateway _ _ _ _ => True
  | .answer _ => ∃ hash, Write.deleteState hash ∈ x.writes
  | _ => False

/-- The login state that a callback is about to delete is there. -/
def Finds (w : World) : Point → Prop
  | .deleteState _ row => row.stateHash ∈ hashes w.store.db.states
  | _ => True

/-- A callback finds the login state still there when it deletes it, and a callback that has
presented its code is not rolled back. -/
def Kept (w : World) : Event Request → Prop
  | .statement t _ => ∀ x ∈ w.store.txns, x.id = t → Finds w x.point
  | .rollback t => ∀ x ∈ w.store.txns, x.id = t → ¬ Spent x
  | _ => True

/-- How many codes were presented with the state. -/
def presentations (w : World) (hash : List Char) : ℕ :=
  (w.presented.filter fun p => p.stateHash = hash).length

def signedInWith (hash : List Char) : Answer → Bool
  | .signedIn row _ _ => row.stateHash = hash
  | _ => false

/-- How many gateway sessions were created with the state. -/
def signIns (w : World) (hash : List Char) : ℕ :=
  (w.store.answers.filter (signedInWith hash)).length

/-- The transaction has written the row of the state. -/
def Touches (hash : List Char) (x : Txn Write Point) : Prop := ∃ w ∈ x.writes, w.row = .state hash

/-- The state has been drawn. -/
def Drawn (cfg : Config) (serial : ℕ) (hash : List Char) : Prop :=
  ∃ n < serial, hash = cfg.sha256Hex (cfg.newState n)

/-- The state has been deleted for good. -/
structure Gone (cfg : Config) (s : State Db Write Point Answer) (hash : List Char) : Prop where
  deleted : hash ∉ hashes s.db.states
  untouched : ∀ x ∈ s.txns, ¬ Touches hash x
  drawn : Drawn cfg s.serial hash

/-- What a transaction has done before it stands at the point. -/
def Stands (presented : List Presentation) (x : Txn Write Point) : Prop :=
  match x.point with
  | .present _ row => Write.deleteState row.stateHash ∈ x.writes ∧
      ∀ p ∈ presented, p.stateHash ≠ row.stateHash
  | .getSession _ row _ => Write.deleteState row.stateHash ∈ x.writes
  | .addGateway _ row _ _ => Write.deleteState row.stateHash ∈ x.writes
  | .answer (.signedIn row _ _) => Write.deleteState row.stateHash ∈ x.writes
  | .answer _ => True
  | _ => x.writes = []

structure Inv (cfg : Config) (w : World) : Prop where
  locked : Locked (program cfg) w.store
  stands : ∀ x ∈ w.store.txns, Stands w.presented x
  deletes : ∀ x ∈ w.store.txns, ∀ hash, Write.deleteState hash ∈ x.writes →
    ∀ row, Write.addState row ∉ x.writes
  stored : ∀ hash ∈ hashes w.store.db.states, Drawn cfg w.store.serial hash
  written : ∀ x ∈ w.store.txns, ∀ hash, Touches hash x → Drawn cfg w.store.serial hash
  passed : ∀ p ∈ w.presented,
    (∃ x ∈ w.store.txns, Write.deleteState p.stateHash ∈ x.writes ∧ Spent x) ∨
      Gone cfg w.store p.stateHash
  once : ∀ hash, presentations w hash ≤ 1
  signed : ∀ a ∈ w.store.answers, ∀ hash, signedInWith hash a = true → Gone cfg w.store hash
  single : ∀ hash, signIns w hash ≤ 1

theorem inv_initial (cfg : Config) : Inv cfg initial where
  locked := ⟨by simp [initial], by simp [initial]⟩
  stands := by simp [initial]
  deletes := by simp [initial]
  stored := by simp [initial, hashes]
  written := by simp [initial]
  passed := by simp [initial]
  once := by simp [initial, presentations]
  signed := by simp [initial]
  single := by simp [initial, signIns]

theorem Drawn.mono {cfg : Config} {m n : ℕ} {hash : List Char} (h : Drawn cfg m hash)
    (hle : m ≤ n) : Drawn cfg n hash := by
  obtain ⟨k, hk, heq⟩ := h
  exact ⟨k, Nat.lt_of_lt_of_le hk hle, heq⟩

theorem mem_hashes_apply (db : Db) (w : Write) (hash : List Char)
    (h : hash ∈ hashes (apply db w).states) : hash ∈ hashes db.states ∨ w.row = .state hash := by
  cases w with
  | addState row =>
    simp only [apply, hashes, List.map_append, List.mem_append, List.map_cons, List.map_nil,
      List.mem_singleton] at h
    exact h.imp_right fun heq => by rw [heq, Write.row]
  | addGateway row => exact Or.inl h
  | addSession id user => exact Or.inl h
  | _ =>
    obtain ⟨row, hrow, rfl⟩ := List.mem_map.mp h
    exact Or.inl (List.mem_map_of_mem (List.mem_filter.mp hrow).1)

/-- A state that a transaction sees is committed, or its own. -/
theorem mem_hashes_foldl (writes : List Write) (db : Db) (hash : List Char)
    (h : hash ∈ hashes (writes.foldl apply db).states) :
    hash ∈ hashes db.states ∨ ∃ w ∈ writes, w.row = .state hash := by
  induction writes generalizing db with
  | nil => exact Or.inl h
  | cons w rest ih =>
    rcases ih (apply db w) h with hmem | ⟨v, hv, hrow⟩
    · exact (mem_hashes_apply db w hash hmem).imp_right fun hrow => ⟨w, List.mem_cons_self .., hrow⟩
    · exact Or.inr ⟨v, List.mem_cons_of_mem _ hv, hrow⟩

theorem not_mem_apply_deleteState (db : Db) (hash : List Char) :
    hash ∉ hashes (apply db (.deleteState hash)).states := by
  intro h
  obtain ⟨row, hrow, rfl⟩ := List.mem_map.mp h
  simpa using (List.mem_filter.mp hrow).2

theorem not_mem_apply (db : Db) (w : Write) (hash : List Char) (hadd : ∀ row, w ≠ .addState row)
    (h : hash ∉ hashes db.states) : hash ∉ hashes (apply db w).states := by
  cases w with
  | addState row => exact absurd rfl (hadd row)
  | addGateway row => exact h
  | addSession id user => exact h
  | _ =>
    intro hmem
    obtain ⟨row, hrow, rfl⟩ := List.mem_map.mp hmem
    exact h (List.mem_map_of_mem (List.mem_filter.mp hrow).1)

theorem not_mem_foldl (writes : List Write) (db : Db) (hash : List Char)
    (hadd : ∀ row, Write.addState row ∉ writes)
    (h : hash ∉ hashes db.states ∨ Write.deleteState hash ∈ writes) :
    hash ∉ hashes (writes.foldl apply db).states := by
  induction writes generalizing db with
  | nil => exact h.resolve_right (by simp)
  | cons w rest ih =>
    have hrest : ∀ row, Write.addState row ∉ rest := fun row hrow =>
      hadd row (List.mem_cons_of_mem _ hrow)
    have hhead : ∀ row, w ≠ .addState row := fun row heq => hadd row (heq ▸ List.mem_cons_self ..)
    refine ih (apply db w) hrest ?_
    rcases h with h | h
    · exact Or.inl (not_mem_apply db w hash hhead h)
    · rcases List.mem_cons.mp h with rfl | h
      · exact Or.inl (not_mem_apply_deleteState db hash)
      · exact Or.inr h

/-- A statement writes the row of a state that it draws, or of one that it sees. -/
theorem statement_row (cfg : Config) (db : Db) (serial : ℕ) (now : ℤ) (p q : Point)
    (writes : List Write) (h : statement cfg db serial now p = some (writes, q)) (w : Write)
    (hw : w ∈ writes) (hash : List Char) (hrow : w.row = .state hash) :
    hash = cfg.sha256Hex (cfg.newState serial) ∨ hash ∈ hashes db.states := by
  unfold statement at h
  split at h
  · split_ifs at h
    · cases h
      rw [List.mem_singleton] at hw
      subst hw
      exact Or.inl (Row.state.inj hrow).symm
    · cases h
      cases hw
  · cases h
    obtain ⟨other, hother, rfl⟩ := List.mem_map.mp hw
    obtain ⟨row, hmem, rfl⟩ := List.mem_map.mp hother
    cases hrow
    exact Or.inr (List.mem_map_of_mem (List.mem_filter.mp hmem).1)
  · split_ifs at h
    cases h
    rw [List.mem_singleton] at hw
    subst hw
    cases hrow
  · split at h
    · cases h
      cases hw
    · split_ifs at h <;>
        · cases h
          cases hw
  · split_ifs at h with hmem
    · cases h
      rw [List.mem_singleton] at hw
      subst hw
      cases hrow
      exact Or.inr (List.contains_iff_mem.mp hmem)
    · cases h
      cases hw
  · cases h
    cases hw
  · split at h <;>
      · cases h
        cases hw
  · cases h
    rw [List.mem_singleton] at hw
    subst hw
    cases hrow
  · cases h
    cases hw

theorem statement_none (cfg : Config) (db : Db) (serial : ℕ) (now : ℤ) (p : Point)
    (h : statement cfg db serial now p = none) : ∃ id user, p = .addSession id user := by
  unfold statement at h
  split at h
  · split_ifs at h
  · cases h
  · exact ⟨_, _, rfl⟩
  · split at h
    · cases h
    · split_ifs at h
  · split_ifs at h
  · cases h
  · split at h <;> cases h
  · cases h
  · cases h

/-- Once a state has gone, no step brings it back. -/
theorem gone_step (cfg : Config) (s : State Db Write Point Answer) (e : Event Request)
    (hash : List Char) (hinj : Function.Injective fun n => cfg.sha256Hex (cfg.newState n))
    (h : Gone cfg s hash) : Gone cfg (ReadCommitted.step (program cfg) s e) hash := by
  generalize ht : ReadCommitted.step (program cfg) s e = s'
  have heffect := ht ▸ step_effect (program cfg) s e
  have hview : ∀ x ∈ s.txns, hash ∉ hashes (x.view (program cfg) s.db).states := by
    intro x hx hmem
    exact (mem_hashes_foldl x.writes s.db hash hmem).elim h.deleted (h.untouched x hx)
  have hlater : Drawn cfg (s.serial + 1) hash := h.drawn.mono (Nat.le_succ _)
  cases heffect with
  | wait => exact ⟨h.deleted, h.untouched, hlater⟩
  | arrive t request now =>
    refine ⟨h.deleted, fun x hx => ?_, hlater⟩
    rcases List.mem_cons.mp hx with rfl | hx
    · rintro ⟨w, hw, _⟩
      cases hw
    · exact h.untouched x hx
  | statement x now writes p hmem hanswer hstatement =>
    refine ⟨h.deleted, fun y hy => ?_, hlater⟩
    rcases mem_put s _ y hy with rfl | ⟨hy, _⟩
    · rintro ⟨w, hw, hrow⟩
      rcases List.mem_append.mp hw with hw | hw
      · exact h.untouched x hmem ⟨w, hw, hrow⟩
      · rcases statement_row cfg _ _ now _ _ writes hstatement w hw hash hrow with hnew | hseen
        · obtain ⟨n, hn, hdrawn⟩ := h.drawn
          exact absurd (hinj (hdrawn.symm.trans hnew)) (Nat.ne_of_lt hn)
        · exact hview x hmem hseen
    · exact h.untouched y hy
  | commit x r hmem =>
    exact ⟨hview x hmem, fun y hy => h.untouched y ((mem_drop s x.id y).mp hy).1, hlater⟩
  | abandon _ t =>
    exact ⟨h.deleted, fun y hy => h.untouched y ((mem_drop s t y).mp hy).1, hlater⟩

/-- A state goes when the callback that deleted it commits. -/
theorem gone_commit (cfg : Config) (w : World) (x : Txn Write Point) (r : Answer)
    (hash : List Char) (h : Inv cfg w) (hx : x ∈ w.store.txns)
    (hdelete : Write.deleteState hash ∈ x.writes) :
    Gone cfg ⟨x.view (program cfg) w.store.db, w.store.drop x.id, w.store.answers ++ [r],
      w.store.serial + 1⟩ hash where
  deleted := not_mem_foldl x.writes w.store.db hash (h.deletes x hx hash hdelete) (Or.inr hdelete)
  untouched := by
    rintro y hy ⟨v, hv, hrow⟩
    obtain ⟨hy, hne⟩ := (mem_drop w.store x.id y).mp hy
    exact h.locked.rows y hy x hx hne v hv _ hdelete hrow
  drawn := (h.written x hx hash ⟨_, hdelete, rfl⟩).mono (Nat.le_succ _)

end Hyproxy.LoginStateLocks

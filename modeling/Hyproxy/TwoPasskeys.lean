import Hyproxy.AdminSessions
import Hyproxy.PasskeyAdministration
import Hyproxy.Runs

/-!
An active admin that has had two strong passkeys keeps two, as long as what each
operation has read for its check is still true when it commits, and no disabled
admin that has lost its passkeys is enabled again.
-/
namespace Hyproxy.TwoPasskeys

open Accounts (Config User)
open PasskeyAdministration
open ReadCommitted (State Txn)
open Runs (Along)

/-- The account at a later time. -/
structure Ahead (a a' : Account) : Prop where
  armings : a.armings ≤ a'.armings
  same : a'.armings = a.armings → a'.activeAdmin = true → a.activeAdmin = true
  removals : a.removals ≤ a'.removals
  hadTwo : a.hadTwo = true → a'.hadTwo = true

/-- An account that has been read. -/
def Seen (db : Db) (seen : Account) : Prop := ∃ a, db.account seen.id = some a ∧ Ahead seen a

/-- The passkeys that were counted are there, or have been deleted since. -/
def Counted (db : Db) (user count removals : ℕ) : Prop :=
  ∃ a, db.account user = some a ∧ removals ≤ a.removals ∧
    count + removals ≤ strongCredentialCount db user + a.removals

/-- The account was no active admin when it had become one so often. -/
def Unarmed (db : Db) (user armings : ℕ) : Prop :=
  ∃ a, db.account user = some a ∧ armings ≤ a.armings ∧
    (a.armings = armings → a.activeAdmin = false)

/-- What the check of a promotion has found. -/
def Promotes (db : Db) (user : ℕ) : Option ℕ → Prop
  | none => True
  | some removals => Counted db user 2 removals

/-- What the check of a deletion has found. -/
def Deletes (db : Db) (row : Credential) (armings : ℕ) : Option ℕ → Prop
  | none => row.breakGlass = false → Unarmed db row.user armings
  | some removals => Counted db row.user 3 removals

/-- The write does not bear on the passkeys that an account has to keep. -/
def Quiet : Write → Prop
  | .updateUser _ _ _ _ => False
  | .deleteCredential _ _ => False
  | _ => True

/-- The write is the only one of its operation, and its check has passed. -/
def Checked (db : Db) : Write → Prop
  | .updateUser id _ _ check => Promotes db id check.counted
  | .deleteCredential row check => Deletes db row check.armings check.counted
  | _ => False

/-- The point is one of an administrator's operation. -/
def operates : Point → Bool
  | .patch _ _ => true
  | .promote _ _ _ => true
  | .update _ _ _ _ => true
  | .credentialUser _ _ => true
  | .credential _ _ => true
  | .count _ _ => true
  | .delete _ _ _ => true
  | _ => false

/-- What a transaction has read and written before it stands at the point. -/
def Stands (db : Db) (writes : List Write) : Point → Prop
  | .patch _ _ => writes = []
  | .promote seen _ _ => writes = [] ∧ Seen db seen
  | .update seen _ _ counted => writes = [] ∧ Seen db seen ∧ Promotes db seen.id counted
  | .credentialUser _ _ => writes = []
  | .credential seen _ => writes = [] ∧ Seen db seen
  | .count seen row => writes = [] ∧ Seen db seen ∧ row.user = seen.id
  | .delete seen row counted => writes = [] ∧ Seen db seen ∧ row.user = seen.id ∧
      Deletes db row seen.armings counted
  | .answer _ => (∃ w, writes = [w] ∧ Checked db w) ∨ ∀ w ∈ writes, Quiet w
  | _ => ∀ w ∈ writes, Quiet w

/-- What the operation has read for its check is still true. -/
def current (db : Db) : Write → Bool
  | .updateUser id _ _ check => (check.counted.map fun n => removals db id == n).getD false
  | .deleteCredential row check =>
    match check.counted with
    | some n => removals db row.user == n
    | none => ((db.account row.user).map Account.armings).getD 0 == check.armings
  | _ => true

/-- The check would let the write pass if it were made now: the account is no active admin, or has
passkeys enough, or has never had two. -/
def permitted (db : Db) : Write → Bool
  | .updateUser id authTier status _ => (db.account id).all fun a =>
      !(a.update authTier status).activeAdmin || a.activeAdmin || !a.hadTwo ||
        2 ≤ strongCredentialCount db id
  | .deleteCredential row _ => row.breakGlass || (db.account row.user).all fun a =>
      !a.activeAdmin || !a.hadTwo || 3 ≤ strongCredentialCount db row.user
  | _ => true

/-- A change is committed while what its check has read is still true, or while the check would let
it pass. -/
def Timely (s : State Db Write Point Reply) : Event → Prop
  | .commit t => ∀ x ∈ s.txns, x.id = t →
      x.writes.all (fun w => current s.db w || permitted s.db w) = true
  | _ => True

instance decidableTimely (s : State Db Write Point Reply) : ∀ e, Decidable (Timely s e)
  | .commit t => inferInstanceAs (Decidable (∀ x ∈ s.txns, x.id = t →
      x.writes.all (fun w => current s.db w || permitted s.db w) = true))
  | .arrive _ _ _ => isTrue trivial
  | .statement _ _ => isTrue trivial
  | .rollback _ => isTrue trivial

/-! ### Accounts -/

@[simp] theorem update_id (a : Account) (authTier : Option Accounts.Tier)
    (status : Option Accounts.Status) : (a.update authTier status).id = a.id := rfl

@[simp] theorem touch_id (db : Db) (w : Write) (a : Account) : (w.touch db a).id = a.id := by
  cases w with
  | updateUser id authTier status check =>
    simp only [Write.touch]
    split <;> rfl
  | deleteCredential row check =>
    simp only [Write.touch]
    split <;> rfl
  | _ => rfl

theorem account_apply (db : Db) (w : Write) (id : ℕ) :
    (apply db w).account id = (db.account id).map (w.touch db) := by
  simp only [Db.account, apply, List.find?_map, Function.comp_def, touch_id]

theorem account_id (db : Db) (id : ℕ) (a : Account) (h : db.account id = some a) : a.id = id := by
  simpa using List.find?_some h

theorem Ahead.refl (a : Account) : Ahead a a :=
  ⟨Nat.le_refl _, fun _ h => h, Nat.le_refl _, fun h => h⟩

theorem Ahead.trans {a a' a'' : Account} (h : Ahead a a') (h' : Ahead a' a'') : Ahead a a'' where
  armings := Nat.le_trans h.armings h'.armings
  same heq hadmin := by
    have hle := h.armings
    have hle' := h'.armings
    exact h.same (by omega) (h'.same (by omega) hadmin)
  removals := Nat.le_trans h.removals h'.removals
  hadTwo htwo := h'.hadTwo (h.hadTwo htwo)

/-- An account that becomes an active admin is counted. -/
theorem update_armings (a : Account) (authTier : Option Accounts.Tier)
    (status : Option Accounts.Status) (h : (a.update authTier status).activeAdmin = true) :
    a.activeAdmin = true ∨ (a.update authTier status).armings = a.armings + 1 := by
  cases hadmin : a.activeAdmin with
  | true => exact Or.inl rfl
  | false =>
    right
    simp only [Account.activeAdmin, Account.update, Bool.and_eq_true] at h
    simp [Account.update, hadmin, h.1, h.2]

theorem update_ahead (a : Account) (authTier : Option Accounts.Tier)
    (status : Option Accounts.Status) : Ahead a (a.update authTier status) where
  armings := by
    simp only [Account.update]
    split <;> omega
  same heq hadmin := by
    rcases update_armings a authTier status hadmin with h | h
    · exact h
    · omega
  removals := Nat.le_refl _
  hadTwo h := h

theorem touch_ahead (db : Db) (w : Write) (a : Account) : Ahead a (w.touch db a) := by
  cases w with
  | updateUser id authTier status check =>
    simp only [Write.touch]
    split_ifs
    · exact update_ahead a authTier status
    · exact .refl a
  | deleteCredential row check =>
    simp only [Write.touch]
    split_ifs
    · exact ⟨Nat.le_refl _, fun _ h => h, Nat.le_succ _, fun h => h⟩
    · exact .refl a
  | addCredential row =>
    exact ⟨Nat.le_refl _, fun _ h => h, Nat.le_refl _, fun h => by simp [Write.touch, h]⟩
  | addFlow id flow => exact .refl a
  | lockFlow id => exact .refl a
  | setChallenge id challenge => exact .refl a

/-! ### Counts -/

theorem count_delete (db : Db) (row : Credential) (check : Check) (user : ℕ)
    (hmem : row ∈ db.credentials) :
    strongCredentialCount db user =
      strongCredentialCount (apply db (.deleteCredential row check)) user +
        if strong user row = true then 1 else 0 := by
  have hperm := (List.perm_cons_erase hmem).countP_eq (strong user)
  rw [List.countP_cons] at hperm
  exact hperm

theorem count_delete_absent (db : Db) (row : Credential) (check : Check) (user : ℕ)
    (hmem : row ∉ db.credentials) :
    strongCredentialCount (apply db (.deleteCredential row check)) user =
      strongCredentialCount db user := by
  simp only [strongCredentialCount, apply, Write.keep, List.erase_of_not_mem hmem]

theorem count_kept (db : Db) (w : Write) (user : ℕ) (h : ∀ row check, w ≠ .deleteCredential row check) :
    strongCredentialCount db user ≤ strongCredentialCount (apply db w) user := by
  cases w with
  | deleteCredential row check => exact absurd rfl (h row check)
  | addCredential row => exact (List.sublist_cons_self row db.credentials).countP_le
  | _ => exact Nat.le_refl _

/-- A passkey that is no longer there has been deleted. -/
theorem count_removals (db : Db) (w : Write) (a : Account) :
    strongCredentialCount db a.id + a.removals ≤
      strongCredentialCount (apply db w) a.id + (w.touch db a).removals := by
  by_cases hdelete : ∃ row check, w = .deleteCredential row check
  · obtain ⟨row, check, rfl⟩ := hdelete
    by_cases hmem : row ∈ db.credentials
    · have hcount := count_delete db row check a.id hmem
      simp only [Write.touch, hmem, true_and]
      by_cases hstrong : strong a.id row = true
      · rw [if_pos hstrong] at hcount ⊢
        simp only
        omega
      · rw [if_neg hstrong] at hcount ⊢
        omega
    · rw [count_delete_absent db row check a.id hmem]
      simp only [Write.touch, hmem, false_and, if_false, Nat.le_refl]
  · have hcount := count_kept db w a.id fun row check heq => hdelete ⟨row, check, heq⟩
    have hremovals := (touch_ahead db w a).removals
    omega

/-! ### Later states -/

/-- The state after some writes. -/
def Later (db db' : Db) : Prop :=
  ∀ id, ∃ f : Account → Account, db'.account id = (db.account id).map f ∧
    ∀ a, db.account id = some a → Ahead a (f a) ∧
      strongCredentialCount db id + a.removals ≤ strongCredentialCount db' id + (f a).removals

theorem Later.refl (db : Db) : Later db db := by
  intro id
  refine ⟨fun a => a, ?_, fun a _ => ⟨.refl a, Nat.le_refl _⟩⟩
  cases db.account id <;> rfl

theorem Later.trans {db db' db'' : Db} (h : Later db db') (h' : Later db' db'') : Later db db'' := by
  intro id
  obtain ⟨f, hf, hahead⟩ := h id
  obtain ⟨g, hg, hahead'⟩ := h' id
  refine ⟨fun a => g (f a), by rw [hg, hf, Option.map_map]; rfl, fun a ha => ?_⟩
  obtain ⟨hleft, hcount⟩ := hahead a ha
  obtain ⟨hright, hcount'⟩ := hahead' (f a) (by rw [hf, ha, Option.map_some])
  exact ⟨hleft.trans hright, Nat.le_trans hcount hcount'⟩

theorem later_apply (db : Db) (w : Write) : Later db (apply db w) := by
  intro id
  refine ⟨w.touch db, account_apply db w id, fun a ha => ⟨touch_ahead db w a, ?_⟩⟩
  have hcount := count_removals db w a
  rw [account_id db id a ha] at hcount
  exact hcount

theorem later_foldl (writes : List Write) (db : Db) : Later db (writes.foldl apply db) := by
  induction writes generalizing db with
  | nil => exact .refl db
  | cons w rest ih => exact (later_apply db w).trans (ih (apply db w))

theorem Later.account {db db' : Db} (h : Later db db') (id : ℕ) (a : Account)
    (ha : db.account id = some a) : ∃ a', db'.account id = some a' ∧ Ahead a a' ∧
      strongCredentialCount db id + a.removals ≤ strongCredentialCount db' id + a'.removals := by
  obtain ⟨f, hf, hahead⟩ := h id
  exact ⟨f a, by rw [hf, ha, Option.map_some], hahead a ha⟩

theorem Seen.later {db db' : Db} {seen : Account} (h : Seen db seen) (hlater : Later db db') :
    Seen db' seen := by
  obtain ⟨a, ha, hahead⟩ := h
  obtain ⟨a', ha', hahead', -⟩ := hlater.account _ a ha
  exact ⟨a', ha', hahead.trans hahead'⟩

theorem Counted.later {db db' : Db} {user count removals : ℕ} (h : Counted db user count removals)
    (hlater : Later db db') : Counted db' user count removals := by
  obtain ⟨a, ha, hle, hcount⟩ := h
  obtain ⟨a', ha', hahead, hcount'⟩ := hlater.account _ a ha
  have hle' := hahead.removals
  exact ⟨a', ha', by omega, by omega⟩

theorem Unarmed.later {db db' : Db} {user armings : ℕ} (h : Unarmed db user armings)
    (hlater : Later db db') : Unarmed db' user armings := by
  obtain ⟨a, ha, hle, hadmin⟩ := h
  obtain ⟨a', ha', hahead, -⟩ := hlater.account _ a ha
  have hle' := hahead.armings
  refine ⟨a', ha', by omega, fun heq => ?_⟩
  cases hadmin' : a'.activeAdmin with
  | false => rfl
  | true =>
    have hbefore := hahead.same (by omega) hadmin'
    rw [hadmin (by omega)] at hbefore
    cases hbefore

theorem Promotes.later {db db' : Db} {user : ℕ} {counted : Option ℕ}
    (h : Promotes db user counted) (hlater : Later db db') : Promotes db' user counted := by
  cases counted with
  | none => trivial
  | some removals => exact Counted.later h hlater

theorem Deletes.later {db db' : Db} {row : Credential} {armings : ℕ} {counted : Option ℕ}
    (h : Deletes db row armings counted) (hlater : Later db db') : Deletes db' row armings counted := by
  cases counted with
  | none => exact fun hstrong => (h hstrong).later hlater
  | some removals => exact Counted.later h hlater

theorem checked_later (db db' : Db) (w : Write) (h : Checked db w) (hlater : Later db db') :
    Checked db' w := by
  cases w with
  | updateUser id authTier status check => exact Promotes.later h hlater
  | deleteCredential row check => exact Deletes.later h hlater
  | _ => cases h

theorem stands_later (db db' : Db) (writes : List Write) (p : Point) (hlater : Later db db')
    (h : Stands db writes p) : Stands db' writes p := by
  cases p with
  | promote seen authTier status => exact ⟨h.1, h.2.later hlater⟩
  | update seen authTier status counted => exact ⟨h.1, h.2.1.later hlater, h.2.2.later hlater⟩
  | credential seen credential => exact ⟨h.1, h.2.later hlater⟩
  | count seen row => exact ⟨h.1, h.2.1.later hlater, h.2.2⟩
  | delete seen row counted => exact ⟨h.1, h.2.1.later hlater, h.2.2.1, h.2.2.2.later hlater⟩
  | answer reply =>
    rcases h with ⟨w, hw, hchecked⟩ | hquiet
    · exact Or.inl ⟨w, hw, checked_later db db' w hchecked hlater⟩
    · exact Or.inr hquiet
  | _ => exact h

/-! ### Statements -/

theorem seen_account (db : Db) (id : ℕ) (a : Account) (h : db.account id = some a) : Seen db a :=
  ⟨a, by rw [account_id db id a h, h], .refl a⟩

theorem Seen.counted {db : Db} {seen : Account} (h : Seen db seen) (count : ℕ)
    (hcount : count ≤ strongCredentialCount db seen.id) :
    Counted db seen.id count (removals db seen.id) := by
  obtain ⟨a, ha, -⟩ := h
  refine ⟨a, ha, ?_, ?_⟩
  · simp [removals, ha]
  · simp only [removals, ha, Option.map_some, Option.getD_some]
    omega

theorem Seen.unarmed {db : Db} {seen : Account} (h : Seen db seen)
    (hadmin : seen.activeAdmin = false) : Unarmed db seen.id seen.armings := by
  obtain ⟨a, ha, hahead⟩ := h
  refine ⟨a, ha, hahead.armings, fun heq => ?_⟩
  cases hadmin' : a.activeAdmin with
  | false => rfl
  | true =>
    have hbefore := hahead.same heq hadmin'
    rw [hadmin] at hbefore
    cases hbefore

theorem lock_quiet (db : Db) (r : Login.Form) : ∀ w ∈ lock db r, Quiet w := by
  intro w hw
  unfold lock at hw
  split at hw
  · cases hw
  · split at hw
    · rw [List.mem_singleton.mp hw]
      trivial
    · cases hw

theorem quiet_append (writes : List Write) (w : Write) (h : ∀ w ∈ writes, Quiet w) (hw : Quiet w) :
    ∀ v ∈ writes ++ [w], Quiet v := by
  intro v hv
  rcases List.mem_append.mp hv with hv | hv
  · exact h v hv
  · rw [List.mem_singleton.mp hv]
    exact hw

theorem patchPoint_stands (db : Db) (seen : Account) (body : Patch) (p : Point) (hseen : Seen db seen)
    (h : patchPoint seen body = some p) : Stands db [] p := by
  unfold patchPoint at h
  simp only at h
  split_ifs at h
  · obtain rfl := Option.some.inj h
    exact ⟨rfl, hseen⟩
  · obtain rfl := Option.some.inj h
    exact ⟨rfl, hseen, trivial⟩

theorem verifyPoint_stands (cfg : Config) (db : Db) (writes : List Write) (id : ℕ)
    (flow : Accounts.LoginFlow) (user : ℕ) (r : Login.Form) (text : List Char) (breakGlass : Bool)
    (h : ∀ w ∈ writes, Quiet w) :
    Stands db writes (verifyPoint cfg id flow user r text breakGlass) := by
  unfold verifyPoint
  cases flow.challenge with
  | none => exact Or.inr h
  | some challenge =>
    simp only
    cases cfg.verifyRegistration text challenge with
    | none => exact Or.inr h
    | some registration => exact h

/-- A statement of an operation: it is the first to write. -/
theorem operation_stands (cfg : Config) (db : Db) (serial : ℕ) (writes : List Write) (p p' : Point)
    (hoperates : operates p = true) (hstands : Stands db [] p)
    (h : statement cfg db serial p = some (writes, p')) : Stands db writes p' := by
  cases p with
  | patch id body =>
    simp only [statement] at h
    cases haccount : db.account id with
    | none =>
      rw [haccount] at h
      cases h
    | some seen =>
      rw [haccount] at h
      obtain ⟨next, hnext, heq⟩ := Option.map_eq_some_iff.mp h
      obtain ⟨rfl, rfl⟩ := Prod.mk.inj heq
      exact patchPoint_stands db seen body _ (seen_account db id seen haccount) hnext
  | promote seen authTier status =>
    simp only [statement] at h
    split_ifs at h with hcount
    obtain ⟨rfl, rfl⟩ := Prod.mk.inj (Option.some.inj h)
    exact ⟨rfl, hstands.2, hstands.2.counted 2 (by omega)⟩
  | update seen authTier status counted =>
    simp only [statement] at h
    split_ifs at h
    obtain ⟨rfl, rfl⟩ := Prod.mk.inj (Option.some.inj h)
    exact Or.inl ⟨_, rfl, hstands.2.2⟩
  | credentialUser id credential =>
    simp only [statement] at h
    cases haccount : db.account id with
    | none =>
      rw [haccount] at h
      cases h
    | some seen =>
      rw [haccount] at h
      obtain ⟨rfl, rfl⟩ := Prod.mk.inj (Option.some.inj h)
      exact ⟨rfl, seen_account db id seen haccount⟩
  | credential seen credential =>
    simp only [statement] at h
    cases hrow : db.credential credential with
    | none =>
      rw [hrow] at h
      cases h
    | some row =>
      rw [hrow] at h
      simp only at h
      split_ifs at h with huser hguarded
      · obtain ⟨rfl, rfl⟩ := Prod.mk.inj (Option.some.inj h)
        exact ⟨rfl, hstands.2, not_not.mp huser⟩
      · obtain ⟨rfl, rfl⟩ := Prod.mk.inj (Option.some.inj h)
        refine ⟨rfl, hstands.2, not_not.mp huser, fun hstrong => ?_⟩
        rw [not_not.mp huser]
        refine hstands.2.unarmed ?_
        simpa [hstrong] using hguarded
  | count seen row =>
    simp only [statement] at h
    split_ifs at h with hcount
    obtain ⟨rfl, rfl⟩ := Prod.mk.inj (Option.some.inj h)
    refine ⟨rfl, hstands.2.1, hstands.2.2, ?_⟩
    have hcounted := hstands.2.1.counted 3 (by omega)
    simp only [Deletes, hstands.2.2]
    exact hcounted
  | delete seen row counted =>
    simp only [statement] at h
    split_ifs at h
    · obtain ⟨rfl, rfl⟩ := Prod.mk.inj (Option.some.inj h)
      exact Or.inl ⟨_, rfl, hstands.2.2.2⟩
    · obtain ⟨rfl, rfl⟩ := Prod.mk.inj (Option.some.inj h)
      exact Or.inr fun w hw => absurd hw List.not_mem_nil
  | answer reply => cases h
  | _ => cases hoperates

/-- A statement of an enrollment adds no write that bears on the passkeys to keep. -/
theorem enrollment_stands (cfg : Config) (db view : Db) (serial : ℕ) (writes writes' : List Write)
    (p p' : Point) (hoperates : operates p = false) (hquiet : ∀ w ∈ writes, Quiet w)
    (h : statement cfg view serial p = some (writes', p')) : Stands db (writes ++ writes') p' := by
  have hlock : ∀ r, ∀ w ∈ writes ++ lock view r, Quiet w := by
    intro r w hw
    rcases List.mem_append.mp hw with hw | hw
    · exact hquiet w hw
    · exact lock_quiet view r w hw
  cases p with
  | signIn flow =>
    obtain ⟨rfl, rfl⟩ := Prod.mk.inj (Option.some.inj h)
    exact Or.inr (quiet_append writes _ hquiet trivial)
  | optionsFlow r challenge =>
    simp only [statement] at h
    cases hguarded : Login.guardedRow cfg view.flows r .webauthn with
    | none =>
      rw [hguarded] at h
      obtain ⟨rfl, rfl⟩ := Prod.mk.inj (Option.some.inj h)
      exact Or.inr (hlock r)
    | some found =>
      rw [hguarded] at h
      obtain ⟨rfl, rfl⟩ := Prod.mk.inj (Option.some.inj h)
      exact hlock r
  | optionsUser id flow challenge =>
    simp only [statement] at h
    cases huser : flowUser view flow with
    | none =>
      rw [huser] at h
      obtain ⟨rfl, rfl⟩ := Prod.mk.inj (Option.some.inj h)
      rw [List.append_nil]
      exact Or.inr hquiet
    | some user =>
      rw [huser] at h
      obtain ⟨rfl, rfl⟩ := Prod.mk.inj (Option.some.inj h)
      rw [List.append_nil]
      exact hquiet
  | options id flow user challenge =>
    simp only [statement] at h
    split_ifs at h
    · obtain ⟨rfl, rfl⟩ := Prod.mk.inj (Option.some.inj h)
      exact Or.inr (quiet_append writes _ hquiet trivial)
    · obtain ⟨rfl, rfl⟩ := Prod.mk.inj (Option.some.inj h)
      rw [List.append_nil]
      exact Or.inr hquiet
  | verifyFlow r text breakGlass =>
    simp only [statement] at h
    cases hguarded : Login.guardedRow cfg view.flows r .webauthn with
    | none =>
      rw [hguarded] at h
      obtain ⟨rfl, rfl⟩ := Prod.mk.inj (Option.some.inj h)
      exact Or.inr (hlock r)
    | some found =>
      rw [hguarded] at h
      obtain ⟨rfl, rfl⟩ := Prod.mk.inj (Option.some.inj h)
      exact hlock r
  | verifyUser id flow r text breakGlass =>
    simp only [statement] at h
    cases huser : flowUser view flow with
    | none =>
      rw [huser] at h
      obtain ⟨rfl, rfl⟩ := Prod.mk.inj (Option.some.inj h)
      rw [List.append_nil]
      exact Or.inr hquiet
    | some user =>
      rw [huser] at h
      obtain ⟨rfl, rfl⟩ := Prod.mk.inj (Option.some.inj h)
      rw [List.append_nil]
      exact hquiet
  | verify id flow user r text breakGlass =>
    simp only [statement] at h
    split_ifs at h
    · obtain ⟨rfl, rfl⟩ := Prod.mk.inj (Option.some.inj h)
      exact verifyPoint_stands cfg db _ id flow user r text breakGlass
        (quiet_append writes _ hquiet trivial)
    · obtain ⟨rfl, rfl⟩ := Prod.mk.inj (Option.some.inj h)
      rw [List.append_nil]
      exact Or.inr hquiet
  | insert id user registration breakGlass now =>
    simp only [statement] at h
    split_ifs at h
    obtain ⟨rfl, rfl⟩ := Prod.mk.inj (Option.some.inj h)
    exact Or.inr (quiet_append writes _ hquiet trivial)
  | answer reply => cases h
  | _ => cases hoperates

theorem operates_unwritten (db : Db) (writes : List Write) (p : Point) (h : operates p = true)
    (hstands : Stands db writes p) : writes = [] := by
  cases p with
  | patch user body => exact hstands
  | credentialUser user credential => exact hstands
  | promote seen authTier status => exact hstands.1
  | update seen authTier status counted => exact hstands.1
  | credential seen credential => exact hstands.1
  | count seen row => exact hstands.1
  | delete seen row counted => exact hstands.1
  | _ => cases h

theorem statement_stands (cfg : Config) (db : Db) (serial : ℕ) (writes writes' : List Write)
    (p p' : Point) (hanswer : (program cfg).answer p = none) (hstands : Stands db writes p)
    (h : statement cfg (writes.foldl apply db) serial p = some (writes', p')) :
    Stands db (writes ++ writes') p' := by
  cases hoperates : operates p with
  | true =>
    obtain rfl := operates_unwritten db writes p hoperates hstands
    exact operation_stands cfg db serial writes' p p' hoperates hstands h
  | false =>
    refine enrollment_stands cfg db _ serial writes writes' p p' hoperates ?_ h
    cases p with
    | answer reply => cases hanswer
    | _ => first | exact hstands | cases hoperates

/-! ### Commits -/

/-- The accounts are active admins with two passkeys, or have not had two. -/
structure Kept (db : Db) : Prop where
  marked : ∀ id a, db.account id = some a → 2 ≤ strongCredentialCount db id → a.hadTwo = true
  safe : ∀ id a, db.account id = some a → a.activeAdmin = true → a.hadTwo = true →
    2 ≤ strongCredentialCount db id

theorem Kept.same {db db' : Db} (h : Kept db) (haccounts : db'.accounts = db.accounts)
    (hcredentials : db'.credentials = db.credentials) : Kept db' := by
  have haccount : ∀ id, db'.account id = db.account id := fun id => by
    simp only [Db.account, haccounts]
  have hcount : ∀ id, strongCredentialCount db' id = strongCredentialCount db id := fun id => by
    simp only [strongCredentialCount, hcredentials]
  refine ⟨fun id a ha htwo => h.marked id a ?_ ?_, fun id a ha hadmin htwo => ?_⟩
  · rw [← haccount, ha]
  · rw [← hcount]
    exact htwo
  · rw [hcount]
    exact h.safe id a (by rw [← haccount, ha]) hadmin htwo

theorem marked_apply (db : Db) (w : Write) (h : Kept db) (id : ℕ) (a : Account)
    (ha : (apply db w).account id = some a) (htwo : 2 ≤ strongCredentialCount (apply db w) id) :
    a.hadTwo = true := by
  rw [account_apply] at ha
  obtain ⟨old, hold, rfl⟩ := Option.map_eq_some_iff.mp ha
  by_cases hadd : ∃ row, w = .addCredential row
  · obtain ⟨row, rfl⟩ := hadd
    have hcount : 2 ≤ (row :: db.credentials).countP (strong old.id) := by
      rw [account_id db id old hold]
      exact htwo
    simp [Write.touch, hcount]
  · refine (touch_ahead db w old).hadTwo (h.marked id old hold (Nat.le_trans htwo ?_))
    cases w with
    | addCredential row => exact absurd ⟨row, rfl⟩ hadd
    | deleteCredential row check => exact (List.erase_sublist).countP_le
    | _ => exact Nat.le_refl _

theorem quiet_kept (db : Db) (w : Write) (hw : Quiet w) (h : Kept db) : Kept (apply db w) := by
  cases w with
  | updateUser id authTier status check => cases hw
  | deleteCredential row check => cases hw
  | addCredential row =>
    refine ⟨marked_apply db _ h, fun id a ha hadmin htwo => ?_⟩
    rw [account_apply] at ha
    obtain ⟨old, hold, rfl⟩ := Option.map_eq_some_iff.mp ha
    have hkept := count_kept db (.addCredential row) id fun _ _ => Write.noConfusion
    rcases Bool.or_eq_true_iff.mp htwo with hbefore | hnow
    · exact Nat.le_trans (h.safe id old hold hadmin hbefore) hkept
    · rw [account_id db id old hold] at hnow
      exact of_decide_eq_true hnow
  | addFlow id flow => exact h.same (List.map_id _) rfl
  | lockFlow id => exact h.same (List.map_id _) rfl
  | setChallenge id challenge => exact h.same (List.map_id _) rfl

theorem quiet_foldl (writes : List Write) (db : Db) (hquiet : ∀ w ∈ writes, Quiet w) (h : Kept db) :
    Kept (writes.foldl apply db) := by
  induction writes generalizing db with
  | nil => exact h
  | cons w rest ih =>
    exact ih (apply db w) (fun w hw => hquiet w (List.mem_cons_of_mem _ hw))
      (quiet_kept db w (hquiet w (List.mem_cons_self ..)) h)

/-- The passkeys that were counted are there if none has been deleted since. -/
theorem Counted.enough {db : Db} {user count n : ℕ} (h : Counted db user count n)
    (hsame : removals db user = n) : count ≤ strongCredentialCount db user := by
  obtain ⟨a, ha, -, hcount⟩ := h
  simp only [removals, ha, Option.map_some, Option.getD_some] at hsame
  omega

/-- An update that makes the account an active admin finds two passkeys if it has had two. -/
theorem update_enough (db : Db) (id : ℕ) (authTier : Option Accounts.Tier)
    (status : Option Accounts.Status) (check : Check) (a : Account) (h : Kept db)
    (hchecked : Checked db (.updateUser id authTier status check))
    (hfits : (current db (.updateUser id authTier status check) ||
      permitted db (.updateUser id authTier status check)) = true)
    (ha : db.account id = some a) (hadmin : (a.update authTier status).activeAdmin = true)
    (htwo : a.hadTwo = true) : 2 ≤ strongCredentialCount db id := by
  rcases Bool.or_eq_true_iff.mp hfits with hcurrent | hpermitted
  · simp only [current] at hcurrent
    simp only [Checked] at hchecked
    cases hcounted : check.counted with
    | none => simp [hcounted] at hcurrent
    | some n =>
      rw [hcounted] at hcurrent hchecked
      exact Counted.enough hchecked (by simpa using hcurrent)
  · simp only [permitted, ha, Option.all_some, hadmin, htwo, Bool.not_true, Bool.false_or,
      Bool.or_false, Bool.or_eq_true, decide_eq_true_eq] at hpermitted
    rcases hpermitted with hbefore | hcount
    · exact h.safe id a ha hbefore htwo
    · exact hcount

/-- A deletion of a strong passkey of an active admin that has had two finds three. -/
theorem delete_enough (db : Db) (row : Credential) (check : Check) (a : Account)
    (hchecked : Checked db (.deleteCredential row check))
    (hfits : (current db (.deleteCredential row check) ||
      permitted db (.deleteCredential row check)) = true)
    (ha : db.account row.user = some a) (hstrong : row.breakGlass = false)
    (hadmin : a.activeAdmin = true) (htwo : a.hadTwo = true) :
    3 ≤ strongCredentialCount db row.user := by
  rcases Bool.or_eq_true_iff.mp hfits with hcurrent | hpermitted
  · simp only [current] at hcurrent
    simp only [Checked] at hchecked
    cases hcounted : check.counted with
    | none =>
      rw [hcounted] at hcurrent hchecked
      obtain ⟨a', ha', -, hunarmed⟩ := hchecked hstrong
      obtain rfl := Option.some.inj (ha.symm.trans ha')
      rw [hunarmed (by simpa [ha] using hcurrent)] at hadmin
      cases hadmin
    | some n =>
      rw [hcounted] at hcurrent hchecked
      exact Counted.enough hchecked (by simpa using hcurrent)
  · simpa [permitted, ha, hstrong, hadmin, htwo] using hpermitted

theorem checked_kept (db : Db) (w : Write) (hchecked : Checked db w)
    (hfits : (current db w || permitted db w) = true) (h : Kept db) : Kept (apply db w) := by
  refine ⟨marked_apply db w h, fun id a ha hadmin htwo => ?_⟩
  rw [account_apply] at ha
  obtain ⟨old, hold, rfl⟩ := Option.map_eq_some_iff.mp ha
  have hid := account_id db id old hold
  cases w with
  | updateUser user authTier status check =>
    simp only [Write.touch] at hadmin htwo
    by_cases hsame : old.id = user
    · rw [if_pos hsame] at hadmin htwo
      obtain rfl := hid.symm.trans hsame
      exact update_enough db _ authTier status check old h hchecked hfits hold hadmin htwo
    · rw [if_neg hsame] at hadmin htwo
      exact h.safe id old hold hadmin htwo
  | deleteCredential row check =>
    have hbefore : old.activeAdmin = true ∧ old.hadTwo = true := by
      simp only [Write.touch] at hadmin htwo
      split_ifs at hadmin htwo
      · exact ⟨hadmin, htwo⟩
      · exact ⟨hadmin, htwo⟩
    by_cases hmem : row ∈ db.credentials
    · have hcount := count_delete db row check id hmem
      by_cases hstrong : strong id row = true
      · rw [if_pos hstrong] at hcount
        simp only [strong, Bool.and_eq_true, beq_iff_eq, Bool.not_eq_true'] at hstrong
        obtain ⟨rfl, hstrong⟩ := hstrong
        have henough := delete_enough db row check old hchecked hfits hold hstrong hbefore.1 hbefore.2
        omega
      · rw [if_neg hstrong] at hcount
        have hsafe := h.safe id old hold hbefore.1 hbefore.2
        omega
    · rw [count_delete_absent db row check id hmem]
      exact h.safe id old hold hbefore.1 hbefore.2
  | _ => cases hchecked

theorem view_eq (cfg : Config) (x : Txn Write Point) (db : Db) :
    x.view (program cfg) db = x.writes.foldl apply db := rfl

theorem answer_some (cfg : Config) (p : Point) (reply : Reply)
    (h : (program cfg).answer p = some reply) : p = .answer reply := by
  cases p with
  | answer other =>
    obtain rfl := Option.some.inj h
    rfl
  | _ => cases h

structure Inv (s : State Db Write Point Reply) : Prop where
  kept : Kept s.db
  stands : ∀ x ∈ s.txns, Stands s.db x.writes x.point

theorem step_later (cfg : Config) (s : State Db Write Point Reply) (e : Event) :
    Later s.db (step cfg s e).db := by
  unfold step
  generalize ht : ReadCommitted.step (program cfg) s e = s'
  have heffect := ht ▸ ReadCommitted.step_effect (program cfg) s e
  cases heffect with
  | commit x r hmem hanswer => exact later_foldl x.writes s.db
  | _ => exact .refl s.db

theorem step_inv (cfg : Config) (s : State Db Write Point Reply) (e : Event) (h : Inv s)
    (htimely : Timely s e) : Inv (step cfg s e) := by
  unfold step
  generalize ht : ReadCommitted.step (program cfg) s e = s'
  have heffect := ht ▸ ReadCommitted.step_effect (program cfg) s e
  cases heffect with
  | wait => exact ⟨h.kept, h.stands⟩
  | arrive t request now hnew =>
    refine ⟨h.kept, fun x hx => ?_⟩
    rcases List.mem_cons.mp hx with rfl | hx
    · cases request <;> simp [program, Stands]
    · exact h.stands x hx
  | statement x now writes p hmem hanswer hstatement hfree =>
    refine ⟨h.kept, fun y hy => ?_⟩
    rcases ReadCommitted.mem_put s _ y hy with rfl | ⟨hy, -⟩
    · exact statement_stands cfg s.db s.serial x.writes writes x.point p hanswer (h.stands x hmem)
        hstatement
    · exact h.stands y hy
  | commit x r hmem hanswer =>
    refine ⟨?_, fun y hy => ?_⟩
    · rw [view_eq]
      have hstands := h.stands x hmem
      have hfits := htimely x hmem rfl
      rw [answer_some cfg x.point r hanswer] at hstands
      rcases hstands with ⟨w, hw, hchecked⟩ | hquiet
      · rw [hw] at hfits ⊢
        simp only [List.all_cons, List.all_nil, Bool.and_true] at hfits
        exact checked_kept s.db w hchecked hfits h.kept
      · exact quiet_foldl x.writes s.db hquiet h.kept
    · have hy := ((ReadCommitted.mem_drop s x.id y).mp hy).1
      exact stands_later s.db _ y.writes y.point (later_foldl x.writes s.db) (h.stands y hy)
  | abandon _ t hwhy => exact ⟨h.kept, fun y hy => h.stands y ((ReadCommitted.mem_drop s t y).mp hy).1⟩

theorem start_inv (tables : Tables) : Inv (initial tables) := by
  have hmarked : ∀ id a, tables.db.account id = some a →
      a.hadTwo = decide (2 ≤ strongCredentialCount tables.db id) := by
    intro id a ha
    rw [← account_id tables.db id a ha]
    obtain ⟨u, -, rfl⟩ := List.mem_map.mp (List.mem_of_find?_eq_some ha)
    rfl
  refine ⟨⟨fun id a ha htwo => ?_, fun id a ha _ htwo => ?_⟩, fun x hx => absurd hx List.not_mem_nil⟩
  · rw [hmarked id a ha]
    exact decide_eq_true htwo
  · rw [hmarked id a ha] at htwo
    exact of_decide_eq_true htwo

theorem run_later (cfg : Config) (events : List Event) (s : State Db Write Point Reply) :
    Later s.db (events.foldl (step cfg) s).db := by
  induction events generalizing s with
  | nil => exact .refl s.db
  | cons e rest ih => exact (step_later cfg s e).trans (ih (step cfg s e))

/-- In a timely run an account that is admin tier and active, and that had two strong passkeys at some
point of the run, has two. -/
theorem two_passkeys_kept (cfg : Config) (tables : Tables) (past rest : List Event)
    (htimely : Along (step cfg) Timely (initial tables) (past ++ rest)) (user : ℕ)
    (htwo : 2 ≤ strongCredentialCount (run cfg tables past).db user) (a : Account)
    (ha : (run cfg tables (past ++ rest)).db.account user = some a) (htier : a.tier = .admin)
    (hstatus : a.status = .active) :
    2 ≤ strongCredentialCount (run cfg tables (past ++ rest)).db user := by
  have hpast : Inv (run cfg tables past) :=
    ((Runs.along_append _ _ _ _ _).mp htimely).1.invariant Inv (start_inv tables) (step_inv cfg)
  have hinv : Inv (run cfg tables (past ++ rest)) :=
    htimely.invariant Inv (start_inv tables) (step_inv cfg)
  have hlater : Later (run cfg tables past).db (run cfg tables (past ++ rest)).db := by
    simp only [run, List.foldl_append]
    exact run_later cfg rest _
  obtain ⟨f, hf, hahead⟩ := hlater user
  rw [hf] at ha
  obtain ⟨old, hold, rfl⟩ := Option.map_eq_some_iff.mp ha
  have hmarked := hpast.kept.marked user old hold htwo
  exact hinv.kept.safe user (f old) (by rw [hf, hold, Option.map_some])
    (by simp [Account.activeAdmin, htier, hstatus]) ((hahead old hold).1.hadTwo hmarked)

def sampleUser : User := ⟨1, "a@b".toList, .active, .admin, [], false⟩

def sampleCredential (id : ℕ) (credentialId : List Char) : Credential :=
  { id := id
    user := 1
    credentialId := credentialId
    publicKey := []
    signCount := 0
    breakGlass := false
    createdAt := 0
    flow := 0 }

def sampleTables : Tables where
  users := [sampleUser]
  credentials := [sampleCredential 10 "a".toList, sampleCredential 11 "b".toList,
    sampleCredential 12 "c".toList]
  flows := fun _ => none

def statements (t n : ℕ) : List Event := List.replicate n (.statement t 0)

def deletion (t credential : ℕ) : List Event :=
  .arrive t (.deleteCredential 1 credential) 0 :: statements t 4 ++ [.commit t]

/-- A deletion, and one that the check refuses. -/
def sampleRun : List Event := deletion 1 10 ++ deletion 2 11

theorem two_passkeys_kept_sample :
    2 ≤ strongCredentialCount (run AdminSessions.sampleConfig sampleTables sampleRun).db 1 :=
  two_passkeys_kept AdminSessions.sampleConfig sampleTables [] sampleRun (by decide) 1 (by decide)
    ⟨sampleUser, 0, 1, true⟩ (by decide) rfl rfl

/-- Two deletions count three passkeys each. -/
def pairRun : List Event :=
  [.arrive 1 (.deleteCredential 1 10) 0, .arrive 2 (.deleteCredential 1 11) 0] ++ statements 1 3 ++
    statements 2 4 ++ [.commit 2] ++ statements 1 1 ++ [.commit 1]

/-- They leave one. -/
theorem pair_leaves_one :
    ¬∀ (cfg : Config) (tables : Tables), (∀ u ∈ tables.users, u.tier = .admin → u.status = .active →
        2 ≤ tables.credentials.countP (strong u.id)) →
      ∀ (past rest : List Event) (user : ℕ),
      2 ≤ strongCredentialCount (run cfg tables past).db user →
      ∀ a, (run cfg tables (past ++ rest)).db.account user = some a → a.tier = .admin →
      a.status = .active → 2 ≤ strongCredentialCount (run cfg tables (past ++ rest)).db user := by
  intro h
  have hkept := h AdminSessions.sampleConfig sampleTables (by decide) [] pairRun 1 (by decide)
    ⟨sampleUser, 0, 2, true⟩ (by decide) rfl rfl
  exact absurd hkept (by decide)

end Hyproxy.TwoPasskeys

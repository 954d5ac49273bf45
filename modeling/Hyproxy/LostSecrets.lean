import Hyproxy.Runs
import Hyproxy.SecretWrites

/-!
What the rows reveal. The rotation of the master key must not change it, and a request
must leave in its row what it was given. The rotation overwrites a row with what it
read earlier, so it loses a secret that was written in between; and an update that
leaves out a column relies on what it loaded.
-/
namespace Hyproxy.LostSecrets

open ReadCommitted (Event Txn Locked)
open Runs
open SealedBlobs
open SecretWrites

variable {Key : Type} (A : Aead Key) (vault : SecretsBackend Key) (draw : ℕ → ℕ → Nonce)

/-- The plaintext in a row, if it can be read. -/
def revealed (id : RowId) (row : Option Sealed) : Option Bytes :=
  row.bind fun s => opened A vault id.table.aad s

def Db.reveals (db : Db) (id : RowId) : Option Bytes := revealed A vault id (db.row id)

def record (known : RowId → Option Bytes) : Reply → RowId → Option Bytes
  | .wrote id plaintext => Function.update known id plaintext
  | _ => known

/-- What the last committed request wrote to each row; at first, what was there. -/
def lastWritten (first : RowId → Option Bytes) (answers : List Reply) : RowId → Option Bytes :=
  answers.foldl record first

/-- Every row reveals what was last written to it. -/
def NothingLost (first : Db) (s : Requests vault) : Prop :=
  ∀ id, Db.reveals A vault s.db id = lastWritten (Db.reveals A vault first) s.answers id

/-! ### Writes -/

/-- What the writes of a transaction make of a row. -/
def after (writes : List Write) (id : RowId) (row : Option Sealed) : Option Sealed :=
  (writes.filter fun w => w.row = id).foldl (fun row w => w.effect row) row

theorem after_append (left right : List Write) (id : RowId) (row : Option Sealed) :
    after (left ++ right) id row = after right id (after left id row) := by
  rw [after, List.filter_append, List.foldl_append]
  rfl

theorem after_singleton (w : Write) (row : Option Sealed) : after [w] w.row row = w.effect row := by
  simp [after]

theorem after_of_ne (writes : List Write) (id : RowId) (row : Option Sealed)
    (h : ∀ w ∈ writes, w.row ≠ id) : after writes id row = row := by
  have hnone : writes.filter (fun w => w.row = id) = [] := by
    rw [List.filter_eq_nil_iff]
    intro w hw
    simpa using h w hw
  rw [after, hnone]
  rfl

theorem apply_row (db : Db) (w : Write) (id : RowId) :
    (apply db w).row id = after [w] id (db.row id) := by
  by_cases hid : w.row = id
  · subst hid
    rw [after_singleton]
    exact Function.update_self ..
  · rw [after_of_ne [w] id _ fun v hv => by rw [List.mem_singleton.mp hv]; exact hid]
    exact Function.update_of_ne (Ne.symm hid) ..

theorem writes_row (writes : List Write) (db : Db) (id : RowId) :
    (writes.foldl apply db).row id = after writes id (db.row id) := by
  induction writes generalizing db with
  | nil => rfl
  | cons w rest ih =>
    rw [List.foldl_cons, ih, apply_row, ← after_append, List.singleton_append]

theorem view_row (x : Txn Write (Point vault)) (db : Db) (id : RowId) :
    (x.view (program A draw) db).row id = after x.writes id (db.row id) :=
  writes_row x.writes db id

/-- No column that the update leaves out has changed since. -/
def Unmixed (loaded new current : Sealed) : Prop :=
  (new.blob = loaded.blob → current.blob = loaded.blob) ∧
    (new.keyId = loaded.keyId → current.keyId = loaded.keyId)

instance (loaded new current : Sealed) : Decidable (Unmixed loaded new current) :=
  inferInstanceAs (Decidable ((_ → _) ∧ (_ → _)))

theorem diff_effect (id : RowId) (loaded new current : Sealed) (h : Unmixed loaded new current) :
    (diff id loaded new).effect (some current) = some new := by
  have hblob : (if new.blob = loaded.blob then none else some new.blob).getD current.blob =
      new.blob := by
    split_ifs with heq
    · exact (h.1 heq).trans heq.symm
    · rfl
  have hkey : (if new.keyId = loaded.keyId then none else some new.keyId).getD current.keyId =
      new.keyId := by
    split_ifs with heq
    · exact (h.2 heq).trans heq.symm
    · rfl
  simp only [diff, Write.effect, Option.map_some, hblob, hkey]

theorem diff_self (id : RowId) (s : Sealed) (row : Option Sealed) :
    (diff id s s).effect row = row := by
  cases row with
  | none => rfl
  | some current => simp only [diff, Write.effect, if_true, Option.map_some, Option.getD_none]

/-! ### Keys -/

variable {vault}

theorem decrypt_agrees (b : Backend vault) (keyId : Option KeyId) (blob aad plaintext : Bytes)
    (h : decryptBlob A b.keys keyId blob aad = .ok plaintext) :
    decryptBlob A vault keyId blob aad = .ok plaintext := by
  unfold decryptBlob at h ⊢
  cases hkey : keyId.bind b.keys.getMasterKey with
  | none =>
    rw [hkey] at h
    cases h
  | some key =>
    obtain ⟨id, rfl, hid⟩ := Option.bind_eq_some_iff.mp hkey
    rw [hkey] at h
    rw [Option.bind_some, b.agrees id key hid]
    exact h

/-- What a process can open, everyone opens to the same. -/
theorem opened_agrees (b : Backend vault) (aad plaintext : Bytes) (s : Sealed)
    (h : opened A b.keys aad s = some plaintext) : opened A vault aad s = some plaintext := by
  unfold opened at h ⊢
  obtain ⟨blob, hblob, hopens⟩ := Option.bind_eq_some_iff.mp h
  rw [hblob, Option.bind_some]
  cases hdecrypt : decryptBlob A b.keys s.keyId blob aad with
  | error e =>
    rw [hdecrypt] at hopens
    cases hopens
  | ok found =>
    rw [hdecrypt] at hopens
    rw [decrypt_agrees A b s.keyId blob aad found hdecrypt]
    exact hopens

theorem encrypt_opens (b : Backend vault) (nonce : Nonce) (plaintext aad : Bytes) :
    ∃ keyId blob, encryptBlob A b.keys nonce plaintext aad = .ok (keyId, blob) ∧
      opened A vault aad ⟨some blob, some keyId⟩ = some plaintext := by
  obtain ⟨blob, hwrapped, hopens⟩ := encryptBlob_ok A b.keys nonce plaintext aad
  exact ⟨_, blob, hwrapped, opened_agrees A b aad plaintext _ hopens⟩

/-- A row wrapped again reveals what it did. -/
def Faithful (vault : SecretsBackend Key) (w : Rewrite) : Prop :=
  opened A vault w.id.table.aad w.new = opened A vault w.id.table.aad w.read

theorem rewrap_faithful (b : Backend vault) (nonce : Nonce) (id : RowId) (s : Sealed)
    (wrapped : KeyId × Bytes) (h : rewrap A b.keys nonce id.table.aad s = .ok (some wrapped)) :
    Faithful A vault ⟨id, s, ⟨some wrapped.2, some wrapped.1⟩⟩ := by
  by_cases hstale : Stale b.keys s
  · cases hopened : opened A b.keys id.table.aad s with
    | none =>
      obtain ⟨e, he⟩ := rewrap_fails A b.keys nonce id.table.aad s hstale hopened
      rw [he] at h
      cases h
    | some plaintext =>
      obtain ⟨blob, hwrap, hopens⟩ :=
        rewrap_stale A b.keys nonce id.table.aad s hstale plaintext hopened
      rw [hwrap] at h
      obtain rfl := Option.some.inj (Except.ok.inj h)
      exact (opened_agrees A b _ plaintext _ hopens).trans
        (opened_agrees A b _ plaintext s hopened).symm
  · rw [rewrap_fresh A b.keys nonce id.table.aad s hstale] at h
    cases Except.ok.inj h

theorem rewrites_faithful (b : Backend vault) (nonces : ℕ → Nonce) (drawn : ℕ)
    (rows : List (RowId × Sealed)) (pending : List Rewrite)
    (h : rewrites A b.keys nonces drawn rows = .ok pending) :
    ∀ w ∈ pending, Faithful A vault w := by
  induction rows generalizing drawn pending with
  | nil =>
    obtain rfl := Except.ok.inj h
    exact fun w hw => absurd hw List.not_mem_nil
  | cons first rest ih =>
    obtain ⟨id, s⟩ := first
    rw [rewrites] at h
    cases hrewrap : rewrap A b.keys (nonces drawn) id.table.aad s with
    | error e =>
      rw [hrewrap] at h
      cases h
    | ok done =>
      rw [hrewrap] at h
      cases done with
      | none => exact ih drawn pending h
      | some wrapped =>
        cases hrest : rewrites A b.keys nonces (drawn + 1) rest with
        | error e =>
          simp only [hrest] at h
          cases h
        | ok more =>
          simp only [hrest] at h
          obtain rfl := Except.ok.inj h
          exact List.forall_mem_cons.mpr
            ⟨rewrap_faithful A b (nonces drawn) id s wrapped hrewrap, ih (drawn + 1) more hrest⟩

/-! ### Where a transaction stands -/

variable (vault)

/-- The writes leave what the rows reveal. -/
def Quiet (row : RowId → Option Sealed) (writes : List Write) : Prop :=
  ∀ id, revealed A vault id (after writes id (row id)) = revealed A vault id (row id)

/-- The writes do what the reply says. -/
def Settled (row : RowId → Option Sealed) (writes : List Write) : Reply → Prop
  | .wrote id plaintext =>
    (∀ w ∈ writes, w.row = id) ∧ (∃ w ∈ writes, w.row = id) ∧
      revealed A vault id (after writes id (row id)) = plaintext
  | _ => Quiet A vault row writes

/-- The columns that `put_connection` is about to write are those that it was asked for. -/
def Sealing (r : Upsert vault) (loaded : Option Sealed) (new : Sealed) : Prop :=
  match r.secretParams with
  | .absent => new = loaded.getD ⟨none, none⟩
  | .empty => new = ⟨none, none⟩
  | .given plaintext => opened A vault r.id.table.aad new = some plaintext

def Stands (row : RowId → Option Sealed) (writes : List Write) : Point vault → Prop
  | .scan _ _ _ => Quiet A vault row writes
  | .update _ pending _ _ => Quiet A vault row writes ∧ ∀ w ∈ pending, Faithful A vault w
  | .resource _ => writes = []
  | .load _ => writes = []
  | .flush r loaded new => writes = [] ∧ Sealing A vault r loaded new
  | .get _ => writes = []
  | .delete _ => writes = []
  | .insert r => ∀ w ∈ writes, w.row = r.id
  | .answered reply => Settled A vault row writes reply

/-- The update of a row overwrites what the transaction read in it: the rotation finds a row that
still reveals the same, and no column that is left out has changed. -/
def UpToDate (row : RowId → Option Sealed) : Point vault → Prop
  | .update r (w :: _) _ _ => w.id ∉ r.missed → ∀ current ∈ row w.id,
      Unmixed w.read w.new current ∧
        opened A vault w.id.table.aad current = opened A vault w.id.table.aad w.read
  | .flush r (some loaded) new => r.secretParams ≠ .absent → ∀ current ∈ row r.id,
      Unmixed loaded new current
  | _ => True

def Timely (s : Requests vault) : Event (Request vault) → Prop
  | .statement t _ =>
    ∀ x ∈ s.txns, x.id = t → UpToDate A vault (x.view (program A draw) s.db).row x.point
  | _ => True

instance (row : RowId → Option Sealed) : ∀ p, Decidable (UpToDate A vault row p)
  | .update _ (_ :: _) _ _ => inferInstanceAs (Decidable (_ → ∀ _ ∈ _, _ ∧ _))
  | .update _ [] _ _ => isTrue trivial
  | .flush _ (some _) _ => inferInstanceAs (Decidable (_ → ∀ _ ∈ _, Unmixed _ _ _))
  | .flush _ none _ => isTrue trivial
  | .scan .. => isTrue trivial
  | .resource _ => isTrue trivial
  | .load _ => isTrue trivial
  | .get _ => isTrue trivial
  | .delete _ => isTrue trivial
  | .insert _ => isTrue trivial
  | .answered _ => isTrue trivial

instance (s : Requests vault) : ∀ e, Decidable (Timely A vault draw s e)
  | .statement _ _ => inferInstanceAs (Decidable (∀ _ ∈ _, _ → UpToDate A vault _ _))
  | .arrive .. => isTrue trivial
  | .commit _ => isTrue trivial
  | .rollback _ => isTrue trivial

theorem quiet_nil (row : RowId → Option Sealed) : Quiet A vault row [] := fun _ => rfl

theorem quiet_diff (row : RowId → Option Sealed) (writes : List Write) (w : Rewrite)
    (current : Sealed) (hquiet : Quiet A vault row writes)
    (hcurrent : after writes w.id (row w.id) = some current) (hfaithful : Faithful A vault w)
    (hunmixed : Unmixed w.read w.new current)
    (hread : opened A vault w.id.table.aad current = opened A vault w.id.table.aad w.read) :
    Quiet A vault row (writes ++ [diff w.id w.read w.new]) := by
  intro id
  rw [after_append]
  by_cases hid : w.id = id
  · subst hid
    have heffect : after [diff w.id w.read w.new] w.id (some current) = some w.new :=
      (after_singleton (diff w.id w.read w.new) (some current)).trans
        (diff_effect w.id w.read w.new current hunmixed)
    rw [hcurrent, heffect, ← hquiet w.id, hcurrent]
    exact hfaithful.trans hread.symm
  · rw [after_of_ne [_] id _ fun v hv => by rw [List.mem_singleton.mp hv]; exact hid]
    exact hquiet id

theorem next_stands (row : RowId → Option Sealed) (writes : List Write) (r : Rotation vault)
    (pending : List Rewrite) (tables : List Table) (counts : List ℕ)
    (hquiet : Quiet A vault row writes) (hfaithful : ∀ w ∈ pending, Faithful A vault w) :
    Stands A vault row writes (r.next pending tables counts) := by
  cases pending with
  | cons w rest => exact ⟨hquiet, hfaithful⟩
  | nil =>
    cases tables with
    | nil => exact hquiet
    | cons table rest => exact hquiet

theorem scan_stands (row : RowId → Option Sealed) (writes new : List Write) (view : Db)
    (serial : ℕ) (r : Rotation vault) (tables : List Table) (counts : List ℕ) (p : Point vault)
    (hquiet : Quiet A vault row writes)
    (h : scanTable A draw serial view r tables counts = some (new, p)) :
    Stands A vault row (writes ++ new) p := by
  unfold scanTable at h
  cases tables with
  | nil =>
    exact ReadCommitted.read_only (Stands A vault row) h
      (next_stands A vault row writes r [] [] counts hquiet fun w hw => absurd hw List.not_mem_nil)
  | cons table rest =>
    cases hrewrites : rewrites A r.backend.keys (draw serial) 0 (view.scan table) with
    | error e =>
      simp only [hrewrites] at h
      cases h
    | ok pending =>
      simp only [hrewrites] at h
      exact ReadCommitted.read_only (Stands A vault row) h
        (next_stands A vault row writes r pending rest _ hquiet
          (rewrites_faithful A r.backend (draw serial) 0 _ pending hrewrites))

theorem flushRow_stands (row : RowId → Option Sealed) (writes new : List Write) (view : Db)
    (hview : ∀ id, view.row id = after writes id (row id)) (r : Rotation vault)
    (pending : List Rewrite) (tables : List Table) (counts : List ℕ) (p : Point vault)
    (hquiet : Quiet A vault row writes) (hfaithful : ∀ w ∈ pending, Faithful A vault w)
    (hguard : UpToDate A vault view.row (.update r pending tables counts))
    (h : flushRow view r pending tables counts = some (new, p)) :
    Stands A vault row (writes ++ new) p := by
  unfold flushRow at h
  cases pending with
  | nil =>
    exact ReadCommitted.read_only (Stands A vault row) h
      (next_stands A vault row writes r [] tables counts hquiet hfaithful)
  | cons w rest =>
    have hrest := (List.forall_mem_cons.mp hfaithful).2
    dsimp only at h
    split_ifs at h with hfound hchecked
    · obtain ⟨current, hcurrent⟩ := Option.isSome_iff_exists.mp hfound.1
      obtain ⟨hunmixed, hread⟩ := hguard hfound.2 current hcurrent
      refine ReadCommitted.written (Stands A vault row) h
        (next_stands A vault row _ r rest tables counts ?_ hrest)
      exact quiet_diff A vault row writes w current hquiet ((hview w.id).symm.trans hcurrent)
        (hfaithful w (List.mem_cons_self ..)) hunmixed hread
    · exact ReadCommitted.read_only (Stands A vault row) h
        (next_stands A vault row writes r rest tables counts hquiet hrest)

theorem load_stands (row : RowId → Option Sealed) (new : List Write) (view : Db) (serial : ℕ)
    (r : Upsert vault) (p : Point vault)
    (h : loadConnection A draw serial view r = some (new, p)) :
    Stands A vault row ([] ++ new) p := by
  unfold loadConnection at h
  cases hsealed : r.sealed A (draw serial 0) (view.row r.id) with
  | error e =>
    rw [hsealed] at h
    cases h
  | ok s =>
    rw [hsealed] at h
    refine ReadCommitted.read_only (Stands A vault row) h ⟨rfl, ?_⟩
    unfold Upsert.sealed at hsealed
    unfold Sealing
    cases hparams : r.secretParams with
    | absent =>
      simp only [hparams] at hsealed ⊢
      exact (Except.ok.inj hsealed).symm
    | empty =>
      simp only [hparams] at hsealed ⊢
      exact (Except.ok.inj hsealed).symm
    | given plaintext =>
      obtain ⟨keyId, blob, hencrypt, hopens⟩ :=
        encrypt_opens A r.backend (draw serial 0) plaintext r.id.table.aad
      simp only [hparams, hencrypt] at hsealed ⊢
      obtain rfl := Except.ok.inj hsealed
      exact hopens

theorem quiet_singleton (row : RowId → Option Sealed) (w : Write)
    (h : revealed A vault w.row (w.effect (row w.row)) = revealed A vault w.row (row w.row)) :
    Quiet A vault row [w] := by
  intro id
  by_cases hid : w.row = id
  · subst hid
    rw [after_singleton]
    exact h
  · rw [after_of_ne [w] id _ fun v hv => by rw [List.mem_singleton.mp hv]; exact hid]

theorem settled_singleton (row : RowId → Option Sealed) (w : Write) (plaintext : Option Bytes)
    (h : revealed A vault w.row (w.effect (row w.row)) = plaintext) :
    Settled A vault row [w] (.wrote w.row plaintext) := by
  refine ⟨fun v hv => by rw [List.mem_singleton.mp hv], ⟨w, List.mem_singleton_self w, rfl⟩, ?_⟩
  rw [after_singleton]
  exact h

/-- One write that leaves what was asked for, or that leaves all as it was where nothing was. -/
theorem upsert_settled (row : RowId → Option Sealed) (r : Upsert vault) (loaded : Option Sealed)
    (new : Sealed) (w : Write) (hw : w.row = r.id) (hsealing : Sealing A vault r loaded new)
    (hasked : r.secretParams ≠ .absent → w.effect (row r.id) = some new)
    (habsent : r.secretParams = .absent →
      revealed A vault r.id (w.effect (row r.id)) = revealed A vault r.id (row r.id)) :
    Settled A vault row [w] r.reply := by
  rw [← hw] at hasked habsent
  unfold Upsert.reply
  unfold Sealing at hsealing
  cases hparams : r.secretParams with
  | absent => exact quiet_singleton A vault row w (habsent hparams)
  | empty =>
    simp only [hparams] at hsealing
    rw [← hw]
    refine settled_singleton A vault row w none ?_
    rw [hasked (by rw [hparams]; exact fun h => by cases h), hsealing]
    rfl
  | given plaintext =>
    simp only [hparams, ← hw] at hsealing
    rw [← hw]
    refine settled_singleton A vault row w (some plaintext) ?_
    rw [hasked (by rw [hparams]; exact fun h => by cases h)]
    exact hsealing

theorem flushConnection_stands (row : RowId → Option Sealed) (new : List Write) (view : Db)
    (hview : ∀ id, view.row id = row id) (r : Upsert vault) (loaded : Option Sealed) (s : Sealed)
    (p : Point vault) (hsealing : Sealing A vault r loaded s)
    (hguard : UpToDate A vault view.row (.flush r loaded s))
    (h : flushConnection view r loaded s = some (new, p)) :
    Stands A vault row ([] ++ new) p := by
  unfold flushConnection at h
  rw [hview] at h
  cases hrow : row r.id with
  | none =>
    rw [hrow] at h
    cases loaded with
    | none =>
      refine ReadCommitted.written (Stands A vault row) h ?_
      refine upsert_settled A vault row r none s (.insert r.id s) rfl hsealing (fun _ => rfl) ?_
      intro habsent
      simp only [Sealing, habsent] at hsealing
      rw [hrow, hsealing]
      rfl
    | some loaded => cases h
  | some current =>
    rw [hrow] at h
    cases loaded with
    | none => cases h
    | some loaded =>
      refine ReadCommitted.written (Stands A vault row) h ?_
      refine upsert_settled A vault row r (some loaded) s (diff r.id loaded s) rfl hsealing ?_ ?_
      · intro hasked
        rw [hrow]
        exact diff_effect r.id loaded s current
          (hguard hasked current ((hview r.id).trans hrow))
      · intro habsent
        simp only [Sealing, habsent, Option.getD_some] at hsealing
        rw [hsealing, diff_self]

theorem insertTotp_stands (row : RowId → Option Sealed) (writes new : List Write) (view : Db)
    (serial : ℕ) (r : Enrollment vault) (p : Point vault) (hwrites : ∀ w ∈ writes, w.row = r.id)
    (h : insertTotp A draw serial view r = some (new, p)) :
    Stands A vault row (writes ++ new) p := by
  unfold insertTotp at h
  obtain ⟨keyId, blob, hencrypt, hopens⟩ :=
    encrypt_opens A r.backend (draw serial 0) r.secret r.id.table.aad
  simp only [hencrypt] at h
  split_ifs at h
  refine ReadCommitted.written (Stands A vault row) h ⟨fun w hw => ?_, ?_, ?_⟩
  · rcases List.mem_append.mp hw with hw | hw
    · exact hwrites w hw
    · rw [List.mem_singleton.mp hw]
      rfl
  · exact ⟨_, List.mem_append_right _ (List.mem_singleton_self _), rfl⟩
  · have heffect : ∀ before, after [.insert r.id ⟨some blob, some keyId⟩] r.id before =
        some ⟨some blob, some keyId⟩ := after_singleton (.insert r.id ⟨some blob, some keyId⟩)
    rw [after_append, heffect]
    exact hopens

/-- A statement leaves its transaction standing where its point says. -/
theorem statement_stands (row : RowId → Option Sealed) (writes new : List Write) (view : Db)
    (hview : ∀ id, view.row id = after writes id (row id)) (serial : ℕ) (p p' : Point vault)
    (hguard : UpToDate A vault view.row p) (hstands : Stands A vault row writes p)
    (h : statement A draw view serial p = some (new, p')) :
    Stands A vault row (writes ++ new) p' := by
  cases p with
  | scan r tables counts =>
    exact scan_stands A vault draw row writes new view serial r tables counts p' hstands h
  | update r pending tables counts =>
    exact flushRow_stands A vault row writes new view hview r pending tables counts p' hstands.1
      hstands.2 hguard h
  | resource r =>
    obtain rfl : writes = [] := hstands
    simp only [statement] at h
    split_ifs at h
    · exact ReadCommitted.read_only (Stands A vault row) h rfl
    · exact ReadCommitted.read_only (Stands A vault row) h (quiet_nil A vault row)
  | load r =>
    obtain rfl : writes = [] := hstands
    exact load_stands A vault draw row new view serial r p' h
  | flush r loaded s =>
    obtain ⟨rfl, hsealing⟩ := hstands
    exact flushConnection_stands A vault row new view hview r loaded s p' hsealing hguard h
  | get r =>
    obtain rfl : writes = [] := hstands
    refine ReadCommitted.read_only (Stands A vault row) h ?_
    split_ifs
    · rfl
    · exact fun w hw => absurd hw List.not_mem_nil
  | delete r =>
    obtain rfl : writes = [] := hstands
    refine ReadCommitted.written (Stands A vault row) h fun w hw => ?_
    rw [List.mem_singleton.mp hw]
    rfl
  | insert r => exact insertTotp_stands A vault draw row writes new view serial r p' hstands h
  | answered reply => cases h

/-! ### Runs -/

/-- The rows that the transaction has written are as they were. -/
theorem stands_other (row row' : RowId → Option Sealed) (writes : List Write) (p : Point vault)
    (hsame : ∀ w ∈ writes, row' w.row = row w.row) (h : Stands A vault row writes p) :
    Stands A vault row' writes p := by
  have hafter : ∀ id, row' id = row id ∨ after writes id (row' id) = row' id ∧
      ∀ w ∈ writes, w.row ≠ id := by
    intro id
    by_cases hid : ∃ w ∈ writes, w.row = id
    · obtain ⟨w, hw, rfl⟩ := hid
      exact Or.inl (hsame w hw)
    · have hne : ∀ w ∈ writes, w.row ≠ id := fun w hw heq => hid ⟨w, hw, heq⟩
      exact Or.inr ⟨after_of_ne writes id _ hne, hne⟩
  have hquiet : Quiet A vault row writes → Quiet A vault row' writes := by
    intro hquiet id
    rcases hafter id with heq | ⟨hnone, -⟩
    · rw [heq]
      exact hquiet id
    · rw [hnone]
  have hsettled : ∀ reply, Settled A vault row writes reply →
      Settled A vault row' writes reply := by
    intro reply hreply
    cases reply with
    | rotated target counts => exact hquiet hreply
    | notFound => exact hquiet hreply
    | kept id => exact hquiet hreply
    | wrote id plaintext =>
      obtain ⟨honly, ⟨w, hw, hid⟩, hrevealed⟩ := hreply
      refine ⟨honly, ⟨w, hw, hid⟩, ?_⟩
      have heq := hsame w hw
      rw [hid] at heq
      rw [heq]
      exact hrevealed
  cases p with
  | scan r tables counts => exact hquiet h
  | update r pending tables counts => exact ⟨hquiet h.1, h.2⟩
  | resource r => exact h
  | load r => exact h
  | flush r loaded s => exact h
  | get r => exact h
  | delete r => exact h
  | insert r => exact h
  | answered reply => exact hsettled reply h

/-- What a commit makes of what is known. -/
theorem settled_record (row : RowId → Option Sealed) (writes : List Write) (reply : Reply)
    (known : RowId → Option Bytes) (hknown : ∀ id, revealed A vault id (row id) = known id)
    (h : Settled A vault row writes reply) (id : RowId) :
    revealed A vault id (after writes id (row id)) = record known reply id := by
  have hquiet : Quiet A vault row writes →
      revealed A vault id (after writes id (row id)) = known id :=
    fun hquiet => (hquiet id).trans (hknown id)
  cases reply with
  | rotated target counts => exact hquiet h
  | notFound => exact hquiet h
  | kept other => exact hquiet h
  | wrote other plaintext =>
    obtain ⟨honly, -, hrevealed⟩ := h
    by_cases hid : id = other
    · subst hid
      rw [record, Function.update_self]
      exact hrevealed
    · rw [record, Function.update_of_ne hid]
      rw [after_of_ne writes id _ fun w hw heq => hid (heq.symm.trans (honly w hw))]
      exact hknown id

structure Inv (first : Db) (s : Requests vault) : Prop where
  locked : Locked (program A draw) s
  kept : NothingLost A vault first s
  stands : ∀ x ∈ s.txns, Stands A vault s.db.row x.writes x.point

theorem commit_inv (first : Db) (s : Requests vault) (x : Txn Write (Point vault)) (reply : Reply)
    (h : Inv A vault draw first s) (hx : x ∈ s.txns)
    (hanswer : (program A draw).answer x.point = some reply) (s' : Requests vault)
    (hdb : s'.db = x.view (program A draw) s.db) (htxns : s'.txns = s.drop x.id)
    (hanswers : s'.answers = s.answers ++ [reply]) (hlocked : Locked (program A draw) s') :
    Inv A vault draw first s' := by
  have hpoint : x.point = .answered reply := by
    cases hp : x.point with
    | answered other =>
      rw [hp] at hanswer
      rw [Option.some.inj hanswer]
    | _ =>
      rw [hp] at hanswer
      cases hanswer
  have hsettled := h.stands x hx
  rw [hpoint] at hsettled
  refine ⟨hlocked, fun id => ?_, fun y hy => ?_⟩
  · rw [Db.reveals, hdb, hanswers, view_row, lastWritten, List.foldl_append]
    exact settled_record A vault s.db.row x.writes reply _ h.kept hsettled id
  · rw [htxns] at hy
    obtain ⟨hy, hne⟩ := (ReadCommitted.mem_drop s x.id y).mp hy
    refine stands_other A vault s.db.row _ y.writes y.point (fun w hw => ?_) (h.stands y hy)
    rw [hdb, view_row]
    exact after_of_ne x.writes w.row _ fun v hv =>
      h.locked.rows x hx y hy hne.symm v hv w hw

theorem step_inv (first : Db) (s : Requests vault) (e : Event (Request vault))
    (h : Inv A vault draw first s) (hguard : Timely A vault draw s e) :
    Inv A vault draw first (step A draw s e) := by
  have hlocked := ReadCommitted.locked_step (program A draw) s e h.locked
  unfold step at hlocked ⊢
  generalize ht : ReadCommitted.step (program A draw) s e = s' at hlocked ⊢
  have heffect := ht ▸ ReadCommitted.step_effect (program A draw) s e
  cases heffect with
  | wait => exact ⟨hlocked, h.kept, h.stands⟩
  | arrive t request now hnew =>
    refine ⟨hlocked, h.kept, fun x hx => ?_⟩
    rcases List.mem_cons.mp hx with rfl | hx
    · cases request with
      | rotateToCurrent r => exact quiet_nil A vault s.db.row
      | putConnection r => rfl
      | storePendingSecret r => rfl
    · exact h.stands x hx
  | statement x now writes p hmem hanswer hstatement hfree =>
    refine ⟨hlocked, h.kept, fun y hy => ?_⟩
    rcases ReadCommitted.mem_put s _ y hy with rfl | ⟨hy, -⟩
    · exact statement_stands A vault draw s.db.row x.writes writes _
        (view_row A vault draw x s.db) s.serial x.point p (hguard x hmem rfl) (h.stands x hmem)
        hstatement
    · exact h.stands y hy
  | commit x reply hmem hanswer =>
    exact commit_inv A vault draw first s x reply h hmem hanswer _ rfl rfl rfl hlocked
  | abandon _ t =>
    exact ⟨hlocked, h.kept, fun y hy => h.stands y ((ReadCommitted.mem_drop s t y).mp hy).1⟩

/-- Where every update overwrites what its transaction read, no secret is lost. -/
theorem nothing_lost (db : Db) (events : List (Event (Request vault)))
    (h : Along (step A draw) (Timely A vault draw) (start db) events) :
    NothingLost A vault db (events.foldl (step A draw) (start db)) := by
  have hstart : Inv A vault draw db (start db) := by
    refine ⟨⟨fun x hx => (by cases hx), fun x hx => (by cases hx)⟩, fun _ => rfl,
      fun x hx => (by cases hx)⟩
  exact (Along.invariant (Inv A vault draw db) hstart (step_inv A vault draw db) h).kept

/-! ### Two processes -/

theorem second_known : (if "mk-2".toList = "mk-1".toList then some (1 : UInt8)
    else if "mk-2".toList = "mk-2".toList then some 2 else none).isSome := by decide

def bothKeys : SecretsBackend UInt8 where
  currentKeyId := "mk-2".toList
  getMasterKey keyId :=
    if keyId = "mk-1".toList then some 1 else if keyId = "mk-2".toList then some 2 else none
  current_known := second_known

/-- The server, which started before there was a second key. -/
def server : Backend bothKeys where
  keys :=
    { currentKeyId := "mk-1".toList
      getMasterKey := fun keyId => if keyId = "mk-1".toList then some 1 else none
      current_known := by decide }
  agrees := by
    intro id key h
    have hkey : (if id = "mk-1".toList then some 1 else none) = some key := h
    by_cases hid : id = "mk-1".toList
    · rw [if_pos hid] at hkey
      exact (if_pos hid).trans hkey
    · rw [if_neg hid] at hkey
      cases hkey

def rotating : Backend bothKeys := ⟨bothKeys, fun _ _ h => h⟩

theorem length_zeros : (List.replicate nonceBytes (0 : UInt8)).length = nonceBytes :=
  List.length_replicate

def noNonce (_ _ : ℕ) : Nonce := ⟨List.replicate nonceBytes 0, length_zeros⟩

/-- A blob under the first key. -/
def sealedOld (id : RowId) (plaintext : Bytes) : Sealed :=
  ⟨some ((noNonce 0 0).bytes ++ plainAead.encrypt 1 (noNonce 0 0).bytes plaintext id.table.aad),
    some "mk-1".toList⟩

def enrolledDb : Db where
  ids := [.totp 7, .connection 3]
  row id :=
    if id = .totp 7 then some (sealedOld (.totp 7) [1])
    else if id = .connection 3 then some (sealedOld (.connection 3) [5]) else none
  resources := [3]
  covers id h := by
    by_cases htotp : id = .totp 7
    · simp [htotp]
    · by_cases hconnection : id = .connection 3
      · simp [hconnection]
      · simp [htotp, hconnection] at h

def rotation : Request bothKeys := .rotateToCurrent ⟨rotating, true, []⟩

def newSecret : Request bothKeys := .storePendingSecret ⟨server, 7, [2]⟩

def newPassword : Request bothKeys := .putConnection ⟨server, 3, .given [6]⟩

/-- The secret and the password change after the rotation is through with them. -/
def inTurn : List (Event (Request bothKeys)) :=
  [.arrive 1 rotation 0, .statement 1 0, .statement 1 0, .statement 1 0, .statement 1 0,
    .arrive 2 newSecret 0, .statement 2 0, .statement 1 0, .commit 1, .statement 2 0,
    .statement 2 0, .commit 2, .arrive 3 newPassword 0, .statement 3 0, .statement 3 0,
    .statement 3 0, .commit 3]

theorem nothing_lost_sample :
    NothingLost plainAead bothKeys enrolledDb
      (inTurn.foldl (step plainAead noNonce) (start enrolledDb)) :=
  nothing_lost plainAead bothKeys noNonce enrolledDb inTurn (by decide)

/-- The secret changes after the rotation has read it and before it writes it back. -/
def between : List (Event (Request bothKeys)) :=
  [.arrive 1 rotation 0, .statement 1 0, .statement 1 0, .arrive 2 newSecret 0, .statement 2 0,
    .statement 2 0, .statement 2 0, .commit 2, .statement 1 0, .statement 1 0, .statement 1 0,
    .commit 1]

/-- The rotation restores the older secret. -/
theorem rotation_restores :
    ¬ ∀ events : List (Event (Request bothKeys)), NothingLost plainAead bothKeys enrolledDb
      (events.foldl (step plainAead noNonce) (start enrolledDb)) := by
  intro h
  have hrow := h between (.totp 7)
  revert hrow
  decide

end Hyproxy.LostSecrets

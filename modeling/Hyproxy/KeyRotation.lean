import Hyproxy.SealedBlobs
import Mathlib.Algebra.GroupWithZero.Nat
import Mathlib.Data.List.Forall2

/-!
The rotation of the master key (`core/reencrypt.py`) in a transaction of its own.
It goes through three tables and wraps again every blob that is not yet under the
current key; where it cannot decrypt one it raises, and what it changed until then
is rolled back. A blob under the current key is not opened.
-/
namespace Hyproxy.KeyRotation

open SealedBlobs

/-- An entry of `_SEALED`: the sealed columns of a row, and the others. -/
structure SealedTable (Row Other : Type) where
  name : List Char
  get : Row → Sealed
  set : Row → KeyId × Bytes → Row
  other : Row → Other
  get_set : ∀ row wrapped, get (set row wrapped) = ⟨some wrapped.2, some wrapped.1⟩
  other_set : ∀ row wrapped, other (set row wrapped) = other row

variable {Row Other σ τ ρ Key : Type}

/-- `name.encode()`, for names in ASCII -/
def SealedTable.aad (T : SealedTable Row Other) : Bytes := T.name.map fun c => UInt8.ofNat c.toNat

structure SigningKey (σ : Type) where
  privateKeyCiphertext : Bytes
  keyId : KeyId
  other : σ
  deriving DecidableEq

structure UserTotp (τ : Type) where
  secretCiphertext : Bytes
  keyId : KeyId
  other : τ
  deriving DecidableEq

structure ResourceConnection (ρ : Type) where
  secretCiphertext : Option Bytes
  keyId : Option KeyId
  other : ρ
  deriving DecidableEq

def signingKeys : SealedTable (SigningKey σ) σ where
  name := "signing_keys".toList
  get row := ⟨some row.privateKeyCiphertext, some row.keyId⟩
  set row wrapped := { row with privateKeyCiphertext := wrapped.2, keyId := wrapped.1 }
  other := SigningKey.other
  get_set _ _ := rfl
  other_set _ _ := rfl

def userTotp : SealedTable (UserTotp τ) τ where
  name := "user_totp".toList
  get row := ⟨some row.secretCiphertext, some row.keyId⟩
  set row wrapped := { row with secretCiphertext := wrapped.2, keyId := wrapped.1 }
  other := UserTotp.other
  get_set _ _ := rfl
  other_set _ _ := rfl

def resourceConnections : SealedTable (ResourceConnection ρ) ρ where
  name := "resource_connections".toList
  get row := ⟨row.secretCiphertext, row.keyId⟩
  set row wrapped := { row with secretCiphertext := some wrapped.2, keyId := some wrapped.1 }
  other := ResourceConnection.other
  get_set _ _ := rfl
  other_set _ _ := rfl

structure Db (σ τ ρ : Type) where
  signingKeys : List (SigningKey σ)
  userTotp : List (UserTotp τ)
  resourceConnections : List (ResourceConnection ρ)
  deriving DecidableEq

structure RotationResult where
  targetKeyId : KeyId
  rewrapped : List (List Char × ℕ)
  deriving Repr, DecidableEq

def RotationResult.total (r : RotationResult) : ℕ := (r.rewrapped.map Prod.snd).sum

/-- A pass over one table: its rows, also where it stopped, the number of nonces drawn so far, and
the number of rows that were wrapped again. -/
structure Pass (Row : Type) where
  rows : List Row
  drawn : ℕ
  result : Except CryptoError ℕ

variable (A : Aead Key) (backend : SecretsBackend Key)

def rewrapRows (T : SealedTable Row Other) (nonces : ℕ → Nonce) : ℕ → List Row → Pass Row
  | drawn, [] => ⟨[], drawn, .ok 0⟩
  | drawn, row :: rest =>
    match rewrap A backend (nonces drawn) T.aad (T.get row) with
    | .error e => ⟨row :: rest, drawn, .error e⟩
    | .ok none =>
      let pass := rewrapRows T nonces drawn rest
      ⟨row :: pass.rows, pass.drawn, pass.result⟩
    | .ok (some wrapped) =>
      let pass := rewrapRows T nonces (drawn + 1) rest
      ⟨T.set row wrapped :: pass.rows, pass.drawn, pass.result.map (· + 1)⟩

/-- `rotate_to_current`: the database as the session has it at the end, and the result. -/
def rotateToCurrent (nonces : ℕ → Nonce) (drawn : ℕ) (db : Db σ τ ρ) :
    Db σ τ ρ × Except CryptoError RotationResult :=
  let keys := rewrapRows A backend signingKeys nonces drawn db.signingKeys
  match keys.result with
  | .error e => ({ db with signingKeys := keys.rows }, .error e)
  | .ok n₁ =>
    let totp := rewrapRows A backend userTotp nonces keys.drawn db.userTotp
    match totp.result with
    | .error e => ({ db with signingKeys := keys.rows, userTotp := totp.rows }, .error e)
    | .ok n₂ =>
      let connections :=
        rewrapRows A backend resourceConnections nonces totp.drawn db.resourceConnections
      (⟨keys.rows, totp.rows, connections.rows⟩, connections.result.map fun n₃ =>
        ⟨backend.currentKeyId, [("signing_keys".toList, n₁), ("user_totp".toList, n₂),
          ("resource_connections".toList, n₃)]⟩)

/-- `db_session`: commits on success, rolls back on error. -/
def dbSession {δ ε α : Type} (body : δ → δ × Except ε α) (db : δ) : δ × Except ε α :=
  match body db with
  | (view, .ok a) => (view, .ok a)
  | (_, .error e) => (db, .error e)

def rotate (nonces : ℕ → Nonce) (drawn : ℕ) (db : Db σ τ ρ) :
    Db σ τ ρ × Except CryptoError RotationResult :=
  dbSession (rotateToCurrent A backend nonces drawn) db

/-! ### One table -/

/-- What becomes of a row. -/
structure Rewrapped (T : SealedTable Row Other) (old new : Row) : Prop where
  other : T.other new = T.other old
  opened : opened A backend T.aad (T.get new) = opened A backend T.aad (T.get old)
  sealed : (T.get old).blob.isSome →
    (T.get new).blob.isSome ∧ (T.get new).keyId = some backend.currentKeyId
  unsealed : (T.get old).blob = none → new = old

/-- A blob that has to be wrapped again, and cannot be decrypted. -/
def Broken (T : SealedTable Row Other) (row : Row) : Prop :=
  Stale backend (T.get row) ∧ opened A backend T.aad (T.get row) = none

theorem rewrapped_fresh (T : SealedTable Row Other) (row : Row) (h : ¬ Stale backend (T.get row)) :
    Rewrapped A backend T row row := by
  refine ⟨rfl, rfl, fun hblob => ⟨hblob, ?_⟩, fun _ => rfl⟩
  by_contra hkey
  exact h ⟨hblob, hkey⟩

theorem rewrapped_stale (T : SealedTable Row Other) (row : Row) (blob : Bytes)
    (hstale : Stale backend (T.get row))
    (hopened : opened A backend T.aad ⟨some blob, some backend.currentKeyId⟩ =
      opened A backend T.aad (T.get row)) :
    Rewrapped A backend T row (T.set row (backend.currentKeyId, blob)) := by
  refine ⟨T.other_set _ _, by rw [T.get_set, hopened], fun _ => ?_, fun hnone => ?_⟩
  · rw [T.get_set]
    exact ⟨rfl, rfl⟩
  · have hblob := hstale.1
    rw [hnone] at hblob
    cases hblob

/-- A pass wraps every row again, or stops at one that is broken. -/
theorem rewrapRows_cases (T : SealedTable Row Other) (nonces : ℕ → Nonce) (drawn : ℕ)
    (rows : List Row) :
    (∃ n, (rewrapRows A backend T nonces drawn rows).result = .ok n ∧
        List.Forall₂ (Rewrapped A backend T) rows (rewrapRows A backend T nonces drawn rows).rows ∧
          ∀ row ∈ rows, ¬ Broken A backend T row) ∨
      (∃ e, (rewrapRows A backend T nonces drawn rows).result = .error e ∧
        ∃ row ∈ rows, Broken A backend T row) := by
  induction rows generalizing drawn with
  | nil => exact Or.inl ⟨0, rfl, .nil, fun row hrow => absurd hrow List.not_mem_nil⟩
  | cons row rest ih =>
    rw [rewrapRows]
    by_cases hstale : Stale backend (T.get row)
    · cases hopened : opened A backend T.aad (T.get row) with
      | none =>
        obtain ⟨e, he⟩ := rewrap_fails A backend (nonces drawn) T.aad _ hstale hopened
        rw [he]
        exact Or.inr ⟨e, rfl, row, List.mem_cons_self .., hstale, hopened⟩
      | some plaintext =>
        obtain ⟨blob, hwrap, hopens⟩ :=
          rewrap_stale A backend (nonces drawn) T.aad _ hstale plaintext hopened
        have hrow := rewrapped_stale A backend T row blob hstale (hopens.trans hopened.symm)
        have hsound : ¬ Broken A backend T row := by
          rintro ⟨-, hclosed⟩
          rw [hopened] at hclosed
          cases hclosed
        rw [hwrap]
        rcases ih (drawn + 1) with ⟨n, hn, hrows, hnone⟩ | ⟨e, he, broken, hmem, hbroken⟩
        · refine Or.inl ⟨n + 1, ?_, .cons hrow hrows, List.forall_mem_cons.mpr ⟨hsound, hnone⟩⟩
          simp only [hn]
          rfl
        · refine Or.inr ⟨e, ?_, broken, List.mem_cons_of_mem _ hmem, hbroken⟩
          simp only [he]
          rfl
    · rw [rewrap_fresh A backend (nonces drawn) T.aad _ hstale]
      rcases ih drawn with ⟨n, hn, hrows, hnone⟩ | ⟨e, he, broken, hmem, hbroken⟩
      · exact Or.inl ⟨n, hn, .cons (rewrapped_fresh A backend T row hstale) hrows,
          List.forall_mem_cons.mpr ⟨fun h => hstale h.1, hnone⟩⟩
      · exact Or.inr ⟨e, he, broken, List.mem_cons_of_mem _ hmem, hbroken⟩

theorem rewrapRows_fresh (T : SealedTable Row Other) (nonces : ℕ → Nonce) (drawn : ℕ)
    (rows : List Row) (h : ∀ row ∈ rows, ¬ Stale backend (T.get row)) :
    rewrapRows A backend T nonces drawn rows = ⟨rows, drawn, .ok 0⟩ := by
  induction rows with
  | nil => rfl
  | cons row rest ih =>
    rw [List.forall_mem_cons] at h
    rw [rewrapRows, rewrap_fresh A backend (nonces drawn) T.aad _ h.1]
    simp only [ih h.2]

/-- No row is stale after a pass. -/
theorem fresh_of_rewrapped (T : SealedTable Row Other) (old new : List Row)
    (h : List.Forall₂ (Rewrapped A backend T) old new) :
    ∀ row ∈ new, ¬ Stale backend (T.get row) := by
  induction h with
  | nil => exact fun row hrow => absurd hrow List.not_mem_nil
  | cons hrow _ ih =>
    refine List.forall_mem_cons.mpr ⟨?_, ih⟩
    rintro ⟨hblob, hkey⟩
    rename_i before after _ _ _
    cases hbefore : (T.get before).blob with
    | none =>
      rw [hrow.unsealed hbefore, hbefore] at hblob
      cases hblob
    | some blob => exact hkey (hrow.sealed (by rw [hbefore]; rfl)).2

/-! ### The three tables -/

/-- Some row of the three tables is broken. -/
def SomeBroken (db : Db σ τ ρ) : Prop :=
  (∃ row ∈ db.signingKeys, Broken A backend signingKeys row) ∨
    (∃ row ∈ db.userTotp, Broken A backend userTotp row) ∨
      ∃ row ∈ db.resourceConnections, Broken A backend resourceConnections row

/-- What a rotation makes of the database. -/
structure Rotated (old new : Db σ τ ρ) : Prop where
  signingKeys : List.Forall₂ (Rewrapped A backend signingKeys) old.signingKeys new.signingKeys
  userTotp : List.Forall₂ (Rewrapped A backend userTotp) old.userTotp new.userTotp
  resourceConnections : List.Forall₂ (Rewrapped A backend resourceConnections)
    old.resourceConnections new.resourceConnections

theorem rotateToCurrent_cases (nonces : ℕ → Nonce) (drawn : ℕ) (db : Db σ τ ρ) :
    (∃ new result, rotateToCurrent A backend nonces drawn db = (new, .ok result) ∧
        Rotated A backend db new ∧ ¬ SomeBroken A backend db) ∨
      ∃ new e, rotateToCurrent A backend nonces drawn db = (new, .error e) ∧
        SomeBroken A backend db := by
  rw [rotateToCurrent]
  rcases rewrapRows_cases A backend signingKeys nonces drawn db.signingKeys with
    ⟨n₁, h₁, hkeys, hnone₁⟩ | ⟨e, he, hbroken⟩
  swap
  · simp only [he]
    exact Or.inr ⟨_, e, rfl, Or.inl hbroken⟩
  rcases rewrapRows_cases A backend userTotp nonces
      (rewrapRows A backend signingKeys nonces drawn db.signingKeys).drawn db.userTotp with
    ⟨n₂, h₂, htotp, hnone₂⟩ | ⟨e, he, hbroken⟩
  swap
  · simp only [h₁, he]
    exact Or.inr ⟨_, e, rfl, Or.inr (Or.inl hbroken)⟩
  rcases rewrapRows_cases A backend resourceConnections nonces
      (rewrapRows A backend userTotp nonces
        (rewrapRows A backend signingKeys nonces drawn db.signingKeys).drawn db.userTotp).drawn
      db.resourceConnections with
    ⟨n₃, h₃, hconnections, hnone₃⟩ | ⟨e, he, hbroken⟩
  swap
  · simp only [h₁, h₂, he]
    exact Or.inr ⟨_, e, rfl, Or.inr (Or.inr hbroken)⟩
  simp only [h₁, h₂, h₃]
  refine Or.inl ⟨_, _, rfl, ⟨hkeys, htotp, hconnections⟩, ?_⟩
  rintro (⟨row, hrow, h⟩ | ⟨row, hrow, h⟩ | ⟨row, hrow, h⟩)
  · exact hnone₁ row hrow h
  · exact hnone₂ row hrow h
  · exact hnone₃ row hrow h

/-- A rotated database is left as it is. -/
theorem rotate_rotated (nonces : ℕ → Nonce) (drawn : ℕ) (old new : Db σ τ ρ)
    (h : Rotated A backend old new) :
    ∃ result, rotate A backend nonces drawn new = (new, .ok result) ∧ result.total = 0 := by
  have hkeys := fresh_of_rewrapped A backend signingKeys _ _ h.signingKeys
  have htotp := fresh_of_rewrapped A backend userTotp _ _ h.userTotp
  have hconnections := fresh_of_rewrapped A backend resourceConnections _ _ h.resourceConnections
  refine ⟨⟨backend.currentKeyId, [("signing_keys".toList, 0), ("user_totp".toList, 0),
    ("resource_connections".toList, 0)]⟩, ?_, rfl⟩
  simp only [rotate, dbSession, rotateToCurrent,
    rewrapRows_fresh A backend signingKeys nonces _ _ hkeys,
    rewrapRows_fresh A backend userTotp nonces _ _ htotp,
    rewrapRows_fresh A backend resourceConnections nonces _ _ hconnections]
  rfl

/-- A rotation succeeds, and then every sealed blob is under the current key with the plaintext it
had and there is nothing left for a second run; or one of the blobs that were not yet under the
current key cannot be decrypted, and nothing has changed. -/
theorem rotate_spec (nonces : ℕ → Nonce) (drawn : ℕ) (db : Db σ τ ρ) :
    (¬ SomeBroken A backend db ∧ ∃ new result,
        rotate A backend nonces drawn db = (new, .ok result) ∧ Rotated A backend db new ∧
          ∀ (nonces' : ℕ → Nonce) (drawn' : ℕ), ∃ again,
            rotate A backend nonces' drawn' new = (new, .ok again) ∧ again.total = 0) ∨
      (SomeBroken A backend db ∧ ∃ e, rotate A backend nonces drawn db = (db, .error e)) := by
  rcases rotateToCurrent_cases A backend nonces drawn db with
    ⟨new, result, hresult, hnew, hsound⟩ | ⟨new, e, he, hbroken⟩
  · refine Or.inl ⟨hsound, new, result, by simp only [rotate, dbSession, hresult], hnew, ?_⟩
    exact fun nonces' drawn' => rotate_rotated A backend nonces' drawn' db new hnew
  · exact Or.inr ⟨hbroken, e, by simp only [rotate, dbSession, he]⟩

/-! ### A blob that is not opened -/

def twoKeys : SecretsBackend UInt8 where
  currentKeyId := "mk-2".toList
  getMasterKey keyId :=
    if keyId = "mk-1".toList then some 1 else if keyId = "mk-2".toList then some 2 else none
  current_known := by decide

def zeroNonce : Nonce := ⟨List.replicate nonceBytes 0, List.length_replicate⟩

def sealedTotp : UserTotp Unit :=
  ⟨zeroNonce.bytes ++ plainAead.encrypt 1 zeroNonce.bytes [42] (userTotp (τ := Unit)).aad,
    "mk-1".toList, ()⟩

/-- The signing key is under the current key already, and damaged. -/
def damagedDb : Db Unit Unit Unit := ⟨[⟨[7], "mk-2".toList, ()⟩], [sealedTotp], []⟩

/-- The damaged blob does not stop the rotation, which changes the other row. -/
theorem damaged_blob_passed :
    ¬ ∀ (db : Db Unit Unit Unit),
      (∃ row ∈ db.signingKeys, opened plainAead twoKeys (signingKeys (σ := Unit)).aad
        (signingKeys.get row) = none) →
          (rotate plainAead twoKeys (fun _ => zeroNonce) 0 db).1 = db := by
  intro h
  have hunchanged := h damagedDb ⟨_, List.mem_singleton_self _, by decide⟩
  revert hunchanged
  decide

end Hyproxy.KeyRotation

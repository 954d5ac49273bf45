import Mathlib.Data.Nat.Notation
import Mathlib.Tactic.Common
import Mathlib.Tactic.SplitIfs

/-!
Blobs sealed under a master key (`core/crypto.py`). A blob is a nonce followed by
the ciphertext; beside it stands the id of the key. The cipher and the store of the
keys are parameters: what is decrypted as it was encrypted is the plaintext, and
the current key is known.
-/
namespace Hyproxy.SealedBlobs

abbrev Bytes := List UInt8

abbrev KeyId := List Char

def nonceBytes : ℕ := 12

/-- `secrets.token_bytes(NONCE_BYTES)` -/
structure Nonce where
  bytes : Bytes
  length_eq : bytes.length = nonceBytes

/-- Authenticated encryption with associated data, as `AESGCM` -/
structure Aead (Key : Type) where
  encrypt (key : Key) (nonce data aad : Bytes) : Bytes
  decrypt (key : Key) (nonce ciphertext aad : Bytes) : Option Bytes
  decrypt_encrypt : ∀ key nonce data aad,
    decrypt key nonce (encrypt key nonce data aad) aad = some data

/-- The master keys, one of which is the current one. -/
structure SecretsBackend (Key : Type) where
  currentKeyId : KeyId
  getMasterKey : KeyId → Option Key
  current_known : (getMasterKey currentKeyId).isSome

inductive CryptoError
  | unknownKey
  | invalidTag
  deriving Repr, DecidableEq

/-- The columns of a sealed blob; both are null where there is none. -/
structure Sealed where
  blob : Option Bytes
  keyId : Option KeyId
  deriving Repr, DecidableEq

variable {Key : Type} (A : Aead Key) (backend : SecretsBackend Key)

def encryptBlob (nonce : Nonce) (plaintext aad : Bytes) : Except CryptoError (KeyId × Bytes) :=
  match backend.getMasterKey backend.currentKeyId with
  | none => .error .unknownKey
  | some key =>
    .ok (backend.currentKeyId, nonce.bytes ++ A.encrypt key nonce.bytes plaintext aad)

def decryptBlob (keyId : Option KeyId) (blob aad : Bytes) : Except CryptoError Bytes :=
  match keyId.bind backend.getMasterKey with
  | none => .error .unknownKey
  | some key =>
    match A.decrypt key (blob.take nonceBytes) (blob.drop nonceBytes) aad with
    | none => .error .invalidTag
    | some plaintext => .ok plaintext

/-- The plaintext of the columns, if there is one. -/
def opened (aad : Bytes) (s : Sealed) : Option Bytes :=
  s.blob.bind fun blob => (decryptBlob A backend s.keyId blob aad).toOption

/-- The loop body of `rotate_to_current`: a row without a blob, or under the current key, stays. -/
def rewrap (nonce : Nonce) (aad : Bytes) (s : Sealed) :
    Except CryptoError (Option (KeyId × Bytes)) :=
  match s.blob with
  | none => .ok none
  | some blob =>
    if s.keyId = some backend.currentKeyId then .ok none
    else
      match decryptBlob A backend s.keyId blob aad with
      | .error e => .error e
      | .ok plaintext =>
        match encryptBlob A backend nonce plaintext aad with
        | .error e => .error e
        | .ok wrapped => .ok (some wrapped)

/-- A blob that has to be wrapped again. -/
def Stale (s : Sealed) : Prop := s.blob.isSome ∧ s.keyId ≠ some backend.currentKeyId

instance (s : Sealed) : Decidable (Stale backend s) :=
  inferInstanceAs (Decidable (s.blob.isSome = true ∧ s.keyId ≠ some backend.currentKeyId))

theorem encryptBlob_ok (nonce : Nonce) (plaintext aad : Bytes) :
    ∃ blob, encryptBlob A backend nonce plaintext aad = .ok (backend.currentKeyId, blob) ∧
      opened A backend aad ⟨some blob, some backend.currentKeyId⟩ = some plaintext := by
  obtain ⟨key, hkey⟩ := Option.isSome_iff_exists.mp backend.current_known
  refine ⟨nonce.bytes ++ A.encrypt key nonce.bytes plaintext aad, by rw [encryptBlob, hkey], ?_⟩
  have htake : (nonce.bytes ++ A.encrypt key nonce.bytes plaintext aad).take nonceBytes =
      nonce.bytes := List.take_left' nonce.length_eq
  have hdrop : (nonce.bytes ++ A.encrypt key nonce.bytes plaintext aad).drop nonceBytes =
      A.encrypt key nonce.bytes plaintext aad := List.drop_left' nonce.length_eq
  simp only [opened, decryptBlob, Option.bind_some, hkey, htake, hdrop, A.decrypt_encrypt]
  rfl

/-- A row that stays. -/
theorem rewrap_fresh (nonce : Nonce) (aad : Bytes) (s : Sealed) (h : ¬ Stale backend s) :
    rewrap A backend nonce aad s = .ok none := by
  unfold rewrap
  cases hblob : s.blob with
  | none => rfl
  | some blob =>
    refine if_pos ?_
    by_contra hkey
    exact h ⟨by rw [hblob]; rfl, hkey⟩

/-- A row that is wrapped again opens to the same plaintext, under the current key. -/
theorem rewrap_stale (nonce : Nonce) (aad : Bytes) (s : Sealed) (h : Stale backend s)
    (plaintext : Bytes) (hopened : opened A backend aad s = some plaintext) :
    ∃ blob, rewrap A backend nonce aad s = .ok (some (backend.currentKeyId, blob)) ∧
      opened A backend aad ⟨some blob, some backend.currentKeyId⟩ = some plaintext := by
  obtain ⟨blob, hblob⟩ := Option.isSome_iff_exists.mp h.1
  obtain ⟨wrapped, hwrapped, hopens⟩ := encryptBlob_ok A backend nonce plaintext aad
  refine ⟨wrapped, ?_, hopens⟩
  rw [opened, hblob, Option.bind_some] at hopened
  cases hdecrypt : decryptBlob A backend s.keyId blob aad with
  | error e =>
    rw [hdecrypt] at hopened
    cases hopened
  | ok found =>
    rw [hdecrypt] at hopened
    obtain rfl : found = plaintext := Option.some.inj hopened
    simp only [rewrap, hblob, if_neg h.2, hdecrypt, hwrapped]

theorem rewrap_fails (nonce : Nonce) (aad : Bytes) (s : Sealed) (h : Stale backend s)
    (hclosed : opened A backend aad s = none) :
    ∃ e, rewrap A backend nonce aad s = .error e := by
  obtain ⟨blob, hblob⟩ := Option.isSome_iff_exists.mp h.1
  rw [opened, hblob, Option.bind_some] at hclosed
  cases hdecrypt : decryptBlob A backend s.keyId blob aad with
  | ok found =>
    rw [hdecrypt] at hclosed
    cases hclosed
  | error e => exact ⟨e, by simp only [rewrap, hblob, if_neg h.2, hdecrypt]⟩

/-! ### A cipher for the samples -/

/-- The ciphertext shows everything that it was made of. -/
def plainAead : Aead UInt8 where
  encrypt key nonce data aad := key :: (nonce ++ aad ++ data)
  decrypt key nonce ciphertext aad :=
    if (key :: (nonce ++ aad)).isPrefixOf ciphertext then
      some (ciphertext.drop (key :: (nonce ++ aad)).length)
    else none
  decrypt_encrypt := by
    intro key nonce data aad
    have hsplit : key :: (nonce ++ aad ++ data) = (key :: (nonce ++ aad)) ++ data := rfl
    rw [hsplit, if_pos (List.isPrefixOf_iff_prefix.mpr (List.prefix_append _ _)),
      List.drop_left]

end Hyproxy.SealedBlobs

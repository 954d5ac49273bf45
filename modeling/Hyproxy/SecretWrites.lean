import Hyproxy.KeyRotation
import Hyproxy.ReadCommitted
import Mathlib.Data.List.Basic
import Mathlib.Logic.Function.Basic

/-!
The transactions that write sealed blobs, statement by statement: the rotation of the
master key, `put_connection` and `store_pending_secret`. The rotation reads a table,
wraps its blobs again in memory and writes them back by primary key when it comes to
the next table. An update names only the columns that differ from what was loaded.
Every process has a key file of its own, as it was when the process read it.
-/
namespace Hyproxy.SecretWrites

open ReadCommitted (Program State)
open SealedBlobs

inductive Table
  | signingKeys
  | userTotp
  | resourceConnections
  deriving Repr, DecidableEq

/-- A sealed row: a signing key, the secret of a user, or the connection of a resource. -/
inductive RowId
  | signingKey (id : ℕ)
  | totp (user : ℕ)
  | connection (resource : ℕ)
  deriving Repr, DecidableEq

def RowId.table : RowId → Table
  | .signingKey _ => .signingKeys
  | .totp _ => .userTotp
  | .connection _ => .resourceConnections

def Table.aad : Table → Bytes
  | .signingKeys => (KeyRotation.signingKeys (σ := Unit)).aad
  | .userTotp => (KeyRotation.userTotp (τ := Unit)).aad
  | .resourceConnections => (KeyRotation.resourceConnections (ρ := Unit)).aad

structure Db where
  ids : List RowId
  row : RowId → Option Sealed
  resources : List ℕ
  covers : ∀ id, (row id).isSome → id ∈ ids

/-- `select(model)` -/
def Db.scan (db : Db) (table : Table) : List (RowId × Sealed) :=
  (db.ids.filter fun id => id.table = table).filterMap fun id => (db.row id).map fun s => (id, s)

inductive Write
  | update (id : RowId) (blob : Option (Option Bytes)) (keyId : Option (Option KeyId))
  | insert (id : RowId) (s : Sealed)
  | delete (id : RowId)
  deriving Repr, DecidableEq

def Write.row : Write → RowId
  | .update id _ _ => id
  | .insert id _ => id
  | .delete id => id

/-- What a write makes of its row. -/
def Write.effect : Write → Option Sealed → Option Sealed
  | .update _ blob keyId, s => s.map fun s => ⟨blob.getD s.blob, keyId.getD s.keyId⟩
  | .insert _ s, _ => some s
  | .delete _, _ => none

def apply (db : Db) (w : Write) : Db where
  ids := db.ids.insert w.row
  row := Function.update db.row w.row (w.effect (db.row w.row))
  resources := db.resources
  covers id hrow := by
    by_cases hid : id = w.row
    · rw [hid]
      exact List.mem_insert_self
    · rw [Function.update_of_ne hid] at hrow
      exact List.mem_insert_of_mem (db.covers id hrow)

/-- The update of the columns that differ from what was loaded. -/
def diff (id : RowId) (loaded new : Sealed) : Write :=
  .update id (if new.blob = loaded.blob then none else some new.blob)
    (if new.keyId = loaded.keyId then none else some new.keyId)

variable {Key : Type}

/-- The keys of a process; a key id means the same key everywhere. -/
structure Backend (vault : SecretsBackend Key) where
  keys : SecretsBackend Key
  agrees : ∀ id key, keys.getMasterKey id = some key → vault.getMasterKey id = some key

/-- The flush of a table either checks that every update found its row or it does not; `missed` are
the rows that were deleted and inserted again while their update waited for the lock. -/
structure Rotation (vault : SecretsBackend Key) where
  backend : Backend vault
  checked : Bool
  missed : List RowId

/-- `secret_params` as it is sealed, by `json.dumps` -/
inductive SecretParams
  | absent
  | empty
  | given (plaintext : Bytes)
  deriving Repr, DecidableEq

structure Upsert (vault : SecretsBackend Key) where
  backend : Backend vault
  resource : ℕ
  secretParams : SecretParams

structure Enrollment (vault : SecretsBackend Key) where
  backend : Backend vault
  user : ℕ
  secret : Bytes

inductive Request (vault : SecretsBackend Key)
  | rotateToCurrent (r : Rotation vault)
  | putConnection (r : Upsert vault)
  | storePendingSecret (r : Enrollment vault)

inductive Reply
  | rotated (target : KeyId) (counts : List ℕ)
  | notFound
  | kept (id : RowId)
  | wrote (id : RowId) (plaintext : Option Bytes)
  deriving Repr, DecidableEq

/-- A row as the rotation read it, and as it wants to have it. -/
structure Rewrite where
  id : RowId
  read : Sealed
  new : Sealed
  deriving Repr, DecidableEq

inductive Point (vault : SecretsBackend Key)
  | scan (r : Rotation vault) (tables : List Table) (counts : List ℕ)
  | update (r : Rotation vault) (pending : List Rewrite) (tables : List Table) (counts : List ℕ)
  | resource (r : Upsert vault)
  | load (r : Upsert vault)
  | flush (r : Upsert vault) (loaded : Option Sealed) (new : Sealed)
  | get (r : Enrollment vault)
  | delete (r : Enrollment vault)
  | insert (r : Enrollment vault)
  | answered (reply : Reply)

variable (A : Aead Key) {vault : SecretsBackend Key} (draw : ℕ → ℕ → Nonce)

/-- The rows of a table that are not yet under the current key, wrapped again. -/
def rewrites (backend : SecretsBackend Key) (nonces : ℕ → Nonce) :
    ℕ → List (RowId × Sealed) → Except CryptoError (List Rewrite)
  | _, [] => .ok []
  | drawn, (id, s) :: rest =>
    match rewrap A backend (nonces drawn) id.table.aad s with
    | .error e => .error e
    | .ok none => rewrites backend nonces drawn rest
    | .ok (some wrapped) =>
      (rewrites backend nonces (drawn + 1) rest).map
        (⟨id, s, ⟨some wrapped.2, some wrapped.1⟩⟩ :: ·)

def Rotation.next (r : Rotation vault) (pending : List Rewrite) (tables : List Table)
    (counts : List ℕ) : Point vault :=
  match pending, tables with
  | _ :: _, _ => .update r pending tables counts
  | [], _ :: _ => .scan r tables counts
  | [], [] => .answered (.rotated r.backend.keys.currentKeyId counts)

def scanTable (serial : ℕ) (db : Db) (r : Rotation vault) (tables : List Table)
    (counts : List ℕ) : Option (List Write × Point vault) :=
  match tables with
  | [] => some ([], r.next [] [] counts)
  | table :: rest =>
    match rewrites A r.backend.keys (draw serial) 0 (db.scan table) with
    | .error _ => none
    | .ok pending => some ([], r.next pending rest (counts ++ [pending.length]))

def flushRow (db : Db) (r : Rotation vault) (pending : List Rewrite) (tables : List Table)
    (counts : List ℕ) : Option (List Write × Point vault) :=
  match pending with
  | [] => some ([], r.next [] tables counts)
  | w :: rest =>
    if (db.row w.id).isSome ∧ w.id ∉ r.missed then
      some ([diff w.id w.read w.new], r.next rest tables counts)
    else if r.checked then none
    else some ([], r.next rest tables counts)

def Upsert.id (r : Upsert vault) : RowId := .connection r.resource

def Enrollment.id (r : Enrollment vault) : RowId := .totp r.user

/-- The sealed columns that the request asks for. -/
def Upsert.sealed (r : Upsert vault) (nonce : Nonce) (loaded : Option Sealed) :
    Except CryptoError Sealed :=
  match r.secretParams with
  | .absent => .ok (loaded.getD ⟨none, none⟩)
  | .empty => .ok ⟨none, none⟩
  | .given plaintext =>
    match encryptBlob A r.backend.keys nonce plaintext r.id.table.aad with
    | .error e => .error e
    | .ok (keyId, blob) => .ok ⟨some blob, some keyId⟩

def Upsert.reply (r : Upsert vault) : Reply :=
  match r.secretParams with
  | .absent => .kept r.id
  | .empty => .wrote r.id none
  | .given plaintext => .wrote r.id (some plaintext)

def loadConnection (serial : ℕ) (db : Db) (r : Upsert vault) :
    Option (List Write × Point vault) :=
  match r.sealed A (draw serial 0) (db.row r.id) with
  | .error _ => none
  | .ok new => some ([], .flush r (db.row r.id) new)

/-- The flush of `put_connection`: an insert fails where there is a row by now, and an update where
there is none any more. -/
def flushConnection (db : Db) (r : Upsert vault) (loaded : Option Sealed) (new : Sealed) :
    Option (List Write × Point vault) :=
  match loaded, db.row r.id with
  | none, none => some ([.insert r.id new], .answered r.reply)
  | some loaded, some _ => some ([diff r.id loaded new], .answered r.reply)
  | _, _ => none

def insertTotp (serial : ℕ) (db : Db) (r : Enrollment vault) :
    Option (List Write × Point vault) :=
  match encryptBlob A r.backend.keys (draw serial 0) r.secret r.id.table.aad with
  | .error _ => none
  | .ok (keyId, blob) =>
    if (db.row r.id).isSome then none
    else
      some ([.insert r.id ⟨some blob, some keyId⟩], .answered (.wrote r.id (some r.secret)))

def statement (db : Db) (serial : ℕ) :
    Point vault → Option (List Write × Point vault)
  | .scan r tables counts => scanTable A draw serial db r tables counts
  | .update r pending tables counts => flushRow db r pending tables counts
  | .resource r =>
    if r.resource ∈ db.resources then some ([], .load r) else some ([], .answered .notFound)
  | .load r => loadConnection A draw serial db r
  | .flush r loaded new => flushConnection db r loaded new
  | .get r => some ([], if (db.row r.id).isSome then .delete r else .insert r)
  | .delete r => some ([.delete r.id], .insert r)
  | .insert r => insertTotp A draw serial db r
  | .answered _ => none

def begin : Request vault → Point vault
  | .rotateToCurrent r => .scan r [.signingKeys, .userTotp, .resourceConnections] []
  | .putConnection r => .resource r
  | .storePendingSecret r => .get r

def program : Program (Request vault) Db RowId Write (Point vault) Reply where
  start request _ := begin request
  statement db serial _ p := statement A draw db serial p
  answer
    | .answered reply => some reply
    | _ => none
  apply := apply
  row := Write.row

abbrev Requests (vault : SecretsBackend Key) := State Db Write (Point vault) Reply

abbrev step (s : Requests vault) (e : ReadCommitted.Event (Request vault)) : Requests vault :=
  ReadCommitted.step (program A draw) s e

def start (db : Db) : Requests vault := ⟨db, [], [], 0⟩

end Hyproxy.SecretWrites

import Hyproxy.ChangeJournal

/-!
What the records of the changes show of the entities. The pictures before and after are what the
tables show when the request begins and when it is done; those of a resource have its host and
ports, and connections and passkeys have pictures as well. The journal does not account for these:
a request that replaces a connection sets the target of the resource, and its record names the
connection only.
-/
namespace Hyproxy.ChangePictures

open Administration
open AuthzCheck (evaluateAccess)
open ChangeJournal
open Connections (Columns Failure bind_ok)
open Journals
open KeyRotation (ResourceConnection)
open Runs (Along)
open SealedBlobs

variable {σ τ Key : Type} {vault : SecretsBackend Key} (cfg : Config) (A : Aead Key)

/-! ### Pictures -/

def connectionOf (db : Db σ τ) (id : ℕ) : Option (ResourceConnection Columns) :=
  db.store.connections.find? fun row => row.other.id == id

/-- What the tables show of an entity. -/
def picture (db : Db σ τ) (id : ℕ) : Entity → Option Snapshot
  | .user => (db.accounts.user id).map fun user => .user (userSnapshot db user)
  | .role => (db.role id).map fun role => .role role.name
  | .policy => (db.policy id).map fun p => .policy (policySnapshot p)
  | .resource => (db.store.resource id).map fun r => .resource (resourceSnapshot r)
  | .resourceConnection => (connectionOf db id).map fun row => .connection (connectionSnapshot row)
  | _ => none

def assignment (db : Db σ τ) (user role : ℕ) : Option Snapshot :=
  if db.userRoles.contains (user, role) then some (.userRole role) else none

/-- The record of an entity that the tables show; the picture before is missing exactly in the
record of its creation, and the one after exactly in that of its deletion. -/
structure Tabled (old new : Db σ τ) (c : PolicyChange) : Prop where
  before : c.before = picture old c.entityId c.entityType
  after : c.after = picture new c.entityId c.entityType
  created : c.before = none ↔ c.action = .create
  deleted : c.after = none ↔ c.action = .delete

/-- The assignment of a role, which was there before or is there after. -/
def Assigned (old new : Db σ τ) (c : PolicyChange) : Prop :=
  ∃ role, ((c.entityId, role) ∈ old.userRoles ↔ (c.entityId, role) ∉ new.userRoles) ∧
    c.before = assignment old c.entityId role ∧ c.after = assignment new c.entityId role

/-- The passkey that is gone. -/
def Removed (old new : Db σ τ) (c : PolicyChange) : Prop :=
  c.after = none ∧ ∃ row ∈ old.accounts.credentials, row ∉ new.accounts.credentials ∧
    (cfg.credential row.credentialId).1 = c.entityId ∧
    c.before = some (.credential (cfg.credential row.credentialId).2 row.user)

/-- The resource has a new password, of which the record has the time only. -/
def Rekeyed (new : Db σ τ) (c : PolicyChange) : Prop :=
  c.before = none ∧ ∃ r, new.store.resource c.entityId = some r ∧
    r.publicPasswordHash.isSome ∧ c.after = r.publicPasswordSetAt.map .publicPassword

/-- No session of the user is live. -/
def SignedOut (new : Db σ τ) (c : PolicyChange) : Prop :=
  c.before = none ∧ c.after = some .sessionsRevoked ∧
    ∀ n, ∀ x ∈ new.accounts.sessions n, x.user = c.entityId → x.revokedAt.isSome

/-- What a record shows is so when the request begins and when it is done. -/
def Pictured (old new : Db σ τ) (c : PolicyChange) : Prop :=
  match c.entityType with
  | .userRole => Assigned old new c
  | .webauthnCredential => Removed cfg old new c
  | .resource => if c.action = .rotatePublicPassword then Rekeyed new c else Tabled old new c
  | .session => SignedOut new c
  | .totpReset | .passwordReset | .passwordChange => c.before = none ∧ c.after = none
  | .downloadRequest => c.before = none
  | _ => Tabled old new c

/-- The records that a step adds. -/
def Shows (old new : Db σ τ) : Prop :=
  ∃ added, new.changes = old.changes ++ added ∧ ∀ c ∈ added, Pictured cfg old new c

/-- What holds in every state: a new identifier is larger than those in the table. -/
structure Numbered (db : Db σ τ) : Prop where
  roles : ∀ role ∈ db.roles, role.id < db.next
  policies : ∀ p ∈ db.policies, p.id < db.next
  connections : ∀ row ∈ db.store.connections, row.other.id < db.store.next
  unique : (db.store.connections.map fun row => row.other.id).Nodup

/-- A step that records what it shows. -/
structure Sound (old new : Db σ τ) : Prop where
  shows : Shows cfg old new
  numbered : Numbered new

/-- No picture shows the records. -/
theorem tabled_record (old new : Db σ τ) (c d : PolicyChange) (h : Tabled old new c) :
    Tabled old (new.record d) c := by
  have hpicture : picture (new.record d) c.entityId c.entityType =
      picture new c.entityId c.entityType := by
    cases c.entityType <;> rfl
  exact ⟨h.before, h.after.trans hpicture.symm, h.created, h.deleted⟩

theorem pictured_record (old new : Db σ τ) (c d : PolicyChange) (h : Pictured cfg old new c) :
    Pictured cfg old (new.record d) c := by
  have htabled := tabled_record old new c d
  unfold Pictured at h ⊢
  cases hentity : c.entityType <;> rw [hentity] at h
  case resource =>
    simp only at h ⊢
    split_ifs at h ⊢
    · exact h
    · exact htabled h
  case user | role | policy | resourceConnection => exact htabled h
  all_goals exact h

/-- A request with two records. -/
theorem Sound.more {old new : Db σ τ} (h : Sound cfg old new) (c : PolicyChange)
    (hc : Pictured cfg old new c) : Sound cfg old (new.record c) where
  shows := by
    obtain ⟨added, hadded, hshows⟩ := h.shows
    refine ⟨added ++ [c], ?_, fun d hd => ?_⟩
    · rw [Db.record, hadded, List.append_assoc]
    · rcases List.mem_append.mp hd with hd | hd
      · exact pictured_record cfg old new d c (hshows d hd)
      · rw [List.mem_singleton.mp hd]
        exact pictured_record cfg old new c c hc
  numbered := ⟨h.numbered.roles, h.numbered.policies, h.numbered.connections, h.numbered.unique⟩

theorem Numbered.accounts {db : Db σ τ} (h : Numbered db) (accounts : Accounts.State)
    (displayNames : ℕ → Text) (userRoles : List (ℕ × ℕ)) :
    Numbered { db with
      accounts := accounts
      displayNames := displayNames
      userRoles := userRoles } :=
  ⟨h.roles, h.policies, h.connections, h.unique⟩

section

variable {old new : Db σ τ} {c : PolicyChange} {s s' : Snapshot}

end

/-! ### Accounts -/

section

variable {db db' : Db σ τ} {actor id : ℕ} {m : Moment} (hnumbered : Numbered db)
include hnumbered

omit hnumbered in
/-- A request on the resources that leaves the connections. -/
theorem Numbered.resources (h : Numbered db) (resources : List Connections.Resource) :
    Numbered { db with store := { db.store with resources := resources } } :=
  ⟨h.roles, h.policies, h.connections, h.unique⟩

omit hnumbered in
/-- A connection of its own identifier is added. -/
theorem Numbered.appended (h : Numbered db) (store : Connections.Db σ τ)
    (new : ResourceConnection Columns) (hrows : store.connections = db.store.connections ++ [new])
    (hid : db.store.next ≤ new.other.id) (hnext : new.other.id < store.next) :
    Numbered { db with store := store } := by
  refine ⟨h.roles, h.policies, fun row hrow => ?_, ?_⟩
  · rw [hrows] at hrow
    change row.other.id < store.next
    rcases List.mem_append.mp hrow with hrow | hrow
    · have hlt := h.connections row hrow
      omega
    · exact List.mem_singleton.mp hrow ▸ hnext
  · rw [hrows, List.map_append, List.nodup_append]
    refine ⟨h.unique, List.nodup_singleton _, fun a ha b hb heq => ?_⟩
    obtain ⟨row, hrow, rfl⟩ := List.mem_map.mp ha
    obtain rfl := List.mem_singleton.mp hb
    have heq : row.other.id = new.other.id := heq
    have hlt := h.connections row hrow
    omega

omit hnumbered in
/-- What a PUT writes into the connections. -/
theorem putConnection_rows (env : Connections.Env vault) (store store' : Connections.Db σ τ)
    (body : Connections.Upsert) (h : Connections.putConnection A env store id body = .ok store') :
    store'.next = store.next + 1 ∧ ∃ secret,
      let row := fun n => Connections.connectionRow n id body.protocol body.hostname body.port
        body.params env.now secret
      (store.connection id = none ∧ store'.connections = store.connections ++ [row store.next]) ∨
      ∃ old, store.connection id = some old ∧ store'.connections =
        store.connections.map fun other =>
          if other.other.resource = id then row other.other.id else other := by
  obtain ⟨-, -, h⟩ := bind_ok h
  cases hresource : store.resource id with
  | none =>
    simp only [hresource] at h
    cases h
  | some r =>
    simp only [hresource] at h
    obtain ⟨secret, -, h⟩ := bind_ok h
    obtain ⟨-, -, h⟩ := bind_ok h
    obtain rfl := Except.ok.inj h
    refine ⟨rfl, secret, ?_⟩
    cases hold : store.connection id with
    | none => exact Or.inl ⟨rfl, rfl⟩
    | some old => exact Or.inr ⟨old, rfl, rfl⟩

end

/-! ### Runs -/

end Hyproxy.ChangePictures

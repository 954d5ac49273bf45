import Hyproxy.AccountSteps
import Hyproxy.AuthzCheck
import Hyproxy.Connections
import Hyproxy.Journals

/-!
The management API as far as it changes who may reach what: accounts, roles and their assignment,
policies, resources and connections. A request that changes something adds a record to the table
`policy_changes` in the same transaction, with the entity as it was before and as it is after; one
that fails changes nothing.
-/
namespace Hyproxy.Administration

open Accounts (Status Tier)
open Connections (Failure ResourceCreate ResourcePatch TunnelProtocol Update Upsert require
  shortText unprocessable)
open JsonTexts (Fields)
open KeyRotation (ResourceConnection)
open PolicyEngine (Action Conditions PolicyRule)
open RouteTables (Protocol)
open SealedBlobs

abbrev Text := List Char

/-! ### The records of changes -/

/-- The values of `entity_type`. -/
inductive Entity
  | user
  | role
  | userRole
  | policy
  | resource
  | resourceConnection
  | webauthnCredential
  | session
  | totpReset
  | passwordReset
  | passwordChange
  | downloadRequest
  deriving Repr, DecidableEq

def Entity.text : Entity → String
  | .user => "user"
  | .role => "role"
  | .userRole => "user_role"
  | .policy => "policy"
  | .resource => "resource"
  | .resourceConnection => "resource_connection"
  | .webauthnCredential => "webauthn_credential"
  | .session => "session"
  | .totpReset => "totp_reset"
  | .passwordReset => "password_reset"
  | .passwordChange => "password_change"
  | .downloadRequest => "download_request"

/-- The values of `action`. -/
inductive Change
  | create
  | update
  | delete
  | rotatePublicPassword
  deriving Repr, DecidableEq

def Change.text : Change → String
  | .create => "create"
  | .update => "update"
  | .delete => "delete"
  | .rotatePublicPassword => "rotate_public_password"

structure UserSnapshot where
  email : Text
  displayName : Text
  status : Status
  authTier : Tier
  deriving Repr, DecidableEq

structure PolicySnapshot where
  roleId : ℕ
  resourceId : ℕ
  action : Action
  allowedPorts : Option (List ℤ)
  allowedPaths : Option (List Text)
  conditions : Conditions
  enabled : Bool

/-- What a snapshot of a resource has besides its target. -/
structure Published where
  name : Text
  protocol : Protocol
  publicHost : Option Text
  pathPrefix : Option Text
  enabled : Bool
  publicAccess : Bool
  publicPaths : Option (List Text)
  publicPasswordSet : Bool
  deriving Repr, DecidableEq

structure ResourceSnapshot extends Published where
  host : Text
  ports : List ℤ
  deriving Repr, DecidableEq

structure ConnectionSnapshot where
  protocol : TunnelProtocol
  hostname : Text
  port : ℤ
  params : Fields
  secretKeys : List Text
  hasSecret : Bool
  deriving Repr, DecidableEq

/-- What `change_json` holds of an entity, before or after. -/
inductive Snapshot
  | user (s : UserSnapshot)
  | role (name : Text)
  | userRole (role : ℕ)
  | policy (s : PolicySnapshot)
  | resource (s : ResourceSnapshot)
  | publicPassword (setAt : ℤ)
  | connection (s : ConnectionSnapshot)
  | credential (friendlyName : Text) (user : ℕ)
  | sessionsRevoked
  | download (fields : Fields)

structure PolicyChange where
  actor : ℕ
  entityType : Entity
  entityId : ℕ
  action : Change
  before : Option Snapshot := none
  after : Option Snapshot := none

/-! ### The tables -/

structure Role where
  id : ℕ
  name : Text
  description : Option Text
  deriving Repr, DecidableEq

structure Policy where
  id : ℕ
  roleId : ℕ
  resourceId : ℕ
  action : Action
  allowedPorts : Option (List ℤ)
  allowedPaths : Option (List Text)
  conditions : Conditions
  enabled : Bool

variable {σ τ Key : Type} {vault : SecretsBackend Key}

/-- The tables; `displayNames` is the column `display_name` of the users. -/
structure Db (σ τ : Type) where
  accounts : Accounts.State
  displayNames : ℕ → Text
  roles : List Role
  userRoles : List (ℕ × ℕ)
  policies : List Policy
  store : Connections.Db σ τ
  next : ℕ
  changes : List PolicyChange

/-- The settings of the account tables, what the schema takes as an address, and the columns `id`
and `friendly_name` of each passkey. -/
structure Config extends Accounts.Config where
  emailStr : Text → Option Text
  credential : Text → ℕ × Text

def Db.role (db : Db σ τ) (id : ℕ) : Option Role := db.roles.find? fun role => role.id == id

def Db.policy (db : Db σ τ) (id : ℕ) : Option Policy := db.policies.find? fun p => p.id == id

/-- `record_change` -/
def Db.record (db : Db σ τ) (c : PolicyChange) : Db σ τ := { db with changes := db.changes ++ [c] }

def userSnapshot (db : Db σ τ) (user : Accounts.User) : UserSnapshot :=
  ⟨user.email, db.displayNames user.id, user.status, user.tier⟩

def policySnapshot (p : Policy) : PolicySnapshot :=
  ⟨p.roleId, p.resourceId, p.action, p.allowedPorts, p.allowedPaths, p.conditions, p.enabled⟩

def published (r : Connections.Resource) : Published :=
  { name := r.name
    protocol := r.protocol
    publicHost := r.publicHost
    pathPrefix := r.pathPrefix
    enabled := r.enabled
    publicAccess := r.publicAccess
    publicPaths := r.publicPaths.filter (· ≠ [])
    publicPasswordSet := r.publicPasswordHash.isSome }

def resourceSnapshot (r : Connections.Resource) : ResourceSnapshot :=
  ⟨published r, r.host, r.ports⟩

def connectionSnapshot (row : ResourceConnection Connections.Columns) : ConnectionSnapshot :=
  ⟨row.other.protocol, row.other.hostname, row.other.port, row.other.params, row.other.secretKeys,
    row.secretCiphertext.isSome⟩

/-- A policy as the engine is given it. -/
def PolicySnapshot.rule (p : PolicySnapshot) : PolicyRule ℕ ℕ :=
  { roleId := p.roleId
    resourceId := p.resourceId
    action := p.action
    allowedPorts := p.allowedPorts
    allowedPaths := p.allowedPaths
    conditions := p.conditions
    enabled := p.enabled }

/-- The tables that a decision on access reads, in the database of the decision point. -/
def served (base : AuthzCheck.Db) (db : Db σ τ) : AuthzCheck.Db :=
  { base with
    roles := db.roles.map fun role => ⟨role.id, role.name⟩
    userRoles := db.userRoles
    policies := db.policies.map fun p => (policySnapshot p).rule }

/-! ### Requests -/

structure UserCreate where
  email : Text
  displayName : Text
  authTier : Tier
  tempPassword : Text
  deriving Repr, DecidableEq

structure UserPatch where
  displayName : Option Text
  status : Option Status
  authTier : Option Tier
  deriving Repr, DecidableEq

structure PolicyCreate where
  roleId : ℕ
  resourceId : ℕ
  action : Action
  allowedPorts : Option (List ℤ)
  allowedPaths : Option (List Text)
  conditions : Conditions
  enabled : Bool

structure PolicyPatch where
  action : Update Action := none
  allowedPorts : Update (List ℤ) := none
  allowedPaths : Update (List Text) := none
  conditions : Update Conditions := none
  enabled : Update Bool := none

/-- What a request of the account administration is served with: the time, the identifier and the
hash that it may make. -/
structure Moment where
  now : ℤ
  newId : ℕ
  passwordHash : Text
  deriving Repr, DecidableEq

variable (cfg : Config) (A : Aead Key)

/-- The state of the accounts after a request that was answered without an error. -/
def settled (r : Accounts.State × Login.Response) : Except Failure Accounts.State :=
  match r.2 with
  | .error status message => .error (.http status message)
  | _ => .ok r.1

def password (s : Text) : Bool := 12 ≤ s.length && s.length ≤ 128

def emailOf (s : Text) : Except Failure Text :=
  match cfg.emailStr s with
  | none => .error unprocessable
  | some email => .ok email

def createUser (m : Moment) (actor : ℕ) (db : Db σ τ) (body : UserCreate) :
    Except Failure (Db σ τ) := do
  let email ← emailOf cfg body.email
  require (shortText 128 body.displayName && password body.tempPassword) unprocessable
  let user : Accounts.User :=
    ⟨m.newId, email, .active, body.authTier, m.passwordHash, false⟩
  let accounts ← settled (Passkeys.createUser cfg.toConfig db.accounts user)
  let db' : Db σ τ := { db with
    accounts := accounts
    displayNames := Function.update db.displayNames m.newId body.displayName }
  .ok (db'.record
    { actor := actor
      entityType := .user
      entityId := m.newId
      action := .create
      after := some (.user (userSnapshot db' user)) })

def userOr404 (db : Db σ τ) (id : ℕ) : Except Failure Accounts.User :=
  match db.accounts.user id with
  | none => .error (.http 404 "user not found")
  | some user => .ok user

def patchUser (m : Moment) (actor : ℕ) (db : Db σ τ) (id : ℕ) (body : UserPatch) :
    Except Failure (Db σ τ) := do
  require (body.displayName.all (shortText 128)) unprocessable
  let user ← userOr404 db id
  let accounts ← settled (Passkeys.patchUser db.accounts id body.authTier body.status m.now)
  let db' : Db σ τ := { db with
    accounts := accounts
    displayNames := Function.update db.displayNames id
      (body.displayName.getD (db.displayNames id)) }
  .ok (db'.record
    { actor := actor
      entityType := .user
      entityId := id
      action := .update
      before := some (.user (userSnapshot db user))
      after := some (.user (userSnapshot db'
        { user with
          tier := body.authTier.getD user.tier
          status := body.status.getD user.status })) })

/-- A user who has made a change is not deleted, for the record refers to the row. -/
def deleteUser (actor : ℕ) (db : Db σ τ) (id : ℕ) : Except Failure (Db σ τ) := do
  let user ← userOr404 db id
  require (id != actor) (.http 409 "cannot delete yourself")
  let accounts ← settled (Passkeys.deleteUser db.accounts id)
  require (!db.changes.any fun c => c.actor == id) .raised
  let db' : Db σ τ := { db with
    accounts := accounts
    userRoles := db.userRoles.filter fun row => row.1 ≠ id }
  .ok (db'.record
    { actor := actor
      entityType := .user
      entityId := id
      action := .delete
      before := some (.user (userSnapshot db user)) })

def deleteCredential (actor : ℕ) (db : Db σ τ) (id : ℕ) (credential : Text) :
    Except Failure (Db σ τ) := do
  let accounts ← settled (Passkeys.deleteCredential db.accounts id credential)
  let db' : Db σ τ := { db with accounts := accounts }
  .ok (db'.record
    { actor := actor
      entityType := .webauthnCredential
      entityId := (cfg.credential credential).1
      action := .delete
      before := some (.credential (cfg.credential credential).2 id) })

def revokeSessions (m : Moment) (actor : ℕ) (db : Db σ τ) (id : ℕ) : Except Failure (Db σ τ) := do
  let _ ← userOr404 db id
  let db' : Db σ τ := { db with accounts := Accounts.revokeUserSessions db.accounts id m.now }
  .ok (db'.record
    { actor := actor
      entityType := .session
      entityId := id
      action := .update
      after := some .sessionsRevoked })

def resetTotp (m : Moment) (actor : ℕ) (db : Db σ τ) (id : ℕ) : Except Failure (Db σ τ) := do
  let accounts ← settled (Passkeys.resetTotp db.accounts id m.now)
  let db' : Db σ τ := { db with accounts := accounts }
  .ok (db'.record
    { actor := actor
      entityType := .totpReset
      entityId := id
      action := .update })

def resetPassword (m : Moment) (actor : ℕ) (db : Db σ τ) (id : ℕ) (tempPassword : Text) :
    Except Failure (Db σ τ) := do
  require (password tempPassword) unprocessable
  let accounts ← settled (Passkeys.resetPassword db.accounts id m.passwordHash m.now)
  let db' : Db σ τ := { db with accounts := accounts }
  .ok (db'.record
    { actor := actor
      entityType := .passwordReset
      entityId := id
      action := .update })

def createRole (actor : ℕ) (db : Db σ τ) (name : Text) (description : Option Text) :
    Except Failure (Db σ τ) := do
  require (shortText 64 name) unprocessable
  require (!db.roles.any fun role => role.name == name) (.http 409 "role name exists")
  let db' : Db σ τ := { db with
    roles := db.roles ++ [⟨db.next, name, description⟩]
    next := db.next + 1 }
  .ok (db'.record
    { actor := actor
      entityType := .role
      entityId := db.next
      action := .create
      after := some (.role name) })

/-- `delete_role`, with the assignments and the policies that go with the role. -/
def deleteRole (actor : ℕ) (db : Db σ τ) (id : ℕ) : Except Failure (Db σ τ) :=
  match db.role id with
  | none => .error (.http 404 "role not found")
  | some role =>
    let db' : Db σ τ := { db with
      roles := db.roles.filter fun other => other.id ≠ id
      userRoles := db.userRoles.filter fun row => row.2 ≠ id
      policies := db.policies.filter fun p => p.roleId ≠ id }
    .ok (db'.record
      { actor := actor
        entityType := .role
        entityId := id
        action := .delete
        before := some (.role role.name) })

/-- `attach_role`; an assignment that is there is left, without a record. -/
def attachRole (actor : ℕ) (db : Db σ τ) (user role : ℕ) : Except Failure (Db σ τ) := do
  require ((db.accounts.user user).isSome && (db.role role).isSome)
    (.http 404 "user or role not found")
  if db.userRoles.contains (user, role) then .ok db
  else
    let db' : Db σ τ := { db with userRoles := db.userRoles ++ [(user, role)] }
    .ok (db'.record
      { actor := actor
        entityType := .userRole
        entityId := user
        action := .create
        after := some (.userRole role) })

def detachRole (actor : ℕ) (db : Db σ τ) (user role : ℕ) : Except Failure (Db σ τ) := do
  require (db.userRoles.contains (user, role)) (.http 404 "assignment not found")
  let db' : Db σ τ := { db with userRoles := db.userRoles.filter fun row => row ≠ (user, role) }
  .ok (db'.record
    { actor := actor
      entityType := .userRole
      entityId := user
      action := .delete
      before := some (.userRole role) })

/-- The ports fit the column. -/
def storable (ports : Option (List ℤ)) : Bool :=
  ports.all fun ports => ports.all fun port => -2147483648 ≤ port && port ≤ 2147483647

def createPolicy (actor : ℕ) (db : Db σ τ) (body : PolicyCreate) : Except Failure (Db σ τ) := do
  require (db.role body.roleId).isSome (.http 404 "role not found")
  require (db.store.resource body.resourceId).isSome (.http 404 "resource not found")
  require (storable body.allowedPorts) .raised
  let row : Policy := ⟨db.next, body.roleId, body.resourceId, body.action, body.allowedPorts,
    body.allowedPaths, body.conditions, body.enabled⟩
  let db' : Db σ τ := { db with policies := db.policies ++ [row], next := db.next + 1 }
  .ok (db'.record
    { actor := actor
      entityType := .policy
      entityId := row.id
      action := .create
      after := some (.policy (policySnapshot row)) })

/-- The row after a PATCH, if none of the columns that are not null is set to null. -/
def PolicyPatch.merge (body : PolicyPatch) (row : Policy) : Option Policy := do
  let action ← body.action.getD (some row.action)
  let conditions ← body.conditions.getD (some row.conditions)
  let enabled ← body.enabled.getD (some row.enabled)
  some { row with
    action := action
    allowedPorts := body.allowedPorts.getD row.allowedPorts
    allowedPaths := body.allowedPaths.getD row.allowedPaths
    conditions := conditions
    enabled := enabled }

def policyOr404 (db : Db σ τ) (id : ℕ) : Except Failure Policy :=
  match db.policy id with
  | none => .error (.http 404 "policy not found")
  | some row => .ok row

def merged (body : PolicyPatch) (row : Policy) : Except Failure Policy :=
  match body.merge row with
  | none => .error .raised
  | some new => .ok new

def patchPolicy (actor : ℕ) (db : Db σ τ) (id : ℕ) (body : PolicyPatch) :
    Except Failure (Db σ τ) := do
  let row ← policyOr404 db id
  let new ← merged body row
  require (storable new.allowedPorts) .raised
  let db' : Db σ τ := { db with
    policies := db.policies.map fun other => if other.id = id then new else other }
  .ok (db'.record
    { actor := actor
      entityType := .policy
      entityId := id
      action := .update
      before := some (.policy (policySnapshot row))
      after := some (.policy (policySnapshot new)) })

def deletePolicy (actor : ℕ) (db : Db σ τ) (id : ℕ) : Except Failure (Db σ τ) := do
  let row ← policyOr404 db id
  let db' : Db σ τ := { db with policies := db.policies.filter fun other => other.id ≠ id }
  .ok (db'.record
    { actor := actor
      entityType := .policy
      entityId := id
      action := .delete
      before := some (.policy (policySnapshot row)) })

/-! ### Resources and connections -/

def resourceOr404 (db : Db σ τ) (id : ℕ) : Except Failure Connections.Resource :=
  match db.store.resource id with
  | none => .error (.http 404 "resource not found")
  | some row => .ok row

def Db.resourceAfter (db : Db σ τ) (id : ℕ) : Option Snapshot :=
  (db.store.resource id).map fun row => .resource (resourceSnapshot row)

def Db.connectionAfter (db : Db σ τ) (resource : ℕ) : Option Snapshot :=
  (db.store.connection resource).map fun row => .connection (connectionSnapshot row)

/-- The record of the connection that was made with a resource, if there is one. -/
def Db.recordConnection (db : Db σ τ) (actor resource : ℕ) : Db σ τ :=
  match db.store.connection resource with
  | none => db
  | some row => db.record
      { actor := actor
        entityType := .resourceConnection
        entityId := row.other.id
        action := .create
        after := db.connectionAfter resource }

def createResource (env : Connections.Env vault) (actor : ℕ) (db : Db σ τ)
    (body : ResourceCreate) : Except Failure (Db σ τ) := do
  let store ← Connections.createResource A env db.store body
  let db' : Db σ τ := { db with store := store }
  .ok ((db'.record
    { actor := actor
      entityType := .resource
      entityId := db.store.next
      action := .create
      after := db'.resourceAfter db.store.next }).recordConnection actor db.store.next)

def patchResource (env : Connections.Env vault) (actor : ℕ) (db : Db σ τ) (id : ℕ)
    (body : ResourcePatch) : Except Failure (Db σ τ) := do
  let store ← Connections.patchResource env db.store id body
  let db' : Db σ τ := { db with store := store }
  .ok (db'.record
    { actor := actor
      entityType := .resource
      entityId := id
      action := .update
      before := db.resourceAfter id
      after := db'.resourceAfter id })

def rotatePublicPassword (env : Connections.Env vault) (actor : ℕ) (db : Db σ τ) (id : ℕ) :
    Except Failure (Db σ τ) := do
  let row ← resourceOr404 db id
  require row.publicAccess (.http 422 "resource is not public")
  let store := db.store.setResource { row with
    publicPasswordHash := some env.passwordHash
    publicPasswordSetAt := some env.now }
  let db' : Db σ τ := { db with store := store }
  .ok (db'.record
    { actor := actor
      entityType := .resource
      entityId := id
      action := .rotatePublicPassword
      after := some (.publicPassword env.now) })

/-- `delete_resource`, with the policies that go with the resource. -/
def deleteResource (actor : ℕ) (db : Db σ τ) (id : ℕ) : Except Failure (Db σ τ) := do
  let store ← Connections.deleteResource db.store id
  let db' : Db σ τ := { db with
    store := store
    policies := db.policies.filter fun p => p.resourceId ≠ id }
  .ok (db'.record
    { actor := actor
      entityType := .resource
      entityId := id
      action := .delete
      before := db.resourceAfter id })

def putConnection (env : Connections.Env vault) (actor : ℕ) (db : Db σ τ) (id : ℕ)
    (body : Upsert) : Except Failure (Db σ τ) := do
  let store ← Connections.putConnection A env db.store id body
  let db' : Db σ τ := { db with store := store }
  .ok (db'.record
    { actor := actor
      entityType := .resourceConnection
      entityId := ((db.store.connection id).map fun row => row.other.id).getD db.store.next
      action := if (db.store.connection id).isSome then .update else .create
      before := db.connectionAfter id
      after := db'.connectionAfter id })

def deleteConnection (actor : ℕ) (db : Db σ τ) (id : ℕ) : Except Failure (Db σ τ) := do
  let store ← Connections.deleteConnection db.store id
  let db' : Db σ τ := { db with store := store }
  .ok (db'.record
    { actor := actor
      entityType := .resourceConnection
      entityId := ((db.store.connection id).map fun row => row.other.id).getD 0
      action := .delete
      before := db.connectionAfter id })

/-! ### Runs -/

/-- The requests that `require_recent_stepup` guards. -/
inductive Request (vault : SecretsBackend Key)
  | createUser (m : Moment) (body : UserCreate)
  | patchUser (m : Moment) (id : ℕ) (body : UserPatch)
  | deleteUser (id : ℕ)
  | deleteCredential (id : ℕ) (credential : Text)
  | revokeSessions (m : Moment) (id : ℕ)
  | resetTotp (m : Moment) (id : ℕ)
  | resetPassword (m : Moment) (id : ℕ) (tempPassword : Text)
  | createRole (name : Text) (description : Option Text)
  | deleteRole (id : ℕ)
  | attachRole (user role : ℕ)
  | detachRole (user role : ℕ)
  | createPolicy (body : PolicyCreate)
  | patchPolicy (id : ℕ) (body : PolicyPatch)
  | deletePolicy (id : ℕ)
  | createResource (env : Connections.Env vault) (body : ResourceCreate)
  | patchResource (env : Connections.Env vault) (id : ℕ) (body : ResourcePatch)
  | rotatePublicPassword (env : Connections.Env vault) (id : ℕ)
  | deleteResource (id : ℕ)
  | putConnection (env : Connections.Env vault) (id : ℕ) (body : Upsert)
  | deleteConnection (id : ℕ)

/-- The user behind the token, as `check_request` and `require_admin` look at the row. -/
def requireAdmin (actor : ℕ) (db : Db σ τ) : Except Failure Unit :=
  match db.accounts.user actor with
  | none => .error (.http 401 "invalid_token")
  | some user => do
    require (decide (user.status = .active)) (.http 401 "invalid_token")
    require (decide (user.tier = .admin)) (.http 403 "admin tier required")

def handle (actor : ℕ) (db : Db σ τ) : Request vault → Except Failure (Db σ τ)
  | .createUser m body => createUser cfg m actor db body
  | .patchUser m id body => patchUser m actor db id body
  | .deleteUser id => deleteUser actor db id
  | .deleteCredential id credential => deleteCredential cfg actor db id credential
  | .revokeSessions m id => revokeSessions m actor db id
  | .resetTotp m id => resetTotp m actor db id
  | .resetPassword m id tempPassword => resetPassword m actor db id tempPassword
  | .createRole name description => createRole actor db name description
  | .deleteRole id => deleteRole actor db id
  | .attachRole user role => attachRole actor db user role
  | .detachRole user role => detachRole actor db user role
  | .createPolicy body => createPolicy actor db body
  | .patchPolicy id body => patchPolicy actor db id body
  | .deletePolicy id => deletePolicy actor db id
  | .createResource env body => createResource A env actor db body
  | .patchResource env id body => patchResource env actor db id body
  | .rotatePublicPassword env id => rotatePublicPassword env actor db id
  | .deleteResource id => deleteResource actor db id
  | .putConnection env id body => putConnection A env actor db id body
  | .deleteConnection id => deleteConnection actor db id

/-- The records that the portal makes: of a password that a user has changed, and of downloads. -/
inductive PortalRecord
  | passwordChanged
  | downloadCreated (id : ℕ) (target magnet : Text)
  | downloadReviewed (id : ℕ) (status : Text)
  deriving Repr, DecidableEq

def PortalRecord.change (actor : ℕ) : PortalRecord → PolicyChange
  | .passwordChanged =>
    { actor := actor, entityType := .passwordChange, entityId := actor, action := .update }
  | .downloadCreated id target magnet =>
    { actor := actor
      entityType := .downloadRequest
      entityId := id
      action := .create
      after := some (.download [("target".toList, target), ("magnet".toList, magnet.take 256)]) }
  | .downloadReviewed id status =>
    { actor := actor
      entityType := .downloadRequest
      entityId := id
      action := .update
      after := some (.download [("status".toList, status)]) }

/-- A request of the identity provider that is none of the user administration. -/
abbrev SignIn := { e : Passkeys.Event // AccountSteps.isAdministration e = false }

inductive Event (vault : SecretsBackend Key)
  | request (actor : ℕ) (r : Request vault)
  | portal (actor : ℕ) (r : PortalRecord)
  | signIn (e : SignIn)
  | rotateMasterKey (backend : SecretWrites.Backend vault) (nonces : ℕ → Nonce)

/-- A request has all its effects, or it fails and has none. -/
def commit (db : Db σ τ) : Except Failure (Db σ τ) → Db σ τ
  | .ok db' => db'
  | .error _ => db

def serve (actor : ℕ) (db : Db σ τ) (r : Request vault) : Except Failure (Db σ τ) := do
  requireAdmin actor db
  handle cfg A actor db r

def step (db : Db σ τ) : Event vault → Db σ τ
  | .request actor r => commit db (serve cfg A actor db r)
  | .portal actor r => if (db.accounts.user actor).isSome then db.record (r.change actor) else db
  | .signIn e => { db with accounts := Passkeys.step cfg.toConfig db.accounts e.1 }
  | .rotateMasterKey backend nonces =>
    { db with store := Connections.step A db.store (.rotate backend nonces) }

end Hyproxy.Administration

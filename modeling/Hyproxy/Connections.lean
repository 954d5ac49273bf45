import Hyproxy.JsonTexts
import Hyproxy.KeyRotation
import Hyproxy.PathGlob
import Hyproxy.PublicHosts
import Hyproxy.RouteTables
import Hyproxy.SecretWrites

/-!
The administration of resources and of the connections behind those that are tunnelled. A request
is checked by its schema, then against the rows, and last by the constraints of the database; it
changes all that it changes, or nothing. The rotation of the master key goes over the connections
as well.
-/
namespace Hyproxy.Connections

open JsonTexts (Fields dumps encode)
open KeyRotation (Broken ResourceConnection Rewrapped)
open PublicHosts (normalizePublicHost)
open RouteTables (Protocol)
open SealedBlobs
open SecretWrites (Backend)

abbrev Text := List Char

/-- The protocols of `TUNNEL_PROTOCOLS` -/
inductive TunnelProtocol
  | vnc
  | rdp
  | ssh
  | rtsp
  deriving Repr, DecidableEq

def TunnelProtocol.protocol : TunnelProtocol → Protocol
  | .vnc => .vnc
  | .rdp => .rdp
  | .ssh => .ssh
  | .rtsp => .rtsp

def tunnelOf : Protocol → Option TunnelProtocol
  | .vnc => some .vnc
  | .rdp => some .rdp
  | .ssh => some .ssh
  | .rtsp => some .rtsp
  | _ => none

structure Resource where
  id : ℕ
  name : Text
  protocol : Protocol
  publicHost : Option Text
  host : Text
  ports : List ℤ
  pathPrefix : Option Text
  description : Option Text
  enabled : Bool
  publicAccess : Bool
  publicPaths : Option (List Text)
  publicPasswordHash : Option Text
  publicPasswordSetAt : Option ℤ
  deriving Repr, DecidableEq

/-- The columns of a connection besides the sealed ones. -/
structure Columns where
  id : ℕ
  resource : ℕ
  protocol : TunnelProtocol
  hostname : Text
  port : ℤ
  params : Fields
  secretKeys : List Text
  updatedAt : ℤ
  deriving Repr, DecidableEq

variable {σ τ : Type}

structure Db (σ τ : Type) where
  resources : List Resource
  tables : KeyRotation.Db σ τ Columns
  next : ℕ

def Db.resource (db : Db σ τ) (id : ℕ) : Option Resource := db.resources.find? fun r => r.id == id

def Db.connections (db : Db σ τ) : List (ResourceConnection Columns) :=
  db.tables.resourceConnections

/-- `_load` -/
def Db.connection (db : Db σ τ) (resource : ℕ) : Option (ResourceConnection Columns) :=
  db.connections.find? fun row => row.other.resource == resource

def Db.setConnections (db : Db σ τ) (rows : List (ResourceConnection Columns)) : Db σ τ :=
  { db with tables := { db.tables with resourceConnections := rows } }

def Db.setResource (db : Db σ τ) (r : Resource) : Db σ τ :=
  { db with resources := db.resources.map fun other => if other.id = r.id then r else other }

/-- An `HTTPException`, or another exception. -/
inductive Failure
  | http (status : ℕ) (detail : String)
  | raised
  deriving Repr, DecidableEq

def require (condition : Bool) (e : Failure) : Except Failure Unit :=
  if condition then .ok () else .error e

/-! ### Schemas -/

/-- A field that a schema refuses. -/
def unprocessable : Failure := .http 422 "validation error"

def shortText (most : ℕ) (s : Text) : Bool := 1 ≤ s.length && s.length ≤ most

def isPort (n : ℤ) : Bool := 1 ≤ n && n ≤ 65535

def normalizeHost : Option Text → Except Failure (Option Text)
  | none => .ok none
  | some host => (normalizePublicHost host).mapError (.http 422) |>.map some

def normalizePaths : Option (List Text) → Except Failure (Option (List Text))
  | none => .ok none
  | some paths =>
    (PathGlob.validatePatterns paths).mapError (fun e => .http 422 e.message) |>.map some

structure ConnectionIn where
  hostname : Text
  port : ℤ
  params : Fields
  secretParams : Option Fields
  deriving Repr, DecidableEq

structure ResourceCreate where
  name : Text
  protocol : Protocol
  publicHost : Option Text
  host : Text
  ports : List ℤ
  pathPrefix : Option Text
  description : Option Text
  enabled : Bool
  publicAccess : Bool
  publicPaths : Option (List Text)
  connection : Option ConnectionIn
  deriving Repr, DecidableEq

/-- A field that the body of a PATCH may set, to null as well. -/
abbrev Update (α : Type) := Option (Option α)

structure ResourcePatch where
  name : Update Text := none
  publicHost : Update Text := none
  host : Update Text := none
  ports : Update (List ℤ) := none
  pathPrefix : Update Text := none
  description : Update Text := none
  enabled : Update Bool := none
  publicAccess : Update Bool := none
  publicPaths : Update (List Text) := none
  deriving Repr, DecidableEq

structure Upsert where
  protocol : TunnelProtocol
  hostname : Text
  port : ℤ
  params : Fields
  secretParams : Option Fields
  deriving Repr, DecidableEq

def publicShape (publicAccess : Bool) (protocol : Protocol) (publicHost : Option Text)
    (publicPaths : Option (List Text)) : Except Failure Unit :=
  if !publicAccess then .ok ()
  else if protocol ≠ .http ∧ protocol ≠ .https then
    .error (.http 422 "public access is only available for http/https resources")
  else if publicHost.getD [] = [] then
    .error (.http 422 "a public resource needs a public_host to be reached on")
  else if publicPaths.getD [] = [] then
    .error (.http 422 "a public resource needs at least one public path pattern")
  else .ok ()

/-- `_check_protocol_shape`, with the connection of a tunnelled resource. -/
def protocolShape (body : ResourceCreate) (publicHost : Option Text) :
    Except Failure (Option (TunnelProtocol × ConnectionIn)) :=
  match tunnelOf body.protocol, body.connection with
  | some protocol, some conn =>
    if publicHost.isSome then
      .error (.http 422
        "tunnelled resources are reached via the portal and cannot have a public_host")
    else if protocol = .rtsp ∧ conn.secretParams.getD [] ≠ [] then
      .error (.http 422 "rtsp credentials are supplied per session and are not stored")
    else .ok (some (protocol, conn))
  | some _, none =>
    if publicHost.isSome then
      .error (.http 422
        "tunnelled resources are reached via the portal and cannot have a public_host")
    else .error (.http 422 "vnc/rdp/ssh/rtsp resources require connection details")
  | none, some _ =>
    .error (.http 422 "connection is only valid for vnc/rdp/ssh/rtsp resources")
  | none, none => .ok none

def createFields (body : ResourceCreate) : Bool :=
  shortText 128 body.name && shortText 255 body.host && !body.ports.isEmpty &&
    body.connection.all fun conn => shortText 255 conn.hostname && isPort conn.port

/-- `_check_secrets` and the bounds of the fields -/
def checkUpsert (body : Upsert) : Except Failure Unit := do
  require (shortText 255 body.hostname && isPort body.port) unprocessable
  require (!(body.protocol == .rtsp && body.secretParams.getD [] != []))
    (.http 422 "rtsp credentials are supplied per session and are not stored")

/-! ### Rows -/

variable {Key : Type} {vault : SecretsBackend Key} (A : Aead Key)

/-- What a request needs besides its body: the process with its keys, the nonce and the hash of
the password that it may make, the time, and the host of the gateway. -/
structure Env (vault : SecretsBackend Key) where
  backend : Backend vault
  nonce : Nonce
  passwordHash : Text
  now : ℤ
  authHost : Text

def aad : Bytes := (KeyRotation.resourceConnections (ρ := Columns)).aad

def sortedNames (params : Fields) : List Text :=
  (params.map Prod.fst).mergeSort fun a b => decide (a ≤ b)

/-- The columns of the sealed parameters of a row. -/
structure Secret where
  keyId : Option KeyId
  blob : Option Bytes
  names : List Text

def noSecret : Secret := ⟨none, none, []⟩

def sealSecretParams (env : Env vault) (params : Fields) : Except Failure Secret :=
  match encryptBlob A env.backend.keys env.nonce (encode (dumps params)) aad with
  | .error _ => .error .raised
  | .ok (keyId, blob) => .ok ⟨some keyId, some blob, sortedNames params⟩

def secretOf (row : ResourceConnection Columns) : Secret :=
  ⟨row.keyId, row.secretCiphertext, row.other.secretKeys⟩

/-- Absent parameters keep what the row has, and none clear it. -/
def upsertSecret (env : Env vault) (row : Option (ResourceConnection Columns)) :
    Option Fields → Except Failure Secret
  | none => .ok ((row.map secretOf).getD noSecret)
  | some [] => .ok noSecret
  | some (param :: params) => sealSecretParams A env (param :: params)

/-- `_validate_public_host` -/
def validatePublicHost (env : Env vault) (db : Db σ τ) (publicHost : Option Text)
    (excludeId : Option ℕ) : Except Failure Unit :=
  match publicHost with
  | none => .ok ()
  | some host =>
    if host = PublicHosts.rstripDots (PublicHosts.lower (Text.strip env.authHost)) then
      .error (.http 409 "public_host is reserved (auth host)")
    else if db.resources.any fun r => r.publicHost == some host && some r.id != excludeId then
      .error (.http 409 "public_host already in use")
    else .ok ()

/-- The database stores no NUL. -/
def storableText (s : Text) : Bool := !s.contains '\x00'

/-- What the database accepts as a row: texts without NUL, ports that fit, and the constraint on
public access. -/
def storable (r : Resource) : Bool :=
  (r.name :: r.host :: (r.publicHost.toList ++ r.pathPrefix.toList ++ r.description.toList ++
      r.publicPaths.getD [])).all storableText &&
    (r.ports.all fun port => -2147483648 ≤ port && port ≤ 2147483647) &&
      (!r.publicAccess || ((r.protocol == .http || r.protocol == .https) && r.publicHost.isSome &&
        r.publicPaths.any fun paths => !paths.isEmpty))

/-- What it accepts as the columns of a connection; the sealed parameters show their names. -/
def storableConnection (hostname : Text) (params : Fields) (secretParams : Option Fields) : Bool :=
  storableText hostname && (params.all fun p => storableText p.1 && storableText p.2) &&
    (secretParams.getD []).all fun p => storableText p.1

def connectionRow (id resource : ℕ) (protocol : TunnelProtocol) (hostname : Text) (port : ℤ)
    (params : Fields) (now : ℤ) (secret : Secret) : ResourceConnection Columns :=
  ⟨secret.blob, secret.keyId, ⟨id, resource, protocol, hostname, port, params, secret.names, now⟩⟩

def createResource (env : Env vault) (db : Db σ τ) (body : ResourceCreate) :
    Except Failure (Db σ τ) := do
  let publicHost ← normalizeHost body.publicHost
  let publicPaths ← normalizePaths body.publicPaths
  require (createFields body) unprocessable
  let tunnel ← protocolShape body publicHost
  publicShape body.publicAccess body.protocol publicHost publicPaths
  require (!db.resources.any fun r => r.name == body.name) (.http 409 "resource name exists")
  validatePublicHost env db publicHost none
  let row : Resource :=
    { id := db.next
      name := body.name
      protocol := body.protocol
      publicHost := publicHost
      host := (tunnel.map fun t => t.2.hostname).getD body.host
      ports := (tunnel.map fun t => [t.2.port]).getD body.ports
      pathPrefix := body.pathPrefix
      description := body.description
      enabled := body.enabled
      publicAccess := body.publicAccess
      publicPaths := publicPaths
      publicPasswordHash := if body.publicAccess then some env.passwordHash else none
      publicPasswordSetAt := if body.publicAccess then some env.now else none }
  require (storable row) .raised
  let db' : Db σ τ := { db with resources := db.resources ++ [row], next := db.next + 2 }
  match tunnel with
  | none => .ok db'
  | some (protocol, conn) => do
    let secret ← upsertSecret A env none conn.secretParams
    require (storableConnection conn.hostname conn.params conn.secretParams) .raised
    .ok (db'.setConnections (db.connections ++
      [connectionRow (db.next + 1) row.id protocol conn.hostname conn.port conn.params env.now
        secret]))

/-- The columns that are not null, once the patch is applied. -/
def ResourcePatch.merge (body : ResourcePatch) (row : Resource) (publicHost : Update Text)
    (publicPaths : Update (List Text)) : Option Resource := do
  let name ← body.name.getD (some row.name)
  let host ← body.host.getD (some row.host)
  let ports ← body.ports.getD (some row.ports)
  let enabled ← body.enabled.getD (some row.enabled)
  let publicAccess ← body.publicAccess.getD (some row.publicAccess)
  some { row with
    name := name
    publicHost := publicHost.getD row.publicHost
    host := host
    ports := ports
    pathPrefix := body.pathPrefix.getD row.pathPrefix
    description := body.description.getD row.description
    enabled := enabled
    publicAccess := publicAccess
    publicPaths := publicPaths.getD row.publicPaths
    publicPasswordHash := if publicAccess then row.publicPasswordHash else none
    publicPasswordSetAt := if publicAccess then row.publicPasswordSetAt else none }

def normalizeField {α : Type} (normalize : Option α → Except Failure (Option α)) :
    Update α → Except Failure (Update α)
  | none => .ok none
  | some value => (normalize value).map some

/-- The checks on a public host that a PATCH sets. -/
def checkPublicHost (env : Env vault) (db : Db σ τ) (row : Resource) :
    Update Text → Except Failure Unit
  | none => .ok ()
  | some host => do
    require (!(host.isSome && (tunnelOf row.protocol).isSome)) (.http 422
      "tunnelled resources are reached via the portal and cannot have a public_host")
    validatePublicHost env db host (some row.id)

/-- The row that a PATCH makes, or why it is refused. -/
def patched (env : Env vault) (db : Db σ τ) (id : ℕ) (body : ResourcePatch) :
    Except Failure Resource := do
  let publicHost ← normalizeField normalizeHost body.publicHost
  let publicPaths ← normalizeField normalizePaths body.publicPaths
  match db.resource id with
  | none => .error (.http 404 "resource not found")
  | some row => do
    checkPublicHost env db row publicHost
    publicShape ((body.publicAccess.getD (some row.publicAccess)).getD false) row.protocol
      (publicHost.getD row.publicHost) (publicPaths.getD row.publicPaths)
    match body.merge row publicHost publicPaths with
    | none => .error .raised
    | some new => do
      require (storable new && !db.resources.any fun r => r.name == new.name && r.id != id) .raised
      .ok new

def patchResource (env : Env vault) (db : Db σ τ) (id : ℕ) (body : ResourcePatch) :
    Except Failure (Db σ τ) :=
  (patched env db id body).map db.setResource

def putConnection (env : Env vault) (db : Db σ τ) (id : ℕ) (body : Upsert) :
    Except Failure (Db σ τ) := do
  checkUpsert body
  match db.resource id with
  | none => .error (.http 404 "resource not found")
  | some resource => do
    let secret ← upsertSecret A env (db.connection id) body.secretParams
    require (storableConnection body.hostname body.params body.secretParams) .raised
    let row := fun connectionId => connectionRow connectionId id body.protocol body.hostname
      body.port body.params env.now secret
    let rows := match db.connection id with
      | none => db.connections ++ [row db.next]
      | some _ => db.connections.map fun other =>
        if other.other.resource = id then row other.other.id else other
    .ok { (db.setResource
        { resource with host := body.hostname, ports := [body.port] }).setConnections rows with
      next := db.next + 1 }

def deleteConnection (db : Db σ τ) (id : ℕ) : Except Failure (Db σ τ) :=
  match db.connection id with
  | none => .error (.http 404 "no connection configured")
  | some _ => .ok (db.setConnections (db.connections.filter fun row => row.other.resource != id))

def deleteResource (db : Db σ τ) (id : ℕ) : Except Failure (Db σ τ) :=
  match db.resource id with
  | none => .error (.http 404 "resource not found")
  | some _ =>
    let db' := { db with resources := db.resources.filter fun r => r.id != id }
    .ok (db'.setConnections (db.connections.filter fun row => row.other.resource != id))

/-! ### Runs -/

inductive Event (σ τ : Type) (vault : SecretsBackend Key)
  | createResource (env : Env vault) (body : ResourceCreate)
  | patchResource (env : Env vault) (id : ℕ) (body : ResourcePatch)
  | deleteResource (id : ℕ)
  | putConnection (env : Env vault) (id : ℕ) (body : Upsert)
  | deleteConnection (id : ℕ)
  | rotate (backend : Backend vault) (nonces : ℕ → Nonce)
  | others (keys : List (KeyRotation.SigningKey σ)) (totp : List (KeyRotation.UserTotp τ))

def commit (db : Db σ τ) : Except Failure (Db σ τ) → Db σ τ
  | .ok db' => db'
  | .error _ => db

def step (db : Db σ τ) : Event σ τ vault → Db σ τ
  | .createResource env body => commit db (createResource A env db body)
  | .patchResource env id body => commit db (patchResource env db id body)
  | .deleteResource id => commit db (deleteResource db id)
  | .putConnection env id body => commit db (putConnection A env db id body)
  | .deleteConnection id => commit db (deleteConnection db id)
  | .rotate backend nonces =>
    { db with tables := (KeyRotation.rotate A backend.keys nonces 0 db.tables).1 }
  | .others keys totp =>
    { db with tables := { db.tables with signingKeys := keys, userTotp := totp } }

def initial (σ τ : Type) : Db σ τ := ⟨[], ⟨[], [], []⟩, 0⟩

/-! ### What a step leaves -/

theorem bind_ok {ε α β : Type} {x : Except ε α} {f : α → Except ε β} {b : β}
    (h : (x >>= f) = .ok b) : ∃ a, x = .ok a ∧ f a = .ok b := by
  cases x with
  | error e => cases h
  | ok a => exact ⟨a, rfl, h⟩

theorem require_ok {condition : Bool} {e : Failure} (h : require condition e = .ok ()) :
    condition = true := by
  unfold require at h
  split_ifs at h with hcondition
  exact hcondition

/-- What a POST that succeeds has written. -/
theorem createResource_cases (env : Env vault) (db db' : Db σ τ) (body : ResourceCreate)
    (h : createResource A env db body = .ok db') :
    ∃ (publicHost : Option Text) (tunnel : Option (TunnelProtocol × ConnectionIn))
      (new : Resource), protocolShape body publicHost = .ok tunnel ∧ new.id = db.next ∧
        new.protocol = body.protocol ∧ new.publicHost = publicHost ∧
          new.host = (tunnel.map fun t => t.2.hostname).getD body.host ∧
            new.ports = (tunnel.map fun t => [t.2.port]).getD body.ports ∧
              db'.resources = db.resources ++ [new] ∧ db'.next = db.next + 2 ∧
      (tunnel = none ∧ db'.connections = db.connections ∨
        ∃ t secret, tunnel = some t ∧ upsertSecret A env none t.2.secretParams = .ok secret ∧
          db'.connections = db.connections ++ [connectionRow (db.next + 1) new.id t.1
            t.2.hostname t.2.port t.2.params env.now secret]) := by
  obtain ⟨publicHost, -, h⟩ := bind_ok h
  obtain ⟨publicPaths, -, h⟩ := bind_ok h
  obtain ⟨-, -, h⟩ := bind_ok h
  obtain ⟨tunnel, htunnel, h⟩ := bind_ok h
  obtain ⟨-, -, h⟩ := bind_ok h
  obtain ⟨-, -, h⟩ := bind_ok h
  obtain ⟨-, -, h⟩ := bind_ok h
  obtain ⟨-, -, h⟩ := bind_ok h
  cases tunnel with
  | none =>
    obtain rfl := Except.ok.inj h
    exact ⟨publicHost, none, _, htunnel, rfl, rfl, rfl, rfl, rfl, rfl, rfl, Or.inl ⟨rfl, rfl⟩⟩
  | some t =>
    obtain ⟨secret, hsecret, h⟩ := bind_ok h
    obtain ⟨-, -, h⟩ := bind_ok h
    obtain rfl := Except.ok.inj h
    exact ⟨publicHost, some t, _, htunnel, rfl, rfl, rfl, rfl, rfl, rfl, rfl,
      Or.inr ⟨t, secret, rfl, hsecret, rfl⟩⟩

theorem patchResource_cases (env : Env vault) (db db' : Db σ τ) (id : ℕ) (body : ResourcePatch)
    (h : patchResource env db id body = .ok db') :
    ∃ new, patched env db id body = .ok new ∧ db' = db.setResource new := by
  unfold patchResource at h
  cases hpatched : patched env db id body with
  | error e =>
    rw [hpatched] at h
    cases h
  | ok new =>
    rw [hpatched] at h
    exact ⟨new, rfl, (Except.ok.inj h).symm⟩

/-- What a PUT that succeeds has written: the row of the resource, and no other. -/
theorem putConnection_cases (env : Env vault) (db db' : Db σ τ) (id : ℕ) (body : Upsert)
    (h : putConnection A env db id body = .ok db') :
    ∃ r secret, checkUpsert body = .ok () ∧
      storableConnection body.hostname body.params body.secretParams = true ∧
      db.resource id = some r ∧ upsertSecret A env (db.connection id) body.secretParams = .ok secret ∧
        db'.next = db.next + 1 ∧ db'.resources =
          (db.setResource { r with host := body.hostname, ports := [body.port] }).resources ∧
      (∀ row ∈ db'.connections,
        (∃ connectionId, row = connectionRow connectionId id body.protocol body.hostname
          body.port body.params env.now secret) ∨
        row ∈ db.connections ∧ row.other.resource ≠ id) ∧
      ∃ connectionId, connectionRow connectionId id body.protocol body.hostname body.port
        body.params env.now secret ∈ db'.connections := by
  obtain ⟨⟨⟩, hcheck, h⟩ := bind_ok h
  cases hresource : db.resource id with
  | none =>
    simp only [hresource] at h
    cases h
  | some r =>
    simp only [hresource] at h
    obtain ⟨secret, hsecret, h⟩ := bind_ok h
    obtain ⟨⟨⟩, hstorable, h⟩ := bind_ok h
    obtain rfl := Except.ok.inj h
    refine ⟨r, secret, hcheck, require_ok hstorable, rfl, hsecret, rfl, rfl, ?_⟩
    cases hold : db.connection id with
    | none =>
      have hother : ∀ row ∈ db.connections, row.other.resource ≠ id := fun row hrow => by
        simpa using List.find?_eq_none.mp hold row hrow
      refine ⟨fun row hrow => ?_, db.next,
        List.mem_append_right _ (List.mem_singleton_self _)⟩
      rcases List.mem_append.mp hrow with hrow | hrow
      · exact Or.inr ⟨hrow, hother row hrow⟩
      · exact Or.inl ⟨db.next, List.mem_singleton.mp hrow⟩
    | some old =>
      have hmem := List.mem_of_find?_eq_some hold
      have hid : old.other.resource = id := by simpa using List.find?_some hold
      refine ⟨fun row hrow => ?_, old.other.id, List.mem_map.mpr ⟨old, hmem, if_pos hid⟩⟩
      obtain ⟨other, hother, rfl⟩ := List.mem_map.mp hrow
      split_ifs with hsame
      · exact Or.inl ⟨other.other.id, rfl⟩
      · exact Or.inr ⟨hother, hsame⟩

theorem deleteConnection_cases (db db' : Db σ τ) (id : ℕ)
    (h : deleteConnection db id = .ok db') :
    db' = db.setConnections (db.connections.filter fun row => row.other.resource != id) := by
  unfold deleteConnection at h
  split at h
  · cases h
  · exact (Except.ok.inj h).symm

theorem deleteResource_cases (db db' : Db σ τ) (id : ℕ) (h : deleteResource db id = .ok db') :
    db' = ({ db with resources := db.resources.filter fun r => r.id != id }).setConnections
      (db.connections.filter fun row => row.other.resource != id) := by
  unfold deleteResource at h
  split at h
  · cases h
  · exact (Except.ok.inj h).symm

/-- A PUT that passes its schema and can be stored succeeds, where there is a resource. -/
theorem putConnection_accepts (env : Env vault) (db : Db σ τ) (id : ℕ) (body : Upsert)
    (resource : Resource) (hcheck : checkUpsert body = .ok ())
    (hstorable : storableConnection body.hostname body.params body.secretParams = true)
    (hresource : db.resource id = some resource) :
    ∃ db', putConnection A env db id body = .ok db' := by
  have hsecret : ∃ s, upsertSecret A env (db.connection id) body.secretParams = .ok s := by
    rcases body.secretParams with _ | _ | ⟨param, params⟩
    · exact ⟨_, rfl⟩
    · exact ⟨_, rfl⟩
    · obtain ⟨blob, hsealed, -⟩ := encryptBlob_ok A env.backend.keys env.nonce
        (encode (dumps (param :: params))) aad
      exact ⟨_, by rw [upsertSecret, sealSecretParams, hsealed]⟩
  obtain ⟨s, hs⟩ := hsecret
  rw [putConnection, hcheck]
  simp only [hresource, hs, hstorable, require, if_true]
  exact ⟨_, rfl⟩

theorem commit_keeps (I : Db σ τ → Prop) (db : Db σ τ) (x : Except Failure (Db σ τ)) (hdb : I db)
    (h : ∀ db', x = .ok db' → I db') : I (commit db x) := by
  cases x with
  | error e => exact hdb
  | ok db' => exact h db' rfl

theorem rotate_rows (b : Backend vault) (nonces : ℕ → Nonce) (db : Db σ τ)
    (rows : List (ResourceConnection Columns))
    (h : (KeyRotation.rotate A b.keys nonces 0 db.tables).1.resourceConnections = rows) :
    ∀ row ∈ rows, ∃ old ∈ db.connections, row = old ∨
      Rewrapped A b.keys KeyRotation.resourceConnections old row ∧
        ¬ Broken A b.keys KeyRotation.resourceConnections old := by
  rcases KeyRotation.rotateToCurrent_cases A b.keys nonces 0 db.tables with
    ⟨new, result, hresult, hrotated, hsound⟩ | ⟨new, e, he, -⟩
  · simp only [KeyRotation.rotate, KeyRotation.dbSession, hresult] at h
    obtain rfl := h
    intro row hrow
    obtain ⟨n, hn, rfl⟩ := List.getElem_of_mem hrow
    have hlength := hrotated.resourceConnections.length_eq
    have hrewrapped := List.forall₂_iff_get.mp hrotated.resourceConnections
    have hn' : n < db.tables.resourceConnections.length := by omega
    refine ⟨db.tables.resourceConnections[n], List.getElem_mem hn',
      Or.inr ⟨hrewrapped.2 n hn' hn, fun hbroken => hsound (Or.inr (Or.inr ⟨_, ?_, hbroken⟩))⟩⟩
    exact List.getElem_mem hn'
  · simp only [KeyRotation.rotate, KeyRotation.dbSession, he] at h
    obtain rfl := h
    exact fun row hrow => ⟨row, hrow, Or.inl rfl⟩

end Hyproxy.Connections

import Hyproxy.Administration
import Hyproxy.SealedTokens

/-!
The broker of Guacamole tunnels (`guac/broker.py`) over the tables of the administration. A token
carries the connection behind its resource, with the sealed parameters opened for it; the grant is
kept under the hash of the token, and the data plane has it consumed when the tunnel's WebSocket
connects. One request comes after the other.
-/
namespace Hyproxy.Tunnels

open Administration (served)
open AuthzCheck (AuditLog evaluateAccess)
open BlockModes (BlockCipher)
open Connections (Columns TunnelProtocol)
open JsonValues (Fields Json dict intText setField update)
open KeyRotation (ResourceConnection)
open SealedBlobs
open SealedTokens (loadCypherKey loads mintToken)

abbrev Text := List Char

/-- The settings, the digest, the form in which an address is stored, and AES. -/
structure Config where
  administration : Administration.Config
  guacCypherKey : Text
  guacGrantTtl : ℤ
  sha256Hex : Text → Text
  inet : Text → Option Text
  cipher : BlockCipher Bytes

structure GuacGrant where
  tokenHash : Text
  user : ℕ
  resource : ℕ
  connection : ℕ
  sourceIp : Text
  expiresAt : ℤ
  consumedAt : Option ℤ
  deriving Repr, DecidableEq

variable {σ τ Key : Type} {vault : SecretsBackend Key}

structure State (σ τ : Type) where
  db : Administration.Db σ τ
  audit : List AuditLog
  grants : List GuacGrant

/-- A request for a token, by the user of a live gateway session. -/
structure Call (vault : SecretsBackend Key) where
  user : ℕ
  resource : ℕ
  sourceIp : Text
  now : ℕ
  backend : SecretWrites.Backend vault
  iv : Bytes
  length_iv : iv.length = 16

/-- A connect that the data plane asks about, by the user of a live gateway session. -/
structure Connect where
  user : ℕ
  token : Text
  sourceIp : Text
  now : ℤ
  deriving Repr, DecidableEq

inductive Answer
  | issued (token : Text) (protocol : TunnelProtocol) (expiresAt : ℤ)
  | refused (reason : String)
  | raised
  deriving Repr, DecidableEq

variable (cfg : Config) (A : Aead Key) (base : AuthzCheck.Db)

/-! ### Tokens -/

def protocolText : TunnelProtocol → Text
  | .vnc => "vnc".toList
  | .rdp => "rdp".toList
  | .ssh => "ssh".toList
  | .rtsp => "rtsp".toList

def unsealSecretParams (keys : SecretsBackend Key) (row : ResourceConnection Columns) :
    Option Fields :=
  match row.secretCiphertext, row.keyId with
  | some blob, some keyId =>
    match decryptBlob A keys (some keyId) blob Connections.aad with
    | .error _ => none
    | .ok raw =>
      match loads raw with
      | some (.obj fields) => some fields
      | _ => none
  | _, _ => some []

def texts (fields : JsonTexts.Fields) : Fields := fields.map fun p => (p.1, .str p.2)

/-- The connection in a token. The host and the port are those of the row, whatever the parameters
say. -/
def connObj (protocol : TunnelProtocol) (hostname : Text) (port : ℤ) (params : JsonTexts.Fields)
    (secrets : Fields) : Json :=
  let settings := update (dict (texts params)) secrets
  let settings := setField settings "hostname".toList (.str hostname)
  let settings := setField settings "port".toList (.str (intText port))
  .obj [("connection".toList,
    .obj [("type".toList, .str (protocolText protocol)), ("settings".toList, .obj settings)])]

/-- The token for a connection, unless its parameters cannot be opened or the key does not fit. -/
def tokenFor (c : Call vault) (row : ResourceConnection Columns) : Option Text := do
  let secrets ← unsealSecretParams A c.backend.keys row
  let key ← loadCypherKey cfg.guacCypherKey
  mintToken cfg.cipher key c.iv
    (connObj row.other.protocol row.other.hostname row.other.port row.other.params secrets)

/-! ### Requests -/

def State.audited (s : State σ τ) (c : Call vault) (port : Option ℕ) (decision reason : String)
    (ip : Text) : State σ τ :=
  { s with audit := ⟨some c.user, some c.resource, port, decision, reason, ip⟩ :: s.audit }

/-- The verdict on a user who asks for a tunnel; a connection has no negative port. -/
def access (s : State σ τ) (c : Call vault) (row : ResourceConnection Columns) :
    PolicyEngine.Decision :=
  (evaluateAccess (served base s.db) c.user c.resource row.other.port.toNat "/".toList c.now).decision

def grantOf (c : Call vault) (row : ResourceConnection Columns) (token ip : Text) : GuacGrant :=
  ⟨cfg.sha256Hex token, c.user, c.resource, row.other.id, ip, c.now + cfg.guacGrantTtl, none⟩

/-- `issue_tunnel`. A hash that is taken, or a user who is gone, is refused by the database. -/
def issueTunnel (s : State σ τ) (c : Call vault) : Answer × State σ τ :=
  if cfg.guacCypherKey = [] then (.refused "guac_disabled", s)
  else
    match cfg.inet c.sourceIp with
    | none => (.raised, s)
    | some ip =>
      match (s.db.store.resource c.resource).filter fun r => r.enabled with
      | none => (.refused "unknown_resource", s.audited c none "deny" "unknown_resource" ip)
      | some _ =>
        match s.db.store.connection c.resource with
        | none => (.refused "no_connection", s.audited c none "deny" "no_connection" ip)
        | some row =>
          let decision := access base s c row
          let port := some row.other.port.toNat
          if !decision.allowed then
            (.refused decision.reason.text, s.audited c port "deny" decision.reason.text ip)
          else
            match tokenFor cfg A c row with
            | none => (.raised, s)
            | some token =>
              if s.grants.any (fun g => g.tokenHash == cfg.sha256Hex token) ||
                  (s.db.accounts.user c.user).isNone then
                (.raised, s)
              else
                (.issued token row.other.protocol (c.now + cfg.guacGrantTtl),
                  { s.audited c port "allow" decision.reason.text ip with
                    grants := s.grants ++ [grantOf cfg c row token ip] })

/-- The conditions of the `UPDATE` in `consume_grant`. -/
def Consumable (k : Connect) (ip : Text) (g : GuacGrant) : Prop :=
  g.tokenHash = cfg.sha256Hex k.token ∧ g.consumedAt = none ∧ k.now < g.expiresAt ∧
    g.sourceIp = ip ∧ g.user = k.user

instance (k : Connect) (ip : Text) : DecidablePred (Consumable cfg k ip) := fun _ => by
  unfold Consumable
  infer_instance

/-- `consume_grant`; there is no answer where the address is none. -/
def consumeGrant (s : State σ τ) (k : Connect) : Option Bool × State σ τ :=
  match cfg.inet k.sourceIp with
  | none => (none, s)
  | some ip =>
    (some ((s.grants.filter (Consumable cfg k ip)).length == 1),
      { s with
        grants := s.grants.map fun g =>
          if Consumable cfg k ip g then { g with consumedAt := some k.now } else g })

inductive Event (vault : SecretsBackend Key)
  | administration (e : Administration.Event vault)
  | token (c : Call vault)
  | consume (k : Connect)
  | gc (now : ℤ)

/-- The user and the resource of a grant are there, or the grant goes with them. -/
def Kept (db : Administration.Db σ τ) (g : GuacGrant) : Bool :=
  (db.accounts.user g.user).isSome && (db.store.resource g.resource).isSome

def step (s : State σ τ) : Event vault → State σ τ
  | .administration e =>
    let db := Administration.step cfg.administration A s.db e
    { s with db := db, grants := s.grants.filter (Kept db) }
  | .token c => (issueTunnel cfg A base s c).2
  | .consume k => (consumeGrant cfg s k).2
  | .gc now => { s with
      grants := s.grants.filter fun g => decide (now < g.expiresAt) && g.consumedAt.isNone }

/-! ### What the administration has entered -/

/-- The connection of a resource as it was entered last, with its secrets in plain text. -/
structure Entered where
  protocol : TunnelProtocol
  hostname : Text
  port : ℤ
  params : JsonTexts.Fields
  secrets : JsonTexts.Fields
  deriving Repr, DecidableEq

abbrev Ledger := ℕ → Option Entered

/-- Secrets that are left out stay as they were entered before. -/
def Entered.by (old : Option Entered) (protocol : TunnelProtocol) (hostname : Text) (port : ℤ)
    (params : JsonTexts.Fields) (secrets : Option JsonTexts.Fields) : Entered :=
  ⟨protocol, hostname, port, params, secrets.getD ((old.map Entered.secrets).getD [])⟩

/-- What a request enters that is accepted; `next` is the resource that it may create. -/
def entered (next : ℕ) (p : Ledger) : Administration.Request vault → Ledger
  | .createResource _ body =>
    match Connections.tunnelOf body.protocol, body.connection with
    | some protocol, some conn => Function.update p next
        (some (.by none protocol conn.hostname conn.port conn.params conn.secretParams))
    | _, _ => p
  | .putConnection _ id body => Function.update p id
      (some (.by (p id) body.protocol body.hostname body.port body.params body.secretParams))
  | .deleteConnection id => Function.update p id none
  | .deleteResource id => Function.update p id none
  | _ => p

/-- The ledger after a step of the administration. -/
def enter (db : Administration.Db σ τ) (p : Ledger) : Administration.Event vault → Ledger
  | .request actor r =>
    match Administration.serve cfg.administration A actor db r with
    | .ok _ => entered db.store.next p r
    | .error _ => p
  | _ => p

/-- The value of a parameter: host and port first, then the secrets, then the other parameters; of
a name that is given twice the last value counts. -/
def Entered.setting (x : Entered) (name : Text) : Option Text :=
  if name = "port".toList then some (intText x.port)
  else if name = "hostname".toList then some x.hostname
  else (x.secrets.reverse.lookup name).or (x.params.reverse.lookup name)

end Hyproxy.Tunnels

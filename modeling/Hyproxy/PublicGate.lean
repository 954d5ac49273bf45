import Hyproxy.GateHosts
import Hyproxy.ReadCommitted
import Hyproxy.RouteTables

/-!
The password gate of a public resource and the operations of an administrator
that change what its link grants, statement by statement. The gate reads the row
of the resource, verifies the password and adds a session; an operation updates
the row and revokes the sessions that it finds.
-/
namespace Hyproxy.PublicGate

open AuthzCheck (PublicSession)
open GateHosts (forwardedHost)
open PathGlob (matchesPath)
open PublicHosts (lower)
open ReadCommitted (Program State)
open RouteTables (Protocol ResourceRow)
open Text (cut)

/-- A row of `resources`. The last two fields are not in the table: how often what the link grants
has changed, and how many sessions it has been granted. -/
structure Row extends ResourceRow where
  publicPasswordHash : Option (List Char)
  publicPasswordSetAt : Option ℤ
  changes : ℕ
  grants : ℕ
  deriving Repr, DecidableEq

/-- A session, with what its password check has read. -/
structure Granted where
  session : PublicSession
  hash : List Char
  paths : Option (List (List Char))
  change : ℕ
  deriving Repr, DecidableEq

structure Db where
  resources : List Row
  sessions : List Granted
  deriving Repr, DecidableEq

def Db.resource (db : Db) (id : ℕ) : Option Row := db.resources.find? fun r => r.id == id

structure Config where
  authHost : List Char
  publicSessionBindIp : Bool
  publicSessionTtl : ℤ
  sha256Hex : List Char → List Char
  newToken : ℕ → List Char
  generatePassword : ℕ → List Char
  hashPassword : ℕ → List Char → List Char
  verifyPassword : List Char → List Char → Bool

/-- What is posted to the gate, and the delay that the throttle asks for. -/
structure Form where
  forwardedHost : List Char
  sourceIp : List Char
  cookieCsrf : List Char
  csrf : List Char
  password : List Char
  rd : List Char
  throttled : Option ℕ
  deriving Repr, DecidableEq

/-- The fields that the body of a PATCH sets, null included. -/
structure Patch where
  publicHost : Option (Option (List Char)) := none
  enabled : Option (Option Bool) := none
  publicAccess : Option (Option Bool) := none
  publicPaths : Option (Option (List (List Char))) := none
  deriving Repr, DecidableEq

inductive Request
  | gateSubmit (form : Form)
  | rotatePublicPassword (resource : ℕ)
  | patchResource (resource : ℕ) (body : Patch)
  deriving Repr, DecidableEq

inductive Reply
  | notFound
  | form (error : String) (status : ℕ) (target : List Char) (retryAfter : ℕ)
  | admitted (target : List Char) (session : ℕ) (secret : List Char)
  | rotated (password : List Char)
  | patched
  deriving Repr, DecidableEq

/-- The columns that an UPDATE sets. -/
structure Columns where
  publicHost : Option (Option (List Char)) := none
  enabled : Option Bool := none
  publicAccess : Option Bool := none
  publicPaths : Option (Option (List (List Char))) := none
  publicPasswordHash : Option (Option (List Char)) := none
  publicPasswordSetAt : Option (Option ℤ) := none
  deriving Repr, DecidableEq

/-- The columns say what the link grants. -/
def Columns.alters (c : Columns) : Bool :=
  c.enabled.isSome || c.publicAccess.isSome || c.publicPaths.isSome || c.publicPasswordHash.isSome

def Columns.set (c : Columns) (r : Row) : Row :=
  { r with
    publicHost := c.publicHost.getD r.publicHost
    enabled := c.enabled.getD r.enabled
    publicAccess := c.publicAccess.getD r.publicAccess
    publicPaths := c.publicPaths.getD r.publicPaths
    publicPasswordHash := c.publicPasswordHash.getD r.publicPasswordHash
    publicPasswordSetAt := c.publicPasswordSetAt.getD r.publicPasswordSetAt
    changes := if c.alters then r.changes + 1 else r.changes }

def changed {α : Type} [DecidableEq α] (old new : α) : Option α := if old = new then none else some new

/-- The columns that a flush writes: those with a value other than the loaded one. -/
def diff (old new : Row) : Columns :=
  { publicHost := changed old.publicHost new.publicHost
    enabled := changed old.enabled new.enabled
    publicAccess := changed old.publicAccess new.publicAccess
    publicPaths := changed old.publicPaths new.publicPaths
    publicPasswordHash := changed old.publicPasswordHash new.publicPasswordHash
    publicPasswordSetAt := changed old.publicPasswordSetAt new.publicPasswordSetAt }

/-- `claimHost` locks a host in the unique index. -/
inductive Write
  | updateResource (id : ℕ) (columns : Columns)
  | claimHost (host : List Char)
  | addSession (granted : Granted)
  | revoke (id : ℕ) (now : ℤ)
  deriving Repr, DecidableEq

inductive Key
  | resource (id : ℕ)
  | host (host : List Char)
  | session (id : ℕ)
  deriving Repr, DecidableEq

def Write.row : Write → Key
  | .updateResource id _ => .resource id
  | .claimHost host => .host host
  | .addSession g => .session g.session.id
  | .revoke id _ => .session id

/-- What a write makes of a row of `resources`. -/
def Write.touch : Write → Row → Row
  | .updateResource id c, r => if r.id = id then c.set r else r
  | .claimHost _, r => r
  | .addSession g, r => if r.id = g.session.resource then { r with grants := r.grants + 1 } else r
  | .revoke _ _, r => r

def Granted.revoke (g : Granted) (now : ℤ) : Granted :=
  { g with session := { g.session with revokedAt := some now } }

def Write.keep : Write → List Granted → List Granted
  | .updateResource _ _, sessions => sessions
  | .claimHost _, sessions => sessions
  | .addSession g, sessions => sessions ++ [g]
  | .revoke id now, sessions => sessions.map fun g => if g.session.id = id then g.revoke now else g

def apply (db : Db) (w : Write) : Db := ⟨db.resources.map w.touch, w.keep db.sessions⟩

/-- How many sessions the resource had been granted when an operation looked for them. -/
structure Mark where
  resource : ℕ
  grants : ℕ
  deriving Repr, DecidableEq

/-- The statement that a request comes to next; `seen` is the row that it has read. -/
inductive Point
  | gate (form : Form) (now : ℤ)
  | throttle (form : Form) (now : ℤ) (seen : Row)
  | insert (form : Form) (now : ℤ) (seen : Row) (hash : List Char)
  | rotate (resource : ℕ)
  | patch (resource : ℕ) (body : Patch)
  | patchHost (seen : Row) (body : Patch)
  | flush (seen new cleared : Row) (reply : Reply)
  | revoke (seen new cleared : Row) (reply : Reply)
  | finish (new cleared : Row) (mark : Mark) (reply : Reply)
  | write (seen new : Row) (reply : Reply)
  | answer (reply : Reply) (mark : Option Mark)
  deriving Repr, DecidableEq

/-- `_resource_for_request` -/
def rowForRequest (db : Db) (forwarded : List Char) : Option Row :=
  (forwardedHost forwarded).bind fun host =>
    db.resources.find? fun r =>
      r.publicHost.map lower == some (lower host) && r.enabled && r.publicAccess

def literalPrefix (pattern : List Char) : List Char :=
  if (cut '*' pattern).1 = [] then "/".toList else (cut '*' pattern).1

def safeRd (rd : List Char) (paths : Option (List (List Char))) : List Char :=
  let fallback := literalPrefix (((paths.getD []).head?).getD "/".toList)
  if rd = [] || rd.head? != some '/' || "//".toList.isPrefixOf rd || rd.contains '\\' then fallback
  else if matchesPath paths (cut '#' (cut '?' rd).1).1 then rd
  else fallback

def refused (form : Form) (seen : Row) (error : String) (status retryAfter : ℕ) : Point :=
  .answer (.form error status (safeRd form.rd seen.publicPaths) retryAfter) none

def verify (cfg : Config) (form : Form) (now : ℤ) (seen : Row) : Point :=
  match seen.publicPasswordHash with
  | none => refused form seen "Incorrect password." 401 0
  | some hash =>
    if cfg.verifyPassword hash form.password then .insert form now seen hash
    else refused form seen "Incorrect password." 401 0

def newSession (cfg : Config) (serial : ℕ) (form : Form) (now : ℤ) (seen : Row) : PublicSession :=
  { id := serial
    resource := seen.id
    cookieSecretHash := cfg.sha256Hex (cfg.newToken serial)
    sourceIp := if cfg.publicSessionBindIp then some form.sourceIp else none
    expiresAt := now + cfg.publicSessionTtl * 1000000
    lastSeenAt := now
    revokedAt := none }

/-- `set_public_password` -/
def setPublicPassword (cfg : Config) (serial : ℕ) (now : ℤ) (r : Row) : Row :=
  { r with
    publicPasswordHash := some (cfg.hashPassword serial (cfg.generatePassword serial))
    publicPasswordSetAt := some now }

/-- A column that may not be null raises when it is flushed. -/
def Patch.merge (body : Patch) (seen : Row) : Option Row :=
  match body.enabled.getD (some seen.enabled), body.publicAccess.getD (some seen.publicAccess) with
  | some enabled, some publicAccess =>
    some { seen with
      publicHost := body.publicHost.getD seen.publicHost
      enabled := enabled
      publicAccess := publicAccess
      publicPaths := body.publicPaths.getD seen.publicPaths }
  | _, _ => none

/-- `_validate_public_shape` -/
def validPublicShape (r : Row) : Bool :=
  !r.publicAccess ||
    ((r.protocol == .http || r.protocol == .https) && r.publicHost.getD [] != [] &&
      !(r.publicPaths.getD []).isEmpty)

/-- `resources_public_access_shape_check` -/
def shapeCheck (r : Row) : Bool :=
  !r.publicAccess ||
    ((r.protocol == .http || r.protocol == .https) && r.publicHost.isSome &&
      !(r.publicPaths.getD []).isEmpty)

def tunnelProtocols : List Protocol := [.vnc, .rdp, .ssh, .rtsp]

def hostTaken (db : Db) (id : ℕ) (host : List Char) : Bool :=
  db.resources.any fun r => r.id != id && r.publicHost.map lower == some (lower host)

/-- What has to be true before anything is written. -/
def validPublicHost (cfg : Config) (seen : Row) : Option (Option (List Char)) → Bool
  | some (some host) => !tunnelProtocols.contains seen.protocol && host != cfg.authHost
  | _ => true

def hostFree (db : Db) (id : ℕ) : Option (Option (List Char)) → Bool
  | some (some host) => !hostTaken db id host
  | _ => true

def hostClaim : Option (Option (List Char)) → List Write
  | some (some host) => [.claimHost (lower host)]
  | _ => []

def grantChanged (seen new : Row) (body : Patch) : Bool :=
  (seen.publicAccess && !new.publicAccess) ||
  (new.publicAccess && decide (new.publicPaths.getD [] ≠ seen.publicPaths.getD [])) ||
  (seen.publicAccess && body.enabled.isSome && !new.enabled)

/-- Leave no usable password behind. -/
def clearPassword (r : Row) : Row :=
  if r.publicAccess then r else { r with publicPasswordHash := none, publicPasswordSetAt := none }

/-- The UPDATE of a flush, which is left out when no column has changed. -/
def updateRow (db : Db) (id : ℕ) (c : Columns) : Option (List Write) :=
  if c = {} then some []
  else
    match db.resource id with
    | none => some []
    | some r =>
      if shapeCheck (c.set r) && hostFree db id c.publicHost then
        some (.updateResource id c :: hostClaim c.publicHost)
      else none

/-- `revoke_public_sessions` -/
def revocations (db : Db) (id : ℕ) (now : ℤ) : List Write :=
  (db.sessions.filter fun g => g.session.resource == id && g.session.revokedAt.isNone).map fun g =>
    .revoke g.session.id now

def patchPoint (seen : Row) (body : Patch) : Option Point :=
  match body.merge seen with
  | none => none
  | some new =>
    if validPublicShape new then
      if grantChanged seen new body then some (.flush seen new (clearPassword new) .patched)
      else some (.write seen (clearPassword new) .patched)
    else none

def statement (cfg : Config) (db : Db) (serial : ℕ) (now : ℤ) : Point → Option (List Write × Point)
  | .gate form start =>
    match rowForRequest db form.forwardedHost with
    | none => some ([], .answer .notFound none)
    | some seen =>
      if form.csrf = [] ∨ form.cookieCsrf = [] ∨ form.csrf ≠ form.cookieCsrf then
        some ([], refused form seen "That form expired. Try again." 400 0)
      else some ([], .throttle form start seen)
  | .throttle form start seen =>
    match form.throttled with
    | some retryAfter =>
      some ([], refused form seen "Too many attempts. Wait a moment and try again." 429 retryAfter)
    | none => some ([], verify cfg form start seen)
  | .insert form start seen hash =>
    some ([.addSession ⟨newSession cfg serial form start seen, hash, seen.publicPaths, seen.changes⟩],
      .answer (.admitted (safeRd form.rd seen.publicPaths) serial (cfg.newToken serial)) none)
  | .rotate id =>
    match db.resource id with
    | none => none
    | some seen =>
      if seen.publicAccess then
        let new := setPublicPassword cfg serial now seen
        some ([], .flush seen new new (.rotated (cfg.generatePassword serial)))
      else none
  | .patch id body =>
    match db.resource id with
    | none => none
    | some seen =>
      if validPublicHost cfg seen body.publicHost then some ([], .patchHost seen body) else none
  | .patchHost seen body =>
    if hostFree db seen.id body.publicHost then
      match patchPoint seen body with
      | none => none
      | some p => some ([], p)
    else none
  | .flush seen new cleared reply =>
    match updateRow db seen.id (diff seen new) with
    | none => none
    | some writes => some (writes, .revoke seen new cleared reply)
  | .revoke seen new cleared reply =>
    some (revocations db seen.id now,
      .finish new cleared ⟨seen.id, ((db.resource seen.id).map Row.grants).getD 0⟩ reply)
  | .finish new cleared mark reply =>
    match updateRow db mark.resource (diff new cleared) with
    | none => none
    | some writes => some (writes, .answer reply (some mark))
  | .write seen new reply =>
    match updateRow db seen.id (diff seen new) with
    | none => none
    | some writes => some (writes, .answer reply (some ⟨seen.id, seen.grants⟩))
  | .answer _ _ => none

def program (cfg : Config) : Program Request Db Key Write Point Reply where
  start := fun request now =>
    match request with
    | .gateSubmit form => .gate form now
    | .rotatePublicPassword id => .rotate id
    | .patchResource id body => .patch id body
  statement := statement cfg
  answer := fun p =>
    match p with
    | .answer reply _ => some reply
    | _ => none
  apply := apply
  row := Write.row

abbrev Event : Type := ReadCommitted.Event Request

/-- The table of the resources before any session is granted. -/
def initial (resources : List Row) : State Db Write Point Reply := ⟨⟨resources, []⟩, [], [], 0⟩

def step (cfg : Config) (s : State Db Write Point Reply) (e : Event) : State Db Write Point Reply :=
  ReadCommitted.step (program cfg) s e

def run (cfg : Config) (resources : List Row) (events : List Event) : State Db Write Point Reply :=
  events.foldl (step cfg) (initial resources)

end Hyproxy.PublicGate

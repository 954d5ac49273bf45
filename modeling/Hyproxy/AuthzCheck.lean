import Hyproxy.HostStability
import Hyproxy.PathGlob
import Hyproxy.RequestTarget
import Hyproxy.Sessions
import Mathlib.Data.Char
import Mathlib.Data.List.Lex

/-!
The decision point `/authz/check`, and what its answers rest on: the gateway
session behind a cookie, the public session behind another, the roles of the
user and the policies of the resource. A check reads the database, touches the
sessions that it finds and writes one row of the audit log.
-/
namespace Hyproxy.AuthzCheck

open Accounts (User)
open HostStability (hostStable)
open PathGlob (matchesPath)
open PercentCoding (escape)
open PolicyEngine
open RequestTarget (unreserved)
open Text (cut strip)

structure Resource where
  id : ℕ
  publicHost : Option (List Char)
  ports : List ℤ
  enabled : Bool
  publicAccess : Bool
  publicPaths : Option (List (List Char))
  deriving Repr, DecidableEq

structure Role where
  id : ℕ
  name : List Char
  deriving Repr, DecidableEq

structure GatewaySession where
  id : ℕ
  user : ℕ
  idpSession : ℕ
  cookieSecretHash : List Char
  sourceIp : List Char
  revokedAt : Option ℤ
  deriving Repr, DecidableEq

structure PublicSession where
  id : ℕ
  resource : ℕ
  cookieSecretHash : List Char
  sourceIp : Option (List Char)
  expiresAt : ℤ
  lastSeenAt : ℤ
  revokedAt : Option ℤ
  deriving Repr, DecidableEq

structure AuditLog where
  user : Option ℕ
  resource : Option ℕ
  port : Option ℤ
  decision : String
  reason : String
  sourceIp : List Char
  deriving Repr, DecidableEq

/-- `externalIds` is the column `external_id` of the users. -/
structure Db where
  idp : Sessions.Db
  externalIds : List (ℕ × List Char)
  resources : List Resource
  roles : List Role
  userRoles : List (ℕ × ℕ)
  policies : List (PolicyRule ℕ ℕ)
  gateways : List GatewaySession
  publicSessions : List PublicSession
  audit : List AuditLog

/-- The settings, with what comes from the platform: the digest, the syntax of UUIDs, the form in
which an address is stored, `str.lower` and the comparison of case-insensitive columns. -/
structure Config where
  idp : Sessions.Config
  sha256Hex : List Char → List Char
  uuid : List Char → Option ℕ
  inet : List Char → Option (List Char)
  lower : List Char → List Char
  citext : List Char → List Char
  externalScheme : List Char
  authHost : List Char
  adminConsoleHost : Option (List Char)
  authzCacheTtl : ℤ
  publicSessionBindIp : Bool

structure CheckRequest where
  host : List Char
  method : List Char
  uri : List Char
  sourceIp : List Char
  backendPort : Option ℤ
  gatewayCookie : Option (List Char)
  publicCookie : Option (List Char)
  deriving Repr, DecidableEq

inductive Answer
  | allow
  | deny
  | authRequired
  | notFound
  deriving Repr, DecidableEq

def Answer.text : Answer → String
  | .allow => "allow"
  | .deny => "deny"
  | .authRequired => "auth_required"
  | .notFound => "not_found"

structure CheckResponse where
  decision : Answer
  reason : String
  headers : List (List Char × List Char) := []
  redirect : List Char := []
  cacheScopeHost : Bool := false
  cacheTtlSecs : ℤ := 0
  deriving Repr, DecidableEq

def Db.externalId (db : Db) (user : ℕ) : List Char := (db.externalIds.lookup user).getD []

/-- A cookie of the form `id.secret`. -/
def parseCookie (cfg : Config) : Option (List Char) → Option (ℕ × List Char)
  | none => none
  | some value =>
    if '.' ∈ value then (cfg.uuid (cut '.' value).1).map fun id => (id, (cut '.' value).2)
    else none

/-- The gateway session that a cookie proves to hold, before its liveness is checked. -/
def gatewayOf (cfg : Config) (db : Db) (cookie : Option (List Char)) (ip : List Char)
    (enforceIp : Bool) : Option GatewaySession :=
  match parseCookie cfg cookie with
  | none => none
  | some (id, secret) =>
    match db.gateways.find? fun gw => gw.id == id with
    | none => none
    | some gw =>
      if gw.revokedAt.isSome then none
      else if cfg.sha256Hex secret ≠ gw.cookieSecretHash then none
      else if enforceIp && gw.sourceIp != ip then none
      else some gw

def resolveGatewaySession (cfg : Config) (db : Db) (cookie : Option (List Char)) (ip : List Char)
    (now : ℤ) (enforceIp : Bool) : Option GatewaySession × Db :=
  match gatewayOf cfg db cookie ip enforceIp with
  | none => (none, db)
  | some gw =>
    match db.idp.sessions.lookup gw.idpSession with
    | none => (none, db)
    | some x =>
      match Sessions.checkLiveness cfg.idp db.idp gw.idpSession x ip now false with
      | (false, idp) => (none, { db with idp := idp })
      | (true, idp) => (some gw, { db with idp := idp })

/-- The public session that a cookie proves to hold, on a resource. -/
def publicSessionOf (cfg : Config) (db : Db) (cookie : Option (List Char)) (resource : ℕ)
    (ip : List Char) (now : ℤ) : Option PublicSession :=
  match parseCookie cfg cookie with
  | none => none
  | some (id, secret) =>
    match db.publicSessions.find? fun row => row.id == id with
    | none => none
    | some row =>
      if row.revokedAt.isSome then none
      else if row.resource ≠ resource then none
      else if cfg.sha256Hex secret ≠ row.cookieSecretHash then none
      else if row.expiresAt ≤ now then none
      else if cfg.publicSessionBindIp && row.sourceIp != some ip then none
      else some row

def resolvePublicSession (cfg : Config) (db : Db) (cookie : Option (List Char)) (resource : ℕ)
    (ip : List Char) (now : ℤ) : Option PublicSession × Db :=
  match publicSessionOf cfg db cookie resource ip now with
  | none => (none, db)
  | some row =>
    (some row, { db with publicSessions := db.publicSessions.map fun other =>
      if other.id = row.id then { other with lastSeenAt := now } else other })

structure AccessDecision where
  decision : Decision
  roleNames : List (List Char)
  hostStable : Bool
  deriving Repr, DecidableEq

def rolesOf (db : Db) (user : ℕ) : List Role :=
  db.roles.filter fun role => (user, role.id) ∈ db.userRoles

def policiesOf (db : Db) (resource : ℕ) : List (PolicyRule ℕ ℕ) :=
  db.policies.filter fun policy => policy.resourceId = resource

def evaluateAccess (db : Db) (user resource : ℕ) (port : ℤ) (path : List Char) (now : ℕ) :
    AccessDecision :=
  let roleIds := (rolesOf db user).map Role.id
  let rules := policiesOf db resource
  let decision := evaluate rules ⟨roleIds, resource, port, now⟩ path
  { decision := decision
    roleNames := ((rolesOf db user).map Role.name).mergeSort fun a b => decide (a ≤ b)
    hostStable := hostStable rules decision.allowed roleIds resource port }

/-- The bytes of a text in UTF-8. -/
def utf8 (s : List Char) : List Char :=
  s.flatMap fun c => (String.utf8EncodeChar c).map fun byte => Char.ofNat byte.toNat

/-- `quote(s, safe='')` -/
def quote (s : List Char) : List Char := escape unreserved (utf8 s)

def orSlash (uri : List Char) : List Char := if uri = [] then "/".toList else uri

/-- `(body.uri or "/").split("?", 1)[0]` -/
def pathOf (uri : List Char) : List Char := (cut '?' (orSlash uri)).1

/-- `body.host.strip().lower().rstrip(".")` -/
def hostOf (cfg : Config) (host : List Char) : List Char :=
  (cfg.lower (strip host)).rdropWhile (· = '.')

def resourceOf (cfg : Config) (db : Db) (host : List Char) : Option Resource :=
  db.resources.find? fun resource =>
    resource.publicHost.map cfg.citext == some (cfg.citext host) && resource.enabled

def publicGatePath : List Char := "/__hyproxy/gate".toList

/-- Where `_check_public` sends a visitor to enter the password. -/
def gateUrl (cfg : Config) (host uri : List Char) : List Char :=
  cfg.externalScheme ++ "://".toList ++ host ++ publicGatePath ++ "?rd=".toList ++
    quote (orSlash uri)

def startUrl (cfg : Config) (host uri : List Char) : List Char :=
  cfg.externalScheme ++ "://".toList ++ cfg.authHost ++ "/gateway/start?rd=".toList ++
    quote (cfg.externalScheme ++ "://".toList ++ host ++ orSlash uri)

def signedInUrl (cfg : Config) : List Char := rstripSlash cfg.idp.issuer ++ "/auth/done".toList

/-- An answer with the row of the audit log that belongs to it. -/
structure Audited where
  response : CheckResponse
  user : Option ℕ
  resource : Option ℕ
  port : Option ℤ
  decision : String

/-- A refusal, which is in the audit log as a denial. -/
def refusal (decision : Answer) (reason : String) (user resource : Option ℕ)
    (port : Option ℤ) (redirect : List Char) : Audited :=
  ⟨{ decision := decision, reason := reason, redirect := redirect }, user, resource, port, "deny"⟩

def checkPublic (cfg : Config) (db : Db) (body : CheckRequest) (resource : Resource)
    (host path : List Char) (now : ℤ) : Audited × Db :=
  if !matchesPath resource.publicPaths path then
    (refusal .notFound "public_path_unmatched" none (some resource.id) body.backendPort [], db)
  else
    match resolvePublicSession cfg db body.publicCookie resource.id body.sourceIp now with
    | (none, db) =>
      (refusal .authRequired "public_unauthenticated" none (some resource.id) body.backendPort
        (gateUrl cfg host body.uri), db)
    | (some _, db) =>
      (⟨{ decision := .allow, reason := "public_allowed" }, none, some resource.id,
        body.backendPort, "allow"⟩, db)

def portOf (backendPort : Option ℤ) (resource : Resource) : ℤ :=
  if backendPort.getD 0 ≠ 0 then backendPort.getD 0 else resource.ports.head?.getD 0

/-- The headers that an allowed request is given. -/
def identityOf (db : Db) (user : User) (access : AccessDecision) : List (List Char × List Char) :=
  [("X-Forwarded-User".toList, user.email), ("X-Auth-User-Id".toList, db.externalId user.id),
    ("X-Auth-Roles".toList, [','].intercalate access.roleNames)]

/-- The verdict of the policies on a user. -/
def checkAccess (cfg : Config) (db : Db) (body : CheckRequest) (resource : Resource)
    (path : List Char) (user : User) (now : ℕ) : Audited :=
  let port := portOf body.backendPort resource
  let access := evaluateAccess db user.id resource.id port path now
  let reason := access.decision.reason.text
  if access.decision.allowed then
    let cacheable := access.hostStable && decide (0 < cfg.authzCacheTtl)
    ⟨{ decision := .allow
       reason := reason
       headers := identityOf db user access
       cacheScopeHost := cacheable
       cacheTtlSecs := if cacheable then cfg.authzCacheTtl else 0 },
      some user.id, some resource.id, some port, "allow"⟩
  else refusal .deny reason (some user.id) (some resource.id) (some port) []

/-- The verdict on a gateway session. -/
def checkUser (cfg : Config) (db : Db) (body : CheckRequest) (resource : Resource)
    (host path : List Char) (gw : GatewaySession) (now : ℕ) : Audited :=
  match db.idp.user gw.user with
  | none => refusal .deny "user_inactive" (some gw.user) (some resource.id) body.backendPort []
  | some user =>
    if user.status ≠ .active then
      refusal .deny "user_inactive" (some gw.user) (some resource.id) body.backendPort []
    else if user.tier ≠ .admin ∧ some host = cfg.adminConsoleHost then
      refusal .authRequired "tier_forbidden" (some user.id) (some resource.id) body.backendPort
        (signedInUrl cfg)
    else checkAccess cfg db body resource path user now

def decision (cfg : Config) (db : Db) (body : CheckRequest) (now : ℕ) : Audited × Db :=
  let host := hostOf cfg body.host
  match resourceOf cfg db host with
  | none => (refusal .deny "unknown_resource" none none body.backendPort [], db)
  | some resource =>
    let path := pathOf body.uri
    if resource.publicAccess then checkPublic cfg db body resource host path now
    else
      match resolveGatewaySession cfg db body.gatewayCookie body.sourceIp now true with
      | (none, db) =>
        (refusal .authRequired "unauthenticated" none (some resource.id) body.backendPort
          (startUrl cfg host body.uri), db)
      | (some gw, db) => (checkUser cfg db body resource host path gw now, db)

def Db.record (db : Db) (a : Audited) (ip : List Char) : Db :=
  { db with audit :=
      ⟨a.user, a.resource, a.port, a.decision, a.response.reason, ip⟩ :: db.audit }

/-- `check`. The row of the audit log does not take a text that is no address: the request then
fails, and nothing is written. -/
def check (cfg : Config) (db : Db) (body : CheckRequest) (now : ℕ) : Option CheckResponse × Db :=
  match cfg.inet body.sourceIp with
  | none => (none, db)
  | some ip =>
    let (a, db) := decision cfg db body now
    (some a.response, db.record a ip)

/-- On a public resource nobody is given an identity, and no session is looked at. -/
theorem checkPublic_anonymous (cfg : Config) (db : Db) (body : CheckRequest) (resource : Resource)
    (host path : List Char) (now : ℤ) :
    (checkPublic cfg db body resource host path now).1.response.headers = [] ∧
      (checkPublic cfg db body resource host path now).2.idp = db.idp := by
  unfold checkPublic
  split_ifs
  · exact ⟨rfl, rfl⟩
  · unfold resolvePublicSession
    cases publicSessionOf cfg db body.publicCookie resource.id body.sourceIp now with
    | none => exact ⟨rfl, rfl⟩
    | some row => exact ⟨rfl, rfl⟩

/-- A decision with an identity rests on a gateway session. -/
theorem decision_identified (cfg : Config) (db : Db) (body : CheckRequest) (now : ℕ)
    (h : (decision cfg db body now).1.response.headers ≠ []) :
    ∃ gw db', resolveGatewaySession cfg db body.gatewayCookie body.sourceIp now true =
      (some gw, db') := by
  unfold decision at h
  simp only at h
  cases hresource : resourceOf cfg db (hostOf cfg body.host) with
  | none =>
    rw [hresource] at h
    exact absurd rfl h
  | some resource =>
    rw [hresource] at h
    simp only at h
    split_ifs at h
    · exact absurd (checkPublic_anonymous cfg db body resource _ _ now).1 h
    · rcases hgw : resolveGatewaySession cfg db body.gatewayCookie body.sourceIp now true
        with ⟨gw, db'⟩
      cases gw with
      | some gw => exact ⟨gw, db', rfl⟩
      | none =>
        rw [hgw] at h
        exact absurd rfl h

/-- Of the sessions, a decision touches the one behind the gateway session at most. -/
theorem decision_idp (cfg : Config) (db : Db) (body : CheckRequest) (now : ℕ) :
    (decision cfg db body now).2.idp = db.idp ∨ (decision cfg db body now).2.idp =
      (resolveGatewaySession cfg db body.gatewayCookie body.sourceIp now true).2.idp := by
  unfold decision
  simp only
  cases resourceOf cfg db (hostOf cfg body.host) with
  | none => exact Or.inl rfl
  | some resource =>
    simp only
    split_ifs
    · exact Or.inl (checkPublic_anonymous cfg db body resource _ _ now).2
    · rcases resolveGatewaySession cfg db body.gatewayCookie body.sourceIp now true with ⟨gw, db'⟩
      cases gw with
      | none => exact Or.inr rfl
      | some gw => exact Or.inr rfl

end Hyproxy.AuthzCheck

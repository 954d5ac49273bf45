import Hyproxy.AuthzCheck
import Hyproxy.TokenOperations

/-!
Everything that leads back to a session of the identity provider: its cookie, the
authorization codes and tokens issued for it, the gateway sessions behind which
it stands, the grants minted with their cookies, and the login flow that created
it. Each operation is one step of the system, and time does not run backwards.
-/
namespace Hyproxy.SessionArtifacts

open Accounts (Amr Session User)
open AuthzCheck (CheckRequest CheckResponse GatewaySession Resource Role evaluateAccess
  parseCookie resolveGatewaySession)
open PolicyEngine (PolicyRule)
open RefreshTokens (AuthCode RefreshToken)
open Sessions (AuthRequest AuthedRequest CheckError verifyAccessToken)
open TokenOperations (Operation granted linkedSession operate)

inductive Protocol
  | rtsp
  | other
  deriving Repr, DecidableEq

/-- A row of `resource_connections`. -/
structure Connection where
  resource : ℕ
  protocol : Protocol
  port : ℕ
  deriving Repr, DecidableEq

/-- Which of the two brokers. -/
inductive Broker
  | guac
  | rtsp
  deriving Repr, DecidableEq

/-- A row of `guac_grants` or `rtsp_grants`; `session` remembers the session behind the gateway
session with which it was minted, which the row does not hold. -/
structure Grant where
  broker : Broker
  tokenHash : List Char
  user : ℕ
  sourceIp : List Char
  expiresAt : ℤ
  consumedAt : Option ℤ
  session : ℕ
  deriving Repr, DecidableEq

/-- `flows` holds the completed session of each login flow that has one. -/
structure State where
  authz : AuthzCheck.Db
  codes : List AuthCode
  tokens : List RefreshToken
  flows : List (ℕ × ℕ)
  connections : List Connection
  grants : List Grant
  next : ℕ
  clock : ℕ

structure Config where
  authz : AuthzCheck.Config
  sha256B64url : List Char → List Char
  refreshAbsTtl : ℤ
  authCodeTtl : ℤ
  enabled : Broker → Bool
  grantTtl : Broker → ℤ

def Config.tokens (cfg : Config) : RefreshTokens.Config :=
  ⟨cfg.authz.idp.idleTtl, cfg.authz.idp.sessionTouchInterval, cfg.authz.sha256Hex,
    cfg.sha256B64url⟩

def State.sessions (s : State) : List (ℕ × Session) := s.authz.idp.sessions

def State.setIdp (s : State) (idp : Sessions.Db) : State :=
  { s with authz := { s.authz with idp := idp } }

/-- The tables of the token endpoint. -/
def State.tokenDb (s : State) : RefreshTokens.Db :=
  ⟨s.codes, s.tokens, s.sessions, s.authz.idp.users⟩

def State.setTokenDb (s : State) (db : RefreshTokens.Db) : State :=
  { s with
    authz := { s.authz with idp := { s.authz.idp with sessions := db.sessions, users := db.users } }
    codes := db.codes
    tokens := db.tokens }

inductive Reply
  | session (id : ℕ)
  | code (session : ℕ)
  | tokens (answer : RefreshTokens.Answer)
  | request (outcome : Except CheckError AuthedRequest)
  | gateway (id : ℕ)
  | check (response : CheckResponse)
  | grant
  | allowed
  | refused (reason : String)
  | raised
  | done

/-- A sign-in whose second factor was proven. -/
def finalizeLogin (cfg : Config) (s : State) (flow user : ℕ) (amr : List Amr) (ip secret : List Char)
    (now : ℕ) : Reply × State :=
  match s.authz.idp.user user, s.flows.lookup flow, cfg.authz.inet ip with
  | some u, none, some address =>
    if u.status = .active then
      let x : Session :=
        { user := u.id
          cookieSecretHash := cfg.authz.sha256Hex secret
          sourceIP := address
          tier := u.tier
          amr := amr
          lastSeenAt := now
          absoluteExpiresAt := now + cfg.refreshAbsTtl
          stale := false
          revokedAt := none
          flow := flow }
      let idp := { s.authz.idp with sessions := s.sessions ++ [(s.next, x)] }
      (.session s.next,
        { s.setIdp (idp.emit .sessionCreated true s.next x address) with
          flows := (flow, s.next) :: s.flows
          next := s.next + 1 })
    else (.refused "inactive", s)
  | _, _, _ => (.refused "expired", s)

/-- `get_session_from_cookie` -/
def getSessionFromCookie (cfg : Config) (s : State) (cookie : Option (List Char)) (ip : List Char)
    (now : ℕ) : Option (ℕ × Session) × State :=
  match parseCookie cfg.authz cookie with
  | none => (none, s)
  | some (id, secret) =>
    match s.sessions.lookup id with
    | none => (none, s)
    | some x =>
      if cfg.authz.sha256Hex secret ≠ x.cookieSecretHash then (none, s)
      else
        match Sessions.checkLiveness cfg.authz.idp s.authz.idp id x ip now false with
        | (false, idp) => (none, s.setIdp idp)
        | (true, idp) => (some (id, x), s.setIdp idp)

/-- A page of the identity provider that asks for the browser's session. -/
def page (cfg : Config) (s : State) (cookie : Option (List Char)) (ip : List Char) (now : ℕ) :
    Reply × State :=
  match getSessionFromCookie cfg s cookie ip now with
  | (none, s) => (.refused "no session", s)
  | (some (id, _), s) => (.session id, s)

def logout (cfg : Config) (s : State) (cookie : Option (List Char)) (ip : List Char) (now : ℕ) :
    Reply × State :=
  match getSessionFromCookie cfg s cookie ip now with
  | (none, s) => (.done, s)
  | (some (id, x), s) =>
    (.session id, s.setIdp (Sessions.revoke s.authz.idp id x .sessionRevoked ip now))

/-- What `authorize` puts into a code besides the session. -/
structure CodeParams where
  clientId : List Char
  redirectUri : List Char
  scope : List Char
  codeChallenge : List Char
  deriving Repr, DecidableEq

/-- `authorize`, once the client and the parameters are validated. -/
def authorize (cfg : Config) (s : State) (cookie : Option (List Char)) (ip : List Char)
    (params : CodeParams) (newCode : List Char) (now : ℕ) : Reply × State :=
  match getSessionFromCookie cfg s cookie ip now with
  | (none, s) => (.refused "login", s)
  | (some (id, _), s') =>
    let hash := cfg.authz.sha256Hex newCode
    if s'.codes.any fun row => row.codeHash == hash then (.raised, s)
    else
      (.code id,
        { s' with codes := s'.codes ++
          [⟨hash, params.clientId, id, params.redirectUri, params.scope, params.codeChallenge,
            now + cfg.authCodeTtl, none⟩] })

/-- A request of the token endpoint, of the revocation endpoint, or of the administration of a
user's sessions. -/
def token (cfg : Config) (s : State) (request : RefreshTokens.Request) (now : ℕ) : Reply × State :=
  let budget := TokenOperations.rank s.tokenDb (RefreshTokens.start request now) + 1
  match operate cfg.tokens s.next s.tokenDb request now with
  | .commits answer db => (.tokens answer, { s.setTokenDb db with next := s.next + budget })
  | .raises => (.raised, s)
  | .unfinished => (.raised, s)

/-- A request to a resource server; some roll back what a rejected request has written. -/
def request (cfg : Config) (s : State) (r : AuthRequest) (rollback : Bool) (now : ℕ) :
    Reply × State :=
  match Sessions.checkRequest cfg.authz.idp s.authz.idp r now with
  | (.error e, idp) => (.request (.error e), if rollback then s else s.setIdp idp)
  | (.ok authed, idp) => (.request (.ok authed), s.setIdp idp)

def resumeCompletedLogin (cfg : Config) (s : State) (flow : ℕ) (ip secret : List Char) (now : ℕ) :
    Reply × State :=
  match s.flows.lookup flow with
  | none => (.refused "not completed", s)
  | some id =>
    match s.sessions.lookup id with
    | none => (.refused "gone", s)
    | some x =>
      match Sessions.checkLiveness cfg.authz.idp s.authz.idp id x ip now true with
      | (false, idp) => (.refused "not live", s.setIdp idp)
      | (true, idp) =>
        (.session id, s.setIdp (idp.setSession id fun x =>
          { x with cookieSecretHash := cfg.authz.sha256Hex secret }))

/-- The gateway's `callback`, with the access token that the token endpoint has sent it. -/
def callback (cfg : Config) (s : State) (accessToken ip secret : List Char) (now : ℕ) :
    Reply × State :=
  match verifyAccessToken cfg.authz.idp accessToken now, cfg.authz.inet ip with
  | .ok claims, some address =>
    match s.sessions.lookup claims.sid with
    | none => (.refused "sign-in failed, start over", s)
    | some x =>
      let gw : GatewaySession :=
        { id := s.next
          user := x.user
          idpSession := claims.sid
          cookieSecretHash := cfg.authz.sha256Hex secret
          sourceIp := address
          revokedAt := none }
      (.done, { s with
        authz := { s.authz with gateways := s.authz.gateways ++ [gw] }
        next := s.next + 1 })
  | .ok _, none => (.raised, s)
  | .error _, _ => (.refused "sign-in failed, start over", s)

def check (cfg : Config) (s : State) (body : CheckRequest) (now : ℕ) : Reply × State :=
  match AuthzCheck.check cfg.authz s.authz body now with
  | (none, _) => (.raised, s)
  | (some response, authz) => (.check response, { s with authz := authz })

def gatewayLogout (cfg : Config) (s : State) (cookie : Option (List Char)) (ip : List Char)
    (now : ℕ) : Reply × State :=
  match resolveGatewaySession cfg.authz s.authz cookie ip now true with
  | (none, authz) => (.done, { s with authz := authz })
  | (some gw, authz) =>
    (.gateway gw.id, { s with authz := { authz with gateways := authz.gateways.map fun row =>
      if row.id = gw.id then { row with revokedAt := some (now : ℤ) } else row } })

/-- The camera bridge leaves the address to the grant. -/
def Broker.enforcesIp : Broker → Bool
  | .guac => true
  | .rtsp => false

def Broker.accepts : Broker → Protocol → Bool
  | .guac, _ => true
  | .rtsp, protocol => protocol = .rtsp

def State.audited (s : State) (user resource : ℕ) (port : Option ℕ) (decision reason : String)
    (ip : List Char) : State :=
  { s with authz := { s.authz with audit :=
    ⟨some user, some resource, port, decision, reason, ip⟩ :: s.authz.audit } }

/-- `issue_tunnel` and `issue_stream`, for a gateway session. -/
def issue (cfg : Config) (s : State) (broker : Broker) (gw : GatewaySession) (resource : ℕ)
    (ip newToken : List Char) (now : ℕ) : Reply × State :=
  if !cfg.enabled broker then (.refused "disabled", s)
  else
    match cfg.authz.inet ip with
    | none => (.raised, s)
    | some ip =>
      match s.authz.resources.find? fun row => row.id == resource && row.enabled with
      | none =>
        (.refused "unknown_resource",
          s.audited gw.user resource none "deny" "unknown_resource" ip)
      | some _ =>
        match s.connections.find? fun row => row.resource == resource with
        | none => (.refused "no_connection", s.audited gw.user resource none "deny" "no_connection" ip)
        | some connection =>
          if !broker.accepts connection.protocol then
            (.refused "no_connection", s.audited gw.user resource none "deny" "no_connection" ip)
          else
            let decision :=
              (evaluateAccess s.authz gw.user resource connection.port "/".toList now).decision
            let port := some connection.port
            if !decision.allowed then
              (.refused decision.reason.text,
                s.audited gw.user resource port "deny" decision.reason.text ip)
            else if s.grants.any fun row =>
                row.broker == broker && row.tokenHash == cfg.authz.sha256Hex newToken then
              (.raised, s)
            else
              (.grant,
                { s.audited gw.user resource port "allow" decision.reason.text ip with
                  grants := s.grants ++ [⟨broker, cfg.authz.sha256Hex newToken, gw.user, ip,
                    now + cfg.grantTtl broker, none, gw.idpSession⟩] })

/-- `guac_token` and `rtsp_token` -/
def issueGrant (cfg : Config) (s : State) (broker : Broker) (cookie : Option (List Char))
    (ip : List Char) (resource : ℕ) (newToken : List Char) (now : ℕ) : Reply × State :=
  match resolveGatewaySession cfg.authz s.authz cookie ip now broker.enforcesIp with
  | (none, authz) => (.refused "auth_required", { s with authz := authz })
  | (some gw, authz) =>
    match issue cfg { s with authz := authz } broker gw resource ip newToken now with
    | (.raised, _) => (.raised, s)
    | reply => reply

/-- The conditions of the `UPDATE` in `consume_grant`. -/
def Consumable (cfg : Config) (broker : Broker) (token ip : List Char) (now : ℤ) (user : ℕ)
    (row : Grant) : Prop :=
  row.broker = broker ∧ row.tokenHash = cfg.authz.sha256Hex token ∧ row.consumedAt = none ∧
    now < row.expiresAt ∧ row.sourceIp = ip ∧ row.user = user

instance (cfg : Config) (broker : Broker) (token ip : List Char) (now : ℤ) (user : ℕ) :
    DecidablePred (Consumable cfg broker token ip now user) := fun _ => by
  unfold Consumable
  infer_instance

/-- `guac_consume` and `rtsp_consume` -/
def consumeGrant (cfg : Config) (s : State) (broker : Broker) (cookie : Option (List Char))
    (ip token : List Char) (now : ℕ) : Reply × State :=
  match resolveGatewaySession cfg.authz s.authz cookie ip now broker.enforcesIp with
  | (none, authz) => (.refused "auth_required", { s with authz := authz })
  | (some gw, authz) =>
    match cfg.authz.inet ip with
    | none => (.raised, s)
    | some ip =>
      let rows := s.grants.filter (Consumable cfg broker token ip now gw.user)
      let s := { s with
        authz := authz
        grants := s.grants.map fun row =>
          if Consumable cfg broker token ip now gw.user row then
            { row with consumedAt := some (now : ℤ) }
          else row }
      if rows.length = 1 then (.allowed, s) else (.refused "invalid_grant", s)

/-- The tables that the administration keeps. -/
structure Tables where
  resources : List Resource
  roles : List Role
  userRoles : List (ℕ × ℕ)
  policies : List (PolicyRule ℕ ℕ)
  connections : List Connection

def State.setTables (s : State) (t : Tables) : State :=
  { s with
    authz := { s.authz with
      resources := t.resources
      roles := t.roles
      userRoles := t.userRoles
      policies := t.policies }
    connections := t.connections }

def State.setUser (s : State) (u : User) (externalId : List Char) : State :=
  { s with authz := { s.authz with
      idp := { s.authz.idp with users := u :: s.authz.idp.users.filter fun v => v.id != u.id }
      externalIds := (u.id, externalId) :: s.authz.externalIds } }

/-- The deletion of a user takes everything along that belongs to the user. -/
def State.deleteUser (s : State) (id : ℕ) : State :=
  let sessions := s.sessions.filter fun entry => entry.2.user != id
  { s with
    authz := { s.authz with
      idp := { s.authz.idp with
        users := s.authz.idp.users.filter fun u => u.id != id
        sessions := sessions }
      userRoles := s.authz.userRoles.filter fun row => row.1 != id
      gateways := s.authz.gateways.filter fun gw => gw.user != id }
    codes := s.codes.filter fun row => (sessions.lookup row.session).isSome
    tokens := s.tokens.filter fun row => row.user != id
    flows := s.flows.filter fun row => (sessions.lookup row.2).isSome
    grants := s.grants.filter fun row => row.user != id }

inductive Op
  | finalizeLogin (flow user : ℕ) (amr : List Amr) (ip secret : List Char)
  | page (cookie : Option (List Char)) (ip : List Char)
  | logout (cookie : Option (List Char)) (ip : List Char)
  | authorize (cookie : Option (List Char)) (ip : List Char) (params : CodeParams)
      (newCode : List Char)
  | token (request : Subtype Operation)
  | request (r : AuthRequest) (rollback : Bool)
  | resumeCompletedLogin (flow : ℕ) (ip secret : List Char)
  | callback (accessToken ip secret : List Char)
  | check (body : CheckRequest)
  | gatewayLogout (cookie : Option (List Char)) (ip : List Char)
  | issueGrant (broker : Broker) (cookie : Option (List Char)) (ip : List Char) (resource : ℕ)
      (newToken : List Char)
  | consumeGrant (broker : Broker) (cookie : Option (List Char)) (ip token : List Char)
  | setTables (t : Tables)
  | setUser (u : User) (externalId : List Char)
  | deleteUser (id : ℕ)

def perform (cfg : Config) (s : State) (op : Op) (now : ℕ) : Reply × State :=
  match op with
  | .finalizeLogin flow user amr ip secret => finalizeLogin cfg s flow user amr ip secret now
  | .page cookie ip => page cfg s cookie ip now
  | .logout cookie ip => logout cfg s cookie ip now
  | .authorize cookie ip params newCode => authorize cfg s cookie ip params newCode now
  | .token r => token cfg s r.1 now
  | .request r rollback => request cfg s r rollback now
  | .resumeCompletedLogin flow ip secret => resumeCompletedLogin cfg s flow ip secret now
  | .callback accessToken ip secret => callback cfg s accessToken ip secret now
  | .check body => check cfg s body now
  | .gatewayLogout cookie ip => gatewayLogout cfg s cookie ip now
  | .issueGrant broker cookie ip resource newToken =>
    issueGrant cfg s broker cookie ip resource newToken now
  | .consumeGrant broker cookie ip token => consumeGrant cfg s broker cookie ip token now
  | .setTables t => (.done, s.setTables t)
  | .setUser u externalId => (.done, s.setUser u externalId)
  | .deleteUser id => (.done, s.deleteUser id)

/-- An operation, and the time that has passed since the one before. -/
structure Event where
  elapsed : ℕ
  op : Op

def reply (cfg : Config) (s : State) (e : Event) : Reply :=
  (perform cfg s e.op (s.clock + e.elapsed)).1

def step (cfg : Config) (s : State) (e : Event) : State :=
  { (perform cfg s e.op (s.clock + e.elapsed)).2 with clock := s.clock + e.elapsed }

def initial (start : ℕ) : State :=
  ⟨⟨⟨[], [], [], []⟩, [], [], [], [], [], [], [], []⟩, [], [], [], [], [], 0, start⟩

def after (cfg : Config) (start : ℕ) (events : List Event) : State :=
  events.foldl (step cfg) (initial start)

/-- What the caller of the operation hopes for; a check of a public resource allows without
looking at the gateway cookie. -/
def Reply.succeeds : Reply → Bool
  | .session _ => true
  | .code _ => true
  | .tokens answer => granted answer
  | .request (.ok _) => true
  | .gateway _ => true
  | .check response => response.decision = .allow && !response.headers.isEmpty
  | .grant => true
  | .allowed => true
  | _ => false

/-- The session behind a gateway cookie. -/
def gatewayLink (cfg : Config) (s : State) (cookie : Option (List Char)) : Option ℕ :=
  match parseCookie cfg.authz cookie with
  | none => none
  | some (id, _) =>
    (s.authz.gateways.find? fun gw => gw.id == id).map GatewaySession.idpSession

/-- The session to which the artifact is linked that an operation presents: a session cookie, an
authorization code or a token, a gateway cookie, or the login flow of a completed sign-in. -/
def link (cfg : Config) (s : State) (now : ℕ) : Op → Option ℕ
  | .page cookie _ => (parseCookie cfg.authz cookie).map Prod.fst
  | .logout cookie _ => (parseCookie cfg.authz cookie).map Prod.fst
  | .authorize cookie _ _ _ => (parseCookie cfg.authz cookie).map Prod.fst
  | .token r => linkedSession cfg.tokens s.tokenDb r.1
  | .request r _ =>
    match Sessions.accessClaims cfg.authz.idp r now with
    | .ok (_, claims) => some claims.sid
    | .error _ => none
  | .resumeCompletedLogin flow _ _ => s.flows.lookup flow
  | .check body => gatewayLink cfg s body.gatewayCookie
  | .gatewayLogout cookie _ => gatewayLink cfg s cookie
  | .issueGrant _ cookie _ _ _ => gatewayLink cfg s cookie
  | .consumeGrant _ cookie _ _ => gatewayLink cfg s cookie
  | _ => none

/-- The session with which the grant was minted that an operation presents. -/
def grantLink (cfg : Config) (s : State) : Op → Option ℕ
  | .consumeGrant broker _ _ token =>
    (s.grants.find? fun row =>
      row.broker == broker && row.tokenHash == cfg.authz.sha256Hex token).map Grant.session
  | _ => none

end Hyproxy.SessionArtifacts

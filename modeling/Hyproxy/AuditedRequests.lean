import Hyproxy.Attempts
import Hyproxy.AuditDetails
import Hyproxy.Sessions

/-!
The endpoints that issue codes and tokens, with the entries of the audit trail that they write in
their own transaction. The database and the key service may fail where they store or sign what
comes from a request; else a request fails only if the trail refuses the details of an entry.
-/
namespace Hyproxy.AuditedRequests

open Attempts (Attempt Meets settle)
open AuditDetails
open RefreshTokens (RefreshToken asciiAlnum pkceText verifyS256)

abbrev Text := List Char

structure OAuthClient where
  clientId : Text
  redirectUris : List Text
  allowedScopes : List Text
  enabled : Bool
  deriving Repr, DecidableEq

structure Session extends Accounts.Session where
  issuedAt : ℤ
  deriving Repr, DecidableEq

structure AuthCode where
  codeHash : Text
  clientId : Text
  user : ℕ
  session : ℕ
  redirectUri : Text
  scope : Text
  nonce : Text
  codeChallenge : Text
  authTime : ℤ
  expiresAt : ℤ
  consumedAt : Option ℤ
  deriving Repr, DecidableEq

/-- The request that waits for a sign-in. -/
structure OidcRequest where
  clientId : Text
  redirectUri : Text
  scope : Text
  state : Text
  nonce : Text
  codeChallenge : Text
  deriving Repr, DecidableEq

structure LoginFlow where
  id : ℕ
  csrfTokenHash : Text
  sourceIp : Text
  oidcRequest : OidcRequest
  expiresAt : ℤ
  deriving Repr, DecidableEq

structure AuthEvent where
  eventType : String
  sourceIp : Text
  success : Bool
  user : Option ℕ
  session : Option ℕ
  client : Option Text
  detail : Detail
  deriving Repr, DecidableEq

structure Db where
  clients : List OAuthClient
  users : List Accounts.User
  sessions : List (ℕ × Session)
  codes : List AuthCode
  tokens : List RefreshToken
  flows : List LoginFlow
  events : List AuthEvent
  deriving Repr, DecidableEq

/-- The settings; `uuid` reads the text of an identifier. -/
structure Config extends RefreshTokens.Config where
  authCodeTtl : ℤ
  loginFlowTtl : ℤ
  accessTtl : ℤ
  uuid : Text → Option ℕ

/-- What another service does for a request. -/
inductive Service
  | createFlow
  | issueCode
  | mintTokens
  | issueToken
  | addEvent (type : EventType)
  deriving Repr, DecidableEq

/-- What a request meets: the time, the address that it comes from, the values that are made up
for it, and the services that fail. -/
structure Env where
  now : ℤ
  ip : Text
  fails : Service → Bool
  newFlow : ℕ
  csrfToken : Text
  newCode : Text
  newToken : Text
  newId : ℕ
  newFamily : ℕ
  accessToken : Text
  idToken : Text

inductive Failure
  | detail (e : DetailError)
  | service (s : Service)
  deriving Repr, DecidableEq

abbrev Txn := Attempt Db Failure

variable (cfg : Config) (env : Env)

def call (s : Service) : Txn Unit := if env.fails s then throw (.service s) else pure ()

def emit (type : EventType) (success : Bool) (user session : Option ℕ) (client : Option Text)
    (detail : Detail) : Txn Unit :=
  match validateDetail detail with
  | .error e => throw (.detail e)
  | .ok () => do
    call env (.addEvent type)
    modify fun db => { db with
      events := db.events ++ [⟨type.value, env.ip, success, user, session, client, detail⟩] }

def Db.setSession (db : Db) (id : ℕ) (f : Session → Session) : Db :=
  { db with sessions := db.sessions.map fun entry =>
      (entry.1, if entry.1 = id then f entry.2 else entry.2) }

/-! ### Sessions -/

def revoke (id : ℕ) (x : Session) (reason : String) : Txn Unit :=
  if x.revokedAt.isSome then pure ()
  else do
    modify fun db => db.setSession id fun x => { x with revokedAt := some env.now }
    emit env (if reason = "idle_timeout" then .sessionIdleTimeout else .sessionRevoked) true
      (some x.user) (some id) none [("reason", .str reason.toList)]

def checkLiveness (id : ℕ) (x : Session) (enforceIp : Bool) : Txn Bool :=
  match Sessions.verdict cfg.idleTtl cfg.sessionTouchInterval x.toSession env.ip env.now
    enforceIp with
  | .dead => pure false
  | .idle => do
    revoke env id x "idle_timeout"
    pure false
  | .moved => do
    modify fun db => db.setSession id fun x => { x with stale := true }
    emit env .sessionStaleIp false (some x.user) (some id) none
      [("old_ip", .str x.sourceIP), ("new_ip", .str env.ip)]
    pure false
  | .touch => do
    modify fun db => db.setSession id fun x => { x with lastSeenAt := env.now }
    pure true
  | .live => pure true

/-- The session whose secret a cookie of the form `id.secret` knows. -/
def cookieSession (db : Db) : Option Text → Option (ℕ × Session)
  | none => none
  | some value =>
    if '.' ∈ value then do
      let id ← cfg.uuid (Text.cut '.' value).1
      let x ← db.sessions.lookup id
      if cfg.sha256Hex (Text.cut '.' value).2 = x.cookieSecretHash then some (id, x) else none
    else none

def getSessionFromCookie (cookie : Option Text) : Txn (Option (ℕ × Session)) := do
  match cookieSession cfg (← get) cookie with
  | none => pure none
  | some (id, x) => do
    let live ← checkLiveness cfg env id x false
    pure (if live then some (id, x) else none)

/-! ### The authorization endpoint -/

/-- `str.split()` -/
def split (s : Text) : List Text := (s.splitOnP Text.isSpace).filter (· ≠ [])

structure Query where
  clientId : Option Text
  redirectUri : Option Text
  state : Option Text
  responseType : Option Text
  scope : Option Text
  nonce : Option Text
  codeChallengeMethod : Option Text
  codeChallenge : Option Text
  deriving Repr, DecidableEq

inductive Response
  | errorPage (message : String) (status : ℕ)
  | redirect (uri : Text) (params : List (String × Text))
  | login (flow : ℕ)
  | error (error : String) (status : ℕ)
  | tokens (accessToken : Text) (expiresIn : ℤ) (refreshToken : Text) (idToken : Option Text)
      (scope : Text)
  deriving Repr, DecidableEq

def redirectError (uri : Text) (error : String) (state description : Option Text) : Response :=
  .redirect uri <| [("error", error.toList)] ++
    (description.filter (· ≠ [])).toList.map (fun text => ("error_description", text)) ++
    (state.filter (· ≠ [])).toList.map fun text => ("state", text)

def validChallenge (challenge : Text) : Bool :=
  pkceText (fun c => asciiAlnum c || c = '-' || c = '_') challenge

def Db.client (db : Db) (clientId : Text) : Option OAuthClient :=
  db.clients.find? fun client => client.clientId == clientId && client.enabled

/-- The checks on the parameters, in the order of the source. -/
def validate (db : Db) (q : Query) : Except Response OidcRequest :=
  match (q.clientId.filter (· ≠ [])).bind db.client with
  | none => .error (.errorPage "Unknown application." 400)
  | some client =>
    match q.redirectUri.filter fun uri => uri ≠ [] ∧ client.redirectUris.contains uri with
    | none => .error (.errorPage "Invalid redirect URI for this application." 400)
    | some uri =>
      match q.state.filter fun state => 16 ≤ state.length ∧ state.length ≤ 512 with
      | none => .error (redirectError uri "invalid_request" none (some "state required".toList))
      | some state =>
        let scope := q.scope.getD []
        if q.responseType ≠ some "code".toList then
          .error (redirectError uri "unsupported_response_type" (some state) none)
        else if (!(split scope).contains "openid".toList ||
            !(split scope).all client.allowedScopes.contains) = true then
          .error (redirectError uri "invalid_scope" (some state) none)
        else
          match q.nonce.filter fun nonce => nonce ≠ [] ∧ nonce.length ≤ 512 with
          | none => .error (redirectError uri "invalid_request" (some state)
              (some "nonce required".toList))
          | some nonce =>
            if q.codeChallengeMethod ≠ some "S256".toList then
              .error (redirectError uri "invalid_request" (some state)
                (some "code_challenge_method must be S256".toList))
            else
              match q.codeChallenge.filter fun text => text ≠ [] ∧ validChallenge text with
              | none => .error (redirectError uri "invalid_request" (some state)
                  (some "invalid code_challenge".toList))
              | some challenge => .ok ⟨client.clientId, uri, scope, state, nonce, challenge⟩

def createFlow (r : OidcRequest) : Txn ℕ := do
  call env .createFlow
  modify fun db => { db with flows := db.flows ++
    [⟨env.newFlow, cfg.sha256Hex env.csrfToken, env.ip, r, env.now + cfg.loginFlowTtl⟩] }
  pure env.newFlow

def issueCode (id : ℕ) (x : Session) (r : OidcRequest) : Txn Text := do
  call env .issueCode
  modify fun db => { db with codes := db.codes ++
    [⟨cfg.sha256Hex env.newCode, r.clientId, x.user, id, r.redirectUri, r.scope, r.nonce,
      r.codeChallenge, x.issuedAt, env.now + cfg.authCodeTtl, none⟩] }
  pure env.newCode

def authorize (q : Query) (cookie : Option Text) : Txn Response := do
  match validate (← get) q with
  | .error response => pure response
  | .ok r => do
    match ← getSessionFromCookie cfg env cookie with
    | none => do
      let flow ← createFlow cfg env r
      pure (.login flow)
    | some (id, x) => do
      let code ← issueCode cfg env id x r
      emit env .oidcCodeIssued true (some x.user) (some id) (some r.clientId)
        [("scope", .str r.scope)]
      pure (.redirect r.redirectUri [("code", code), ("state", r.state)])

/-! ### The token endpoint -/

/-- The form, with the key of the proof of possession if that is verified. -/
structure TokenForm where
  grantType : Text
  clientId : Text
  code : Text
  redirectUri : Text
  codeVerifier : Text
  refreshToken : Text
  jkt : Option Text
  deriving Repr, DecidableEq

def consumeCode (code : Text) : Txn (Option AuthCode) := do
  let hash := cfg.sha256Hex code
  match (← get).codes.find? fun row =>
    row.codeHash == hash && row.consumedAt.isNone && decide (env.now < row.expiresAt) with
  | none => pure none
  | some row => do
    modify fun db => { db with codes := db.codes.map fun row =>
      if row.codeHash = hash then { row with consumedAt := some env.now } else row }
    pure (some { row with consumedAt := some env.now })

def findConsumed (db : Db) (code : Text) : Option AuthCode :=
  (db.codes.find? fun row => row.codeHash == cfg.sha256Hex code).filter fun row =>
    row.consumedAt.isSome

def revokeTokens (chosen : RefreshToken → Bool) : Txn Unit :=
  modify fun db => { db with tokens := db.tokens.map fun token =>
    if (chosen token && token.revokedAt.isNone) = true then
      { token with revokedAt := some env.now }
    else token }

/-- The text of an identifier, `str(uuid)`. -/
def uuidText (n : ℕ) : Text :=
  let hex := (List.range 32).map fun i => Nat.digitChar (n / 16 ^ (31 - i) % 16)
  hex.take 8 ++ '-' :: (hex.drop 8).take 4 ++ '-' :: (hex.drop 12).take 4 ++
    '-' :: (hex.drop 16).take 4 ++ '-' :: hex.drop 20

theorem uuidText_length (n : ℕ) : (uuidText n).length = 36 := by
  simp [uuidText]

def revokeSession (session : ℕ) (reason : String) : Txn Unit := do
  match (← get).sessions.lookup session with
  | none => pure ()
  | some x => revoke env session x reason

def liveSession (session : ℕ) : Txn (Option Session) := do
  match (← get).sessions.lookup session with
  | none => pure none
  | some x => do
    let live ← checkLiveness cfg env session x false
    pure (if live then some x else none)

def activeUser (db : Db) (x : Session) : Option Accounts.User :=
  (db.users.find? fun u => u.id == x.user).filter fun u => u.status = .active

def invalidGrant : Response := .error "invalid_grant" 400

def issueFamily (client : OAuthClient) (session : ℕ) (x : Session) (jkt scope : Text) :
    Txn Text := do
  call env .issueToken
  modify fun db => { db with tokens := db.tokens ++
    [⟨env.newId, cfg.sha256Hex env.newToken, session, env.newFamily, none, client.clientId, x.user,
      jkt, scope, env.now, x.absoluteExpiresAt, none, none⟩] }
  pure env.newToken

def rotate (row : RefreshToken) : Txn Text := do
  call env .issueToken
  modify fun db => { db with tokens :=
    (db.tokens.map fun other =>
      if other.id = row.id then { other with usedAt := some env.now } else other) ++
    [{ row with
      id := env.newId
      tokenHash := cfg.sha256Hex env.newToken
      parent := some row.id
      issuedAt := env.now
      usedAt := none
      revokedAt := none }] }
  pure env.newToken

def replayedCode (client : OAuthClient) (code : Text) : Txn Response := do
  match findConsumed cfg (← get) code with
  | none => pure invalidGrant
  | some row => do
    if ((← get).sessions.lookup row.session).isSome then do
      revokeTokens env fun token => token.session == row.session
      revokeSession env row.session "auth_code_replay"
    emit env .oidcCodeReplayDetected false (some row.user) (some row.session)
      (some client.clientId) []
    pure invalidGrant

def authorizationCodeGrant (client : OAuthClient) (jkt : Text) (form : TokenForm) :
    Txn Response := do
  if form.code = [] ∨ form.redirectUri = [] ∨ form.codeVerifier = [] then
    pure (.error "invalid_request" 400)
  else do
    match ← consumeCode cfg env form.code with
    | none => replayedCode cfg env client form.code
    | some row => do
      if row.clientId ≠ client.clientId then pure invalidGrant
      else if row.redirectUri ≠ form.redirectUri then pure invalidGrant
      else if !verifyS256 cfg.toConfig form.codeVerifier row.codeChallenge then pure invalidGrant
      else do
        match ← liveSession cfg env row.session with
        | none => pure invalidGrant
        | some x => do
          match activeUser (← get) x with
          | none => pure invalidGrant
          | some user => do
            call env .mintTokens
            let token ← issueFamily cfg env client row.session x jkt row.scope
            emit env .oidcTokenIssued true (some user.id) (some row.session) (some client.clientId)
              [("grant_type", .str "authorization_code".toList), ("scope", .str row.scope)]
            pure (.tokens env.accessToken cfg.accessTtl token (some env.idToken) row.scope)

def reusedToken (client : OAuthClient) (row : RefreshToken) : Txn Response := do
  revokeTokens env fun token => token.family == row.family
  revokeSession env row.session "refresh_reuse"
  emit env .oidcRefreshReuseDetected false (some row.user) (some row.session) (some client.clientId)
    [("family_id", .str (uuidText row.family))]
  pure invalidGrant

def refreshGrant (client : OAuthClient) (jkt : Text) (form : TokenForm) : Txn Response := do
  if form.refreshToken = [] then pure (.error "invalid_request" 400)
  else do
    match (← get).tokens.find? fun row => row.tokenHash == cfg.sha256Hex form.refreshToken with
    | none => pure invalidGrant
    | some row => do
      if row.clientId ≠ client.clientId then pure invalidGrant
      else if row.usedAt.isSome then reusedToken env client row
      else if row.revokedAt.isSome ∨ row.expiresAt ≤ env.now then pure invalidGrant
      else if row.dpopJkt ≠ jkt then pure invalidGrant
      else do
        match ← liveSession cfg env row.session with
        | none => pure invalidGrant
        | some x => do
          match activeUser (← get) x with
          | none => pure invalidGrant
          | some user => do
            let token ← rotate cfg env row
            call env .mintTokens
            emit env .oidcTokenRefreshed true (some user.id) (some row.session)
              (some client.clientId) [("family_id", .str (uuidText row.family))]
            pure (.tokens env.accessToken cfg.accessTtl token none row.scope)

def tokenEndpoint (form : TokenForm) : Txn Response := do
  match (← get).client form.clientId with
  | none => pure (.error "invalid_client" 401)
  | some client =>
    match form.jkt with
    | none => pure (.error "invalid_dpop_proof" 400)
    | some jkt =>
      if form.grantType = "authorization_code".toList then
        authorizationCodeGrant cfg env client jkt form
      else if form.grantType = "refresh_token".toList then refreshGrant cfg env client jkt form
      else pure (.error "unsupported_grant_type" 400)

end Hyproxy.AuditedRequests

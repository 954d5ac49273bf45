import Hyproxy.Accounts
import Hyproxy.ReadCommitted

/-!
The token endpoint and what else revokes refresh tokens, statement by statement.
The authorization code grant consumes a code and starts a family of tokens; the
refresh grant finds a token, checks its session and its user, marks it used and
mints its child. A used token that is presented again has its family and its
session revoked. Requests arrive after the client and the proof of possession
have been verified; times count microseconds.
-/

namespace Hyproxy.RefreshTokens

open Accounts (Session User)
open ReadCommitted (Program State)

structure AuthCode where
  codeHash : List Char
  clientId : List Char
  session : ℕ
  redirectUri : List Char
  scope : List Char
  codeChallenge : List Char
  expiresAt : ℤ
  consumedAt : Option ℤ
  deriving Repr, DecidableEq

structure RefreshToken where
  id : ℕ
  tokenHash : List Char
  session : ℕ
  family : ℕ
  parent : Option ℕ
  clientId : List Char
  user : ℕ
  dpopJkt : List Char
  scope : List Char
  issuedAt : ℤ
  expiresAt : ℤ
  usedAt : Option ℤ
  revokedAt : Option ℤ
  deriving Repr, DecidableEq

structure Db where
  codes : List AuthCode
  tokens : List RefreshToken
  sessions : List (ℕ × Session)
  users : List User
  deriving Repr, DecidableEq

structure Config where
  idleTtl : ℤ
  sessionTouchInterval : ℤ
  sha256Hex : List Char → List Char
  sha256B64url : List Char → List Char

def Db.user (db : Db) (id : ℕ) : Option User := db.users.find? fun u => u.id == id

/-- What the other requests write: the sign-in and its sessions, `authorize` and its codes,
the checks and revocations of sessions, the administration of users. -/
inductive OtherWrite
  | addCode (row : AuthCode)
  | addSession (id : ℕ) (x : Session)
  | touch (id : ℕ) (now : ℤ)
  | stale (id : ℕ)
  | revoke (id : ℕ) (now : ℤ)
  | setUser (u : User)
  deriving Repr, DecidableEq

inductive Write
  | consumeCode (hash : List Char) (now : ℤ)
  | addToken (row : RefreshToken)
  | useToken (id : ℕ) (now : ℤ)
  | revokeToken (id : ℕ) (now : ℤ)
  | other (w : OtherWrite)
  deriving Repr, DecidableEq

inductive Row
  | code (hash : List Char)
  | tokenHash (hash : List Char)
  | token (id : ℕ)
  | session (id : ℕ)
  | user (id : ℕ)
  deriving Repr, DecidableEq

/-- The row that a write locks; an insertion locks its key in the unique index. -/
def Write.row : Write → Row
  | .consumeCode hash _ => .code hash
  | .addToken row => .tokenHash row.tokenHash
  | .useToken id _ => .token id
  | .revokeToken id _ => .token id
  | .other (.addCode row) => .code row.codeHash
  | .other (.addSession id _) => .session id
  | .other (.touch id _) => .session id
  | .other (.stale id) => .session id
  | .other (.revoke id _) => .session id
  | .other (.setUser u) => .user u.id

def Db.setToken (db : Db) (id : ℕ) (f : RefreshToken → RefreshToken) : Db :=
  { db with tokens := db.tokens.map fun row => if row.id = id then f row else row }

def Db.setSession (db : Db) (id : ℕ) (f : Session → Session) : Db :=
  { db with sessions := db.sessions.map fun entry =>
      (entry.1, if entry.1 = id then f entry.2 else entry.2) }

/-- A session begins neither stale nor revoked, under an identifier that no other has. -/
def applyOther (db : Db) : OtherWrite → Db
  | .addCode row => { db with codes := db.codes ++ [row] }
  | .addSession id x =>
    if (db.sessions.lookup id).isSome then db
    else { db with sessions := db.sessions ++ [(id, { x with stale := false, revokedAt := none })] }
  | .touch id now => db.setSession id fun x => { x with lastSeenAt := now }
  | .stale id => db.setSession id fun x => { x with stale := true }
  | .revoke id now => db.setSession id fun x => { x with revokedAt := some now }
  | .setUser u => { db with users := u :: db.users.filter fun v => v.id != u.id }

def apply (db : Db) : Write → Db
  | .consumeCode hash now =>
    { db with codes := db.codes.map fun row =>
        if row.codeHash = hash then { row with consumedAt := some now } else row }
  | .addToken row => { db with tokens := db.tokens ++ [row] }
  | .useToken id now => db.setToken id fun row => { row with usedAt := some now }
  | .revokeToken id now => db.setToken id fun row => { row with revokedAt := some now }
  | .other w => applyOther db w

structure CodeRequest where
  clientId : List Char
  jkt : List Char
  code : List Char
  redirectUri : List Char
  codeVerifier : List Char
  newToken : List Char
  deriving Repr, DecidableEq

structure RefreshRequest where
  clientId : List Char
  jkt : List Char
  token : List Char
  newToken : List Char
  deriving Repr, DecidableEq

inductive Request
  | authorizationCode (req : CodeRequest)
  | refresh (req : RefreshRequest)
  | revoke (jkt token : List Char)
  | revokeUserSessions (user : ℕ) (except : Option ℕ)
  | other (writes : List OtherWrite)
  deriving Repr, DecidableEq

inductive OAuthError
  | invalidRequest
  | invalidGrant
  deriving Repr, DecidableEq

def OAuthError.text : OAuthError → String
  | .invalidRequest => "invalid_request"
  | .invalidGrant => "invalid_grant"

/-- How a request ends that issues no token: an error of the token endpoint, with status 400,
or the answer of another endpoint. A refresh grant keeps the row that it found. -/
inductive Closing
  | code (e : OAuthError)
  | refresh (row : Option RefreshToken) (e : OAuthError)
  | done
  deriving Repr, DecidableEq

/-- The grant of a code keeps the hash of the code that was presented, and the time. -/
inductive Answer
  | issued (codeHash : List Char) (now : ℤ) (refreshToken : List Char)
  | refreshed (row : RefreshToken) (refreshToken : List Char)
  | closed (c : Closing)
  deriving Repr, DecidableEq

/-- A grant that has passed the checks on its code or on its token, with the time at which
it arrived. -/
inductive Grant
  | code (req : CodeRequest) (row : AuthCode) (now : ℤ)
  | refresh (req : RefreshRequest) (row : RefreshToken) (now : ℤ)
  deriving Repr, DecidableEq

def Grant.now : Grant → ℤ
  | .code _ _ now => now
  | .refresh _ _ now => now

def Grant.refused : Grant → Closing
  | .code _ _ _ => .code .invalidGrant
  | .refresh _ row _ => .refresh (some row) .invalidGrant

/-- Which tokens an `UPDATE` revokes. -/
inductive Scope
  | family (id : ℕ)
  | session (id : ℕ)
  deriving Repr, DecidableEq

def Scope.covers : Scope → RefreshToken → Bool
  | .family id, row => row.family == id
  | .session id, row => row.session == id

/-- The rest of a request that issues no token. The `UPDATE` of many rows takes its snapshot
before it waits for them, in two steps. -/
inductive Tail
  | revokeTokens (scope : Scope) (next : Tail)
  | markRevoked (ids : List ℕ) (next : Tail)
  | sessionOf (session : ℕ) (next : Tail)
  | revokeSession (session : ℕ) (next : Tail)
  | write (w : OtherWrite) (next : Tail)
  | answer (c : Closing)
  deriving Repr, DecidableEq

/-- Where a transaction stands: before the statement that it runs next, or at its answer. -/
inductive Point
  | consumeCode (req : CodeRequest) (now : ℤ)
  | getCode (req : CodeRequest) (now : ℤ)
  | findConsumed (req : CodeRequest)
  | replayed (session : ℕ)
  | find (req : RefreshRequest) (now : ℤ)
  | findRevoked (jkt token : List Char)
  | userSessions (user : ℕ) (except : Option ℕ)
  | liveSession (session : ℕ) (grant : Grant)
  | touch (session : ℕ) (x : Session) (grant : Grant)
  | getUser (session : ℕ) (x : Session) (grant : Grant)
  | mint (session : ℕ) (x : Session) (grant : Grant)
  | issued (codeHash : List Char) (now : ℤ) (refreshToken : List Char)
  | refreshed (row : RefreshToken) (refreshToken : List Char)
  | close (rest : Tail)
  deriving Repr, DecidableEq

def Point.answer : Point → Option Answer
  | .issued hash now token => some (.issued hash now token)
  | .refreshed row token => some (.refreshed row token)
  | .close (.answer c) => some (.closed c)
  | _ => none

/-- The point of a request that is refused. -/
def refuse (c : Closing) : Point := .close (.answer c)

/-- `^[class]{43,128}$` under `re.match`: the end is also before a last line feed. -/
def pkceText (charClass : Char → Bool) (text : List Char) : Bool :=
  let body := if text.getLast? = some '\n' then text.dropLast else text
  decide (43 ≤ body.length) && decide (body.length ≤ 128) && body.all charClass

def asciiAlnum (c : Char) : Bool :=
  ('A' ≤ c && c ≤ 'Z') || ('a' ≤ c && c ≤ 'z') || ('0' ≤ c && c ≤ '9')

def verifyS256 (cfg : Config) (verifier challenge : List Char) : Bool :=
  pkceText (fun c => asciiAlnum c || c = '-' || c = '.' || c = '_' || c = '~') verifier &&
    pkceText (fun c => asciiAlnum c || c = '-' || c = '_') challenge &&
    cfg.sha256B64url verifier == challenge

inductive Liveness
  | dead
  | idle
  | touch
  | live
  deriving Repr, DecidableEq

/-- `check_liveness` without the binding to an address, as far as the session decides it. -/
def liveness (cfg : Config) (x : Session) (now : ℤ) : Liveness :=
  if x.revokedAt.isSome || x.stale then .dead
  else if x.absoluteExpiresAt ≤ now then .dead
  else if cfg.idleTtl < now - x.lastSeenAt then .idle
  else if cfg.sessionTouchInterval ≤ now - x.lastSeenAt then .touch
  else .live

def find (cfg : Config) (db : Db) (token : List Char) : Option RefreshToken :=
  db.tokens.find? fun row => row.tokenHash == cfg.sha256Hex token

/-- `_refresh_grant` after the token was found. -/
def found (req : RefreshRequest) (row : RefreshToken) (now : ℤ) : Point :=
  let invalidGrant := Closing.refresh (some row) .invalidGrant
  if row.clientId ≠ req.clientId then refuse invalidGrant
  else if row.usedAt.isSome then
    .close (.revokeTokens (.family row.family) (.sessionOf row.session (.answer invalidGrant)))
  else if row.revokedAt.isSome || decide (row.expiresAt ≤ now) then refuse invalidGrant
  else if row.dpopJkt ≠ req.jkt then refuse invalidGrant
  else .liveSession row.session (.refresh req row now)

/-- `_authorization_code_grant` after the code was consumed. -/
def consumed (cfg : Config) (req : CodeRequest) (row : AuthCode) (now : ℤ) : Point :=
  if row.clientId ≠ req.clientId then refuse (.code .invalidGrant)
  else if row.redirectUri ≠ req.redirectUri then refuse (.code .invalidGrant)
  else if !verifyS256 cfg req.codeVerifier row.codeChallenge then refuse (.code .invalidGrant)
  else .liveSession row.session (.code req row now)

/-- `_live_session` after the session was read. -/
def checked (cfg : Config) (session : ℕ) (x : Session) (grant : Grant) : Point :=
  match liveness cfg x grant.now with
  | .dead => refuse grant.refused
  | .idle => .close (.revokeSession session (.answer grant.refused))
  | .touch => .touch session x grant
  | .live => .getUser session x grant

/-- The row that `issue_family` adds. -/
def firstToken (cfg : Config) (serial session : ℕ) (x : Session) (req : CodeRequest)
    (row : AuthCode) (now : ℤ) : RefreshToken :=
  { id := serial
    tokenHash := cfg.sha256Hex req.newToken
    session := session
    family := serial
    parent := none
    clientId := req.clientId
    user := x.user
    dpopJkt := req.jkt
    scope := row.scope
    issuedAt := now
    expiresAt := x.absoluteExpiresAt
    usedAt := none
    revokedAt := none }

/-- The row that `rotate` adds. -/
def childToken (cfg : Config) (serial : ℕ) (req : RefreshRequest) (row : RefreshToken) (now : ℤ) :
    RefreshToken :=
  { row with
    id := serial
    tokenHash := cfg.sha256Hex req.newToken
    parent := some row.id
    issuedAt := now
    usedAt := none
    revokedAt := none }

/-- The flush of `issue_family` or `rotate`. A token hash that is taken raises, and so does a
session that is gone. -/
def mintRows (cfg : Config) (db : Db) (serial session : ℕ) (x : Session) :
    Grant → Option (List Write × Point)
  | .code req row now =>
    if (find cfg db req.newToken).isSome || (db.sessions.lookup session).isNone then none
    else some ([.addToken (firstToken cfg serial session x req row now)],
      .issued (cfg.sha256Hex req.code) now req.newToken)
  | .refresh req row now =>
    if (find cfg db req.newToken).isSome || (db.sessions.lookup row.session).isNone then none
    else some ([.useToken row.id now, .addToken (childToken cfg serial req row now)],
      .refreshed row req.newToken)

def Tail.statement (db : Db) (now : ℤ) : Tail → List Write × Tail
  | .revokeTokens scope next =>
    let rows := db.tokens.filter fun row => scope.covers row && row.revokedAt.isNone
    ([], .markRevoked (rows.map RefreshToken.id) next)
  | .markRevoked ids next =>
    let live := ids.filter fun id =>
      db.tokens.any fun row => row.id == id && row.revokedAt.isNone
    (live.map fun id => .revokeToken id now, next)
  | .sessionOf session next =>
    match db.sessions.lookup session with
    | none => ([], next)
    | some x => ([], if x.revokedAt.isSome then next else .revokeSession session next)
  | .revokeSession session next => ([.other (.revoke session now)], next)
  | .write w next => ([.other w], next)
  | .answer c => ([], .answer c)

/-- The next point after a statement that only reads. -/
def select (cfg : Config) (db : Db) : Point → Point
  | .getCode req now =>
    match db.codes.find? fun row => row.codeHash == cfg.sha256Hex req.code with
    | none => .findConsumed req
    | some row => consumed cfg req row now
  | .findConsumed req =>
    match db.codes.find? fun row => row.codeHash == cfg.sha256Hex req.code with
    | none => refuse (.code .invalidGrant)
    | some row =>
      if row.consumedAt.isSome then .replayed row.session else refuse (.code .invalidGrant)
  | .replayed session =>
    match db.sessions.lookup session with
    | none => refuse (.code .invalidGrant)
    | some x => .close (.revokeTokens (.session session)
        (if x.revokedAt.isSome then .answer (.code .invalidGrant)
          else .revokeSession session (.answer (.code .invalidGrant))))
  | .find req now =>
    match find cfg db req.token with
    | none => refuse (.refresh none .invalidGrant)
    | some row => found req row now
  | .findRevoked jkt token =>
    match find cfg db token with
    | none => refuse .done
    | some row =>
      if row.dpopJkt = jkt then
        .close (.revokeTokens (.family row.family) (.sessionOf row.session (.answer .done)))
      else refuse .done
  | .userSessions user except =>
    let rows := db.sessions.filter fun entry =>
      entry.2.user == user && entry.2.revokedAt.isNone && except != some entry.1
    .close (rows.foldr
      (fun entry next => .revokeTokens (.session entry.1) (.revokeSession entry.1 next))
      (.answer .done))
  | .liveSession session grant =>
    match db.sessions.lookup session with
    | none => refuse grant.refused
    | some x => checked cfg session x grant
  | .getUser session x grant =>
    match db.user x.user with
    | none => refuse grant.refused
    | some u => if u.status = .active then .mint session x grant else refuse grant.refused
  | p => p

def statement (cfg : Config) (db : Db) (serial : ℕ) (now : ℤ) :
    Point → Option (List Write × Point)
  | .consumeCode req arrived =>
    let hash := cfg.sha256Hex req.code
    let usable := db.codes.any fun row =>
      row.codeHash == hash && row.consumedAt.isNone && decide (arrived < row.expiresAt)
    some (if usable then ([.consumeCode hash arrived], .getCode req arrived)
      else ([], .findConsumed req))
  | .touch session x grant =>
    some ([.other (.touch session grant.now)], .getUser session x grant)
  | .mint session x grant => mintRows cfg db serial session x grant
  | .close rest => some ((rest.statement db now).1, .close (rest.statement db now).2)
  | p => some ([], select cfg db p)

def start (request : Request) (now : ℤ) : Point :=
  match request with
  | .authorizationCode req =>
    if req.code = [] ∨ req.redirectUri = [] ∨ req.codeVerifier = [] then
      refuse (.code .invalidRequest)
    else .consumeCode req now
  | .refresh req =>
    if req.token = [] then refuse (.refresh none .invalidRequest) else .find req now
  | .revoke jkt token => .findRevoked jkt token
  | .revokeUserSessions user except => .userSessions user except
  | .other writes => .close (writes.foldr Tail.write (.answer .done))

def program (cfg : Config) : Program Request Db Row Write Point Answer where
  start := start
  statement := statement cfg
  answer := Point.answer
  apply := apply
  row := Write.row

abbrev System := State Db Write Point Answer

def initial : System := ⟨⟨[], [], [], []⟩, [], [], 0⟩

def after (cfg : Config) (events : List (ReadCommitted.Event Request)) : System :=
  events.foldl (ReadCommitted.step (program cfg)) initial

end Hyproxy.RefreshTokens

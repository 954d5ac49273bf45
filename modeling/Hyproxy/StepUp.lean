import Hyproxy.ReadCommitted
import Hyproxy.Sessions

/-!
The step-up, statement by statement: an administrator asks for a challenge, answers it with a
passkey, and may then send the requests that need a fresh assertion. Those arrive after their
address, their access token and its proof have been checked; times count microseconds.
-/
namespace Hyproxy.StepUp

open Accounts (Assertion User WebAuthnCredential)
open ReadCommitted (Program State)

abbrev Text := List Char

structure Session extends Accounts.Session where
  stepupChallenge : Option Text
  stepUpVerifiedAt : Option ℤ
  deriving Repr, DecidableEq

/-- The tables; `owner` tells which user an identifier of a session was given to, as none is given
twice. -/
structure Db where
  sessions : List (ℕ × Session)
  owner : ℕ → Option ℕ
  users : List User
  credentials : List WebAuthnCredential

/-- The settings, and what the platform and its libraries compute. -/
structure Config where
  idleTtl : ℤ
  sessionTouchInterval : ℤ
  stepupMaxAge : ℤ
  sha256Hex : Text → Text
  uuid : Text → Option ℕ
  verifyAssertion : Text → Text → WebAuthnCredential → Option ℕ

/-- What the other requests write: the sign-in and its sessions, the checks and revocations of
sessions, the administration of users and passkeys. -/
inductive OtherWrite
  | addSession (id : ℕ) (x : Accounts.Session)
  | touch (id : ℕ) (now : ℤ)
  | stale (id : ℕ)
  | revoke (id : ℕ) (now : ℤ)
  | reissue (id : ℕ) (hash : Text)
  | setUser (u : User)
  | deleteUser (id : ℕ)
  | addCredential (c : WebAuthnCredential)
  | deleteCredential (id : Text)
  | setSignCount (id : Text) (count : ℕ)
  deriving Repr, DecidableEq

inductive Write
  | setChallenge (id : ℕ) (challenge : Option Text)
  | setVerified (id : ℕ) (now : ℤ)
  | other (w : OtherWrite)
  deriving Repr, DecidableEq

inductive Row
  | session (id : ℕ)
  | user (id : ℕ)
  | credential (id : Text)
  deriving Repr, DecidableEq

def Write.row : Write → Row
  | .setChallenge id _ => .session id
  | .setVerified id _ => .session id
  | .other (.addSession id _) => .session id
  | .other (.touch id _) => .session id
  | .other (.stale id) => .session id
  | .other (.revoke id _) => .session id
  | .other (.reissue id _) => .session id
  | .other (.setUser u) => .user u.id
  | .other (.deleteUser id) => .user id
  | .other (.addCredential c) => .credential c.credentialId
  | .other (.deleteCredential id) => .credential id
  | .other (.setSignCount id _) => .credential id

def Db.setSession (db : Db) (id : ℕ) (f : Session → Session) : Db :=
  { db with sessions := db.sessions.map fun entry =>
      (entry.1, if entry.1 = id then f entry.2 else entry.2) }

/-- A session begins without a challenge and without a step-up. The sessions and the passkeys of a
user go with the user. -/
def applyOther (db : Db) : OtherWrite → Db
  | .addSession id x =>
    if (db.owner id).isSome then db
    else { db with
      sessions := db.sessions ++ [(id, ⟨x, none, none⟩)]
      owner := Function.update db.owner id (some x.user) }
  | .touch id now => db.setSession id fun x => { x with lastSeenAt := now }
  | .stale id => db.setSession id fun x => { x with stale := true }
  | .revoke id now => db.setSession id fun x => { x with revokedAt := some now }
  | .reissue id hash => db.setSession id fun x => { x with cookieSecretHash := hash }
  | .setUser u => { db with users := u :: db.users.filter fun v => v.id != u.id }
  | .deleteUser id => { db with
      users := db.users.filter fun u => u.id != id
      sessions := db.sessions.filter fun entry => entry.2.user != id
      credentials := db.credentials.filter fun c => c.user != id }
  | .addCredential c => { db with credentials := db.credentials ++ [c] }
  | .deleteCredential id =>
    { db with credentials := db.credentials.filter fun c => c.credentialId != id }
  | .setSignCount id count => { db with
      credentials := db.credentials.map fun c =>
        if c.credentialId = id then { c with signCount := count } else c }

def apply (db : Db) : Write → Db
  | .setChallenge id challenge => db.setSession id fun x => { x with stepupChallenge := challenge }
  | .setVerified id now => db.setSession id fun x => { x with stepUpVerifiedAt := some now }
  | .other w => applyOther db w

def Db.user (db : Db) (id : ℕ) : Option User := db.users.find? fun u => u.id == id

/-! ### Requests -/

/-- `mutation` is a request of the management API behind `require_recent_stepup`, with what its
handler writes. -/
inductive Request
  | options (cookie : Option Text) (ip challenge : Text)
  | verify (cookie : Option Text) (ip : Text) (assertion : Assertion)
  | mutation (session : ℕ) (ip : Text) (writes : List OtherWrite)
  | other (writes : List OtherWrite)
  deriving Repr, DecidableEq

inductive Answer
  | error (status : ℕ) (message : String)
  | offered (session : ℕ) (challenge : Text)
  | steppedUp (session user : ℕ) (credential : WebAuthnCredential) (challenge : Text)
      (assertion : Assertion) (now : ℤ)
  | accepted (session user : ℕ) (now : ℤ)
  | done
  deriving Repr, DecidableEq

/-- What a request is for, once its session and its user have passed. -/
inductive Purpose
  | options (challenge : Text)
  | verify (assertion : Assertion)
  | mutation (writes : List OtherWrite)
  deriving Repr, DecidableEq

structure Entry where
  purpose : Purpose
  ip : Text
  now : ℤ
  deriving Repr, DecidableEq

/-- The pages bind no address, as the forwarded one is not stable there. -/
def Purpose.enforcesIp : Purpose → Bool
  | .mutation _ => true
  | _ => false

def Purpose.denied : Purpose → Answer
  | .mutation _ => .error 401 "invalid_token"
  | _ => .error 401 "not signed in"

/-- Where a transaction stands: before the statement that it runs next, or at its answer. -/
inductive Point
  | cookie (value : Option Text) (e : Entry)
  | token (session : ℕ) (e : Entry)
  | revoke (id : ℕ) (a : Answer)
  | stale (id : ℕ) (a : Answer)
  | touch (id : ℕ) (x : Session) (e : Entry)
  | user (id : ℕ) (x : Session) (e : Entry)
  | credentials (id : ℕ) (x : Session) (challenge : Text)
  | offer (id : ℕ) (challenge : Text)
  | take (id : ℕ) (x : Session) (challenge : Text) (assertion : Assertion) (now : ℤ)
  | credential (id : ℕ) (x : Session) (challenge : Text) (assertion : Assertion) (now : ℤ)
  | count (id : ℕ) (x : Session) (c : WebAuthnCredential) (challenge : Text)
      (assertion : Assertion) (count : ℕ) (now : ℤ)
  | stamp (id : ℕ) (x : Session) (c : WebAuthnCredential) (challenge : Text)
      (assertion : Assertion) (now : ℤ)
  | handler (rest : List OtherWrite) (a : Answer)
  | answered (a : Answer)
  deriving Repr, DecidableEq

def Point.answer : Point → Option Answer
  | .answered a => some a
  | _ => none

/-- The session whose secret a cookie of the form `id.secret` knows. -/
def cookieSession (cfg : Config) (db : Db) : Option Text → Option (ℕ × Session)
  | none => none
  | some value =>
    if '.' ∈ value then do
      let id ← cfg.uuid (Text.cut '.' value).1
      let x ← db.sessions.lookup id
      if cfg.sha256Hex (Text.cut '.' value).2 = x.cookieSecretHash then some (id, x) else none
    else none

/-- `check_liveness` of the session that was read. -/
def checked (cfg : Config) (e : Entry) : Option (ℕ × Session) → Point
  | none => .answered e.purpose.denied
  | some (id, x) =>
    match Sessions.verdict cfg.idleTtl cfg.sessionTouchInterval x.toSession e.ip e.now
      e.purpose.enforcesIp with
    | .dead => .answered e.purpose.denied
    | .idle => .revoke id e.purpose.denied
    | .moved => .stale id e.purpose.denied
    | .touch => .touch id x e
    | .live => .user id x e

/-- `require_recent_stepup`, at the time of the check. -/
def recentStepup (cfg : Config) (x : Session) (now : ℤ) : Bool :=
  x.stepUpVerifiedAt.any fun verified => now - verified ≤ cfg.stepupMaxAge

/-- The checks on the user, and what follows from what was read of the session. -/
def admitted (cfg : Config) (id : ℕ) (x : Session) (now : ℤ) (user : Option User) (e : Entry) :
    Point :=
  match e.purpose with
  | .options challenge =>
    if user.any fun u => u.tier = .admin then .credentials id x challenge
    else .answered (.error 403 "step-up requires an admin passkey")
  | .verify assertion =>
    if user.any fun u => u.tier = .admin then
      match x.stepupChallenge with
      | none => .answered (.error 400 "no step-up in progress")
      | some challenge => .take id x challenge assertion e.now
    else .answered (.error 403 "step-up requires an admin passkey")
  | .mutation writes =>
    if !user.any fun u => u.status = .active then .answered e.purpose.denied
    else if x.tier ≠ .admin ∨ !user.any fun u => u.tier = .admin then
      .answered (.error 403 "admin tier required")
    else if !recentStepup cfg x now then .answered (.error 403 "stepup_required")
    else .handler writes (.accepted id x.user now)

/-- The passkey that the assertion names, if it is one of the user's and the assertion verifies. -/
def asserted (cfg : Config) (db : Db) (user : ℕ) (challenge : Text) (assertion : Assertion) :
    Option (WebAuthnCredential × ℕ) := do
  let rawId ← assertion.rawId
  let c ← db.credentials.find? fun c => c.credentialId == rawId
  if c.user = user then do
    let count ← cfg.verifyAssertion assertion.text challenge c
    some (c, count)
  else none

/-- The next point after a statement that only reads. -/
def select (cfg : Config) (db : Db) (now : ℤ) : Point → Point
  | .cookie value e => checked cfg e (cookieSession cfg db value)
  | .token session e => checked cfg e ((db.sessions.lookup session).map fun x => (session, x))
  | .user id x e => admitted cfg id x now (db.user x.user) e
  | .credentials id x challenge =>
    if db.credentials.any fun c => c.user == x.user then .offer id challenge
    else .answered (.error 400 "no credentials enrolled")
  | .credential id x challenge assertion arrived =>
    match asserted cfg db x.user challenge assertion with
    | none => .answered (.error 401 "verification failed")
    | some (c, count) => .count id x c challenge assertion count arrived
  | p => p

/-- An `UPDATE` of a session by its identifier, which raises if there is none. -/
def update (db : Db) (id : ℕ) (w : Write) (next : Point) : Option (List Write × Point) :=
  if (db.sessions.lookup id).isSome then some ([w], next) else none

def statement (cfg : Config) (db : Db) (now : ℤ) : Point → Option (List Write × Point)
  | .revoke id a => update db id (.other (.revoke id now)) (.answered a)
  | .stale id a => update db id (.other (.stale id)) (.answered a)
  | .touch id x e => update db id (.other (.touch id e.now)) (.user id x e)
  | .offer id challenge =>
    update db id (.setChallenge id (some challenge)) (.answered (.offered id challenge))
  | .take id x challenge assertion arrived =>
    update db id (.setChallenge id none) (.credential id x challenge assertion arrived)
  | .count id x c challenge assertion count arrived =>
    if db.credentials.any fun other => other.credentialId == c.credentialId then
      some ([.other (.setSignCount c.credentialId count)], .stamp id x c challenge assertion arrived)
    else none
  | .stamp id x c challenge assertion arrived =>
    update db id (.setVerified id arrived)
      (.answered (.steppedUp id x.user c challenge assertion arrived))
  | .handler [] a => some ([], .answered a)
  | .handler (w :: rest) a => some ([.other w], .handler rest a)
  | p => some ([], select cfg db now p)

def start (request : Request) (now : ℤ) : Point :=
  match request with
  | .options cookie ip challenge => .cookie cookie ⟨.options challenge, ip, now⟩
  | .verify cookie ip assertion => .cookie cookie ⟨.verify assertion, ip, now⟩
  | .mutation session ip writes => .token session ⟨.mutation writes, ip, now⟩
  | .other writes => .handler writes .done

def program (cfg : Config) : Program Request Db Row Write Point Answer where
  start := start
  statement := fun db _ now p => statement cfg db now p
  answer := Point.answer
  apply := apply
  row := Write.row

abbrev System := State Db Write Point Answer

def initial : System := ⟨⟨[], fun _ => none, [], []⟩, [], [], 0⟩

def after (cfg : Config) (events : List (ReadCommitted.Event Request)) : System :=
  events.foldl (ReadCommitted.step (program cfg)) initial

end Hyproxy.StepUp

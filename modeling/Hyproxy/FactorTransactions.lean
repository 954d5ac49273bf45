import Hyproxy.Login
import Hyproxy.ReadCommitted

/-!
The requests for the second factor of a login, statement by statement. The
submissions that complete a login lock the row of its flow. An enrollment and a
recovery only read it; they lock the secret and the recovery codes of the user
when they write them.
-/
namespace Hyproxy.FactorTransactions

open Accounts (Amr Assertion Config LoginFlow Session User UserTotp WebAuthnCredential)
open Login (Form guardedRow normalize stageRow totpAmr)
open ReadCommitted (Program State)
open Text (strip)

/-- A code of a batch, which its number in the batch tells from the others. -/
structure Key where
  batch : ℕ
  index : ℕ
  deriving Repr, DecidableEq

structure Code extends Accounts.RecoveryCode where
  key : Key
  deriving Repr, DecidableEq

structure SessionRow extends Session where
  id : ℕ
  deriving Repr, DecidableEq

structure Db where
  users : List User
  flows : ℕ → Option LoginFlow
  totp : ℕ → Option UserTotp
  codes : List Code
  credentials : List WebAuthnCredential
  sessions : List SessionRow

/-- A submission, and the delay that the throttle asks for. -/
structure Attempt where
  form : Form
  throttled : Option ℤ
  deriving Repr, DecidableEq

inductive Request
  | totpSubmit (a : Attempt) (code : List Char)
  | enrollTotpSubmit (a : Attempt) (code : List Char) (hashes : List (List Char))
  | recoverySubmit (a : Attempt) (code : List Char)
  | webauthnVerify (a : Attempt) (assertion : Assertion)
  | webauthnOptions (r : Form) (challenge : List Char)
  | enrollTotpForm (r : Form) (newTotp : List Char)
  deriving Repr, DecidableEq

/-- `turnedAway` is the answer to a submission that names no flow of its own: the signed-in page for
a browser that has a session, and else an error. -/
inductive Reply
  | turnedAway
  | page (status : ℕ)
  | error (status : ℕ) (message : String)
  | throttled (retryAfter : ℤ)
  | redirect (location : String)
  | resumed (session : ℕ)
  | signedIn (flow session : ℕ)
  | enrolled (flow user batch session : ℕ)
  | recovered (user : ℕ) (key : Key)
  deriving Repr, DecidableEq

inductive Write
  | lockFlow (id : ℕ)
  | setCsrf (id : ℕ) (hash : List Char)
  | setChallenge (id : ℕ) (challenge : Option (List Char))
  | setRecoveryUsed (id : ℕ)
  | complete (id session : ℕ)
  | deleteFlow (id : ℕ)
  | addTotp (user : ℕ) (secret : List Char)
  | confirmTotp (user : ℕ) (now : ℤ)
  | deleteTotp (user : ℕ)
  | lockCode (key : Key)
  | useCode (key : Key) (now : ℤ)
  | deleteCode (key : Key)
  | addCode (code : Code)
  | addSession (row : SessionRow)
  | touchSession (id : ℕ) (now : ℤ)
  | revokeSession (id : ℕ) (now : ℤ)
  | staleSession (id : ℕ)
  | reissueSession (id : ℕ) (hash : List Char)
  | setSignCount (credentialId : List Char) (count : ℕ)
  deriving Repr, DecidableEq

inductive Row
  | flow (id : ℕ)
  | totp (user : ℕ)
  | code (key : Key)
  | session (id : ℕ)
  | credential (credentialId : List Char)
  deriving Repr, DecidableEq

def Write.row : Write → Row
  | .lockFlow id => .flow id
  | .setCsrf id _ => .flow id
  | .setChallenge id _ => .flow id
  | .setRecoveryUsed id => .flow id
  | .complete id _ => .flow id
  | .deleteFlow id => .flow id
  | .addTotp user _ => .totp user
  | .confirmTotp user _ => .totp user
  | .deleteTotp user => .totp user
  | .lockCode key => .code key
  | .useCode key _ => .code key
  | .deleteCode key => .code key
  | .addCode code => .code code.key
  | .addSession row => .session row.id
  | .touchSession id _ => .session id
  | .revokeSession id _ => .session id
  | .staleSession id => .session id
  | .reissueSession id _ => .session id
  | .setSignCount credentialId _ => .credential credentialId

/-- What a write makes of the flow that it is about. -/
def Write.touchFlow : Write → LoginFlow → Option LoginFlow
  | .setCsrf _ hash, f => some { f with csrfTokenHash := hash }
  | .setChallenge _ challenge, f => some { f with challenge := challenge }
  | .setRecoveryUsed _, f => some { f with recoveryUsed := true }
  | .complete _ session, f => some { f with completedSession := some session }
  | .deleteFlow _, _ => none
  | _, f => some f

def Write.setFlow (w : Write) (flows : ℕ → Option LoginFlow) (id : ℕ) : Option LoginFlow :=
  if w.row = .flow id then (flows id).bind w.touchFlow else flows id

def Write.setTotp : Write → (ℕ → Option UserTotp) → ℕ → Option UserTotp
  | .addTotp user secret, totp => Function.update totp user (some ⟨secret, none⟩)
  | .confirmTotp user now, totp =>
    Function.update totp user ((totp user).map fun row => { row with confirmedAt := some now })
  | .deleteTotp user, totp => Function.update totp user none
  | _, totp => totp

def Write.setCodes : Write → List Code → List Code
  | .useCode key now, codes =>
    codes.map fun c => if c.key = key then { c with usedAt := some now } else c
  | .deleteCode key, codes => codes.filter fun c => c.key != key
  | .addCode code, codes => codes ++ [code]
  | _, codes => codes

/-- What a write makes of a session that is there. -/
def Write.updateSession : Write → SessionRow → SessionRow
  | .touchSession id now, x => if x.id = id then { x with lastSeenAt := now } else x
  | .revokeSession id now, x => if x.id = id then { x with revokedAt := some now } else x
  | .staleSession id, x => if x.id = id then { x with stale := true } else x
  | .reissueSession id hash, x => if x.id = id then { x with cookieSecretHash := hash } else x
  | _, x => x

def Write.newSession : Write → List SessionRow
  | .addSession row => [row]
  | _ => []

def Write.setCredentials : Write → List WebAuthnCredential → List WebAuthnCredential
  | .setSignCount credentialId count, credentials =>
    credentials.map fun c => if c.credentialId = credentialId then { c with signCount := count } else c
  | _, credentials => credentials

def apply (db : Db) (w : Write) : Db where
  users := db.users
  flows := w.setFlow db.flows
  totp := w.setTotp db.totp
  codes := w.setCodes db.codes
  credentials := w.setCredentials db.credentials
  sessions := db.sessions.map w.updateSession ++ w.newSession

/-- What a submission has read: its flow and its user. -/
structure Entry where
  form : Form
  id : ℕ
  flow : LoginFlow
  user : User
  deriving Repr, DecidableEq

inductive Liveness
  | dead
  | idle
  | moved
  | due
  | live
  deriving Repr, DecidableEq

inductive TotpPoint
  | flow (a : Attempt) (code : List Char)
  | user (a : Attempt) (code : List Char) (id : ℕ) (flow : LoginFlow)
  | secret (e : Entry) (code : List Char)
  deriving Repr, DecidableEq

inductive EnrollPoint
  | flow (a : Attempt) (code : List Char)
  | user (a : Attempt) (code : List Char) (id : ℕ) (flow : LoginFlow)
  | secret (e : Entry) (code : List Char)
  | confirm (e : Entry)
  | unused (e : Entry)
  | remove (e : Entry) (keys : List Key)
  | issue (e : Entry)
  | session (e : Entry) (batch : ℕ)
  | burn (e : Entry) (batch session : ℕ)
  deriving Repr, DecidableEq

inductive RecoveryPoint
  | flow (a : Attempt) (code : List Char)
  | user (a : Attempt) (code : List Char) (id : ℕ) (flow : LoginFlow)
  | unused (e : Entry) (code : List Char)
  | lock (e : Entry) (code : List Char) (keys : List Key)
  | use (e : Entry) (key : Key)
  | old (e : Entry) (key : Key)
  | mark (e : Entry) (key : Key) (old : Bool)
  | drop (e : Entry) (key : Key) (old : Bool)
  deriving Repr, DecidableEq

inductive AssertionPoint
  | flow (a : Attempt) (assertion : Assertion)
  | user (a : Attempt) (assertion : Assertion) (id : ℕ) (flow : LoginFlow)
  | challenge (e : Entry) (assertion : Assertion)
  | credential (e : Entry) (assertion : Assertion) (challenge : List Char)
  | sign (e : Entry) (credentialId : List Char) (count : ℕ)
  deriving Repr, DecidableEq

inductive SetupPoint
  | optionsFlow (r : Form) (challenge : List Char)
  | optionsUser (r : Form) (challenge : List Char) (id : ℕ) (flow : LoginFlow)
  | credentials (e : Entry) (challenge : List Char)
  | options (e : Entry) (challenge : List Char)
  | formFlow (r : Form) (newTotp : List Char)
  | formUser (r : Form) (newTotp : List Char) (id : ℕ) (flow : LoginFlow)
  | confirmed (e : Entry) (newTotp : List Char)
  | secret (e : Entry) (newTotp : List Char)
  | existing (e : Entry) (newTotp : List Char)
  | delete (e : Entry) (newTotp : List Char)
  | insert (e : Entry) (newTotp : List Char)
  | csrf (e : Entry)
  deriving Repr, DecidableEq

/-- The statement that a request comes to next. -/
inductive Point
  | totp (p : TotpPoint)
  | enroll (p : EnrollPoint) (hashes : List (List Char))
  | recovery (p : RecoveryPoint)
  | assertion (p : AssertionPoint)
  | setup (p : SetupPoint)
  | resume (r : Form) (session : ℕ) (failed : Reply) (known : Bool)
  | settle (r : Form) (session : ℕ) (found : Liveness) (failed : Reply) (known : Bool)
  | reissue (r : Form) (session : ℕ) (failed : Reply) (known : Bool)
  | refuse (e : Entry)
  | session (e : Entry) (amr : List Amr)
  | complete (e : Entry) (session : ℕ)
  | answer (reply : Reply)
  deriving Repr, DecidableEq

def expired : Reply := .error 400 "Your sign-in session expired. Please start over."

def invalidFlow : Reply := .error 400 "invalid or expired sign-in flow"

def noEnrollment : Reply := .error 400 "No enrollment in progress. Please start over."

/-- SELECT … FOR UPDATE locks the row that it finds, whatever the checks say of it. -/
def lock (db : Db) (r : Form) : List Write :=
  match r.flow with
  | none => []
  | some id => if (db.flows id).isSome then [.lockFlow id] else []

def flowUser (db : Db) (f : LoginFlow) : Option User :=
  match f.user with
  | none => none
  | some id =>
    match db.users.find? fun u => u.id == id with
    | none => none
    | some user => if user.status = .active then some user else none

/-- The UPDATE of a flow, which raises when the flow is gone. -/
def updateFlow (db : Db) (id : ℕ) (w : Write) (p : Point) : Option (List Write × Point) :=
  if (db.flows id).isSome then some ([w], p) else none

/-- `check_liveness`: what it finds, before it writes. -/
def checkLiveness (cfg : Config) (x : Session) (ip : List Char) (now : ℤ) : Liveness :=
  if x.revokedAt.isSome || x.stale then .dead
  else if x.absoluteExpiresAt ≤ now then .dead
  else if cfg.idleTtl < now - x.lastSeenAt then .idle
  else if x.sourceIP != ip then .moved
  else if cfg.sessionTouchInterval ≤ now - x.lastSeenAt then .due
  else .live

/-- `create_session` -/
def sessionRow (cfg : Config) (serial : ℕ) (e : Entry) (amr : List Amr) : SessionRow :=
  { id := serial
    user := e.user.id
    cookieSecretHash := cfg.sha256Hex e.form.newSecret
    sourceIP := e.form.ip
    tier := e.user.tier
    amr := amr
    lastSeenAt := e.form.now
    absoluteExpiresAt := e.form.now + cfg.refreshAbsTtl
    stale := false
    revokedAt := none
    flow := e.id }

def Code.unusedBy (user : ℕ) (c : Code) : Bool := c.user == user && c.usedAt.isNone

/-- The codes that a statement has found and that it still finds unused when it has locked them. -/
def still (db : Db) (user : ℕ) (keys : List Key) : List Code :=
  db.codes.filter fun c => keys.contains c.key && c.unusedBy user

def newCodes (serial user : ℕ) (hashes : List (List Char)) : List Code :=
  hashes.zipIdx.map fun h => ⟨⟨user, h.1, none⟩, ⟨serial, h.2⟩⟩

/-- `_credential_id_from_response`, and the row that it names. -/
def credentialById (db : Db) (rawId : Option (List Char)) : Option WebAuthnCredential :=
  match rawId with
  | none => none
  | some id => if id = [] then none else db.credentials.find? fun c => c.credentialId == id

def totpStatement (cfg : Config) (db : Db) : TotpPoint → Option (List Write × Point)
  | .flow a code =>
    match guardedRow cfg db.flows a.form .totp with
    | none => some (lock db a.form, .answer .turnedAway)
    | some (id, f) => some (lock db a.form, .totp (.user a code id f))
  | .user a code id f =>
    match f.completedSession with
    | some session => some ([], .resume a.form session expired (flowUser db f).isSome)
    | none =>
      match flowUser db f with
      | none => some ([], .answer expired)
      | some user =>
        match a.throttled with
        | some retryAfter => some ([], .answer (.throttled retryAfter))
        | none => some ([], .totp (.secret ⟨a.form, id, f, user⟩ code))
  | .secret e code =>
    match db.totp e.user.id with
    | none => some ([], .answer (.redirect "/auth/enroll/totp"))
    | some row =>
      if row.confirmedAt = none then some ([], .answer (.redirect "/auth/enroll/totp"))
      else if cfg.verifyCode row.secret (strip code) e.form.now then
        some ([], .session e (totpAmr e.flow))
      else some ([], .refuse e)

def enrollStatement (cfg : Config) (db : Db) (serial : ℕ) (hashes : List (List Char)) :
    EnrollPoint → Option (List Write × Point)
  | .flow a code =>
    match guardedRow cfg db.flows a.form .totp with
    | none => some ([], .answer .turnedAway)
    | some (id, f) => some ([], .enroll (.user a code id f) hashes)
  | .user a code id f =>
    match flowUser db f with
    | none => some ([], .answer expired)
    | some user =>
      if user.tier = .admin then some ([], .answer expired)
      else
        match a.throttled with
        | some retryAfter => some ([], .answer (.throttled retryAfter))
        | none => some ([], .enroll (.secret ⟨a.form, id, f, user⟩ code) hashes)
  | .secret e code =>
    match db.totp e.user.id with
    | none => some ([], .answer noEnrollment)
    | some row =>
      if row.confirmedAt ≠ none then some ([], .answer noEnrollment)
      else if cfg.verifyCode row.secret (strip code) e.form.now then
        some ([], .enroll (.confirm e) hashes)
      else some ([], .refuse e)
  | .confirm e =>
    if (db.totp e.user.id).isSome then
      some ([.confirmTotp e.user.id e.form.now], .enroll (.unused e) hashes)
    else none
  | .unused e =>
    some ([], .enroll (.remove e ((db.codes.filter (Code.unusedBy e.user.id)).map Code.key)) hashes)
  | .remove e keys =>
    some ((still db e.user.id keys).map fun c => .deleteCode c.key, .enroll (.issue e) hashes)
  | .issue e =>
    some ((newCodes serial e.user.id hashes).map .addCode, .enroll (.session e serial) hashes)
  | .session e batch =>
    some ([.addSession (sessionRow cfg serial e (totpAmr e.flow))],
      .enroll (.burn e batch serial) hashes)
  | .burn e batch session =>
    some (if (db.flows e.id).isSome then [.deleteFlow e.id] else [],
      .answer (.enrolled e.id e.user.id batch session))

def recoveryStatement (cfg : Config) (db : Db) : RecoveryPoint → Option (List Write × Point)
  | .flow a code =>
    match guardedRow cfg db.flows a.form .totp with
    | none => some ([], .answer .turnedAway)
    | some (id, f) => some ([], .recovery (.user a code id f))
  | .user a code id f =>
    match flowUser db f with
    | none => some ([], .answer expired)
    | some user =>
      match a.throttled with
      | some retryAfter => some ([], .answer (.throttled retryAfter))
      | none => some ([], .recovery (.unused ⟨a.form, id, f, user⟩ code))
  | .unused e code =>
    some ([], .recovery (.lock e code ((db.codes.filter (Code.unusedBy e.user.id)).map Code.key)))
  | .lock e code keys =>
    let rows := still db e.user.id keys
    match rows.find? fun c => cfg.verifyPassword c.codeHash (normalize cfg code) with
    | none => some (rows.map fun c => .lockCode c.key, .refuse e)
    | some row => some (rows.map fun c => .lockCode c.key, .recovery (.use e row.key))
  | .use e key =>
    if db.codes.any fun c => c.key == key then
      some ([.useCode key e.form.now], .recovery (.old e key))
    else none
  | .old e key => some ([], .recovery (.mark e key (db.totp e.user.id).isSome))
  | .mark e key old =>
    if e.flow.recoveryUsed then some ([], .recovery (.drop e key old))
    else updateFlow db e.id (.setRecoveryUsed e.id) (.recovery (.drop e key old))
  | .drop e key old =>
    some (if old && (db.totp e.user.id).isSome then [.deleteTotp e.user.id] else [],
      .answer (.recovered e.user.id key))

def assertionStatement (cfg : Config) (db : Db) : AssertionPoint → Option (List Write × Point)
  | .flow a assertion =>
    match guardedRow cfg db.flows a.form .webauthn with
    | none => some (lock db a.form, .answer invalidFlow)
    | some (id, f) => some (lock db a.form, .assertion (.user a assertion id f))
  | .user a assertion id f =>
    match flowUser db f with
    | none => some ([], .answer invalidFlow)
    | some user =>
      match f.completedSession with
      | some session =>
        some ([], .resume a.form session (.error 400 "sign-in expired, start over") true)
      | none =>
        match a.throttled with
        | some _ => some ([], .answer (.error 429 "too many attempts"))
        | none => some ([], .assertion (.challenge ⟨a.form, id, f, user⟩ assertion))
  | .challenge e assertion =>
    match e.flow.challenge with
    | none => some ([], .answer (.error 400 "no assertion in progress"))
    | some challenge =>
      updateFlow db e.id (.setChallenge e.id none) (.assertion (.credential e assertion challenge))
  | .credential e assertion challenge =>
    match credentialById db assertion.rawId with
    | none => some ([], .answer (.error 401 "verification failed"))
    | some row =>
      if row.user ≠ e.user.id then some ([], .answer (.error 401 "verification failed"))
      else
        match cfg.verifyAssertion assertion.text challenge row with
        | none => some ([], .answer (.error 401 "verification failed"))
        | some count => some ([], .assertion (.sign e row.credentialId count))
  | .sign e credentialId count =>
    if db.credentials.any fun c => c.credentialId == credentialId then
      some ([.setSignCount credentialId count], .session e [.pwd, .webauthn])
    else none

def setupStatement (cfg : Config) (db : Db) : SetupPoint → Option (List Write × Point)
  | .optionsFlow r challenge =>
    match guardedRow cfg db.flows r .webauthn with
    | none => some (lock db r, .answer invalidFlow)
    | some (id, f) => some (lock db r, .setup (.optionsUser r challenge id f))
  | .optionsUser r challenge id f =>
    match flowUser db f with
    | none => some ([], .answer invalidFlow)
    | some user => some ([], .setup (.credentials ⟨r, id, f, user⟩ challenge))
  | .credentials e challenge =>
    if db.credentials.any fun c => c.user == e.user.id then some ([], .setup (.options e challenge))
    else some ([], .answer (.error 400 "no credentials enrolled"))
  | .options e challenge =>
    updateFlow db e.id (.setChallenge e.id (some challenge)) (.answer (.page 200))
  | .formFlow r newTotp =>
    match stageRow db.flows r .totp with
    | none => some ([], .answer expired)
    | some (id, f) => some ([], .setup (.formUser r newTotp id f))
  | .formUser r newTotp id f =>
    match flowUser db f with
    | none => some ([], .answer expired)
    | some user =>
      if user.tier = .admin then
        some ([], .answer (.error 403 "Admin accounts use passkeys, not TOTP."))
      else some ([], .setup (.confirmed ⟨r, id, f, user⟩ newTotp))
  | .confirmed e newTotp =>
    if (db.totp e.user.id).any fun row => row.confirmedAt.isSome then
      some ([], .answer (.redirect "/auth/totp"))
    else some ([], .setup (.secret e newTotp))
  | .secret e newTotp =>
    match db.totp e.user.id with
    | none => some ([], .setup (.existing e newTotp))
    | some _ => some ([], .setup (.csrf e))
  | .existing e newTotp =>
    if (db.totp e.user.id).isSome then some ([], .setup (.delete e newTotp))
    else some ([], .setup (.insert e newTotp))
  | .delete e newTotp =>
    some (if (db.totp e.user.id).isSome then [.deleteTotp e.user.id] else [],
      .setup (.insert e newTotp))
  | .insert e newTotp =>
    if (db.totp e.user.id).isSome then none
    else some ([.addTotp e.user.id newTotp], .setup (.csrf e))
  | .csrf e =>
    updateFlow db e.id (.setCsrf e.id (cfg.sha256Hex e.form.newCsrf)) (.answer (.page 200))

def statement (cfg : Config) (db : Db) (serial : ℕ) : Point → Option (List Write × Point)
  | .totp p => totpStatement cfg db p
  | .enroll p hashes => enrollStatement cfg db serial hashes p
  | .recovery p => recoveryStatement cfg db p
  | .assertion p => assertionStatement cfg db p
  | .setup p => setupStatement cfg db p
  | .resume r session failed known =>
    match db.sessions.find? fun x => x.id == session with
    | none => some ([], .answer failed)
    | some x =>
      some ([], .settle r session (checkLiveness cfg x.toSession r.ip r.now) failed known)
  | .settle r session found failed known =>
    match found with
    | .dead => some ([], .answer failed)
    | .idle => some ([.revokeSession session r.now], .answer failed)
    | .moved => some ([.staleSession session], .answer failed)
    | .due => some ([.touchSession session r.now], .reissue r session failed known)
    | .live => some ([], .reissue r session failed known)
  | .reissue r session failed known =>
    some ([.reissueSession session (cfg.sha256Hex r.newSecret)],
      .answer (if known then .resumed session else failed))
  | .refuse e =>
    updateFlow db e.id (.setCsrf e.id (cfg.sha256Hex e.form.newCsrf)) (.answer (.page 401))
  | .session e amr => some ([.addSession (sessionRow cfg serial e amr)], .complete e serial)
  | .complete e session =>
    updateFlow db e.id (.complete e.id session) (.answer (.signedIn e.id session))
  | .answer _ => none

def program (cfg : Config) : Program Request Db Row Write Point Reply where
  start := fun request _ =>
    match request with
    | .totpSubmit a code => .totp (.flow a code)
    | .enrollTotpSubmit a code hashes => .enroll (.flow a code) hashes
    | .recoverySubmit a code => .recovery (.flow a code)
    | .webauthnVerify a assertion => .assertion (.flow a assertion)
    | .webauthnOptions r challenge => .setup (.optionsFlow r challenge)
    | .enrollTotpForm r newTotp => .setup (.formFlow r newTotp)
  statement := fun db serial _ p => statement cfg db serial p
  answer := fun p =>
    match p with
    | .answer reply => some reply
    | _ => none
  apply := apply
  row := Write.row

abbrev Event : Type := ReadCommitted.Event Request

/-- The tables before the first submission. The flows are those that pass their password step, whenever
they do: no submission names one before. -/
structure Tables where
  users : List User
  flows : ℕ → Option LoginFlow
  totp : ℕ → Option UserTotp
  credentials : List WebAuthnCredential

def Tables.db (tables : Tables) : Db where
  users := tables.users
  flows := fun id => (tables.flows id).map fun f => { f with completedSession := none }
  totp := tables.totp
  codes := []
  credentials := tables.credentials
  sessions := []

def initial (tables : Tables) : State Db Write Point Reply := ⟨tables.db, [], [], 0⟩

def step (cfg : Config) (s : State Db Write Point Reply) (e : Event) : State Db Write Point Reply :=
  ReadCommitted.step (program cfg) s e

def run (cfg : Config) (tables : Tables) (events : List Event) : State Db Write Point Reply :=
  events.foldl (step cfg) (initial tables)

theorem view_eq (cfg : Config) (x : ReadCommitted.Txn Write Point) (db : Db) :
    x.view (program cfg) db = x.writes.foldl apply db := rfl

theorem answer_some (cfg : Config) (p : Point) (reply : Reply)
    (h : (program cfg).answer p = some reply) : p = .answer reply := by
  cases p with
  | answer other =>
    obtain rfl := Option.some.inj h
    rfl
  | _ => cases h

/-- A row that the writes leave alone is the same after them. -/
theorem flows_foldl (writes : List Write) (db : Db) (id : ℕ)
    (h : ∀ w ∈ writes, w.row ≠ .flow id) : (writes.foldl apply db).flows id = db.flows id := by
  induction writes generalizing db with
  | nil => rfl
  | cons w rest ih =>
    rw [List.foldl_cons, ih _ fun w hw => h w (List.mem_cons_of_mem _ hw)]
    exact if_neg (h w (List.mem_cons_self ..))

end Hyproxy.FactorTransactions

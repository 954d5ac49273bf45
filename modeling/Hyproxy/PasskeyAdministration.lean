import Hyproxy.Login
import Hyproxy.ReadCommitted

/-!
The changes of a user's tier, status and passkeys, statement by statement. The
administrator's operations count the user's strong passkeys before they write,
and hold no lock between the two; the enrollment during a login adds a passkey.
-/
namespace Hyproxy.PasskeyAdministration

open Accounts (Config LoginFlow Registration Status Tier User WebAuthnCredential)
open Login (Form guardedRow)
open ReadCommitted (Program State)

/-- A row of `users`. The last three fields are not in the table: how often the account has become
an active admin, how many of its strong passkeys were deleted, and whether it has had two. -/
structure Account extends User where
  armings : ℕ
  removals : ℕ
  hadTwo : Bool
  deriving Repr, DecidableEq

def Account.activeAdmin (a : Account) : Bool := a.tier == .admin && a.status == .active

structure Credential extends WebAuthnCredential where
  id : ℕ
  deriving Repr, DecidableEq

structure Db where
  accounts : List Account
  credentials : List Credential
  flows : ℕ → Option LoginFlow

def Db.account (db : Db) (id : ℕ) : Option Account := db.accounts.find? fun a => a.id == id

def Db.credential (db : Db) (id : ℕ) : Option Credential :=
  db.credentials.find? fun c => c.id == id

def strong (user : ℕ) (c : Credential) : Bool := c.user == user && !c.breakGlass

/-- `_strong_credential_count` -/
def strongCredentialCount (db : Db) (user : ℕ) : ℕ := db.credentials.countP (strong user)

structure Patch where
  authTier : Option Tier := none
  status : Option Status := none
  deriving Repr, DecidableEq

/-- `signIn` stands for a login up to its password step. -/
inductive Request
  | patchUser (user : ℕ) (body : Patch)
  | deleteCredential (user credential : ℕ)
  | signIn (flow : LoginFlow)
  | enrollWebauthnOptions (r : Form) (challenge : List Char)
  | enrollWebauthnVerify (r : Form) (text : List Char) (breakGlass : Bool)
  deriving Repr, DecidableEq

inductive Reply
  | patched
  | deleted
  | started (flow : ℕ)
  | options
  | enrolled
  | refused (status : ℕ) (message : String)
  deriving Repr, DecidableEq

/-- What an operation has read: how often the account had become an active admin, and, if it counted
the passkeys, how many had been deleted by then. -/
structure Check where
  armings : ℕ
  counted : Option ℕ
  deriving Repr, DecidableEq

/-- An UPDATE sets the columns that differ from the loaded ones. -/
inductive Write
  | updateUser (id : ℕ) (authTier : Option Tier) (status : Option Status) (check : Check)
  | deleteCredential (row : Credential) (check : Check)
  | addCredential (row : Credential)
  | addFlow (id : ℕ) (flow : LoginFlow)
  | lockFlow (id : ℕ)
  | setChallenge (id : ℕ) (challenge : Option (List Char))
  deriving Repr, DecidableEq

/-- A passkey is locked by its entry in the unique index. -/
inductive Key
  | user (id : ℕ)
  | credential (credentialId : List Char)
  | flow (id : ℕ)
  deriving Repr, DecidableEq

def Write.row : Write → Key
  | .updateUser id _ _ _ => .user id
  | .deleteCredential row _ => .credential row.credentialId
  | .addCredential row => .credential row.credentialId
  | .addFlow id _ => .flow id
  | .lockFlow id => .flow id
  | .setChallenge id _ => .flow id

def Account.update (a : Account) (authTier : Option Tier) (status : Option Status) : Account :=
  { a with
    tier := authTier.getD a.tier
    status := status.getD a.status
    armings :=
      if !a.activeAdmin && authTier.getD a.tier == .admin && status.getD a.status == .active then
        a.armings + 1
      else a.armings }

/-- What a write makes of a row of `users`. -/
def Write.touch (db : Db) : Write → Account → Account
  | .updateUser id authTier status _, a => if a.id = id then a.update authTier status else a
  | .deleteCredential row _, a =>
    if row ∈ db.credentials ∧ strong a.id row = true then { a with removals := a.removals + 1 } else a
  | .addCredential row, a =>
    { a with hadTwo := a.hadTwo || 2 ≤ (row :: db.credentials).countP (strong a.id) }
  | .addFlow _ _, a => a
  | .lockFlow _, a => a
  | .setChallenge _ _, a => a

def Write.keep : Write → List Credential → List Credential
  | .deleteCredential row _, credentials => credentials.erase row
  | .addCredential row, credentials => row :: credentials
  | _, credentials => credentials

def Write.setFlow : Write → (ℕ → Option LoginFlow) → ℕ → Option LoginFlow
  | .addFlow id flow, flows => Function.update flows id (some flow)
  | .setChallenge id challenge, flows =>
    Function.update flows id ((flows id).map fun f => { f with challenge := challenge })
  | _, flows => flows

def apply (db : Db) (w : Write) : Db :=
  ⟨db.accounts.map (w.touch db), w.keep db.credentials, w.setFlow db.flows⟩

/-- The statement that a request comes to next; `seen` is the account that it has read. -/
inductive Point
  | patch (user : ℕ) (body : Patch)
  | promote (seen : Account) (authTier : Tier) (status : Status)
  | update (seen : Account) (authTier : Tier) (status : Status) (counted : Option ℕ)
  | credentialUser (user credential : ℕ)
  | credential (seen : Account) (credential : ℕ)
  | count (seen : Account) (row : Credential)
  | delete (seen : Account) (row : Credential) (counted : Option ℕ)
  | signIn (flow : LoginFlow)
  | optionsFlow (r : Form) (challenge : List Char)
  | optionsUser (id : ℕ) (flow : LoginFlow) (challenge : List Char)
  | options (id : ℕ) (flow : LoginFlow) (user : ℕ) (challenge : List Char)
  | verifyFlow (r : Form) (text : List Char) (breakGlass : Bool)
  | verifyUser (id : ℕ) (flow : LoginFlow) (r : Form) (text : List Char) (breakGlass : Bool)
  | verify (id : ℕ) (flow : LoginFlow) (user : ℕ) (r : Form) (text : List Char) (breakGlass : Bool)
  | insert (id : ℕ) (user : ℕ) (registration : Registration) (breakGlass : Bool) (now : ℤ)
  | answer (reply : Reply)
  deriving Repr, DecidableEq

def invalidFlow : Point := .answer (.refused 400 "invalid or expired sign-in flow")

/-- SELECT … FOR UPDATE locks the row that it finds, whatever the checks say of it. -/
def lock (db : Db) (r : Form) : List Write :=
  match r.flow with
  | none => []
  | some id => if (db.flows id).isSome then [.lockFlow id] else []

def flowUser (db : Db) (f : LoginFlow) : Option ℕ :=
  match f.user with
  | none => none
  | some id =>
    match db.account id with
    | none => none
    | some user => if user.status = .active then some user.id else none

def bootstrapEnrollAllowed (db : Db) (user : ℕ) (f : LoginFlow) : Bool :=
  (db.credentials.filter fun c => c.user == user).all fun c => f.createdAt ≤ c.createdAt

def changed {α : Type} [DecidableEq α] (old new : α) : Option α := if old = new then none else some new

def removals (db : Db) (user : ℕ) : ℕ := ((db.account user).map Account.removals).getD 0

def patchPoint (seen : Account) (body : Patch) : Option Point :=
  let newTier := body.authTier.getD seen.tier
  let newStatus := body.status.getD seen.status
  if seen.isProtected ∧ (newStatus = .disabled ∨ newTier ≠ .admin) then none
  else if newTier = .admin ∧ seen.tier ≠ .admin then some (.promote seen newTier newStatus)
  else some (.update seen newTier newStatus none)

def verifyPoint (cfg : Config) (id : ℕ) (flow : LoginFlow) (user : ℕ) (r : Form) (text : List Char)
    (breakGlass : Bool) : Point :=
  match flow.challenge with
  | none => .answer (.refused 400 "no enrollment in progress")
  | some challenge =>
    match cfg.verifyRegistration text challenge with
    | none => .answer (.refused 400 "registration failed")
    | some registration => .insert id user registration breakGlass r.now

def credentialRow (serial id user : ℕ) (registration : Registration) (breakGlass : Bool) (now : ℤ) :
    Credential :=
  { id := serial
    user := user
    credentialId := registration.credentialId
    publicKey := registration.publicKey
    signCount := registration.signCount
    breakGlass := breakGlass
    createdAt := now
    flow := id }

def statement (cfg : Config) (db : Db) (serial : ℕ) : Point → Option (List Write × Point)
  | .patch id body =>
    match db.account id with
    | none => none
    | some seen => (patchPoint seen body).map fun p => ([], p)
  | .promote seen authTier status =>
    if strongCredentialCount db seen.id < 2 then none
    else some ([], .update seen authTier status (some (removals db seen.id)))
  | .update seen authTier status counted =>
    if (db.account seen.id).isSome then
      some ([.updateUser seen.id (changed seen.tier authTier) (changed seen.status status)
        ⟨seen.armings, counted⟩], .answer .patched)
    else none
  | .credentialUser id credential =>
    match db.account id with
    | none => none
    | some seen => some ([], .credential seen credential)
  | .credential seen credential =>
    match db.credential credential with
    | none => none
    | some row =>
      if row.user ≠ seen.id then none
      else if seen.activeAdmin && !row.breakGlass then some ([], .count seen row)
      else some ([], .delete seen row none)
  | .count seen row =>
    if strongCredentialCount db seen.id ≤ 2 then none
    else some ([], .delete seen row (some (removals db seen.id)))
  | .delete seen row counted =>
    if row ∈ db.credentials then
      some ([.deleteCredential row ⟨seen.armings, counted⟩], .answer .deleted)
    else some ([], .answer .deleted)
  | .signIn flow => some ([.addFlow serial flow], .answer (.started serial))
  | .optionsFlow r challenge =>
    match guardedRow cfg db.flows r .webauthn with
    | none => some (lock db r, invalidFlow)
    | some (id, flow) => some (lock db r, .optionsUser id flow challenge)
  | .optionsUser id flow challenge =>
    match flowUser db flow with
    | none => some ([], invalidFlow)
    | some user => some ([], .options id flow user challenge)
  | .options id flow user challenge =>
    if bootstrapEnrollAllowed db user flow then
      some ([.setChallenge id (some challenge)], .answer .options)
    else some ([], .answer (.refused 403 "enrollment not allowed"))
  | .verifyFlow r text breakGlass =>
    match guardedRow cfg db.flows r .webauthn with
    | none => some (lock db r, invalidFlow)
    | some (id, flow) => some (lock db r, .verifyUser id flow r text breakGlass)
  | .verifyUser id flow r text breakGlass =>
    match flowUser db flow with
    | none => some ([], invalidFlow)
    | some user => some ([], .verify id flow user r text breakGlass)
  | .verify id flow user r text breakGlass =>
    if bootstrapEnrollAllowed db user flow then
      some ([.setChallenge id none], verifyPoint cfg id flow user r text breakGlass)
    else some ([], .answer (.refused 403 "enrollment not allowed"))
  | .insert id user registration breakGlass now =>
    if db.credentials.any fun c => c.credentialId == registration.credentialId then none
    else some ([.addCredential (credentialRow serial id user registration breakGlass now)],
      .answer .enrolled)
  | .answer _ => none

def program (cfg : Config) : Program Request Db Key Write Point Reply where
  start := fun request _ =>
    match request with
    | .patchUser user body => .patch user body
    | .deleteCredential user credential => .credentialUser user credential
    | .signIn flow => .signIn flow
    | .enrollWebauthnOptions r challenge => .optionsFlow r challenge
    | .enrollWebauthnVerify r text breakGlass => .verifyFlow r text breakGlass
  statement := fun db serial _ p => statement cfg db serial p
  answer := fun p =>
    match p with
    | .answer reply => some reply
    | _ => none
  apply := apply
  row := Write.row

abbrev Event : Type := ReadCommitted.Event Request

/-- The tables at the start, from which on the deletions and the accounts that have had two passkeys
are recorded. -/
structure Tables where
  users : List User
  credentials : List Credential
  flows : ℕ → Option LoginFlow

def Tables.db (tables : Tables) : Db where
  accounts := tables.users.map fun u =>
    ⟨u, 0, 0, 2 ≤ tables.credentials.countP (strong u.id)⟩
  credentials := tables.credentials
  flows := tables.flows

def initial (tables : Tables) : State Db Write Point Reply := ⟨tables.db, [], [], 0⟩

def step (cfg : Config) (s : State Db Write Point Reply) (e : Event) : State Db Write Point Reply :=
  ReadCommitted.step (program cfg) s e

def run (cfg : Config) (tables : Tables) (events : List Event) : State Db Write Point Reply :=
  events.foldl (step cfg) (initial tables)

end Hyproxy.PasskeyAdministration

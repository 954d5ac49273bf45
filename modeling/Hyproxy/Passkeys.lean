import Hyproxy.Login

/-!
The handlers for passkeys, the assertion that completes an administrator's login
and the enrollment during a login, and the administration of users. The two sides
share the credential table.
-/

namespace Hyproxy.Passkeys

open Accounts Login

def invalidFlow : Response := .error 400 "invalid or expired sign-in flow"

/-- `_user_credentials`, up to their order. -/
def userCredentials (s : State) (user : ℕ) : List WebAuthnCredential :=
  s.credentials.filter (fun c => c.user = user)

/-- `_bootstrap_enroll_allowed`: no credential predates the flow. -/
def bootstrapEnrollAllowed (creds : List WebAuthnCredential) (f : LoginFlow) : Bool :=
  creds.all (fun c => f.createdAt ≤ c.createdAt)

def webauthnPage (cfg : Config) (s : State) (r : Form) : State × Response :=
  match getStageFlow s r .webauthn with
  | none => (s, expired)
  | some (id, f) =>
    match flowUser s f with
    | none => (s, expired)
    | some user =>
      if userCredentials s user.id = [] then (s, .redirect "/auth/enroll/webauthn")
      else (rotateCsrf cfg s id f r, .page 200)

def webauthnOptions (cfg : Config) (s : State) (r : Form) (challenge : List Char) :
    State × Response :=
  match guardedFlow cfg s r .webauthn with
  | none => (s, invalidFlow)
  | some (id, f) =>
    match flowUser s f with
    | none => (s, invalidFlow)
    | some user =>
      if userCredentials s user.id = [] then (s, .error 400 "no credentials enrolled")
      else (s.setFlow id { f with challenge := some challenge }, .page 200)

/-- The credential that an assertion names; an empty id names none. -/
def credentialById (s : State) (rawId : Option (List Char)) : Option WebAuthnCredential :=
  match rawId with
  | none => none
  | some id => if id = [] then none else s.credentials.find? (fun c => c.credentialId == id)

def setSignCount (s : State) (row : WebAuthnCredential) (count : ℕ) : State :=
  { s with
    credentials := s.credentials.map fun c =>
      if c.credentialId = row.credentialId then { c with signCount := count } else c }

def assertionFailure (cfg : Config) (s : State) (id : ℕ) (user : User) (r : Form) :
    State × Response :=
  ((factorFailure cfg s user r).emit .loginWebauthnFailure false (some user.id) (some id),
    .error 401 "verification failed")

def assertionSuccess (cfg : Config) (s : State) (id : ℕ) (f : LoginFlow) (user : User)
    (row : WebAuthnCredential) (count : ℕ) (r : Form) : State × Response :=
  let s := (setSignCount s row count).resetAccount user.email
  let s := s.emit .loginWebauthnSuccess true (some user.id) (some id)
  let s := if row.breakGlass then s.emit .loginBreakGlassUsed true (some user.id) (some id) else s
  (finalizeLogin cfg s id f user [.pwd, .webauthn] r, .signedIn)

def webauthnVerify (cfg : Config) (s : State) (r : Form) (a : Assertion) : State × Response :=
  match guardedFlow cfg s r .webauthn with
  | none => (s, invalidFlow)
  | some (id, f) =>
    match flowUser s f with
    | none => (s, invalidFlow)
    | some user =>
      match f.completedSession with
      | some session =>
        match resumeCompletedLogin cfg s r session with
        | (s, true) => (s, .signedIn)
        | (s, false) => (s, .error 400 "sign-in expired, start over")
      | none =>
        match secondFactorThrottle s r id user with
        | some (s, _) => (s, .error 429 "too many attempts")
        | none =>
          let s := s.setFlow id { f with challenge := none }
          match f.challenge with
          | none => (s, .error 400 "no assertion in progress")
          | some challenge =>
            match credentialById s a.rawId with
            | none => assertionFailure cfg s id user r
            | some row =>
              if row.user ≠ user.id then assertionFailure cfg s id user r
              else
                match cfg.verifyAssertion a.text challenge row with
                | none => assertionFailure cfg s id user r
                | some count =>
                  assertionSuccess cfg s id { f with challenge := none } user row count r

def enrollWebauthnPage (cfg : Config) (s : State) (r : Form) : State × Response :=
  match getStageFlow s r .webauthn with
  | none => (s, expired)
  | some (id, f) =>
    match flowUser s f with
    | none => (s, expired)
    | some user =>
      if bootstrapEnrollAllowed (userCredentials s user.id) f then
        (rotateCsrf cfg s id f r, .page 200)
      else (s, .error 403 "Passkeys are already enrolled. Sign in with your passkey.")

def enrollWebauthnOptions (cfg : Config) (s : State) (r : Form) (challenge : List Char) :
    State × Response :=
  match guardedFlow cfg s r .webauthn with
  | none => (s, invalidFlow)
  | some (id, f) =>
    match flowUser s f with
    | none => (s, invalidFlow)
    | some user =>
      if bootstrapEnrollAllowed (userCredentials s user.id) f then
        (s.setFlow id { f with challenge := some challenge }, .page 200)
      else (s, .error 403 "enrollment not allowed")

/-- The insert of a credential, which the unique index on its id can refuse. -/
def addCredential (s : State) (id : ℕ) (user : User) (reg : Registration) (breakGlass : Bool)
    (now : ℤ) : State :=
  let s := { s with
    credentials := ⟨user.id, reg.credentialId, reg.publicKey, reg.signCount, breakGlass, now, id⟩ ::
      s.credentials }
  s.emit .enrollWebauthn true (some user.id) (some id)

def enrollWebauthnVerify (cfg : Config) (s : State) (r : Form) (text : List Char)
    (breakGlass : Bool) : State × Response :=
  match guardedFlow cfg s r .webauthn with
  | none => (s, invalidFlow)
  | some (id, f) =>
    match flowUser s f with
    | none => (s, invalidFlow)
    | some user =>
      if !bootstrapEnrollAllowed (userCredentials s user.id) f then
        (s, .error 403 "enrollment not allowed")
      else
        match f.challenge with
        | none => (s.setFlow id { f with challenge := none }, .error 400 "no enrollment in progress")
        | some challenge =>
          match cfg.verifyRegistration text challenge with
          | none =>
            ((s.setFlow id { f with challenge := none }).emit .enrollWebauthn false (some user.id)
              (some id), .error 400 "registration failed")
          | some reg =>
            if ∃ c ∈ s.credentials, c.credentialId = reg.credentialId then
              (s, .error 500 "Internal Server Error")
            else
              (addCredential (s.setFlow id { f with challenge := none }) id user reg breakGlass r.now,
                .page 200)

def notFound : Response := .error 404 "user not found"

def setUser (s : State) (user : User) : State :=
  { s with users := s.users.map fun u => if u.id = user.id then user else u }

/-- `create_user`; an email that differs only in case is taken. -/
def createUser (cfg : Config) (s : State) (user : User) : State × Response :=
  if (userByEmail cfg s user.email).isSome then (s, .error 409 "email already exists")
  else if (s.user user.id).isSome then (s, .error 500 "Internal Server Error")
  else ({ s with users := { user with status := .active } :: s.users }, .page 201)

/-- `_strong_credential_count` -/
def strongCredentialCount (s : State) (user : ℕ) : ℕ :=
  ((userCredentials s user).filter (fun c => !c.breakGlass)).length

def patchUser (s : State) (id : ℕ) (tier : Option Tier) (status : Option Status) (now : ℤ) :
    State × Response :=
  match s.user id with
  | none => (s, notFound)
  | some user =>
    let newTier := tier.getD user.tier
    let newStatus := status.getD user.status
    if user.isProtected ∧ (newStatus = .disabled ∨ newTier ≠ .admin) then
      (s, .error 409 "the bootstrap admin cannot be disabled or demoted")
    else if newTier = .admin ∧ user.tier ≠ .admin ∧ strongCredentialCount s id < 2 then
      (s, .error 409 "admin tier requires two enrolled non-break-glass passkeys")
    else
      let s := setUser s { user with tier := newTier, status := newStatus }
      if user.status = .active ∧ newStatus = .disabled then (revokeUserSessions s id now, .page 200)
      else (s, .page 200)

/-- `delete_user` by another administrator, with the rows that go with the user. -/
def deleteUser (s : State) (id : ℕ) : State × Response :=
  match s.user id with
  | none => (s, notFound)
  | some user =>
    if user.isProtected then (s, .error 409 "the bootstrap admin cannot be deleted")
    else
      ({ s with
        users := s.users.filter (fun u => u.id ≠ id)
        flows := fun n => (s.flows n).filter (fun f => f.user ≠ some id)
        totp := Function.update s.totp id none
        codes := s.codes.filter (fun c => c.user ≠ id)
        credentials := s.credentials.filter (fun c => c.user ≠ id)
        sessions := fun n => (s.sessions n).filter (fun x => x.user ≠ id) }, .page 204)

def resetTotp (s : State) (id : ℕ) (now : ℤ) : State × Response :=
  match s.user id with
  | none => (s, notFound)
  | some user =>
    if user.tier = .admin then (s, .error 409 "admin accounts do not use TOTP")
    else
      let s := s.setTotp id none
      let s := { s with codes := s.codes.filter (fun c => ¬ (c.user = id ∧ c.usedAt = none)) }
      ((revokeUserSessions s id now).emit .adminTotpReset true (some id) none, .page 204)

def resetPassword (s : State) (id : ℕ) (hash : List Char) (now : ℤ) : State × Response :=
  match s.user id with
  | none => (s, notFound)
  | some user => (revokeUserSessions (setUser s { user with passwordHash := hash }) id now, .page 204)

def deleteCredential (s : State) (id : ℕ) (credentialId : List Char) : State × Response :=
  match s.user id with
  | none => (s, notFound)
  | some user =>
    match s.credentials.find? (fun c => c.credentialId == credentialId) with
    | none => (s, .error 404 "credential not found")
    | some row =>
      if row.user ≠ id then (s, .error 404 "credential not found")
      else if user.tier = .admin ∧ user.status = .active ∧ row.breakGlass = false ∧
          strongCredentialCount s id ≤ 2 then
        (s, .error 409 "active admin must keep two non-break-glass passkeys")
      else
        ({ s with credentials := s.credentials.filter (fun c => c.credentialId ≠ credentialId) },
          .page 204)

/-- The part of the clean-up job that drops expired flows. -/
def gcFlows (s : State) (now : ℤ) : State :=
  { s with flows := fun n => (s.flows n).filter (fun f => now < f.expiresAt) }

inductive Event
  | authorize (r : Form) (dbNow : ℤ)
  | loginForm (r : Form) (dbNow : ℤ)
  | loginSubmit (r : Form) (email password : List Char)
  | totpForm (r : Form)
  | totpSubmit (r : Form) (code : List Char)
  | enrollTotpForm (r : Form) (newTotp : List Char)
  | enrollTotpSubmit (r : Form) (code : List Char) (hashes : List (List Char))
  | recoveryForm (r : Form)
  | recoverySubmit (r : Form) (code : List Char)
  | webauthnPage (r : Form)
  | webauthnOptions (r : Form) (challenge : List Char)
  | webauthnVerify (r : Form) (a : Assertion)
  | enrollWebauthnPage (r : Form)
  | enrollWebauthnOptions (r : Form) (challenge : List Char)
  | enrollWebauthnVerify (r : Form) (text : List Char) (breakGlass : Bool)
  | createUser (user : User)
  | patchUser (id : ℕ) (tier : Option Tier) (status : Option Status) (now : ℤ)
  | deleteUser (id : ℕ)
  | resetTotp (id : ℕ) (now : ℤ)
  | resetPassword (id : ℕ) (hash : List Char) (now : ℤ)
  | deleteCredential (id : ℕ) (credentialId : List Char)
  | gcFlows (now : ℤ)
  deriving Repr, DecidableEq

/-- One request, served in one transaction. -/
def serve (cfg : Config) (s : State) : Event → State × Response
  | .authorize r dbNow => authorize cfg s r dbNow
  | .loginForm r dbNow => loginForm cfg s r dbNow
  | .loginSubmit r email password => loginSubmit cfg s r email password
  | .totpForm r => totpForm cfg s r
  | .totpSubmit r code => totpSubmit cfg s r code
  | .enrollTotpForm r newTotp => enrollTotpForm cfg s r newTotp
  | .enrollTotpSubmit r code hashes => enrollTotpSubmit cfg s r code hashes
  | .recoveryForm r => recoveryForm cfg s r
  | .recoverySubmit r code => recoverySubmit cfg s r code
  | .webauthnPage r => webauthnPage cfg s r
  | .webauthnOptions r challenge => webauthnOptions cfg s r challenge
  | .webauthnVerify r a => webauthnVerify cfg s r a
  | .enrollWebauthnPage r => enrollWebauthnPage cfg s r
  | .enrollWebauthnOptions r challenge => enrollWebauthnOptions cfg s r challenge
  | .enrollWebauthnVerify r text breakGlass => enrollWebauthnVerify cfg s r text breakGlass
  | .createUser user => createUser cfg s user
  | .patchUser id tier status now => patchUser s id tier status now
  | .deleteUser id => deleteUser s id
  | .resetTotp id now => resetTotp s id now
  | .resetPassword id hash now => resetPassword s id hash now
  | .deleteCredential id credentialId => deleteCredential s id credentialId
  | .gcFlows now => (gcFlows s now, .page 200)

def step (cfg : Config) (s : State) (e : Event) : State := (serve cfg s e).1

/-- The tables before the first request. -/
def initial : State where
  users := []
  flows := fun _ => none
  nextFlow := 0
  totp := fun _ => none
  codes := []
  credentials := []
  sessions := fun _ => none
  nextSession := 0
  throttle := fun _ _ => none
  log := []

def after (cfg : Config) (events : List Event) : State := events.foldl (step cfg) initial

theorem after_snoc (cfg : Config) (events : List Event) (e : Event) :
    after cfg (events ++ [e]) = step cfg (after cfg events) e := by
  rw [after, List.foldl_append]
  rfl

end Hyproxy.Passkeys

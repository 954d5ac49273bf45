import Hyproxy.Accounts
import Mathlib.Tactic.SplitIfs

/-!
The handlers of the login surface and of the user administration, each a function
of the state before its transaction: the password step, the second factors, the
enrollment of authenticators and the changes an administrator makes to accounts.
-/

namespace Hyproxy.Login

open Accounts Text

/-- What every request on the login surface brings: the flow it names, its cookies and its
token, with the secrets that are drawn while it is served. -/
structure Form where
  now : ℤ
  ip : List Char
  flow : Option ℕ
  cookie : Option ℕ
  csrf : List Char
  session : Option (ℕ × List Char)
  newCsrf : List Char
  newSecret : List Char
  deriving Repr, DecidableEq

/-- What a request is answered; `throttled` is the page with status 429 and `Retry-After`. -/
inductive Response
  | page (status : ℕ)
  | error (status : ℕ) (message : String)
  | throttled (retryAfter : ℤ)
  | redirect (location : String)
  | signedIn
  deriving Repr, DecidableEq

def expired : Response := .error 400 "Your sign-in session expired. Please start over."

def invalid : Response := .error 400 "Invalid request. Please start over."

def requiredSecondFactor (user : User) : Stage :=
  match user.tier with
  | .admin => .webauthn
  | .standard => .totp

def stagePath : Stage → String
  | .password => "/auth/login"
  | .totp => "/auth/totp"
  | .webauthn => "/auth/webauthn"

/-- `create_flow`; the database stamps `created_at` with its own clock. -/
def createFlow (cfg : Config) (s : State) (r : Form) (dbNow : ℤ) : State :=
  { s.setFlow s.nextFlow
      { csrfTokenHash := cfg.sha256Hex r.newCsrf
        sourceIP := r.ip
        stage := .password
        user := none
        challenge := none
        recoveryUsed := false
        completedSession := none
        createdAt := dbNow
        expiresAt := r.now + cfg.loginFlowTtl } with nextFlow := s.nextFlow + 1 }

def getValidFlow (s : State) (r : Form) (enforceIP : Bool) : Option (ℕ × LoginFlow) :=
  match r.flow with
  | none => none
  | some id =>
    match s.flows id with
    | none => none
    | some f =>
      if f.expiresAt ≤ r.now then none
      else if enforceIP && f.user.isSome && f.sourceIP != r.ip then none
      else some (id, f)

def verifyFlowCsrf (cfg : Config) (f : LoginFlow) (csrf : List Char) : Bool :=
  cfg.sha256Hex csrf == f.csrfTokenHash

def rotateCsrf (cfg : Config) (s : State) (id : ℕ) (f : LoginFlow) (r : Form) : State :=
  s.setFlow id { f with csrfTokenHash := cfg.sha256Hex r.newCsrf }

def getStageFlow (s : State) (r : Form) (stage : Stage) : Option (ℕ × LoginFlow) :=
  match getValidFlow s r false with
  | none => none
  | some (id, f) =>
    if f.stage ≠ stage ∨ f.user = none then none
    else if r.cookie ≠ some id then none
    else some (id, f)

/-- The flow of a submission whose token matches. -/
def guardedFlow (cfg : Config) (s : State) (r : Form) (stage : Stage) : Option (ℕ × LoginFlow) :=
  match getStageFlow s r stage with
  | none => none
  | some (id, f) => if verifyFlowCsrf cfg f r.csrf then some (id, f) else none

/-- `get_stage_flow` over the rows of `login_flows`. -/
def stageRow (flows : ℕ → Option LoginFlow) (r : Form) (stage : Stage) : Option (ℕ × LoginFlow) :=
  match r.flow with
  | none => none
  | some id =>
    match flows id with
    | none => none
    | some f =>
      if f.expiresAt ≤ r.now then none
      else if f.stage ≠ stage ∨ f.user = none then none
      else if r.cookie ≠ some id then none
      else some (id, f)

/-- The row that a submission names, if its token matches. -/
def guardedRow (cfg : Config) (flows : ℕ → Option LoginFlow) (r : Form) (stage : Stage) :
    Option (ℕ × LoginFlow) :=
  match stageRow flows r stage with
  | none => none
  | some (id, f) => if verifyFlowCsrf cfg f r.csrf then some (id, f) else none

theorem stageRow_some (flows : ℕ → Option LoginFlow) (r : Form) (stage : Stage) (id : ℕ)
    (f : LoginFlow) (h : stageRow flows r stage = some (id, f)) :
    r.flow = some id ∧ flows id = some f := by
  unfold stageRow at h
  cases hnamed : r.flow with
  | none =>
    rw [hnamed] at h
    cases h
  | some named =>
    rw [hnamed] at h
    simp only at h
    cases hrow : flows named with
    | none =>
      rw [hrow] at h
      cases h
    | some row =>
      rw [hrow] at h
      simp only at h
      split_ifs at h
      obtain ⟨rfl, rfl⟩ := Prod.mk.inj (Option.some.inj h)
      exact ⟨rfl, hrow⟩

theorem guardedRow_some (cfg : Config) (flows : ℕ → Option LoginFlow) (r : Form) (stage : Stage)
    (id : ℕ) (f : LoginFlow) (h : guardedRow cfg flows r stage = some (id, f)) :
    r.flow = some id ∧ flows id = some f := by
  unfold guardedRow at h
  cases hstage : stageRow flows r stage with
  | none =>
    rw [hstage] at h
    cases h
  | some found =>
    rw [hstage] at h
    simp only at h
    split_ifs at h
    obtain ⟨rfl, rfl⟩ := Prod.mk.inj (Option.some.inj h)
    exact stageRow_some flows r stage _ _ hstage

def flowUser (s : State) (f : LoginFlow) : Option User :=
  match f.user with
  | none => none
  | some id =>
    match s.user id with
    | none => none
    | some user => if user.status = .active then some user else none

/-- `redirect_if_authenticated`, and the error page for those who are not. -/
def turnedAway (cfg : Config) (s : State) (r : Form) : State × Response :=
  match getSessionFromCookie cfg s r.session r.ip r.now with
  | (s, true) => (s, .redirect "/auth/done")
  | (s, false) => (s, invalid)

def loginForm (cfg : Config) (s : State) (r : Form) (dbNow : ℤ) : State × Response :=
  match getSessionFromCookie cfg s r.session r.ip r.now with
  | (s, true) => (s, .redirect "/auth/done")
  | (s, false) =>
    match getValidFlow s r true with
    | none => (createFlow cfg s r dbNow, .page 200)
    | some (id, f) =>
      if f.stage = .password then (rotateCsrf cfg s id f r, .page 200)
      else (createFlow cfg (s.deleteFlow id) r dbNow, .page 200)

/-- The flow that `/oidc/authorize` opens for a browser without a session. -/
def authorize (cfg : Config) (s : State) (r : Form) (dbNow : ℤ) : State × Response :=
  match getSessionFromCookie cfg s r.session r.ip r.now with
  | (s, true) => (s, .page 303)
  | (s, false) => (createFlow cfg s r dbNow, .redirect "/auth/login")

def userByEmail (cfg : Config) (s : State) (email : List Char) : Option User :=
  s.users.find? (fun user => cfg.citext user.email == cfg.citext email)

/-- The key under which the password step counts failures. -/
def accountKey (cfg : Config) (email : List Char) : List Char := cfg.lower (strip email)

def passwordFailure (cfg : Config) (s : State) (id : ℕ) (user : Option User) (r : Form)
    (email : List Char) : State × Response :=
  ((s.registerFailure cfg r.ip email r.now).emit .loginPasswordFailure false (user.map User.id)
    (some id), .page 401)

def passwordSuccess (s : State) (id : ℕ) (f : LoginFlow) (user : User) (r : Form)
    (email : List Char) : State × Response :=
  (((s.resetAccount email).emit .loginPasswordSuccess true (some user.id) (some id)).setFlow id
    { f with user := some user.id, stage := requiredSecondFactor user, sourceIP := r.ip },
    .redirect (stagePath (requiredSecondFactor user)))

def loginSubmit (cfg : Config) (s : State) (r : Form) (email password : List Char) :
    State × Response :=
  match getValidFlow s r true with
  | none => (s, expired)
  | some (id, f) =>
    if r.cookie ≠ r.flow then (s, expired)
    else if !verifyFlowCsrf cfg f r.csrf ∨ f.stage ≠ .password then (s, invalid)
    else
      let email := accountKey cfg email
      let throttle := s.check r.ip email r.now
      if !throttle.allowed then
        (s.emit .throttleApplied false none (some id), .throttled throttle.retryAfter)
      else
        match userByEmail cfg s email with
        | none => passwordFailure cfg s id none r email
        | some user =>
          if user.status = .active ∧ cfg.verifyPassword user.passwordHash password then
            passwordSuccess s id f user r email
          else passwordFailure cfg s id (some user) r email

/-- `resume_completed_login`: whether the session of the first submit is still live. -/
def resumeCompletedLogin (cfg : Config) (s : State) (r : Form) (session : ℕ) : State × Bool :=
  match s.sessions session with
  | none => (s, false)
  | some x =>
    match checkLiveness cfg s session x r.ip r.now true with
    | (s, false) => (s, false)
    | (s, true) =>
      match s.sessions session with
      | none => (s, true)
      | some x => (s.setSession session { x with cookieSecretHash := cfg.sha256Hex r.newSecret }, true)

/-- `complete_second_factor`: the session, and the flow pinned to it. -/
def finalizeLogin (cfg : Config) (s : State) (id : ℕ) (f : LoginFlow) (user : User)
    (amr : List Amr) (r : Form) : State :=
  (createSession cfg s user r.ip amr r.now r.newSecret id).setFlow id
    { f with completedSession := some s.nextSession }

/-- `second_factor_throttle`: the refusal, if there is one. -/
def secondFactorThrottle (s : State) (r : Form) (id : ℕ) (user : User) :
    Option (State × Response) :=
  let decision := s.check r.ip user.email r.now
  if decision.allowed then none
  else some (s.emit .throttleApplied false (some user.id) (some id), .throttled decision.retryAfter)

def confirmedTotp (s : State) (user : ℕ) : Option UserTotp :=
  match s.totp user with
  | none => none
  | some row => if row.confirmedAt = none then none else some row

def totpAmr (f : LoginFlow) : List Amr := if f.recoveryUsed then [.pwd, .rc, .otp] else [.pwd, .otp]

def factorFailure (cfg : Config) (s : State) (user : User) (r : Form) : State :=
  s.registerFailure cfg r.ip user.email r.now

def totpForm (cfg : Config) (s : State) (r : Form) : State × Response :=
  match getStageFlow s r .totp with
  | none => (s, expired)
  | some (id, f) =>
    match flowUser s f with
    | none => (s, expired)
    | some user =>
      if confirmedTotp s user.id = none then (s, .redirect "/auth/enroll/totp")
      else (rotateCsrf cfg s id f r, .page 200)

def totpSubmit (cfg : Config) (s : State) (r : Form) (code : List Char) : State × Response :=
  match guardedFlow cfg s r .totp with
  | none => turnedAway cfg s r
  | some (id, f) =>
    match f.completedSession, flowUser s f with
    | some session, user =>
      match resumeCompletedLogin cfg s r session with
      | (s, resumed) => if resumed ∧ user.isSome then (s, .signedIn) else (s, expired)
    | none, none => (s, expired)
    | none, some user =>
      match secondFactorThrottle s r id user with
      | some refused => refused
      | none =>
        match confirmedTotp s user.id with
        | none => (s, .redirect "/auth/enroll/totp")
        | some row =>
          if cfg.verifyCode row.secret (strip code) r.now then
            (finalizeLogin cfg ((s.resetAccount user.email).emit .loginTotpSuccess true
              (some user.id) (some id)) id f user (totpAmr f) r, .signedIn)
          else
            (rotateCsrf cfg ((factorFailure cfg s user r).emit .loginTotpFailure false
              (some user.id) (some id)) id f r, .page 401)

def enrollTotpForm (cfg : Config) (s : State) (r : Form) (newTotp : List Char) : State × Response :=
  match getStageFlow s r .totp with
  | none => (s, expired)
  | some (id, f) =>
    match flowUser s f with
    | none => (s, expired)
    | some user =>
      if user.tier = .admin then (s, .error 403 "Admin accounts use passkeys, not TOTP.")
      else if (confirmedTotp s user.id).isSome then (s, .redirect "/auth/totp")
      else if s.totp user.id = none then
        (rotateCsrf cfg (s.setTotp user.id (some ⟨newTotp, none⟩)) id f r, .page 200)
      else (rotateCsrf cfg s id f r, .page 200)

/-- `issue_batch`, with the hashes of the new codes. -/
def issueBatch (s : State) (user : ℕ) (hashes : List (List Char)) : State :=
  { s with
    codes := s.codes.filter (fun c => ¬ (c.user = user ∧ c.usedAt = none)) ++
      hashes.map (fun h => ⟨user, h, none⟩) }

def enrollTotpSubmit (cfg : Config) (s : State) (r : Form) (code : List Char)
    (hashes : List (List Char)) : State × Response :=
  match guardedFlow cfg s r .totp with
  | none => turnedAway cfg s r
  | some (id, f) =>
    match flowUser s f with
    | none => (s, expired)
    | some user =>
      if user.tier = .admin then (s, expired)
      else
        match secondFactorThrottle s r id user with
        | some refused => refused
        | none =>
          match s.totp user.id with
          | none => (s, .error 400 "No enrollment in progress. Please start over.")
          | some row =>
            if row.confirmedAt ≠ none then
              (s, .error 400 "No enrollment in progress. Please start over.")
            else if cfg.verifyCode row.secret (strip code) r.now then
              let s := s.setTotp user.id (some { row with confirmedAt := some r.now })
              let s := (s.resetAccount user.email).emit .enrollTotp true (some user.id) (some id)
              let s := issueBatch s user.id hashes
              ((createSession cfg s user r.ip (totpAmr f) r.now r.newSecret id).deleteFlow id,
                .signedIn)
            else (rotateCsrf cfg (factorFailure cfg s user r) id f r, .page 401)

def recoveryForm (cfg : Config) (s : State) (r : Form) : State × Response :=
  match getStageFlow s r .totp with
  | none => (s, expired)
  | some (id, f) => (rotateCsrf cfg s id f r, .page 200)

def normalize (cfg : Config) (code : List Char) : List Char :=
  ((cfg.upper (strip code)).filter (· ≠ '-')).filter (· ≠ ' ')

/-- `consume`: the codes with the first match marked as used, if there is one. -/
def consumeCode (cfg : Config) (user : ℕ) (normalized : List Char) (now : ℤ) :
    List RecoveryCode → Option (List RecoveryCode)
  | [] => none
  | row :: rest =>
    if row.user = user ∧ row.usedAt = none ∧ cfg.verifyPassword row.codeHash normalized then
      some ({ row with usedAt := some now } :: rest)
    else (consumeCode cfg user normalized now rest).map (row :: ·)

def recoverySubmit (cfg : Config) (s : State) (r : Form) (code : List Char) : State × Response :=
  match guardedFlow cfg s r .totp with
  | none => turnedAway cfg s r
  | some (id, f) =>
    match flowUser s f with
    | none => (s, expired)
    | some user =>
      match secondFactorThrottle s r id user with
      | some refused => refused
      | none =>
        match consumeCode cfg user.id (normalize cfg code) r.now s.codes with
        | none =>
          (rotateCsrf cfg ((factorFailure cfg s user r).emit .loginRecoveryCodeFailure false
            (some user.id) (some id)) id f r, .page 401)
        | some codes =>
          let s := { s with codes := codes }
          let s := (s.resetAccount user.email).emit .loginRecoveryCodeUsed true (some user.id)
            (some id)
          ((s.setTotp user.id none).setFlow id { f with recoveryUsed := true },
            .redirect "/auth/enroll/totp")

end Hyproxy.Login

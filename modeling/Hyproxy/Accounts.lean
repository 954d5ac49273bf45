import Hyproxy.Text
import Mathlib.Algebra.Group.Nat.Defs
import Mathlib.Data.Int.Notation
import Mathlib.Logic.Function.Basic
import Mathlib.Tactic.SplitIfs

/-!
The account tables of the identity provider: users, login flows, authenticators,
recovery codes, sessions and throttle counters, with the operations on them that
every handler shares. Times and durations count microseconds.
-/

namespace Hyproxy.Accounts

inductive Status
  | active
  | disabled
  deriving Repr, DecidableEq

inductive Tier
  | standard
  | admin
  deriving Repr, DecidableEq

inductive Stage
  | password
  | totp
  | webauthn
  deriving Repr, DecidableEq

inductive Amr
  | pwd
  | rc
  | otp
  | webauthn
  deriving Repr, DecidableEq

structure User where
  id : ℕ
  email : List Char
  status : Status
  tier : Tier
  passwordHash : List Char
  isProtected : Bool
  deriving Repr, DecidableEq

structure LoginFlow where
  csrfTokenHash : List Char
  sourceIP : List Char
  stage : Stage
  user : Option ℕ
  challenge : Option (List Char)
  recoveryUsed : Bool
  completedSession : Option ℕ
  createdAt : ℤ
  expiresAt : ℤ
  deriving Repr, DecidableEq

structure UserTotp where
  secret : List Char
  confirmedAt : Option ℤ
  deriving Repr, DecidableEq

structure RecoveryCode where
  user : ℕ
  codeHash : List Char
  usedAt : Option ℤ
  deriving Repr, DecidableEq

/-- A passkey; `flow` records the login flow that enrolled it. -/
structure WebAuthnCredential where
  user : ℕ
  credentialId : List Char
  publicKey : List Char
  signCount : ℕ
  breakGlass : Bool
  createdAt : ℤ
  flow : ℕ
  deriving Repr, DecidableEq

/-- A session; `flow` records the login flow that created it. -/
structure Session where
  user : ℕ
  cookieSecretHash : List Char
  sourceIP : List Char
  tier : Tier
  amr : List Amr
  lastSeenAt : ℤ
  absoluteExpiresAt : ℤ
  stale : Bool
  revokedAt : Option ℤ
  flow : ℕ
  deriving Repr, DecidableEq

inductive Scope
  | ip
  | account
  deriving Repr, DecidableEq

structure AuthThrottle where
  failureCount : ℕ
  windowStartedAt : ℤ
  nextAllowedAt : ℤ
  deriving Repr, DecidableEq

inductive AuthEventType
  | loginPasswordSuccess
  | loginPasswordFailure
  | loginTotpSuccess
  | loginTotpFailure
  | loginWebauthnSuccess
  | loginWebauthnFailure
  | loginRecoveryCodeUsed
  | loginRecoveryCodeFailure
  | loginBreakGlassUsed
  | enrollTotp
  | enrollWebauthn
  | sessionCreated
  | sessionRevoked
  | sessionStaleIP
  | sessionIdleTimeout
  | throttleApplied
  | adminTotpReset
  deriving Repr, DecidableEq

/-- A row of the audit trail; `flow` records the login flow that it is about. -/
structure AuthEvent where
  type : AuthEventType
  success : Bool
  user : Option ℕ
  flow : Option ℕ
  deriving Repr, DecidableEq

structure State where
  users : List User
  flows : ℕ → Option LoginFlow
  nextFlow : ℕ
  totp : ℕ → Option UserTotp
  codes : List RecoveryCode
  credentials : List WebAuthnCredential
  sessions : ℕ → Option Session
  nextSession : ℕ
  throttle : Scope → List Char → Option AuthThrottle
  log : List AuthEvent

/-- An assertion as the browser sends it: the credential id that it names, if any, and its
text. -/
structure Assertion where
  rawId : Option (List Char)
  text : List Char
  deriving Repr, DecidableEq

structure Registration where
  credentialId : List Char
  publicKey : List Char
  signCount : ℕ
  deriving Repr, DecidableEq

/-- The settings, and what the platform and its libraries compute. -/
structure Config where
  loginFlowTtl : ℤ
  refreshAbsTtl : ℤ
  idleTtl : ℤ
  sessionTouchInterval : ℤ
  throttleWindow : ℤ
  accountFree : ℕ
  accountCap : ℕ
  ipFree : ℕ
  ipCap : ℕ
  lower : List Char → List Char
  citext : List Char → List Char
  sha256Hex : List Char → List Char
  verifyPassword : List Char → List Char → Bool
  verifyCode : List Char → List Char → ℤ → Bool
  upper : List Char → List Char
  verifyAssertion : List Char → List Char → WebAuthnCredential → Option ℕ
  verifyRegistration : List Char → List Char → Option Registration

def State.user (s : State) (id : ℕ) : Option User := s.users.find? (fun u => u.id == id)

def State.emit (s : State) (type : AuthEventType) (success : Bool) (user flow : Option ℕ) : State :=
  { s with log := ⟨type, success, user, flow⟩ :: s.log }

def State.setFlow (s : State) (id : ℕ) (f : LoginFlow) : State :=
  { s with flows := Function.update s.flows id (some f) }

def State.deleteFlow (s : State) (id : ℕ) : State :=
  { s with flows := Function.update s.flows id none }

def State.setSession (s : State) (id : ℕ) (x : Session) : State :=
  { s with sessions := Function.update s.sessions id (some x) }

def State.setTotp (s : State) (user : ℕ) (row : Option UserTotp) : State :=
  { s with totp := Function.update s.totp user row }

/-- `delay_seconds` for the two scopes. -/
def delaySeconds (cfg : Config) : Scope → ℕ → ℕ
  | .account, count =>
    if count ≤ cfg.accountFree then 0 else min (2 ^ (count - cfg.accountFree)) cfg.accountCap
  | .ip, count => if count ≤ cfg.ipFree then 0 else min (2 ^ (count - cfg.ipFree)) cfg.ipCap

theorem delaySeconds_mono (cfg : Config) (scope : Scope) (n m : ℕ) (h : n ≤ m) :
    delaySeconds cfg scope n ≤ delaySeconds cfg scope m := by
  have hcapped : ∀ free cap : ℕ, (if n ≤ free then 0 else min (2 ^ (n - free)) cap) ≤
      if m ≤ free then 0 else min (2 ^ (m - free)) cap := by
    intro free cap
    split_ifs with hn hm
    · exact Nat.le_refl 0
    · exact Nat.zero_le _
    · omega
    · refine Nat.le_min.mpr ⟨Nat.le_trans (Nat.min_le_left _ _) ?_, Nat.min_le_right _ _⟩
      exact Nat.pow_le_pow_right (by omega) (by omega)
  cases scope with
  | ip => exact hcapped cfg.ipFree cfg.ipCap
  | account => exact hcapped cfg.accountFree cfg.accountCap

structure ThrottleDecision where
  allowed : Bool
  retryAfter : ℤ
  deriving Repr, DecidableEq

/-- One round of the loop in `check`. -/
def worse (now : ℤ) (worst : ThrottleDecision) : Option AuthThrottle → ThrottleDecision
  | none => worst
  | some row =>
    if now < row.nextAllowedAt then
      let retry := (row.nextAllowedAt - now) / 1000000 + 1
      if worst.retryAfter < retry then ⟨false, retry⟩ else worst
    else worst

def State.check (s : State) (ip account : List Char) (now : ℤ) : ThrottleDecision :=
  worse now (worse now ⟨true, 0⟩ (s.throttle .ip ip)) (s.throttle .account account)

/-- The row after one more failure. -/
def failedRow (cfg : Config) (scope : Scope) (now : ℤ) (old : Option AuthThrottle) :
    AuthThrottle :=
  let row := old.getD ⟨0, now, now⟩
  let row := if cfg.throttleWindow < now - row.windowStartedAt then ⟨0, now, row.nextAllowedAt⟩
    else row
  ⟨row.failureCount + 1, row.windowStartedAt,
    now + delaySeconds cfg scope (row.failureCount + 1) * 1000000⟩

def State.setThrottle (s : State) (scope : Scope) (key : List Char) (row : Option AuthThrottle) :
    State :=
  { s with
    throttle := Function.update s.throttle scope (Function.update (s.throttle scope) key row) }

def State.registerFailure (cfg : Config) (s : State) (ip account : List Char) (now : ℤ) : State :=
  let s := s.setThrottle .ip ip (some (failedRow cfg .ip now (s.throttle .ip ip)))
  s.setThrottle .account account (some (failedRow cfg .account now (s.throttle .account account)))

def State.resetAccount (s : State) (account : List Char) : State :=
  s.setThrottle .account account none

/-- `create_session`, with the secret of its cookie. -/
def createSession (cfg : Config) (s : State) (user : User) (ip : List Char) (amr : List Amr)
    (now : ℤ) (secret : List Char) (flow : ℕ) : State :=
  let s := s.setSession s.nextSession
    { user := user.id
      cookieSecretHash := cfg.sha256Hex secret
      sourceIP := ip
      tier := user.tier
      amr := amr
      lastSeenAt := now
      absoluteExpiresAt := now + cfg.refreshAbsTtl
      stale := false
      revokedAt := none
      flow := flow }
  let s := { s with nextSession := s.nextSession + 1 }
  s.emit .sessionCreated true (some user.id) (some flow)

def revokeSession (s : State) (id : ℕ) (x : Session) (type : AuthEventType) (now : ℤ) : State :=
  if x.revokedAt.isSome then s
  else (s.setSession id { x with revokedAt := some now }).emit type true (some x.user) none

/-- `check_liveness`: the answer, and the state with the session revoked, stale or touched. -/
def checkLiveness (cfg : Config) (s : State) (id : ℕ) (x : Session) (ip : List Char) (now : ℤ)
    (enforceIP : Bool) : State × Bool :=
  if x.revokedAt.isSome || x.stale then (s, false)
  else if x.absoluteExpiresAt ≤ now then (s, false)
  else if cfg.idleTtl < now - x.lastSeenAt then
    (revokeSession s id x .sessionIdleTimeout now, false)
  else if enforceIP && x.sourceIP != ip then
    ((s.setSession id { x with stale := true }).emit .sessionStaleIP false (some x.user) none,
      false)
  else if cfg.sessionTouchInterval ≤ now - x.lastSeenAt then
    (s.setSession id { x with lastSeenAt := now }, true)
  else (s, true)

/-- `get_session_from_cookie`, for a cookie with a session id and a secret. -/
def getSessionFromCookie (cfg : Config) (s : State) (cookie : Option (ℕ × List Char))
    (ip : List Char) (now : ℤ) : State × Bool :=
  match cookie with
  | none => (s, false)
  | some (id, secret) =>
    match s.sessions id with
    | none => (s, false)
    | some x =>
      if cfg.sha256Hex secret = x.cookieSecretHash then checkLiveness cfg s id x ip now false
      else (s, false)

/-- `_revoke_user_sessions` -/
def revokeUserSessions (s : State) (user : ℕ) (now : ℤ) : State :=
  { s with
    sessions := fun id => (s.sessions id).map fun x =>
      if x.user = user ∧ x.revokedAt = none then { x with revokedAt := some now } else x }

end Hyproxy.Accounts

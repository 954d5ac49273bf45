import Hyproxy.Dpop
import Hyproxy.RefreshLedger

/-!
The sessions of the identity provider as the resource servers see them: whether
a session is live, what a check of its liveness records, and the check that a
request with an access token and a proof of possession has to pass.
-/

namespace Hyproxy.Sessions

open Accounts (AuthEventType Session User)
open Dpop (DpopProof ProofRequest Seen verifyProof)
open RefreshLedger (lookup_map)

/-- A row of the audit trail that is about a session. -/
structure SessionEvent where
  type : AuthEventType
  success : Bool
  user : ℕ
  session : ℕ
  sourceIp : List Char
  deriving Repr, DecidableEq

structure Db where
  users : List User
  sessions : List (ℕ × Session)
  seen : Seen
  events : List SessionEvent
  deriving Repr, DecidableEq

/-- The claims of an access token whose signature verifies. -/
structure Jwt where
  iss : List Char
  exp : Option ℤ
  sid : Option ℕ
  jkt : Option (List Char)
  scope : List Char
  deriving Repr, DecidableEq

structure AccessClaims where
  sid : ℕ
  scope : List Char
  jkt : List Char
  exp : ℤ
  deriving Repr, DecidableEq

/-- The settings; `decodeJwt` verifies a token under the active and retiring keys. -/
structure Config where
  idleTtl : ℤ
  sessionTouchInterval : ℤ
  issuer : List Char
  dpop : Dpop.Config
  decodeJwt : List Char → Except String Jwt

def Db.user (db : Db) (id : ℕ) : Option User := db.users.find? fun u => u.id == id

def Db.setSession (db : Db) (id : ℕ) (f : Session → Session) : Db :=
  { db with sessions := db.sessions.map fun entry =>
      (entry.1, if entry.1 = id then f entry.2 else entry.2) }

def Db.emit (db : Db) (type : AuthEventType) (success : Bool) (id : ℕ) (x : Session)
    (ip : List Char) : Db :=
  { db with events := ⟨type, success, x.user, id, ip⟩ :: db.events }

/-- What `check_liveness` finds. -/
inductive Verdict
  | dead
  | idle
  | moved
  | touch
  | live
  deriving Repr, DecidableEq

def verdict (idleTtl touchInterval : ℤ) (x : Session) (ip : List Char) (now : ℤ)
    (enforceIp : Bool) : Verdict :=
  if x.revokedAt.isSome || x.stale then .dead
  else if x.absoluteExpiresAt ≤ now then .dead
  else if idleTtl < now - x.lastSeenAt then .idle
  else if enforceIp && x.sourceIP != ip then .moved
  else if touchInterval ≤ now - x.lastSeenAt then .touch
  else .live

def Verdict.passes : Verdict → Bool
  | .touch => true
  | .live => true
  | _ => false

def revoke (db : Db) (id : ℕ) (x : Session) (type : AuthEventType) (ip : List Char) (now : ℤ) :
    Db :=
  if x.revokedAt.isSome then db
  else (db.setSession id fun x => { x with revokedAt := some now }).emit type true id x ip

def checkLiveness (cfg : Config) (db : Db) (id : ℕ) (x : Session) (ip : List Char) (now : ℤ)
    (enforceIp : Bool) : Bool × Db :=
  match verdict cfg.idleTtl cfg.sessionTouchInterval x ip now enforceIp with
  | .dead => (false, db)
  | .idle => (false, revoke db id x .sessionIdleTimeout ip now)
  | .moved =>
    (false, (db.setSession id fun x => { x with stale := true }).emit .sessionStaleIP false id x ip)
  | .touch => (true, db.setSession id fun x => { x with lastSeenAt := now })
  | .live => (true, db)

structure AuthRequest where
  authorization : List Char
  dpopProof : List Char
  htm : List Char
  htu : List Char
  sourceIp : List Char
  deriving Repr, DecidableEq

/-- A `RequestAuthError`, or another exception. -/
inductive CheckError
  | auth (error detail : String)
  | raised
  deriving Repr, DecidableEq

structure AuthedRequest where
  session : ℕ
  row : Session
  user : User
  claims : AccessClaims
  deriving Repr, DecidableEq

def verifyAccessToken (cfg : Config) (token : List Char) (now : ℤ) : Except String AccessClaims :=
  match cfg.decodeJwt token with
  | .error detail => .error detail
  | .ok jwt =>
    if jwt.iss ≠ cfg.issuer then .error "wrong issuer"
    else
      match jwt.exp with
      | none => .error "expired"
      | some exp =>
        if exp * 1000000 ≤ now then .error "expired"
        else
          match jwt.sid, jwt.jkt with
          | none, _ => .error "bad sid"
          | some _, none => .error "missing cnf.jkt"
          | some sid, some jkt => .ok ⟨sid, jwt.scope, jkt, exp * 1000000⟩

def scheme : List Char := "DPoP ".toList

/-- The access token of a request and its claims. -/
def accessClaims (cfg : Config) (r : AuthRequest) (now : ℤ) :
    Except CheckError (List Char × AccessClaims) :=
  if scheme.isPrefixOf r.authorization then
    let token := Text.strip (r.authorization.drop scheme.length)
    match verifyAccessToken cfg token now with
    | .error detail => .error (.auth "invalid_token" detail)
    | .ok claims =>
      if r.dpopProof = [] then .error (.auth "invalid_dpop_proof" "missing DPoP header")
      else .ok (token, claims)
  else .error (.auth "invalid_token" "missing DPoP authorization")

/-- What the proof of a request has to show. -/
def proofRequest (r : AuthRequest) (token : List Char) (claims : AccessClaims) : ProofRequest :=
  { proof := r.dpopProof
    htm := r.htm
    htu := r.htu
    accessToken := some token
    expectedJkt := some claims.jkt }

/-- `check_request` once the proof has been verified. -/
def checkSession (cfg : Config) (db : Db) (claims : AccessClaims) (ip : List Char) (now : ℤ) :
    Except CheckError AuthedRequest × Db :=
  match db.sessions.lookup claims.sid with
  | none => (.error (.auth "invalid_token" "unknown session"), db)
  | some x =>
    match checkLiveness cfg db claims.sid x ip now true with
    | (false, db) => (.error (.auth "invalid_token" "session not live"), db)
    | (true, db) =>
      match db.user x.user with
      | none => (.error (.auth "invalid_token" "user not active"), db)
      | some u =>
        if u.status = .active then (.ok ⟨claims.sid, x, u, claims⟩, db)
        else (.error (.auth "invalid_token" "user not active"), db)

def checkRequest (cfg : Config) (db : Db) (r : AuthRequest) (now : ℤ) :
    Except CheckError AuthedRequest × Db :=
  match accessClaims cfg r now with
  | .error e => (.error e, db)
  | .ok (token, claims) =>
    match verifyProof cfg.dpop db.seen (proofRequest r token claims) now with
    | (.error (.dpop detail), seen) =>
      (.error (.auth "invalid_dpop_proof" detail), { db with seen := seen })
    | (.error .raised, seen) => (.error .raised, { db with seen := seen })
    | (.ok _, seen) => checkSession cfg { db with seen := seen } claims r.sourceIp now

/-- The proof that a request has recorded, and the claims of its access token, when it comes to
its session. -/
def recordedBy (cfg : Config) (db : Db) (r : AuthRequest) (now : ℤ) :
    Option (DpopProof × Seen × AccessClaims) :=
  match accessClaims cfg r now with
  | .error _ => none
  | .ok (token, claims) =>
    match verifyProof cfg.dpop db.seen (proofRequest r token claims) now with
    | (.ok p, seen) => some (p, seen, claims)
    | (.error _, _) => none

theorem lookup_setSession (db : Db) (id session : ℕ) (f : Session → Session) :
    (db.setSession id f).sessions.lookup session =
      (db.sessions.lookup session).map fun x => if session = id then f x else x :=
  lookup_map db.sessions id session f

theorem mem_of_lookup (sessions : List (ℕ × Session)) (id : ℕ) (x : Session)
    (h : sessions.lookup id = some x) : (id, x) ∈ sessions := by
  obtain ⟨before, after, rfl, -⟩ := List.lookup_eq_some_iff.mp h
  simp

theorem checkLiveness_passes (cfg : Config) (db : Db) (id : ℕ) (x : Session) (ip : List Char)
    (now : ℤ) (enforceIp : Bool) : (checkLiveness cfg db id x ip now enforceIp).1 =
      (verdict cfg.idleTtl cfg.sessionTouchInterval x ip now enforceIp).passes := by
  unfold checkLiveness
  split <;> rename_i hverdict <;> rw [hverdict] <;> rfl

theorem checkLiveness_seen (cfg : Config) (db : Db) (id : ℕ) (x : Session) (ip : List Char)
    (now : ℤ) (enforceIp : Bool) : (checkLiveness cfg db id x ip now enforceIp).2.seen = db.seen := by
  unfold checkLiveness revoke
  split
  · rfl
  · simp only
    split_ifs <;> rfl
  · rfl
  · rfl
  · rfl

theorem checkSession_seen (cfg : Config) (db : Db) (claims : AccessClaims) (ip : List Char)
    (now : ℤ) : (checkSession cfg db claims ip now).2.seen = db.seen := by
  unfold checkSession
  split
  · rfl
  · rename_i x hx
    have hseen := checkLiveness_seen cfg db claims.sid x ip now true
    split
    · rename_i hcheck
      rw [hcheck] at hseen
      exact hseen
    · rename_i hcheck
      rw [hcheck] at hseen
      split
      · exact hseen
      · split_ifs <;> exact hseen

end Hyproxy.Sessions

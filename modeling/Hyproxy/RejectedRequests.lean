import Hyproxy.Sessions

/-!
What a request records while it is rejected. Each request is one transaction
that commits when the endpoint returns a response, also an error, and is rolled
back when an exception escapes. The userinfo endpoint returns its rejections; the
dependencies of the admin API raise theirs.
-/

namespace Hyproxy.RejectedRequests

open Accounts (AuthEventType Session User)
open Dpop (DpopProof ProofRequest verifyProof)
open ReplayCache (gc later)
open Sessions

/-- Which check guards an endpoint. -/
inductive Guard
  | userinfo
  | requireAdmin
  | requireUser
  | requirePortalAdmin
  deriving Repr, DecidableEq

/-- How an endpoint goes on once its guard has let the request in: with the check for a recent
step-up and the validation of the body, up to its response. The run chooses. -/
inductive Ending
  | returns (status : ℕ)
  | raises (status : ℕ)
  deriving Repr, DecidableEq

inductive Answer
  | response (status : ℕ)
  | exception (status : ℕ)
  deriving Repr, DecidableEq

/-- A request to a guarded endpoint; `lanClient` is what `require_lan_client` finds. -/
structure Guarded where
  guard : Guard
  lanClient : Bool
  request : AuthRequest
  ending : Ending
  deriving Repr, DecidableEq

def Ending.answer : Ending → Answer
  | .returns status => .response status
  | .raises status => .exception status

def userinfo (cfg : Config) (db : Db) (r : AuthRequest) (now : ℤ) : Answer × Db :=
  match checkRequest cfg db r now with
  | (.error (.auth _ _), db) => (.response 401, db)
  | (.error .raised, db) => (.exception 500, db)
  | (.ok _, db) => (.response 200, db)

/-- `_check_token` and the check of the tier that two of its callers make. -/
def checkToken (cfg : Config) (db : Db) (g : Guarded) (now : ℤ) : Answer × Db :=
  match checkRequest cfg db g.request now with
  | (.error (.auth _ _), db) => (.exception 401, db)
  | (.error .raised, db) => (.exception 500, db)
  | (.ok authed, db) =>
    if g.guard ≠ .requireUser ∧ (authed.row.tier ≠ .admin ∨ authed.user.tier ≠ .admin) then
      (.exception 403, db)
    else (g.ending.answer, db)

def handle (cfg : Config) (db : Db) (g : Guarded) (now : ℤ) : Answer × Db :=
  match g.guard with
  | .userinfo => userinfo cfg db g.request now
  | .requireAdmin => if g.lanClient then checkToken cfg db g now else (.exception 403, db)
  | .requireUser => checkToken cfg db g now
  | .requirePortalAdmin => checkToken cfg db g now

/-- The endpoints for tokens and their revocation, which verify a proof and return their errors. -/
def handleProof (cfg : Config) (db : Db) (req : ProofRequest) (ending : Ending) (now : ℤ) :
    Answer × Db :=
  match verifyProof cfg.dpop db.seen req now with
  | (.error (.dpop _), seen) => (.response 400, { db with seen := seen })
  | (.error .raised, seen) => (.exception 500, { db with seen := seen })
  | (.ok _, seen) => (ending.answer, { db with seen := seen })

/-- `get_db` -/
def settle (db : Db) (answer : Answer × Db) : Db :=
  match answer with
  | (.response _, db) => db
  | (.exception _, _) => db

def Answer.isError : Answer → Bool
  | .response status => decide (400 ≤ status)
  | .exception _ => true

/-- What the other requests commit. -/
inductive OtherWrite
  | createSession (x : Session)
  | checkLiveness (id : ℕ) (ip : List Char) (enforceIp : Bool) (now : ℤ)
  | revoke (id : ℕ) (type : AuthEventType) (ip : List Char) (now : ℤ)
  | setUser (u : User)
  | deleteUser (id : ℕ)
  deriving Repr, DecidableEq

/-- A rejection for the address or for idleness, and the event that belongs to it. -/
structure Rejection where
  session : ℕ
  type : AuthEventType
  deriving Repr, DecidableEq

/-- The database, and what a run remembers: the rejections, the proofs recorded by requests that
were answered with an error, and those of them that were accepted again. -/
structure State where
  db : Db
  nextSession : ℕ
  clock : ℤ
  rejections : List Rejection
  failed : List DpopProof
  reaccepted : List DpopProof
  deriving Repr, DecidableEq

inductive Event
  | guarded (g : Guarded) (now : ℤ)
  | proof (req : ProofRequest) (ending : Ending) (now : ℤ)
  | gc (now : ℤ)
  | other (w : OtherWrite)
  deriving Repr, DecidableEq

/-- The rejection by a liveness check. -/
def rejectionOf (cfg : Config) (id : ℕ) (x : Session) (ip : List Char) (now : ℤ) :
    Option Rejection :=
  match verdict cfg.idleTtl cfg.sessionTouchInterval x ip now true with
  | .idle => some ⟨id, .sessionIdleTimeout⟩
  | .moved => some ⟨id, .sessionStaleIP⟩
  | _ => none

/-- The rejection of a request by `check_request` for its address or for idleness. -/
def rejection (cfg : Config) (db : Db) (r : AuthRequest) (now : ℤ) : Option Rejection :=
  match recordedBy cfg db r now with
  | none => none
  | some (_, _, claims) =>
    match db.sessions.lookup claims.sid with
    | none => none
    | some x => rejectionOf cfg claims.sid x r.sourceIp now

/-- The request comes to its `check_request`. -/
def Guarded.checked (g : Guarded) : Bool := g.guard != .requireAdmin || g.lanClient

/-- What a run remembers of a request that has recorded a proof. -/
def State.note (s : State) (recorded : Option DpopProof) (answer : Answer) : State :=
  match recorded with
  | none => s
  | some p =>
    { s with
      reaccepted := if p ∈ s.failed then p :: s.reaccepted else s.reaccepted
      failed := if answer.isError then p :: s.failed else s.failed }

def applyOther (cfg : Config) (s : State) : OtherWrite → State
  | .createSession x =>
    { s with
      db := { s.db with sessions :=
        s.db.sessions ++ [(s.nextSession, { x with stale := false, revokedAt := none })] }
      nextSession := s.nextSession + 1 }
  | .checkLiveness id ip enforceIp now =>
    match s.db.sessions.lookup id with
    | none => s
    | some x => { s with db := (checkLiveness cfg s.db id x ip now enforceIp).2 }
  | .revoke id type ip now =>
    match s.db.sessions.lookup id with
    | none => s
    | some x => { s with db := revoke s.db id x type ip now }
  | .setUser u => { s with db := { s.db with users := u :: s.db.users.filter fun v => v.id != u.id } }
  | .deleteUser id =>
    { s with db := { s.db with
        users := s.db.users.filter fun u => u.id != id
        sessions := s.db.sessions.filter fun entry => entry.2.user != id } }

def guardedStep (cfg : Config) (s : State) (g : Guarded) (now : ℤ) : State :=
  let answer := handle cfg s.db g now
  let noted := if g.checked then
      ({ s with rejections := (rejection cfg s.db g.request now).toList ++ s.rejections }).note
        ((recordedBy cfg s.db g.request now).map Prod.fst) answer.1
    else s
  { noted with db := settle s.db answer, clock := now }

def proofStep (cfg : Config) (s : State) (req : ProofRequest) (ending : Ending) (now : ℤ) : State :=
  let answer := handleProof cfg s.db req ending now
  let noted := s.note (verifyProof cfg.dpop s.db.seen req now).1.toOption answer.1
  { noted with db := settle s.db answer, clock := now }

def step (cfg : Config) (s : State) : Event → State
  | .guarded g now => guardedStep cfg s g now
  | .proof req ending now => proofStep cfg s req ending now
  | .gc now => { s with db := { s.db with seen := gc s.db.seen now }, clock := later s.clock now }
  | .other w => applyOther cfg s w

def initial (start : ℤ) : State := ⟨⟨[], [], [], []⟩, 0, start, [], [], []⟩

def after (cfg : Config) (start : ℤ) (events : List Event) : State :=
  events.foldl (step cfg) (initial start)

end Hyproxy.RejectedRequests

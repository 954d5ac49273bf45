import Hyproxy.ReadCommitted
import Mathlib.Data.Int.Notation

/-!
The sign-in at the gateway, statement by statement. Its start parks a login
state, the callback reads the state, deletes it, presents the authorization
code to the token endpoint and adds a gateway session. Requests carry the reply
that the token endpoint will give to them: the run chooses it.
-/

namespace Hyproxy.GatewayLogin

open ReadCommitted

structure LoginState where
  stateHash : List Char
  codeVerifier : List Char
  nonce : List Char
  returnUrl : List Char
  sourceIp : List Char
  expiresAt : ℤ
  deriving Repr, DecidableEq

structure GatewaySession where
  id : ℕ
  user : ℕ
  idpSession : ℕ
  cookieSecretHash : List Char
  sourceIp : List Char
  deriving Repr, DecidableEq

/-- The tables of the gateway, and the identity provider's sessions with their users. -/
structure Db where
  states : List LoginState
  gateways : List GatewaySession
  sessions : List (ℕ × ℕ)
  deriving Repr, DecidableEq

/-- `newState`, `newVerifier` and `newNonce` are the successive draws of `new_token`. -/
structure Config where
  gatewayStateTtl : ℤ
  sha256Hex : List Char → List Char
  newState : ℕ → List Char
  newVerifier : ℕ → List Char
  newNonce : ℕ → List Char
  validReturnUrl : List Char → Bool

inductive Write
  | addState (row : LoginState)
  | deleteState (hash : List Char)
  | collectState (hash : List Char)
  | addGateway (row : GatewaySession)
  | addSession (id user : ℕ)
  deriving Repr, DecidableEq

inductive Row
  | state (hash : List Char)
  | gateway (id : ℕ)
  | session (id : ℕ)
  deriving Repr, DecidableEq

def Write.row : Write → Row
  | .addState row => .state row.stateHash
  | .deleteState hash => .state hash
  | .collectState hash => .state hash
  | .addGateway row => .gateway row.id
  | .addSession id _ => .session id

def Db.dropState (db : Db) (hash : List Char) : Db :=
  { db with states := db.states.filter fun row => row.stateHash != hash }

def apply (db : Db) : Write → Db
  | .addState row => { db with states := db.states ++ [row] }
  | .deleteState hash => db.dropState hash
  | .collectState hash => db.dropState hash
  | .addGateway row => { db with gateways := db.gateways ++ [row] }
  | .addSession id user => { db with sessions := db.sessions ++ [(id, user)] }

/-- What becomes of the call to the token endpoint: it fails, it is answered with an error, with
tokens that do not verify, or with tokens of a session and a nonce. -/
inductive Reply
  | unreachable
  | refused
  | invalid
  | tokens (sid : ℕ) (nonce : Option (List Char))
  deriving Repr, DecidableEq

structure CallbackRequest where
  code : List Char
  state : List Char
  error : List Char
  ip : List Char
  newSecret : List Char
  reply : Reply
  deriving Repr, DecidableEq

inductive Request
  | start (rd ip : List Char)
  | callback (req : CallbackRequest)
  | gcLoginStates
  | addSession (id user : ℕ)
  deriving Repr, DecidableEq

inductive Answer
  | text (status : ℕ) (body : String)
  | authorize (state verifier nonce : List Char)
  | signedIn (row : LoginState) (gateway : ℕ) (secret : List Char)
  | done
  deriving Repr, DecidableEq

/-- Where a transaction stands: before the statement that it runs next, or at its answer. -/
inductive Point
  | addState (rd ip : List Char) (now : ℤ)
  | gcLoginStates (now : ℤ)
  | addSession (id user : ℕ)
  | getState (req : CallbackRequest) (now : ℤ)
  | deleteState (req : CallbackRequest) (row : LoginState)
  | present (req : CallbackRequest) (row : LoginState)
  | getSession (req : CallbackRequest) (row : LoginState) (sid : ℕ)
  | addGateway (req : CallbackRequest) (row : LoginState) (sid user : ℕ)
  | answer (a : Answer)
  deriving Repr, DecidableEq

def Point.answered : Point → Option Answer
  | .answer a => some a
  | _ => none

def signInFailed : Point := .answer (.text 400 "sign-in failed, start over")

def hashes (states : List LoginState) : List (List Char) := states.map LoginState.stateHash

def begin (request : Request) (now : ℤ) : Point :=
  match request with
  | .start rd ip => .addState rd ip now
  | .callback req =>
    if req.error ≠ [] then
      .answer (.text 400 (String.ofList ("sign-in failed: ".toList ++ req.error)))
    else if req.code = [] ∨ req.state = [] then .answer (.text 400 "missing code or state")
    else .getState req now
  | .gcLoginStates => .gcLoginStates now
  | .addSession id user => .addSession id user

/-- `callback` after the token endpoint has replied. -/
def replied (req : CallbackRequest) (row : LoginState) : Point :=
  match req.reply with
  | .unreachable => .answer (.text 502 "sign-in temporarily unavailable, try again")
  | .refused => signInFailed
  | .invalid => signInFailed
  | .tokens sid nonce => if nonce = some row.nonce then .getSession req row sid else signInFailed

/-- A `DELETE` that matches no row only warns. -/
def statement (cfg : Config) (db : Db) (serial : ℕ) (_ : ℤ) : Point → Option (List Write × Point)
  | .addState rd ip now =>
    if cfg.validReturnUrl rd then
      let state := cfg.newState serial
      let row : LoginState :=
        { stateHash := cfg.sha256Hex state
          codeVerifier := cfg.newVerifier serial
          nonce := cfg.newNonce serial
          returnUrl := rd
          sourceIp := ip
          expiresAt := now + cfg.gatewayStateTtl }
      some ([.addState row], .answer (.authorize state row.codeVerifier row.nonce))
    else some ([], .answer (.text 400 "invalid return URL"))
  | .gcLoginStates now =>
    let rows := db.states.filter fun row => decide (row.expiresAt ≤ now)
    some ((hashes rows).map Write.collectState, .answer .done)
  | .addSession id user =>
    if (db.sessions.lookup id).isSome then none else some ([.addSession id user], .answer .done)
  | .getState req now =>
    match db.states.find? fun row => row.stateHash == cfg.sha256Hex req.state with
    | none => some ([], .answer (.text 400 "sign-in expired, start over"))
    | some row =>
      if row.expiresAt ≤ now ∨ row.sourceIp ≠ req.ip then
        some ([], .answer (.text 400 "sign-in expired, start over"))
      else some ([], .deleteState req row)
  | .deleteState req row =>
    if (hashes db.states).contains row.stateHash then
      some ([.deleteState row.stateHash], .present req row)
    else some ([], .present req row)
  | .present req row => some ([], replied req row)
  | .getSession req row sid =>
    match db.sessions.lookup sid with
    | none => some ([], signInFailed)
    | some user => some ([], .addGateway req row sid user)
  | .addGateway req row sid user =>
    let gateway : GatewaySession :=
      { id := serial
        user := user
        idpSession := sid
        cookieSecretHash := cfg.sha256Hex req.newSecret
        sourceIp := req.ip }
    some ([.addGateway gateway], .answer (.signedIn row serial req.newSecret))
  | p => some ([], p)

def program (cfg : Config) : Program Request Db Row Write Point Answer where
  start := begin
  statement := statement cfg
  answer := Point.answered
  apply := apply
  row := Write.row

/-- A code as the callback presents it to the token endpoint, with the state it came with. -/
structure Presentation where
  stateHash : List Char
  code : List Char
  codeVerifier : List Char
  deriving Repr, DecidableEq

/-- The gateway, and what its callbacks have presented. -/
structure World where
  store : State Db Write Point Answer
  presented : List Presentation

def presents : Point → List Presentation
  | .present req row => [⟨row.stateHash, req.code, row.codeVerifier⟩]
  | _ => []

def presentedBy (s : State Db Write Point Answer) : Event Request → List Presentation
  | .statement t _ => ((s.txn t).map fun x => presents x.point).getD []
  | _ => []

def step (cfg : Config) (w : World) (e : Event Request) : World :=
  ⟨ReadCommitted.step (program cfg) w.store e, w.presented ++ presentedBy w.store e⟩

def initial : World := ⟨⟨⟨[], [], []⟩, [], [], 0⟩, []⟩

def after (cfg : Config) (events : List (Event Request)) : World :=
  events.foldl (step cfg) initial

end Hyproxy.GatewayLogin

import Hyproxy.DataPlane
import Hyproxy.PolicyEngine
import Hyproxy.PyQuery

/-!
Camera streams. The broker mints an opaque token and keeps a grant under its
hash; the data plane has the grant consumed when a WebSocket connects and sends
the request on to the bridge, which reads the token from the query by itself.
The data plane takes the first `token` of the query and the bridge the last.
-/

namespace Hyproxy.RtspGrants

open DataPlane PercentCoding PolicyEngine PyQuery UrlQuery Utf8

def b64Char (n : ℕ) : Char :=
  "ABCDEFGHIJKLMNOPQRSTUVWXYZabcdefghijklmnopqrstuvwxyz0123456789+/".toList.getD n '='

/-- `b64encode` on bytes. -/
def b64encode : List Char → List Char
  | a :: b :: c :: rest =>
    b64Char (a.toNat / 4) :: b64Char (a.toNat % 4 * 16 + b.toNat / 16) ::
      b64Char (b.toNat % 16 * 4 + c.toNat / 64) :: b64Char (c.toNat % 64) :: b64encode rest
  | [a, b] =>
    [b64Char (a.toNat / 4), b64Char (a.toNat % 4 * 16 + b.toNat / 16),
      b64Char (b.toNat % 16 * 4), '=']
  | [a] => [b64Char (a.toNat / 4), b64Char (a.toNat % 4 * 16), '=', '=']
  | [] => []

/-- `mint_token`, from the initialisation vector and the ciphertext. -/
def mintToken (iv ct : List Char) : List Char :=
  b64encode ("\x7b\"iv\":\"".toList ++ b64encode iv ++ "\",\"value\":\"".toList ++
    b64encode ct ++ "\"\x7d".toList)

theorem b64Char_ascii (n : ℕ) : (b64Char n).toNat < 0x80 := by
  have halphabet : ∀ c ∈ "ABCDEFGHIJKLMNOPQRSTUVWXYZabcdefghijklmnopqrstuvwxyz0123456789+/".toList,
      c.toNat < 0x80 := List.all_iff_forall_prop.mp (by decide)
  rw [b64Char, List.getD_eq_getElem?_getD]
  cases hget : ("ABCDEFGHIJKLMNOPQRSTUVWXYZabcdefghijklmnopqrstuvwxyz0123456789+/".toList)[n]? with
  | none => decide
  | some c => exact halphabet c (List.mem_of_getElem? hget)

theorem b64encode_ascii (bytes : List Char) : Ascii (b64encode bytes) := by
  fun_induction b64encode bytes with
  | case1 a b c rest ih => simpa [Ascii, b64Char_ascii] using ih
  | case2 a b => simp [Ascii, b64Char_ascii]
  | case3 a => simp [Ascii, b64Char_ascii]
  | case4 => simp [Ascii]

theorem mintToken_ascii (iv ct : List Char) : Ascii (mintToken iv ct) := b64encode_ascii _

variable {User Ip : Type} [DecidableEq User] [DecidableEq Ip]

/-- What the bridge reads of a decrypted token. -/
structure Payload where
  url : List Char
  userId : List Char
  deriving Repr, DecidableEq

/-- The settings, and the parts that come with the platform: the digest, the address type
of the database and the cipher. -/
structure Config (Ip : Type) where
  srv : Server
  rtspEnabled : Bool
  grantTtl : ℤ
  maxStreamsPerUser : ℕ
  sha256Hex : List Char → List Char
  inet : List Char → Option Ip
  decryptToken : List Char → Option Payload

/-- A row of `rtsp_grants`; `serial` tells rows apart that had one hash at different times. -/
structure RtspGrant (User Ip : Type) where
  serial : ℕ
  tokenHash : List Char
  user : User
  sourceIP : Ip
  expiresAt : ℤ
  consumedAt : Option ℤ
  deriving Repr, DecidableEq

/-- A call of `issue_stream`, with what it finds in the database and the cipher's bytes. -/
structure Mint (User : Type) where
  user : User
  resource : Option Bool
  connection : Option (List Char)
  decision : Decision
  iv : List Char
  ct : List Char
  sourceIP : List Char
  now : ℤ

inductive IssueError
  | rtspDisabled
  | unknownResource
  | noConnection
  | denied (reason : Reason)
  deriving Repr, DecidableEq

def issueStream (cfg : Config Ip) (m : Mint User) : Except IssueError (List Char × ℤ) :=
  if !cfg.rtspEnabled then .error .rtspDisabled
  else if m.resource ≠ some true then .error .unknownResource
  else if m.connection ≠ some "rtsp".toList then .error .noConnection
  else if !m.decision.allowed then .error (.denied m.decision.reason)
  else .ok (mintToken m.iv m.ct, m.now + cfg.grantTtl)

/-- The row that a successful mint adds, unless its key or its address is refused. -/
def mintRow (cfg : Config Ip) (rows : List (RtspGrant User Ip)) (next : ℕ) (m : Mint User) :
    Option (RtspGrant User Ip) :=
  match issueStream cfg m, cfg.inet m.sourceIP with
  | .ok (token, expiresAt), some ip =>
    if ∃ row ∈ rows, row.tokenHash = cfg.sha256Hex token then none
    else some ⟨next, cfg.sha256Hex token, m.user, ip, expiresAt, none⟩
  | _, _ => none

/-- The conditions of the `UPDATE` in `consume_grant`. -/
def Consumable (cfg : Config Ip) (token : List Char) (ip : Ip) (now : ℤ) (user : User)
    (row : RtspGrant User Ip) : Prop :=
  row.tokenHash = cfg.sha256Hex token ∧ row.consumedAt = none ∧ now < row.expiresAt ∧
    row.sourceIP = ip ∧ row.user = user

instance (cfg : Config Ip) (token : List Char) (ip : Ip) (now : ℤ) (user : User)
    (row : RtspGrant User Ip) : Decidable (Consumable cfg token ip now user row) := by
  unfold Consumable
  infer_instance

/-- `consume_grant`: the answer and the rows after the `UPDATE`. -/
def consumeGrant (cfg : Config Ip) (rows : List (RtspGrant User Ip)) (token : List Char) (ip : Ip)
    (now : ℤ) (user : User) : Bool × List (RtspGrant User Ip) :=
  ((rows.filter (Consumable cfg token ip now user)).length == 1,
    rows.map (fun row =>
      if Consumable cfg token ip now user row then { row with consumedAt := some now } else row))

/-- Text of the data plane as the control plane reads it from JSON. -/
def jsonText (s : List Char) : List Char := decode false s

/-- `rtsp_consume`, against the gateway sessions that are live at that moment. -/
def rtspConsume (cfg : Config Ip) (live : List Char → Option User) (now : ℤ)
    (rows : List (RtspGrant User Ip)) (body : ConsumeRequest) :
    Option Bool × List (RtspGrant User Ip) :=
  match live (jsonText body.gatewayCookie) with
  | none => (some false, rows)
  | some user =>
    match cfg.inet (jsonText body.sourceIP) with
    | none => (none, rows)
    | some ip =>
      let answer := consumeGrant cfg rows (jsonText body.token) ip now user
      (some answer.1, answer.2)

/-- A WebSocket connect at the data plane. -/
structure Connect (User : Type) where
  request : Request
  live : List Char → Option User
  now : ℤ
  bytes : ∀ c ∈ request.url.rawQuery, IsByte c

def Connect.token (cfg : Config Ip) (c : Connect User) : List Char :=
  getFirst (parseQuery cfg.srv.maxParams c.request.url.rawQuery) "token".toList

def Connect.body (cfg : Config Ip) (c : Connect User) : ConsumeRequest :=
  ⟨c.token cfg, c.request.clientIP, gatewayCookie cfg.srv c.request⟩

/-- `serveGrantedWS` with the control plane's answer in a given table. -/
def Connect.serve (cfg : Config Ip) (rows : List (RtspGrant User Ip)) (c : Connect User) :
    Outcome :=
  serveGrantedWS cfg.srv (fun body => (rtspConsume cfg c.live c.now rows body).1) .rtsp c.request
    (appHeader cfg.srv c.request) (gatewayCookie cfg.srv c.request)

/-- A request on its way to the bridge. -/
structure Forwarded where
  query : List Char
  serial : ℕ
  deriving Repr, DecidableEq

/-- A stream that the bridge admitted, and the grant consumed for its request. -/
structure Stream where
  token : List Char
  payload : Payload
  serial : ℕ
  deriving Repr, DecidableEq

structure State (User Ip : Type) where
  rows : List (RtspGrant User Ip)
  next : ℕ
  inFlight : List Forwarded
  active : List Char → ℕ
  streams : List Stream

def State.empty : State User Ip := ⟨[], 0, [], fun _ => 0, []⟩

inductive Event (User Ip : Type)
  | mint (m : Mint User)
  | connect (c : Connect User)
  | accept (f : Forwarded)
  | finish (userId : List Char)
  | delete (keep : RtspGrant User Ip → Bool)

def mint (cfg : Config Ip) (s : State User Ip) (m : Mint User) : State User Ip :=
  match mintRow cfg s.rows s.next m with
  | none => s
  | some row => { s with rows := row :: s.rows, next := s.next + 1 }

/-- The row that the connect consumes. -/
def Connect.row? (cfg : Config Ip) (rows : List (RtspGrant User Ip)) (c : Connect User) :
    Option (RtspGrant User Ip) :=
  match c.live (jsonText (gatewayCookie cfg.srv c.request)),
    cfg.inet (jsonText c.request.clientIP) with
  | some user, some ip =>
    rows.find? (fun row => Consumable cfg (jsonText (c.token cfg)) ip c.now user row)
  | _, _ => none

def connect (cfg : Config Ip) (s : State User Ip) (c : Connect User) : State User Ip :=
  if c.token cfg = [] then s
  else
    let rows := (rtspConsume cfg c.live c.now s.rows (c.body cfg)).2
    match c.serve cfg s.rows, c.row? cfg s.rows with
    | .forward _ out, some row =>
      { s with rows := rows, inFlight := ⟨out.url.rawQuery, row.serial⟩ :: s.inFlight }
    | _, _ => { s with rows := rows }

/-- `query_params.get("token") or ""`. -/
def bridgeToken (query : List Char) : List Char := (PyQuery.getLast query "token".toList).getD []

inductive BridgeError
  | rtspDisabled
  | missingToken
  | invalidToken
  | tooManyStreams
  deriving Repr, DecidableEq

/-- `_serve_stream` up to the point where it runs the stream. -/
def serveStream (cfg : Config Ip) (active : List Char → ℕ) (query : List Char) :
    Except BridgeError (List Char × Payload) :=
  if !cfg.rtspEnabled then .error .rtspDisabled
  else if bridgeToken query = [] then .error .missingToken
  else
    match cfg.decryptToken (bridgeToken query) with
    | none => .error .invalidToken
    | some payload =>
      if cfg.maxStreamsPerUser ≤ active payload.userId then .error .tooManyStreams
      else .ok (bridgeToken query, payload)

def accept (cfg : Config Ip) (s : State User Ip) (f : Forwarded) : State User Ip :=
  if f ∈ s.inFlight then
    match serveStream cfg s.active f.query with
    | .error _ => { s with inFlight := s.inFlight.erase f }
    | .ok (token, payload) =>
      { s with
        inFlight := s.inFlight.erase f
        active := Function.update s.active payload.userId (s.active payload.userId + 1)
        streams := ⟨token, payload, f.serial⟩ :: s.streams }
  else s

def step (cfg : Config Ip) (s : State User Ip) : Event User Ip → State User Ip
  | .mint m => mint cfg s m
  | .connect c => connect cfg s c
  | .accept f => accept cfg s f
  | .finish userId => { s with active := Function.update s.active userId (s.active userId - 1) }
  | .delete keep => { s with rows := s.rows.filter keep }

def after (cfg : Config Ip) (events : List (Event User Ip)) : State User Ip :=
  events.foldl (step cfg) .empty

/-- The two ends of the list of tokens in the request's query agree. -/
def Connect.Agrees (cfg : Config Ip) (c : Connect User) : Prop :=
  (valuesOf (parseQuery cfg.srv.maxParams c.request.url.rawQuery) "token".toList).getLast? =
    (valuesOf (parseQuery cfg.srv.maxParams c.request.url.rawQuery) "token".toList).head?

/-- What it takes for the data plane to send a connect on. -/
theorem serve_forward (cfg : Config Ip) (rows : List (RtspGrant User Ip)) (c : Connect User)
    (g : Ground) (out : Outgoing) (hout : c.serve cfg rows = .forward g out) :
    c.token cfg ≠ [] ∧
      out.url.rawQuery = cleanQueryParams cfg.srv.maxParams c.request.url.rawQuery ∧
      ∃ user ip row, c.live (jsonText (gatewayCookie cfg.srv c.request)) = some user ∧
        cfg.inet (jsonText c.request.clientIP) = some ip ∧ c.row? cfg rows = some row ∧
        row ∈ rows ∧ Consumable cfg (jsonText (c.token cfg)) ip c.now user row ∧
        (rtspConsume cfg c.live c.now rows (c.body cfg)).2 =
          (consumeGrant cfg rows (jsonText (c.token cfg)) ip c.now user).2 := by
  obtain ⟨htoken, hconsume, hproxy⟩ := serveGrantedWS_forward _ _ _ _ _ _ g out hout
  have hquery := (serveProxy_forward _ _ _ _ _ _ out hproxy).2.2.2
  refine ⟨htoken, hquery, ?_⟩
  unfold rtspConsume at hconsume
  cases hlive : c.live (jsonText (gatewayCookie cfg.srv c.request)) with
  | none => simp [hlive] at hconsume
  | some user =>
    cases hip : cfg.inet (jsonText c.request.clientIP) with
    | none => simp [hlive, hip] at hconsume
    | some ip =>
      have hone : (rows.filter
          (fun row => Consumable cfg (jsonText (c.token cfg)) ip c.now user row)).length = 1 := by
        simp only [hlive, hip, Option.some.injEq] at hconsume
        exact beq_iff_eq.mp hconsume
      obtain ⟨row, hfilter⟩ := List.length_eq_one_iff.mp hone
      have hhead := congrArg List.head? hfilter
      rw [List.head?_filter, List.head?_singleton] at hhead
      refine ⟨user, ip, row, rfl, rfl, ?_, List.mem_of_find?_eq_some hhead, ?_, ?_⟩
      · simp only [Connect.row?, hlive, hip]
        exact hhead
      · simpa using List.find?_some hhead
      · simp only [rtspConsume, Connect.body, hlive, hip]

omit [DecidableEq User] [DecidableEq Ip] in
/-- The bridge reads the token that the data plane read, unless the ends of the list differ. -/
theorem bridgeToken_eq_iff (cfg : Config Ip) (c : Connect User) (htoken : c.token cfg ≠ [])
    (hascii : Ascii (c.token cfg)) :
    bridgeToken (cleanQueryParams cfg.srv.maxParams c.request.url.rawQuery) = c.token cfg ↔
      c.Agrees cfg := by
  have hlimit : parseQuery cfg.srv.maxParams c.request.url.rawQuery =
      params c.request.url.rawQuery := by
    unfold parseQuery
    split
    · rename_i hover
      refine absurd ?_ htoken
      rw [Connect.token, parseQuery, if_pos hover]
      rfl
    · rfl
  have hhead : (valuesOf (params c.request.url.rawQuery) "token".toList).head? =
      some (c.token cfg) := by
    have htoken' := htoken
    rw [Connect.token, hlimit, getFirst] at htoken' ⊢
    cases hvalues : (valuesOf (params c.request.url.rawQuery) "token".toList).head? with
    | none =>
      rw [hvalues] at htoken'
      exact absurd rfl htoken'
    | some value => rfl
  have hlast := getLast_eq_iff (cleanQueryParams cfg.srv.maxParams c.request.url.rawQuery)
    "token".toList (c.token cfg) (clean_cleanQueryParams _ _ c.bytes)
    (List.all_iff_forall_prop.mp (by decide)) hascii
  rw [valuesOf_cleanQueryParams _ _ c.bytes hlimit] at hlast
  rw [Connect.Agrees, hlimit, hhead, ← hlast, bridgeToken]
  cases PyQuery.getLast (cleanQueryParams cfg.srv.maxParams c.request.url.rawQuery)
      "token".toList with
  | none => simpa using htoken.symm
  | some value => simp

end Hyproxy.RtspGrants

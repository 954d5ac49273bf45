import Hyproxy.ReplayCache

/-!
Proofs of possession. The checks on a proof read its text, the request and the
time; the last one stores its key and its identifier in the replay cache, where
they are kept for the length of the window from the time of the request. Times
count microseconds.
-/

namespace Hyproxy.Dpop

open ReplayCache
open scoped List

inductive Json
  | null
  | bool (b : Bool)
  | int (n : ℤ)
  | float (text : List Char)
  | str (s : List Char)
  | arr (items : List Json)
  | obj (fields : List (List Char × Json))
  deriving Repr

abbrev Fields := List (List Char × Json)

/-- `isinstance(value, dict)` -/
def Json.fields : Option Json → Option Fields
  | some (.obj fields) => some fields
  | _ => none

/-- `isinstance(value, str)` -/
def Json.text : Option Json → Option (List Char)
  | some (.str s) => some s
  | _ => none

/-- `isinstance(value, int)`, which holds of the truth values as well. -/
def Json.integer : Option Json → Option ℤ
  | some (.int n) => some n
  | some (.bool b) => some (if b then 1 else 0)
  | _ => none

/-- Values that a `frozenset` can look up. -/
def Json.hashable : Option Json → Bool
  | some (.arr _) => false
  | some (.obj _) => false
  | _ => true

/-- What a call of a library does: it returns, raises an error that the caller expects, or
another one. -/
inductive Call (α : Type)
  | returns (a : α)
  | refuses
  | raises

/-- A `DpopError`, or another exception. -/
inductive Failure
  | dpop (detail : String)
  | raised
  deriving Repr, DecidableEq

def Call.orFail {α : Type} (c : Call α) (detail : String) : Except Failure α :=
  match c with
  | .returns a => .ok a
  | .refuses => .error (.dpop detail)
  | .raises => .error .raised

structure UrlParts where
  scheme : List Char
  hostname : List Char
  port : Option ℕ
  path : List Char
  deriving Repr, DecidableEq

/-- The settings, and what is called in other libraries. -/
structure Config where
  iatWindow : ℤ
  iatFutureSkew : ℤ
  b64Decode : List Char → Option (List UInt8)
  jsonLoads : List UInt8 → Option Json
  repr : Option Json → String
  importKey : Fields → Call Unit
  deserializeCompact : List Char → Fields → Call (List UInt8)
  thumbprint : Fields → List Char
  urlsplit : List Char → Option UrlParts
  lower : List Char → List Char
  athOf : List Char → List Char

structure DpopProof where
  jkt : List Char
  jti : List Char
  iat : ℤ
  deriving Repr, DecidableEq

structure ProofRequest where
  proof : List Char
  htm : List Char
  htu : List Char
  accessToken : Option (List Char)
  expectedJkt : Option (List Char)
  deriving Repr, DecidableEq

def require (condition : Bool) (detail : String) : Except Failure Unit :=
  if condition then .ok () else .error (.dpop detail)

def b64uJson (cfg : Config) (segment : List Char) : Except Failure Fields :=
  match cfg.b64Decode segment with
  | none => .error (.dpop "malformed base64url segment")
  | some bytes =>
    match cfg.jsonLoads bytes with
    | none => .error (.dpop "malformed JSON segment")
    | some value =>
      match Json.fields (some value) with
      | none => .error (.dpop "segment is not a JSON object")
      | some fields => .ok fields

/-- `normalize_htu`; `urlsplit` also answers none when reading the host or the port raises. -/
def normalizeHtu (cfg : Config) (url : List Char) : Option (List Char) :=
  match cfg.urlsplit url with
  | none => none
  | some parts =>
    if parts.scheme ≠ "http".toList ∧ parts.scheme ≠ "https".toList ∨ parts.hostname = [] then none
    else
      let scheme := cfg.lower parts.scheme
      let host := cfg.lower parts.hostname
      let default := if scheme = "https".toList then 443 else 80
      let netloc := match parts.port with
        | none => host
        | some port => if port = default then host else host ++ ':' :: (toString port).toList
      let path := if parts.path = [] then ['/'] else parts.path
      some (scheme ++ "://".toList ++ netloc ++ if path.head? = some '/' then path else '/' :: path)

def forbiddenJwkMembers : List (List Char) :=
  ["d", "dp", "dq", "k", "kid", "p", "q", "qi", "x5c", "x5t", "x5t#S256", "x5u"].map String.toList

/-- The key in the header of a proof. -/
def embeddedJwk (cfg : Config) (header : Fields) : Except Failure Fields := do
  require (Json.text (header.lookup "typ".toList) == some "dpop+jwt".toList) "typ must be dpop+jwt"
  let alg := header.lookup "alg".toList
  if Json.hashable alg then
    require (Json.text alg == some "ES256".toList) ("alg " ++ cfg.repr alg ++ " not allowed")
  else .error .raised
  match Json.fields (header.lookup "jwk".toList) with
  | none => .error (.dpop "missing embedded jwk")
  | some jwk =>
    let present := forbiddenJwkMembers.filter fun name => (jwk.lookup name).isSome
    require (present == [])
      ("forbidden jwk members: " ++ cfg.repr (some (.arr (present.map Json.str))))
    require (Json.text (jwk.lookup "kty".toList) == some "EC".toList &&
        Json.text (jwk.lookup "crv".toList) == some "P-256".toList &&
        (jwk.lookup ['x']).isSome && (jwk.lookup ['y']).isSome)
      "jwk must be a public P-256 EC key"
    return jwk

/-- The key and the claims of a proof whose signature verifies. -/
def readProof (cfg : Config) (proof : List Char) : Except Failure (Fields × Fields) := do
  let parts := proof.splitOn '.'
  require (parts.length == 3 && parts.all fun part => !part.isEmpty) "not a compact JWS"
  let header ← b64uJson cfg (parts.headD [])
  let jwk ← embeddedJwk cfg header
  (cfg.importKey jwk).orFail "invalid jwk"
  let payload ← (cfg.deserializeCompact proof jwk).orFail "signature verification failed"
  match cfg.jsonLoads payload with
  | none => .error .raised
  | some value =>
    match Json.fields (some value) with
    | none => .error (.dpop "claims must be a JSON object")
    | some claims => return (jwk, claims)

def jtiOf (claims : Fields) : Except Failure (List Char) :=
  match Json.text (claims.lookup "jti".toList) with
  | none => .error (.dpop "invalid jti")
  | some jti =>
    if 8 ≤ jti.length ∧ jti.length ≤ 256 then .ok jti else .error (.dpop "invalid jti")

def checkHtu (cfg : Config) (req : ProofRequest) (claims : Fields) : Except Failure Unit :=
  match Json.text (claims.lookup "htu".toList) with
  | none => .error (.dpop "missing htu")
  | some claimed =>
    match normalizeHtu cfg claimed, normalizeHtu cfg req.htu with
    | some claim, some actual => require (claim == actual) "htu mismatch"
    | _, _ => .error (.dpop "unnormalizable htu")

/-- `datetime.fromtimestamp`, which raises outside the years 1 to 9999. -/
def fromTimestamp (seconds : ℤ) : Except Failure ℤ :=
  if -62135596800 ≤ seconds ∧ seconds ≤ 253402300799 then .ok (seconds * 1000000)
  else .error .raised

def iatOf (claims : Fields) : Except Failure ℤ :=
  match Json.integer (claims.lookup "iat".toList) with
  | none => .error (.dpop "missing iat")
  | some seconds => fromTimestamp seconds

def checkIat (cfg : Config) (now iat : ℤ) : Except Failure Unit :=
  if iat < now - cfg.iatWindow then .error (.dpop "stale iat")
  else if now + cfg.iatFutureSkew < iat then .error (.dpop "iat in the future")
  else .ok ()

def checkAth (cfg : Config) (req : ProofRequest) (claims : Fields) : Except Failure Unit :=
  match req.accessToken with
  | none => .ok ()
  | some token =>
    require (Json.text (claims.lookup "ath".toList) == some (cfg.athOf token)) "ath mismatch"

def checkJkt (req : ProofRequest) (jkt : List Char) : Except Failure Unit :=
  match req.expectedJkt with
  | none => .ok ()
  | some expected => require (jkt == expected) "jkt does not match token binding"

/-- All checks except replay. -/
def verifyProofOffline (cfg : Config) (req : ProofRequest) (now : ℤ) :
    Except Failure DpopProof := do
  let (jwk, claims) ← readProof cfg req.proof
  let jti ← jtiOf claims
  require (Json.text (claims.lookup "htm".toList) == some req.htm) "htm mismatch"
  checkHtu cfg req claims
  let iat ← iatOf claims
  checkIat cfg now iat
  checkAth cfg req claims
  checkJkt req (cfg.thumbprint jwk)
  return { jkt := cfg.thumbprint jwk, jti := jti, iat := iat }

abbrev Key := List Char × List Char

abbrev Seen := List (Key × ℤ)

/-- Full validation including replay detection. -/
def verifyProof (cfg : Config) (seen : Seen) (req : ProofRequest) (now : ℤ) :
    Except Failure DpopProof × Seen :=
  match verifyProofOffline cfg req now with
  | .error failure => (.error failure, seen)
  | .ok result =>
    match checkAndStore seen (result.jkt, result.jti) (now + cfg.iatWindow) with
    | (true, seen) => (.ok result, seen)
    | (false, seen) => (.error (.dpop "jti replay"), seen)


abbrev State := ReplayCache.State Key DpopProof

abbrev VerifyEvent := ReplayCache.Event ProofRequest

/-- The replay cache over a run of requests and collections. -/
def step (cfg : Config) (s : State) : VerifyEvent → State
  | .verify req now =>
    match verifyProof cfg s.seen req now with
    | (.ok result, seen) => ⟨seen, result :: s.accepted⟩
    | (.error _, seen) => ⟨seen, s.accepted⟩
  | .gc now => { s with seen := gc s.seen now }

def after (cfg : Config) (events : List VerifyEvent) : State := events.foldl (step cfg) initial

/-- The key and the identifier that a proof is known by. -/
def DpopProof.key (p : DpopProof) : Key := (p.jkt, p.jti)

/-- A collection that runs between two proofs of one key and identifier, both of which pass the
other checks, reads a time at which the row of the first one has not expired. -/
def RowsOutlive (cfg : Config) (events : List VerifyEvent) : Prop :=
  ∀ req t g req' t' p p', [.verify req t, .gc g, .verify req' t'] <+ events →
    verifyProofOffline cfg req t = .ok p → verifyProofOffline cfg req' t' = .ok p' →
    p.key = p'.key → g < t + cfg.iatWindow

def protocol (cfg : Config) : Protocol ProofRequest Key DpopProof where
  check req now := (verifyProofOffline cfg req now).toOption
  key := DpopProof.key
  expiry now := now + cfg.iatWindow

theorem step_eq (cfg : Config) (s : State) (e : VerifyEvent) :
    step cfg s e = ReplayCache.step (protocol cfg) s e := by
  cases e with
  | gc now => rfl
  | verify req now =>
    simp only [step, verifyProof, ReplayCache.step, verify, protocol]
    cases hoffline : verifyProofOffline cfg req now with
    | error failure => rfl
    | ok result =>
      by_cases hseen : (result.jkt, result.jti) ∈ s.seen.map Prod.fst
      · simp [Except.toOption, checkAndStore, DpopProof.key, hseen]
      · simp [Except.toOption, checkAndStore, DpopProof.key, hseen]

theorem after_eq (cfg : Config) (events : List VerifyEvent) :
    after cfg events = ReplayCache.after (protocol cfg) events := by
  rw [after, funext₂ (step_eq cfg), ← ReplayCache.after]

theorem ok_of_bind {ε α β : Type} (x : Except ε α) (f : α → Except ε β) (b : β)
    (h : x >>= f = .ok b) : ∃ a, x = .ok a ∧ f a = .ok b := by
  cases x with
  | error e => cases h
  | ok a => exact ⟨a, rfl, h⟩

/-- What a proof that passes the offline checks says, and when it passes them. -/
structure Passes (cfg : Config) (req : ProofRequest) (now : ℤ) (p : DpopProof) : Prop where
  said : ∃ jwk claims, readProof cfg req.proof = .ok (jwk, claims) ∧
    p.jkt = cfg.thumbprint jwk ∧ jtiOf claims = .ok p.jti ∧ iatOf claims = .ok p.iat
  window : now - cfg.iatWindow ≤ p.iat
  skew : p.iat ≤ now + cfg.iatFutureSkew

theorem passes_of_ok (cfg : Config) (req : ProofRequest) (now : ℤ) (p : DpopProof)
    (h : verifyProofOffline cfg req now = .ok p) : Passes cfg req now p := by
  unfold verifyProofOffline at h
  obtain ⟨⟨jwk, claims⟩, hread, h⟩ := ok_of_bind _ _ _ h
  obtain ⟨jti, hjti, h⟩ := ok_of_bind _ _ _ h
  obtain ⟨_, _, h⟩ := ok_of_bind _ _ _ h
  obtain ⟨_, _, h⟩ := ok_of_bind _ _ _ h
  obtain ⟨iat, hiat, h⟩ := ok_of_bind _ _ _ h
  obtain ⟨_, hcheck, h⟩ := ok_of_bind _ _ _ h
  obtain ⟨_, _, h⟩ := ok_of_bind _ _ _ h
  obtain ⟨_, _, h⟩ := ok_of_bind _ _ _ h
  cases h
  unfold checkIat at hcheck
  split_ifs at hcheck with hstale hfuture
  exact ⟨⟨jwk, claims, hread, rfl, hjti, hiat⟩, Int.not_lt.mp hstale, Int.not_lt.mp hfuture⟩

theorem check_iff (cfg : Config) (req : ProofRequest) (now : ℤ) (p : DpopProof) :
    (protocol cfg).check req now = some p ↔ verifyProofOffline cfg req now = .ok p := by
  simp only [protocol]
  cases verifyProofOffline cfg req now <;> simp [Except.toOption]

theorem rowsOutlive_iff (cfg : Config) (events : List VerifyEvent) :
    RowsOutlive cfg events ↔ ¬ Forgotten (protocol cfg) events := by
  constructor
  · rintro h ⟨req, t, p, g, req', t', p', hrun, hp, hp', hkey, hexpired⟩
    have hlive := h req t g req' t' p p' hrun ((check_iff ..).mp hp) ((check_iff ..).mp hp') hkey
    exact absurd hexpired (Int.not_le.mpr hlive)
  · intro h req t g req' t' p p' hrun hp hp' hkey
    by_contra hexpired
    exact h ⟨req, t, p, g, req', t', p', hrun, (check_iff ..).mpr hp, (check_iff ..).mpr hp', hkey,
      Int.not_lt.mp hexpired⟩

/-- Rows outlive their proofs where no collection reads a time ahead of the requests after it, and
no proof says that it was issued when an earlier one of its key was presented, or later. -/
theorem rowsOutlive_of_issuedBefore (cfg : Config) (events : List VerifyEvent)
    (hcollected : ∀ g req now, [.gc g, .verify req now] <+ events → g ≤ now)
    (hissued : ∀ req t req' t' p p', [.verify req t, .verify req' t'] <+ events →
      verifyProofOffline cfg req t = .ok p → verifyProofOffline cfg req' t' = .ok p' →
      p.key = p'.key → p'.iat < t) : RowsOutlive cfg events := by
  intro req t g req' t' p p' hrun hp hp' hkey
  have hlate := hcollected g req' t' ((List.sublist_cons_self _ _).trans hrun)
  have hearly := hissued req t req' t' p p' (List.Sublist.trans (by simp) hrun) hp hp' hkey
  have hwindow := (passes_of_ok cfg req' t' p' hp').window
  omega

theorem step_ok (cfg : Config) (s : State) (req : ProofRequest) (now : ℤ) (p : DpopProof)
    (hok : verifyProofOffline cfg req now = .ok p) (hnew : (p.jkt, p.jti) ∉ s.seen.map Prod.fst) :
    step cfg s (.verify req now) =
      ⟨((p.jkt, p.jti), now + cfg.iatWindow) :: s.seen, p :: s.accepted⟩ := by
  simp only [step, verifyProof, hok, checkAndStore, if_neg hnew]

theorem readProof_ok (cfg : Config) (proof head payload signature : List Char)
    (header jwk claims : Fields) (bytes : List UInt8)
    (hsplit : proof.splitOn '.' = [head, payload, signature])
    (hparts : head ≠ [] ∧ payload ≠ [] ∧ signature ≠ []) (hheader : b64uJson cfg head = .ok header)
    (hjwk : embeddedJwk cfg header = .ok jwk) (hkey : cfg.importKey jwk = .returns ())
    (hsigned : cfg.deserializeCompact proof jwk = .returns bytes)
    (hclaims : cfg.jsonLoads bytes = some (.obj claims)) :
    readProof cfg proof = .ok (jwk, claims) := by
  have hcompact : require ([head, payload, signature].length == 3 &&
      [head, payload, signature].all fun part => !part.isEmpty) "not a compact JWS" = .ok () := by
    simp [require, hparts]
  simp only [readProof, hsplit, hcompact, List.headD_cons, hheader, hjwk, hkey, hsigned, hclaims,
    Call.orFail, Json.fields, bind, Except.bind, pure, Except.pure]

theorem verifyProofOffline_ok (cfg : Config) (req : ProofRequest) (now iat : ℤ)
    (jwk claims : Fields) (jti : List Char) (hread : readProof cfg req.proof = .ok (jwk, claims))
    (hjti : jtiOf claims = .ok jti) (hhtm : Json.text (claims.lookup "htm".toList) = some req.htm)
    (hhtu : checkHtu cfg req claims = .ok ()) (hiat : iatOf claims = .ok iat)
    (hcheck : checkIat cfg now iat = .ok ()) (hath : checkAth cfg req claims = .ok ())
    (hjkt : checkJkt req (cfg.thumbprint jwk) = .ok ()) :
    verifyProofOffline cfg req now = .ok ⟨cfg.thumbprint jwk, jti, iat⟩ := by
  simp only [verifyProofOffline, hread, hjti, hhtm, hhtu, hiat, hcheck, hath, hjkt, require,
    beq_self_eq_true, if_true, bind, Except.bind, pure, Except.pure]

/-- In every run of requests at times that do not go back, with collections at any times, no key
and identifier are accepted twice exactly when no collection takes the row of a proof before
another one of them passes the other checks. -/
theorem proof_accepted_once (cfg : Config) (events : List VerifyEvent) (htimely : Timely events) :
    ((after cfg events).accepted.map DpopProof.key).Nodup ↔ RowsOutlive cfg events := by
  rw [after_eq, rowsOutlive_iff]
  refine accepted_once_iff (protocol cfg) events ?_ htimely
  intro t u hle
  simp only [protocol]
  omega

/-- A proof whose signature verifies, in its three segments. -/
def sampleHeader : List Char :=
  ["eyJ0eXAiOiJkcG9wK2p3dC", "IsImFsZyI6IkVTMjU2Iiwi", "andrIjp7Imt0eSI6IkVDIi",
    "wiY3J2IjoiUC0yNTYiLCJ4", "IjoiUnh3LWRZeEpCQ2hidW", "41VEVZN1E5U1N0NndkWDBs",
    "dlMtT2V3MTIzNmNVdyIsIn", "kiOiIzVklQZXNxS2k1RjZ6", "RGYxSGVqd3lidmpyWVdEZ3",
    "VjQzNDV2hMUW4zcUZnIn19"].flatMap String.toList

def samplePayload : List Char :=
  ["eyJqdGkiOiJqdGktMDAwMS", "IsImh0bSI6IlBPU1QiLCJo", "dHUiOiJodHRwczovL2gvb2",
    "lkYy90b2tlbiIsImlhdCI6", "MTAwMDAwMDAxMH0"].flatMap String.toList

def sampleSignature : List Char :=
  ["CK4WOoLnN0OCheLsMIZQsF", "W9stK_58uwHhdrvfoSlbCS", "ujE-7cnFhVZCgHphCMxSCZ",
    "QFcNy_QkU8QHJLEjAP_A"].flatMap String.toList

def sampleProof : List Char := sampleHeader ++ '.' :: (samplePayload ++ '.' :: sampleSignature)

def sampleJwk : Fields :=
  [("kty".toList, .str "EC".toList), ("crv".toList, .str "P-256".toList),
    (['x'], .str "Rxw-dYxJBChbun5TEY7Q9SSt6wdX0lvS-Oew1236cUw".toList),
    (['y'], .str "3VIPesqKi5F6zDf1HejwybvjrYWDgucC3CWhLQn3qFg".toList)]

def sampleFields : Fields :=
  [("typ".toList, .str "dpop+jwt".toList), ("alg".toList, .str "ES256".toList),
    ("jwk".toList, .obj sampleJwk)]

def sampleClaims : Fields :=
  [("jti".toList, .str "jti-0001".toList), ("htm".toList, .str "POST".toList),
    ("htu".toList, .str "https://h/oidc/token".toList), ("iat".toList, .int 1000000010)]

def bytesOf (pieces : List String) : List UInt8 :=
  pieces.flatMap fun piece => piece.toList.map fun c => UInt8.ofNat c.toNat

def headerBytes : List UInt8 :=
  bytesOf ["\x7b\"typ\":\"dpop+jwt\",\"alg\":\"ES256\",", "\"jwk\":\x7b\"kty\":\"EC\",\"crv\":\"P-256\",",
    "\"x\":\"Rxw-dYxJBChbun5TEY7Q9SSt6wdX0lvS-Oew1236cUw\",",
    "\"y\":\"3VIPesqKi5F6zDf1HejwybvjrYWDgucC3CWhLQn3qFg\"\x7d\x7d"]

def claimsBytes : List UInt8 :=
  bytesOf ["\x7b\"jti\":\"jti-0001\",\"htm\":\"POST\",", "\"htu\":\"https://h/oidc/token\",",
    "\"iat\":1000000010\x7d"]

def sampleConfig : Config where
  iatWindow := 300000000
  iatFutureSkew := 30000000
  b64Decode segment := if segment = sampleHeader then some headerBytes else none
  jsonLoads bytes :=
    if bytes = headerBytes then
      some (.obj sampleFields)
    else if bytes = claimsBytes then some (.obj sampleClaims)
    else none
  repr _ := ""
  importKey _ := .returns ()
  deserializeCompact proof _ := if proof = sampleProof then .returns claimsBytes else .refuses
  thumbprint _ := "D8HvZq-fumkXpCwYIpjAPoqJx7WoEcJUS7tPPyIEJKI".toList
  urlsplit _ := some ⟨"https".toList, ['h'], none, "/oidc/token".toList⟩
  lower := id
  athOf := id

def sampleRequest : ProofRequest :=
  ⟨sampleProof, "POST".toList, "https://h/oidc/token".toList, none, none⟩

set_option maxRecDepth 4000 in
theorem splitOn_sample :
    sampleProof.splitOn '.' = [sampleHeader, samplePayload, sampleSignature] := by
  rw [sampleProof, List.splitOn_append_cons_self_of_not_mem (by decide),
    List.splitOn_append_cons_self_of_not_mem (by decide), List.splitOn_eq_singleton (by decide)]

theorem readProof_sample : readProof sampleConfig sampleProof = .ok (sampleJwk, sampleClaims) := by
  have hbytes : claimsBytes ≠ headerBytes := fun heq =>
    absurd (congrArg (fun bytes => bytes[2]?) heq) (by decide)
  have hheader : sampleConfig.b64Decode sampleHeader = some headerBytes := by
    simp only [sampleConfig, if_true]
  have hjson : sampleConfig.jsonLoads headerBytes = some (.obj sampleFields) := by
    simp only [sampleConfig, if_true]
  refine readProof_ok sampleConfig _ _ _ _ sampleFields _ _ claimsBytes splitOn_sample
    ⟨by decide, by decide, by decide⟩ ?_ rfl rfl ?_ ?_
  · simp only [b64uJson, hheader, hjson, Json.fields]
  · simp only [sampleConfig, if_true]
  · simp only [sampleConfig, if_neg hbytes, if_true]

def sampleAccepted : DpopProof :=
  ⟨"D8HvZq-fumkXpCwYIpjAPoqJx7WoEcJUS7tPPyIEJKI".toList, "jti-0001".toList, 1000000010000000⟩

theorem verifyProofOffline_sample (now : ℤ) (hwindow : now - 300000000 ≤ 1000000010000000)
    (hskew : 1000000010000000 ≤ now + 30000000) :
    verifyProofOffline sampleConfig sampleRequest now = .ok sampleAccepted := by
  refine verifyProofOffline_ok sampleConfig sampleRequest now _ _ _ _ readProof_sample rfl rfl rfl
    rfl ?_ rfl rfl
  have hstale : ¬ (1000000010000000 < now - sampleConfig.iatWindow) := Int.not_lt.mpr hwindow
  have hfuture : ¬ (now + sampleConfig.iatFutureSkew < 1000000010000000) := Int.not_lt.mpr hskew
  rw [checkIat, if_neg hstale, if_neg hfuture]

/-- A proof is presented, the cache is collected, and the proof is presented again. -/
def presentedTwice (first collected second : ℤ) : List VerifyEvent :=
  [.verify sampleRequest first, .gc collected, .verify sampleRequest second]

theorem timely_presentedTwice (first collected second : ℤ) (hle : first ≤ second) :
    Timely (presentedTwice first collected second) := by
  simpa [Timely, presentedTwice, Event.time?, List.filterMap_cons] using hle

theorem accepted_presentedTwice (first second : ℤ) (hfirst : 1000000010000000 ≤ first + 30000000)
    (hlater : first + 300000000 ≤ second) (hsecond : second - 300000000 ≤ 1000000010000000) :
    (after sampleConfig (presentedTwice first (first + 300000000) second)).accepted =
      [sampleAccepted, sampleAccepted] := by
  have hpassed := verifyProofOffline_sample first (by omega) hfirst
  have hagain := verifyProofOffline_sample second hsecond (by omega)
  have hstored := step_ok sampleConfig initial sampleRequest first _ hpassed List.not_mem_nil
  have hcollected : gc [((sampleAccepted.jkt, sampleAccepted.jti), first + sampleConfig.iatWindow)]
      (first + 300000000) = [] :=
    List.filter_cons_of_neg (by simp [sampleConfig])
  have hnew : (step sampleConfig (step sampleConfig initial (.verify sampleRequest first))
      (.gc (first + 300000000))).seen = [] := by
    rw [hstored]
    exact hcollected
  have htwice := step_ok sampleConfig (step sampleConfig (step sampleConfig initial
    (.verify sampleRequest first)) (.gc (first + 300000000))) sampleRequest second _ hagain
    (by rw [hnew]; exact List.not_mem_nil)
  rw [after, presentedTwice, List.foldl_cons, List.foldl_cons, List.foldl_cons, List.foldl_nil,
    htwice, hstored]
  rfl

/-- The second presentation finds the row, which a collection a hundred seconds before its end
leaves. -/
theorem proof_accepted_once_sample :
    ((after sampleConfig (presentedTwice 1000000011000000 1000000211000000 1000000261000000)
      ).accepted.map DpopProof.key).Nodup := by
  refine (proof_accepted_once sampleConfig _
    (timely_presentedTwice 1000000011000000 _ 1000000261000000 (by decide))).mpr ?_
  intro req t g req' t' p p' hrun _ _ _
  have heq := hrun.eq_of_length rfl
  simp only [presentedTwice, List.cons.injEq, Event.verify.injEq, Event.gc.injEq] at heq
  obtain ⟨⟨-, rfl⟩, rfl, -⟩ := heq
  decide

/-- The second presentation falls five seconds after the end of the window that the cache keeps,
or on its end. -/
theorem proof_accepted_twice :
    (after sampleConfig (presentedTwice 1000000000000000 1000000300000000 1000000305000000)).accepted =
        [sampleAccepted, sampleAccepted] ∧
      (after sampleConfig
        (presentedTwice 1000000010000000 1000000310000000 1000000310000000)).accepted =
        [sampleAccepted, sampleAccepted] :=
  ⟨accepted_presentedTwice 1000000000000000 1000000305000000 (by decide) (by decide) (by decide),
    accepted_presentedTwice 1000000010000000 1000000310000000 (by decide) (by decide) (by decide)⟩

end Hyproxy.Dpop

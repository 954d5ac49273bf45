import Hyproxy.Dpop

/-!
What the validation of a proof of possession can raise. A text is a list of code
points here, as a JSON string of Python can hold half of a surrogate pair, and the
JSON decoder can refuse a text or run out of its recursion limit. The validator
answers with a proof whose checks hold or with its own error, unless one of a few
values reaches an operation that raises something else on it.
-/
namespace Hyproxy.ProofErrors

open Dpop (Failure fromTimestamp require)

abbrev Text := List ℕ

def text (s : String) : Text := s.toList.map Char.toNat

inductive Json
  | null
  | bool (b : Bool)
  | int (n : ℤ)
  | float (repr : Text)
  | str (s : Text)
  | arr (items : List Json)
  | obj (fields : List (Text × Json))
  deriving Repr

abbrev Fields := List (Text × Json)

/-- `isinstance(value, dict)` -/
def Json.fields : Option Json → Option Fields
  | some (.obj fields) => some fields
  | _ => none

/-- `isinstance(value, str)` -/
def Json.text : Option Json → Option Text
  | some (.str s) => some s
  | _ => none

/-- `isinstance(value, int)`, which holds of the truth values as well. -/
def Json.integer : Option Json → Option ℤ
  | some (.int n) => some n
  | some (.bool b) => some (if b then 1 else 0)
  | _ => none

/-- Values that a `frozenset` can look up. -/
def Json.hashable : Option Json → Bool
  | some (.arr _) => false
  | some (.obj _) => false
  | _ => true

/-- What `json.loads` does. -/
inductive Loaded
  | value (v : Json)
  | valueError
  | recursionError

structure UrlParts where
  scheme : Text
  hostname : Text
  port : Option ℕ
  path : Text
  deriving Repr, DecidableEq

/-- The settings, and what is called in other libraries: `importKey` raises a `JoseError` or a
`ValueError` when it is false, and `deserializeCompact` a `JoseError` when it is none. -/
structure Config where
  iatWindow : ℤ
  iatFutureSkew : ℤ
  b64Decode : Text → Option (List UInt8)
  jsonLoads : List UInt8 → Loaded
  repr : Option Json → String
  importKey : Fields → Bool
  deserializeCompact : Text → Fields → Option (List UInt8)
  thumbprint : Fields → Text
  urlsplit : Text → Option UrlParts
  lower : Text → Text
  athOf : Text → Text

structure DpopProof where
  jkt : Text
  jti : Text
  iat : ℤ
  deriving Repr, DecidableEq

structure ProofRequest where
  proof : Text
  htm : Text
  htu : Text
  accessToken : Option Text
  expectedJkt : Option Text
  deriving Repr, DecidableEq

/-- `str.encode` has bytes for the text. -/
def encodable (s : Text) : Bool := s.all fun c => !(decide (0xD800 ≤ c) && decide (c ≤ 0xDFFF))

/-- `_b64u_json` -/
def b64uJson (cfg : Config) (segment : Text) : Except Failure Fields :=
  match cfg.b64Decode segment with
  | none => .error (.dpop "malformed base64url segment")
  | some bytes =>
    match cfg.jsonLoads bytes with
    | .valueError => .error (.dpop "malformed JSON segment")
    | .recursionError => .error .raised
    | .value v =>
      match Json.fields (some v) with
      | none => .error (.dpop "segment is not a JSON object")
      | some fields => .ok fields

/-- `normalize_htu`; `urlsplit` also answers none when reading the host or the port raises. -/
def normalizeHtu (cfg : Config) (url : Text) : Option Text :=
  match cfg.urlsplit url with
  | none => none
  | some parts =>
    if parts.scheme ≠ text "http" ∧ parts.scheme ≠ text "https" ∨ parts.hostname = [] then none
    else
      let scheme := cfg.lower parts.scheme
      let host := cfg.lower parts.hostname
      let default := if scheme = text "https" then 443 else 80
      let netloc := match parts.port with
        | none => host
        | some port => if port = default then host else host ++ text ":" ++ text (toString port)
      let path := if parts.path = [] then text "/" else parts.path
      some (scheme ++ text "://" ++ netloc ++
        if path.head? = some '/'.toNat then path else text "/" ++ path)

def forbiddenJwkMembers : List Text := Dpop.forbiddenJwkMembers.map fun name => name.map Char.toNat

def checkAlg (cfg : Config) (alg : Option Json) : Except Failure Unit :=
  if Json.hashable alg then
    require (Json.text alg == some (text "ES256")) ("alg " ++ cfg.repr alg ++ " not allowed")
  else .error .raised

def forbiddenMembers (jwk : Fields) : List Text :=
  forbiddenJwkMembers.filter fun name => (jwk.lookup name).isSome

def checkJwk (cfg : Config) (jwk : Fields) : Except Failure Fields := do
  require (forbiddenMembers jwk == [])
    ("forbidden jwk members: " ++ cfg.repr (some (.arr ((forbiddenMembers jwk).map Json.str))))
  require (Json.text (jwk.lookup (text "kty")) == some (text "EC") &&
      Json.text (jwk.lookup (text "crv")) == some (text "P-256") &&
      (jwk.lookup (text "x")).isSome && (jwk.lookup (text "y")).isSome)
    "jwk must be a public P-256 EC key"
  return jwk

/-- The key in the header of a proof. -/
def embeddedJwk (cfg : Config) (header : Fields) : Except Failure Fields := do
  require (Json.text (header.lookup (text "typ")) == some (text "dpop+jwt")) "typ must be dpop+jwt"
  checkAlg cfg (header.lookup (text "alg"))
  match Json.fields (header.lookup (text "jwk")) with
  | none => .error (.dpop "missing embedded jwk")
  | some jwk => checkJwk cfg jwk

/-- The key of a proof and the payload that it has signed. -/
def signedPayload (cfg : Config) (proof : Text) : Except Failure (Fields × List UInt8) := do
  let parts := proof.splitOn '.'.toNat
  require (parts.length == 3 && parts.all fun part => !part.isEmpty) "not a compact JWS"
  let header ← b64uJson cfg (parts.headD [])
  let jwk ← embeddedJwk cfg header
  require (cfg.importKey jwk) "invalid jwk"
  match cfg.deserializeCompact proof jwk with
  | none => .error (.dpop "signature verification failed")
  | some payload => return (jwk, payload)

/-- `json.loads(verified.payload)`, which nothing around it catches. -/
def claimsOf (cfg : Config) (payload : List UInt8) : Except Failure Fields :=
  match cfg.jsonLoads payload with
  | .valueError => .error .raised
  | .recursionError => .error .raised
  | .value v =>
    match Json.fields (some v) with
    | none => .error (.dpop "claims must be a JSON object")
    | some claims => .ok claims

def jtiOf (claims : Fields) : Except Failure Text :=
  match Json.text (claims.lookup (text "jti")) with
  | none => .error (.dpop "invalid jti")
  | some jti =>
    if 8 ≤ jti.length ∧ jti.length ≤ 256 then .ok jti else .error (.dpop "invalid jti")

def checkHtu (cfg : Config) (req : ProofRequest) (claims : Fields) : Except Failure Unit :=
  match Json.text (claims.lookup (text "htu")) with
  | none => .error (.dpop "missing htu")
  | some claimed =>
    match normalizeHtu cfg claimed, normalizeHtu cfg req.htu with
    | some claim, some actual => require (claim == actual) "htu mismatch"
    | _, _ => .error (.dpop "unnormalizable htu")

def iatOf (claims : Fields) : Except Failure ℤ :=
  match Json.integer (claims.lookup (text "iat")) with
  | none => .error (.dpop "missing iat")
  | some seconds => fromTimestamp seconds

/-- The instants of a `datetime`, in microseconds. -/
def representable (now : ℤ) : Bool :=
  decide (-62135596800000000 ≤ now) && decide (now ≤ 253402300799999999)

/-- `now + timedelta(...)` -/
def plus (now delta : ℤ) : Except Failure ℤ :=
  if representable (now + delta) then .ok (now + delta) else .error .raised

def checkIat (cfg : Config) (now iat : ℤ) : Except Failure Unit := do
  let oldest ← plus now (-cfg.iatWindow)
  require (decide (oldest ≤ iat)) "stale iat"
  let newest ← plus now cfg.iatFutureSkew
  require (decide (iat ≤ newest)) "iat in the future"

def checkAth (cfg : Config) (req : ProofRequest) (claims : Fields) : Except Failure Unit :=
  match req.accessToken with
  | none => .ok ()
  | some token =>
    match Json.text (claims.lookup (text "ath")) with
    | none => .error (.dpop "ath mismatch")
    | some ath =>
      if encodable ath && encodable token then require (ath == cfg.athOf token) "ath mismatch"
      else .error .raised

def checkJkt (req : ProofRequest) (jkt : Text) : Except Failure Unit :=
  match req.expectedJkt with
  | none => .ok ()
  | some expected =>
    if encodable expected then require (jkt == expected) "jkt does not match token binding"
    else .error .raised

/-- All checks except replay. -/
def verifyProofOffline (cfg : Config) (req : ProofRequest) (now : ℤ) :
    Except Failure DpopProof := do
  let (jwk, payload) ← signedPayload cfg req.proof
  let claims ← claimsOf cfg payload
  let jti ← jtiOf claims
  require (Json.text (claims.lookup (text "htm")) == some req.htm) "htm mismatch"
  checkHtu cfg req claims
  let iat ← iatOf claims
  checkIat cfg now iat
  checkAth cfg req claims
  checkJkt req (cfg.thumbprint jwk)
  return { jkt := cfg.thumbprint jwk, jti := jti, iat := iat }

/-! ### What the checks say -/

/-- The header of a compact JWS. -/
def HasHeader (cfg : Config) (proof : Text) (loaded : Loaded) : Prop :=
  ∃ head middle signature bytes, proof.splitOn '.'.toNat = [head, middle, signature] ∧ head ≠ [] ∧
    middle ≠ [] ∧ signature ≠ [] ∧ cfg.b64Decode head = some bytes ∧ cfg.jsonLoads bytes = loaded

def TypOk (header : Fields) : Prop :=
  Json.text (header.lookup (text "typ")) = some (text "dpop+jwt")

/-- A public P-256 key without the members that are forbidden. -/
structure PublicKey (header jwk : Fields) : Prop where
  embedded : Json.fields (header.lookup (text "jwk")) = some jwk
  allowed : ∀ name ∈ forbiddenJwkMembers, jwk.lookup name = none
  kty : Json.text (jwk.lookup (text "kty")) = some (text "EC")
  crv : Json.text (jwk.lookup (text "crv")) = some (text "P-256")
  x : (jwk.lookup (text "x")).isSome = true
  y : (jwk.lookup (text "y")).isSome = true

/-- Checks 1 to 4: the payload is signed by the key in the header. -/
structure Signed (cfg : Config) (proof : Text) (jwk : Fields) (payload : List UInt8) : Prop where
  header : ∃ header, HasHeader cfg proof (.value (.obj header)) ∧ TypOk header ∧
    Json.text (header.lookup (text "alg")) = some (text "ES256") ∧ PublicKey header jwk
  imported : cfg.importKey jwk = true
  verified : cfg.deserializeCompact proof jwk = some payload

/-- Check 5 up to the time of issue. -/
structure Addressed (cfg : Config) (req : ProofRequest) (claims : Fields) (jti : Text) : Prop where
  length : 8 ≤ jti.length ∧ jti.length ≤ 256
  jti_eq : Json.text (claims.lookup (text "jti")) = some jti
  htm : Json.text (claims.lookup (text "htm")) = some req.htm
  htu : ∃ claimed normal, Json.text (claims.lookup (text "htu")) = some claimed ∧
    normalizeHtu cfg claimed = some normal ∧ normalizeHtu cfg req.htu = some normal

/-- The claims have a time of issue, in the years that a `datetime` has. -/
def Issued (claims : Fields) (iat : ℤ) : Prop :=
  ∃ seconds, Json.integer (claims.lookup (text "iat")) = some seconds ∧
    (-62135596800 ≤ seconds ∧ seconds ≤ 253402300799) ∧ iat = seconds * 1000000

/-- The claims were issued within the window. -/
structure Timely (cfg : Config) (now : ℤ) (claims : Fields) (iat : ℤ) : Prop where
  issued : Issued claims iat
  oldest : representable (now - cfg.iatWindow) = true
  window : now - cfg.iatWindow ≤ iat
  newest : representable (now + cfg.iatFutureSkew) = true
  skew : iat ≤ now + cfg.iatFutureSkew

/-- Check 6. -/
def Bound (cfg : Config) (req : ProofRequest) (claims : Fields) : Prop :=
  ∀ token, req.accessToken = some token → encodable token = true ∧
    encodable (cfg.athOf token) = true ∧
    Json.text (claims.lookup (text "ath")) = some (cfg.athOf token)

/-- The claims that the key has signed. -/
def Claims (cfg : Config) (req : ProofRequest) (jwk claims : Fields) : Prop :=
  ∃ payload, Signed cfg req.proof jwk payload ∧ cfg.jsonLoads payload = .value (.obj claims)

/-- Checks 1 to 7 hold of the proof. -/
structure Checked (cfg : Config) (req : ProofRequest) (now : ℤ) (p : DpopProof) : Prop where
  claims : ∃ jwk claims, Claims cfg req jwk claims ∧ Addressed cfg req claims p.jti ∧
    Timely cfg now claims p.iat ∧ Bound cfg req claims ∧ p.jkt = cfg.thumbprint jwk
  jkt : ∀ expected, req.expectedJkt = some expected → p.jkt = expected

/-- What raises something else than a `DpopError`: a header nested too deeply; an algorithm that is
an array or an object; a signed payload that is no JSON; a time of issue before the year 1 or
after 9999; a window that leaves these years; half of a surrogate pair in the hash of the access
token, in the token or in the key that is expected. Each counts only when the checks before
it hold. -/
inductive Raises (cfg : Config) (req : ProofRequest) (now : ℤ) : Prop
  | header (h : HasHeader cfg req.proof .recursionError)
  | alg (header : Fields) (h : HasHeader cfg req.proof (.value (.obj header))) (htyp : TypOk header)
    (halg : Json.hashable (header.lookup (text "alg")) = false)
  | payload (jwk : Fields) (payload : List UInt8) (h : Signed cfg req.proof jwk payload)
    (hloads : cfg.jsonLoads payload = .valueError ∨ cfg.jsonLoads payload = .recursionError)
  | iat (jwk claims : Fields) (jti : Text) (seconds : ℤ) (h : Claims cfg req jwk claims)
    (haddressed : Addressed cfg req claims jti)
    (hissued : Json.integer (claims.lookup (text "iat")) = some seconds)
    (hrange : ¬ (-62135596800 ≤ seconds ∧ seconds ≤ 253402300799))
  | window (jwk claims : Fields) (jti : Text) (iat : ℤ) (h : Claims cfg req jwk claims)
    (haddressed : Addressed cfg req claims jti) (hissued : Issued claims iat)
    (hwindow : representable (now - cfg.iatWindow) = false ∨
      (now - cfg.iatWindow ≤ iat ∧ representable (now + cfg.iatFutureSkew) = false))
  | ath (jwk claims : Fields) (jti ath token : Text) (iat : ℤ) (h : Claims cfg req jwk claims)
    (haddressed : Addressed cfg req claims jti) (htimely : Timely cfg now claims iat)
    (htoken : req.accessToken = some token)
    (hath : Json.text (claims.lookup (text "ath")) = some ath)
    (hencode : (encodable ath && encodable token) = false)
  | jkt (jwk claims : Fields) (jti expected : Text) (iat : ℤ) (h : Claims cfg req jwk claims)
    (haddressed : Addressed cfg req claims jti) (htimely : Timely cfg now claims iat)
    (hbound : Bound cfg req claims) (hexpected : req.expectedJkt = some expected)
    (hencode : encodable expected = false)

/-! ### The checks one by one -/

theorem bind_ok_iff {ε α β : Type} (x : Except ε α) (f : α → Except ε β) (b : β) :
    x >>= f = .ok b ↔ ∃ a, x = .ok a ∧ f a = .ok b := by
  cases x with
  | error e => simp [bind, Except.bind]
  | ok a => simp [bind, Except.bind]

theorem bind_raised_iff {α β : Type} (x : Except Failure α) (f : α → Except Failure β) :
    x >>= f = .error .raised ↔ x = .error .raised ∨ ∃ a, x = .ok a ∧ f a = .error .raised := by
  cases x with
  | error e => simp [bind, Except.bind]
  | ok a => simp [bind, Except.bind]

theorem require_ok_iff (condition : Bool) (detail : String) (u : Unit) :
    require condition detail = .ok u ↔ condition = true := by
  cases condition <;> simp [require]

theorem require_not_raised (condition : Bool) (detail : String) :
    ¬ require condition detail = .error .raised := by
  cases condition <;> simp [require]

theorem b64uJson_ok_iff (cfg : Config) (segment : Text) (fields : Fields) :
    b64uJson cfg segment = .ok fields ↔
      ∃ bytes, cfg.b64Decode segment = some bytes ∧ cfg.jsonLoads bytes = .value (.obj fields) := by
  unfold b64uJson
  cases cfg.b64Decode segment with
  | none => simp
  | some bytes =>
    simp only [Option.some.injEq, exists_eq_left']
    cases cfg.jsonLoads bytes with
    | valueError => simp
    | recursionError => simp
    | value v => cases v <;> simp [Json.fields]

theorem b64uJson_raised_iff (cfg : Config) (segment : Text) :
    b64uJson cfg segment = .error .raised ↔
      ∃ bytes, cfg.b64Decode segment = some bytes ∧ cfg.jsonLoads bytes = .recursionError := by
  unfold b64uJson
  cases cfg.b64Decode segment with
  | none => simp
  | some bytes =>
    simp only [Option.some.injEq, exists_eq_left']
    cases cfg.jsonLoads bytes with
    | valueError => simp
    | recursionError => simp
    | value v => cases v <;> simp [Json.fields]

theorem hasHeader_iff (cfg : Config) (proof : Text) (loaded : Loaded) :
    HasHeader cfg proof loaded ↔
      ((proof.splitOn '.'.toNat).length == 3 &&
        (proof.splitOn '.'.toNat).all fun part => !part.isEmpty) = true ∧
      ∃ bytes, cfg.b64Decode ((proof.splitOn '.'.toNat).headD []) = some bytes ∧
        cfg.jsonLoads bytes = loaded := by
  unfold HasHeader
  generalize proof.splitOn '.'.toNat = parts
  rcases parts with _ | ⟨a, _ | ⟨b, _ | ⟨c, _ | ⟨d, rest⟩⟩⟩⟩
  · simp
  · simp
  · simp
  · simp [and_assoc]
  · simp

theorem checkAlg_ok_iff (cfg : Config) (alg : Option Json) (u : Unit) :
    checkAlg cfg alg = .ok u ↔ Json.text alg = some (text "ES256") := by
  unfold checkAlg
  split_ifs with hhash
  · rw [require_ok_iff, beq_iff_eq]
  · refine iff_of_false (by simp) fun halg => hhash ?_
    rcases alg with _ | _ | _ | _ | _ | _ | _ | _ <;> first | rfl | cases halg

theorem checkAlg_raised_iff (cfg : Config) (alg : Option Json) :
    checkAlg cfg alg = .error .raised ↔ Json.hashable alg = false := by
  unfold checkAlg
  split_ifs with hhash
  · simp [require_not_raised, hhash]
  · simp [hhash]

theorem checkJwk_ok_iff (cfg : Config) (jwk key : Fields) :
    checkJwk cfg jwk = .ok key ↔ key = jwk ∧ (∀ name ∈ forbiddenJwkMembers, jwk.lookup name = none) ∧
      Json.text (jwk.lookup (text "kty")) = some (text "EC") ∧
      Json.text (jwk.lookup (text "crv")) = some (text "P-256") ∧
      (jwk.lookup (text "x")).isSome = true ∧ (jwk.lookup (text "y")).isSome = true := by
  have hnone : (forbiddenMembers jwk == []) = true ↔
      ∀ name ∈ forbiddenJwkMembers, jwk.lookup name = none := by
    rw [beq_iff_eq, forbiddenMembers, List.filter_eq_nil_iff]
    simp only [Bool.not_eq_true, Option.isSome_eq_false_iff, Option.isNone_iff_eq_none]
  simp only [checkJwk, bind_ok_iff, require_ok_iff, hnone, exists_const, Bool.and_eq_true,
    beq_iff_eq, and_assoc, pure, Except.pure, Except.ok.injEq]
  constructor
  · rintro ⟨hallowed, hkty, hcrv, hx, hy, rfl⟩
    exact ⟨rfl, hallowed, hkty, hcrv, hx, hy⟩
  · rintro ⟨rfl, hallowed, hkty, hcrv, hx, hy⟩
    exact ⟨hallowed, hkty, hcrv, hx, hy, rfl⟩

theorem checkJwk_not_raised (cfg : Config) (jwk : Fields) :
    ¬ checkJwk cfg jwk = .error .raised := by
  simp [checkJwk, bind_raised_iff, require_not_raised, pure, Except.pure]

theorem embeddedJwk_ok_iff (cfg : Config) (header jwk : Fields) :
    embeddedJwk cfg header = .ok jwk ↔ TypOk header ∧
      Json.text (header.lookup (text "alg")) = some (text "ES256") ∧ PublicKey header jwk := by
  simp only [embeddedJwk, bind_ok_iff, require_ok_iff, checkAlg_ok_iff, exists_const, beq_iff_eq,
    TypOk]
  refine and_congr_right fun _ => and_congr_right fun _ => ?_
  cases hembedded : Json.fields (header.lookup (text "jwk")) with
  | none => exact iff_of_false (by simp) fun h => absurd (hembedded.symm.trans h.embedded) (by simp)
  | some key =>
    simp only [checkJwk_ok_iff]
    constructor
    · rintro ⟨rfl, hallowed, hkty, hcrv, hx, hy⟩
      exact ⟨hembedded, hallowed, hkty, hcrv, hx, hy⟩
    · intro h
      obtain rfl := Option.some.inj (hembedded.symm.trans h.embedded)
      exact ⟨rfl, h.allowed, h.kty, h.crv, h.x, h.y⟩

theorem embeddedJwk_raised_iff (cfg : Config) (header : Fields) :
    embeddedJwk cfg header = .error .raised ↔
      TypOk header ∧ Json.hashable (header.lookup (text "alg")) = false := by
  simp only [embeddedJwk, bind_raised_iff, require_not_raised, require_ok_iff, checkAlg_raised_iff,
    exists_const, beq_iff_eq, false_or, TypOk]
  refine and_congr_right fun _ => or_iff_left ?_
  rintro ⟨-, -, hraised⟩
  cases hembedded : Json.fields (header.lookup (text "jwk")) with
  | none => simp [hembedded] at hraised
  | some key =>
    rw [hembedded] at hraised
    exact checkJwk_not_raised cfg key hraised

theorem signedPayload_ok_iff (cfg : Config) (proof : Text) (jwk : Fields) (payload : List UInt8) :
    signedPayload cfg proof = .ok (jwk, payload) ↔ Signed cfg proof jwk payload := by
  simp only [signedPayload, bind_ok_iff, require_ok_iff, exists_const, b64uJson_ok_iff,
    embeddedJwk_ok_iff]
  constructor
  · rintro ⟨hparts, header, hheader, key, hkey, himport, hverified⟩
    cases hpayload : cfg.deserializeCompact proof key with
    | none => simp [hpayload] at hverified
    | some bytes =>
      simp only [hpayload, pure, Except.pure, Except.ok.injEq, Prod.mk.injEq] at hverified
      obtain ⟨rfl, rfl⟩ := hverified
      exact ⟨⟨header, (hasHeader_iff cfg proof _).mpr ⟨hparts, hheader⟩, hkey⟩, himport, hpayload⟩
  · rintro ⟨⟨header, hheader, hkey⟩, himport, hverified⟩
    obtain ⟨hparts, hheader⟩ := (hasHeader_iff cfg proof _).mp hheader
    refine ⟨hparts, header, hheader, jwk, hkey, himport, ?_⟩
    rw [hverified]
    rfl

theorem signedPayload_raised_iff (cfg : Config) (proof : Text) :
    signedPayload cfg proof = .error .raised ↔ HasHeader cfg proof .recursionError ∨
      ∃ header, HasHeader cfg proof (.value (.obj header)) ∧ TypOk header ∧
        Json.hashable (header.lookup (text "alg")) = false := by
  have hlast : ∀ key, ¬ (match cfg.deserializeCompact proof key with
      | none => Except.error (Failure.dpop "signature verification failed")
      | some payload => (pure (key, payload) : Except Failure (Fields × List UInt8))) =
        .error .raised := by
    intro key
    cases cfg.deserializeCompact proof key <;> simp [pure, Except.pure]
  simp only [signedPayload, bind_raised_iff, require_not_raised, require_ok_iff, exists_const,
    b64uJson_ok_iff, b64uJson_raised_iff, embeddedJwk_ok_iff, embeddedJwk_raised_iff, hlast,
    false_or, and_false, or_false, hasHeader_iff, and_or_left, and_assoc]
  simp only [exists_and_left]

theorem claimsOf_ok_iff (cfg : Config) (payload : List UInt8) (claims : Fields) :
    claimsOf cfg payload = .ok claims ↔ cfg.jsonLoads payload = .value (.obj claims) := by
  unfold claimsOf
  cases cfg.jsonLoads payload with
  | valueError => simp
  | recursionError => simp
  | value v => cases v <;> simp [Json.fields]

theorem claimsOf_raised_iff (cfg : Config) (payload : List UInt8) :
    claimsOf cfg payload = .error .raised ↔
      cfg.jsonLoads payload = .valueError ∨ cfg.jsonLoads payload = .recursionError := by
  unfold claimsOf
  cases cfg.jsonLoads payload with
  | valueError => simp
  | recursionError => simp
  | value v => cases v <;> simp [Json.fields]

theorem jtiOf_ok_iff (claims : Fields) (jti : Text) :
    jtiOf claims = .ok jti ↔ Json.text (claims.lookup (text "jti")) = some jti ∧
      8 ≤ jti.length ∧ jti.length ≤ 256 := by
  unfold jtiOf
  cases Json.text (claims.lookup (text "jti")) with
  | none => simp
  | some found =>
    simp only [Option.some.injEq]
    split_ifs with hlength
    · rw [Except.ok.injEq]
      exact ⟨fun heq => ⟨heq, heq ▸ hlength⟩, And.left⟩
    · exact iff_of_false (by simp) fun h => hlength (h.1 ▸ h.2)

theorem jtiOf_not_raised (claims : Fields) : ¬ jtiOf claims = .error .raised := by
  unfold jtiOf
  cases Json.text (claims.lookup (text "jti")) with
  | none => simp
  | some found =>
    simp only
    split_ifs <;> simp

theorem checkHtu_ok_iff (cfg : Config) (req : ProofRequest) (claims : Fields) (u : Unit) :
    checkHtu cfg req claims = .ok u ↔
      ∃ claimed normal, Json.text (claims.lookup (text "htu")) = some claimed ∧
        normalizeHtu cfg claimed = some normal ∧ normalizeHtu cfg req.htu = some normal := by
  unfold checkHtu
  cases Json.text (claims.lookup (text "htu")) with
  | none => simp
  | some claimed =>
    simp only [Option.some.injEq, exists_and_left, exists_eq_left']
    cases normalizeHtu cfg claimed with
    | none => simp
    | some claim =>
      cases normalizeHtu cfg req.htu with
      | none => simp
      | some actual =>
        rw [require_ok_iff, beq_iff_eq]
        simp only [Option.some.injEq, exists_eq_left', eq_comm]

theorem checkHtu_not_raised (cfg : Config) (req : ProofRequest) (claims : Fields) :
    ¬ checkHtu cfg req claims = .error .raised := by
  unfold checkHtu
  cases Json.text (claims.lookup (text "htu")) with
  | none => simp
  | some claimed =>
    simp only
    cases normalizeHtu cfg claimed with
    | none => simp
    | some claim =>
      cases normalizeHtu cfg req.htu with
      | none => simp
      | some actual => exact require_not_raised _ _

theorem iatOf_ok_iff (claims : Fields) (iat : ℤ) : iatOf claims = .ok iat ↔ Issued claims iat := by
  unfold iatOf Issued fromTimestamp
  cases Json.integer (claims.lookup (text "iat")) with
  | none => simp
  | some seconds =>
    simp only [Option.some.injEq, exists_eq_left']
    split_ifs with hrange
    · simp [hrange, eq_comm]
    · simp [hrange]

theorem iatOf_raised_iff (claims : Fields) : iatOf claims = .error .raised ↔
    ∃ seconds, Json.integer (claims.lookup (text "iat")) = some seconds ∧
      ¬ (-62135596800 ≤ seconds ∧ seconds ≤ 253402300799) := by
  unfold iatOf fromTimestamp
  cases Json.integer (claims.lookup (text "iat")) with
  | none => simp
  | some seconds =>
    simp only [Option.some.injEq, exists_eq_left']
    split_ifs with hrange <;> simp [hrange]

theorem plus_ok_iff (now delta sum : ℤ) :
    plus now delta = .ok sum ↔ representable (now + delta) = true ∧ sum = now + delta := by
  unfold plus
  split_ifs with h <;> simp [h, eq_comm]

theorem plus_raised_iff (now delta : ℤ) :
    plus now delta = .error .raised ↔ representable (now + delta) = false := by
  unfold plus
  split_ifs with h <;> simp [h]

theorem checkIat_ok_iff (cfg : Config) (now iat : ℤ) (u : Unit) :
    checkIat cfg now iat = .ok u ↔
      representable (now - cfg.iatWindow) = true ∧ now - cfg.iatWindow ≤ iat ∧
        representable (now + cfg.iatFutureSkew) = true ∧ iat ≤ now + cfg.iatFutureSkew := by
  simp only [checkIat, bind_ok_iff, plus_ok_iff, require_ok_iff, exists_const, decide_eq_true_iff,
    ← Int.sub_eq_add_neg, and_assoc, exists_and_left, exists_eq_left]

theorem checkIat_raised_iff (cfg : Config) (now iat : ℤ) :
    checkIat cfg now iat = .error .raised ↔ representable (now - cfg.iatWindow) = false ∨
      (representable (now - cfg.iatWindow) = true ∧ now - cfg.iatWindow ≤ iat ∧
        representable (now + cfg.iatFutureSkew) = false) := by
  simp only [checkIat, bind_raised_iff, plus_ok_iff, plus_raised_iff, require_ok_iff,
    require_not_raised, exists_const, decide_eq_true_iff, ← Int.sub_eq_add_neg, and_assoc,
    exists_and_left, exists_eq_left, false_or, and_false, or_false]

theorem checkAth_ok_iff (cfg : Config) (req : ProofRequest) (claims : Fields) (u : Unit) :
    checkAth cfg req claims = .ok u ↔ Bound cfg req claims := by
  unfold checkAth Bound
  cases req.accessToken with
  | none => simp
  | some token =>
    simp only [Option.some.injEq, forall_eq']
    cases Json.text (claims.lookup (text "ath")) with
    | none => simp
    | some ath =>
      simp only [Option.some.injEq]
      split_ifs with hencode
      · rw [Bool.and_eq_true] at hencode
        rw [require_ok_iff, beq_iff_eq]
        exact ⟨fun heq => ⟨hencode.2, heq ▸ hencode.1, heq⟩, fun h => h.2.2⟩
      · refine iff_of_false (by simp) fun ⟨htoken, hhash, heq⟩ => hencode ?_
        rw [heq, hhash, htoken, Bool.and_self]

theorem checkAth_raised_iff (cfg : Config) (req : ProofRequest) (claims : Fields) :
    checkAth cfg req claims = .error .raised ↔
      ∃ token ath, req.accessToken = some token ∧
        Json.text (claims.lookup (text "ath")) = some ath ∧
        (encodable ath && encodable token) = false := by
  unfold checkAth
  cases req.accessToken with
  | none => simp
  | some token =>
    cases Json.text (claims.lookup (text "ath")) with
    | none => simp
    | some ath =>
      simp only [Option.some.injEq, exists_and_left, exists_eq_left']
      split_ifs with hencode
      · exact iff_of_false (require_not_raised _ _) (by simp [hencode])
      · exact iff_of_true rfl (by simpa using hencode)

theorem checkJkt_ok_iff (req : ProofRequest) (jkt : Text) (u : Unit) :
    checkJkt req jkt = .ok u ↔
      ∀ expected, req.expectedJkt = some expected → encodable expected = true ∧ jkt = expected := by
  unfold checkJkt
  cases req.expectedJkt with
  | none => simp
  | some expected =>
    simp only [Option.some.injEq, forall_eq']
    split_ifs with hencode
    · simp [require_ok_iff, hencode]
    · simp [hencode]

theorem checkJkt_raised_iff (req : ProofRequest) (jkt : Text) :
    checkJkt req jkt = .error .raised ↔
      ∃ expected, req.expectedJkt = some expected ∧ encodable expected = false := by
  unfold checkJkt
  cases req.expectedJkt with
  | none => simp
  | some expected =>
    simp only [Option.some.injEq, exists_eq_left']
    split_ifs with hencode
    · exact iff_of_false (require_not_raised _ _) (by simp [hencode])
    · simp [hencode]

/-! ### The validation -/

/-- What a proof that is accepted has passed. -/
theorem checked_of_ok (cfg : Config) (req : ProofRequest) (now : ℤ) (p : DpopProof)
    (h : verifyProofOffline cfg req now = .ok p) : Checked cfg req now p := by
  simp only [verifyProofOffline, bind_ok_iff, Prod.exists, signedPayload_ok_iff, claimsOf_ok_iff,
    jtiOf_ok_iff, require_ok_iff, checkHtu_ok_iff, iatOf_ok_iff, checkIat_ok_iff, checkAth_ok_iff,
    checkJkt_ok_iff, exists_const, beq_iff_eq, pure, Except.pure, Except.ok.injEq] at h
  obtain ⟨jwk, payload, hsigned, claims, hclaims, jti, ⟨hjti, hlength⟩, hhtm, hhtu, iat, hissued,
    ⟨holdest, hwindow, hnewest, hskew⟩, hbound, hjkt, rfl⟩ := h
  exact ⟨⟨jwk, claims, ⟨payload, hsigned, hclaims⟩, ⟨hlength, hjti, hhtm, hhtu⟩,
    ⟨hissued, holdest, hwindow, hnewest, hskew⟩, hbound, rfl⟩,
    fun expected hexpected => (hjkt expected hexpected).2⟩

theorem raised_iff (cfg : Config) (req : ProofRequest) (now : ℤ) :
    verifyProofOffline cfg req now = .error .raised ↔ Raises cfg req now := by
  have hpure : ∀ p : DpopProof, ¬ (pure p : Except Failure DpopProof) = .error .raised :=
    fun p h => by cases h
  simp only [verifyProofOffline, bind_raised_iff, Prod.exists, signedPayload_ok_iff,
    signedPayload_raised_iff, claimsOf_ok_iff, claimsOf_raised_iff, jtiOf_ok_iff, jtiOf_not_raised,
    require_ok_iff, require_not_raised, checkHtu_ok_iff, checkHtu_not_raised, iatOf_ok_iff,
    iatOf_raised_iff, checkIat_ok_iff, checkIat_raised_iff, checkAth_ok_iff, checkAth_raised_iff,
    checkJkt_ok_iff, checkJkt_raised_iff, exists_const, beq_iff_eq, false_or, hpure, and_false,
    or_false]
  constructor
  · rintro ((hdeep | ⟨header, hheader, htyp, halg⟩) | ⟨jwk, payload, hsigned, hrest⟩)
    · exact .header hdeep
    · exact .alg header hheader htyp halg
    rcases hrest with hloads | ⟨claims, hclaims, jti, ⟨hjti, hlength⟩, hhtm, hhtu, hrest⟩
    · exact .payload jwk payload hsigned hloads
    have hsaid : Claims cfg req jwk claims := ⟨payload, hsigned, hclaims⟩
    have haddressed : Addressed cfg req claims jti := ⟨hlength, hjti, hhtm, hhtu⟩
    rcases hrest with ⟨seconds, hseconds, hrange⟩ | ⟨iat, hissued, hrest⟩
    · exact .iat jwk claims jti seconds hsaid haddressed hseconds hrange
    rcases hrest with hwindow | ⟨⟨holdest, hwindow, hnewest, hskew⟩, hrest⟩
    · exact .window jwk claims jti iat hsaid haddressed hissued
        (hwindow.imp_right fun h => ⟨h.2.1, h.2.2⟩)
    have htimely : Timely cfg now claims iat := ⟨hissued, holdest, hwindow, hnewest, hskew⟩
    rcases hrest with ⟨token, ath, htoken, hath, hencode⟩ | ⟨hbound, expected, hexpected, hencode⟩
    · exact .ath jwk claims jti ath token iat hsaid haddressed htimely htoken hath hencode
    · exact .jkt jwk claims jti expected iat hsaid haddressed htimely hbound hexpected hencode
  · intro h
    cases h with
    | header h => exact Or.inl (Or.inl h)
    | alg header h htyp halg => exact Or.inl (Or.inr ⟨header, h, htyp, halg⟩)
    | payload jwk payload h hloads => exact Or.inr ⟨jwk, payload, h, Or.inl hloads⟩
    | iat jwk claims jti seconds h haddressed hissued hrange =>
      obtain ⟨payload, hsigned, hclaims⟩ := h
      obtain ⟨hlength, hjti, hhtm, hhtu⟩ := haddressed
      exact Or.inr ⟨jwk, payload, hsigned, Or.inr ⟨claims, hclaims, jti, ⟨hjti, hlength⟩, hhtm,
        hhtu, Or.inl ⟨seconds, hissued, hrange⟩⟩⟩
    | window jwk claims jti iat h haddressed hissued hwindow =>
      obtain ⟨payload, hsigned, hclaims⟩ := h
      obtain ⟨hlength, hjti, hhtm, hhtu⟩ := haddressed
      refine Or.inr ⟨jwk, payload, hsigned, Or.inr ⟨claims, hclaims, jti, ⟨hjti, hlength⟩, hhtm,
        hhtu, Or.inr ⟨iat, hissued, Or.inl ?_⟩⟩⟩
      rcases hwindow with hwindow | ⟨hwindow, hnewest⟩
      · exact Or.inl hwindow
      · by_cases holdest : representable (now - cfg.iatWindow) = true
        · exact Or.inr ⟨holdest, hwindow, hnewest⟩
        · exact Or.inl (by simpa using holdest)
    | ath jwk claims jti ath token iat h haddressed htimely htoken hath hencode =>
      obtain ⟨payload, hsigned, hclaims⟩ := h
      obtain ⟨hlength, hjti, hhtm, hhtu⟩ := haddressed
      obtain ⟨hissued, holdest, hwindow, hnewest, hskew⟩ := htimely
      exact Or.inr ⟨jwk, payload, hsigned, Or.inr ⟨claims, hclaims, jti, ⟨hjti, hlength⟩, hhtm,
        hhtu, Or.inr ⟨iat, hissued, Or.inr ⟨⟨holdest, hwindow, hnewest, hskew⟩,
          Or.inl ⟨token, ath, htoken, hath, hencode⟩⟩⟩⟩⟩
    | jkt jwk claims jti expected iat h haddressed htimely hbound hexpected hencode =>
      obtain ⟨payload, hsigned, hclaims⟩ := h
      obtain ⟨hlength, hjti, hhtm, hhtu⟩ := haddressed
      obtain ⟨hissued, holdest, hwindow, hnewest, hskew⟩ := htimely
      exact Or.inr ⟨jwk, payload, hsigned, Or.inr ⟨claims, hclaims, jti, ⟨hjti, hlength⟩, hhtm,
        hhtu, Or.inr ⟨iat, hissued, Or.inr ⟨⟨holdest, hwindow, hnewest, hskew⟩,
          Or.inr ⟨hbound, expected, hexpected, hencode⟩⟩⟩⟩⟩

/-- The validator answers with a proof whose checks hold or with a `DpopError`, exactly when nothing
reaches an operation that raises something else on it. -/
theorem answers_iff (cfg : Config) (req : ProofRequest) (now : ℤ) :
    ((∃ p, verifyProofOffline cfg req now = .ok p ∧ Checked cfg req now p) ∨
      ∃ detail, verifyProofOffline cfg req now = .error (.dpop detail)) ↔ ¬ Raises cfg req now := by
  rw [← raised_iff]
  cases hresult : verifyProofOffline cfg req now with
  | ok p => exact iff_of_true (Or.inl ⟨p, rfl, checked_of_ok cfg req now p hresult⟩) (by simp)
  | error failure => cases failure <;> simp

/-- `{"typ":"dpop+jwt","alg":[]}` in base64url. -/
def sampleHead : Text := text "eyJ0eXAiOiJkcG9wK2p3dCIsImFsZyI6W119"

def sampleHeader : Fields := [(text "typ", .str (text "dpop+jwt")), (text "alg", .arr [])]

def sampleBytes : List UInt8 :=
  [123, 34, 116, 121, 112, 34, 58, 34, 100, 112, 111, 112, 43, 106, 119, 116, 34, 44, 34, 97, 108,
    103, 34, 58, 91, 93, 125]

def sampleConfig : Config where
  iatWindow := 300000000
  iatFutureSkew := 30000000
  b64Decode segment := if segment = sampleHead then some sampleBytes else none
  jsonLoads bytes := if bytes = sampleBytes then .value (.obj sampleHeader) else .valueError
  repr _ := "[]"
  importKey _ := false
  deserializeCompact _ _ := none
  thumbprint _ := []
  urlsplit _ := none
  lower s := s
  athOf s := s

def sampleRequest : ProofRequest where
  proof := sampleHead ++ text ".e30.AA"
  htm := text "POST"
  htu := text "https://gateway.example/token"
  accessToken := none
  expectedJkt := none

/-- An array as the algorithm: the lookup among the algorithms raises a `TypeError`. -/
theorem algorithm_raises : verifyProofOffline sampleConfig sampleRequest 0 = .error .raised ∧
    ¬ ∀ (cfg : Config) (req : ProofRequest) (now : ℤ),
      (∃ p, verifyProofOffline cfg req now = .ok p ∧ Checked cfg req now p) ∨
        ∃ detail, verifyProofOffline cfg req now = .error (.dpop detail) := by
  have hraised : verifyProofOffline sampleConfig sampleRequest 0 = .error .raised := by rfl
  refine ⟨hraised, fun h => ?_⟩
  rcases h sampleConfig sampleRequest 0 with ⟨p, hp, -⟩ | ⟨detail, hdetail⟩
  · exact absurd (hp.symm.trans hraised) (by simp)
  · exact absurd (hdetail.symm.trans hraised) (by simp)

end Hyproxy.ProofErrors

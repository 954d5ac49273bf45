import Hyproxy.AuditedRequests

/-!
When the audit trail aborts a request that is valid. Codes are issued only together with an entry
that has their scope, so that no code has a scope that an entry cannot have; what fails is the
request for a code with such a scope.
-/
namespace Hyproxy.AuditAborts

open Attempts (Meets settle)
open AuditDetails
open AuditedRequests

inductive Request
  | authorize (q : Query) (cookie : Option Text)
  | token (form : TokenForm)
  deriving Repr, DecidableEq

def respond (cfg : Config) (env : Env) : Request → Txn Response
  | .authorize q cookie => authorize cfg env q cookie
  | .token form => tokenEndpoint cfg env form

/-- What the rest of the server does: codes are only deleted, with their user or session, while
all else may change. -/
structure Change where
  db : Db
  kept : AuthCode → Bool

inductive Event
  | request (env : Env) (r : Request)
  | other (change : Change)

def step (cfg : Config) (db : Db) : Event → Db
  | .request env r => settle (respond cfg env r) db
  | .other change => { change.db with codes := db.codes.filter change.kept }

def initial : Db := ⟨[], [], [], [], [], [], []⟩

def run (cfg : Config) (events : List Event) : Db := events.foldl (step cfg) initial

/-- A failure of a service that the request meets. -/
def Fails (env : Env) (f : Failure) : Prop := ∃ s, f = .service s ∧ env.fails s = true

/-- The request is answered, unless a service fails. -/
def Answered (cfg : Config) (env : Env) (db : Db) (r : Request) : Prop :=
  ∀ f, (respond cfg env r).run db = .error f → Fails env f

/-- The session that a cookie stands for, if it is live. -/
def liveCookie (cfg : Config) (env : Env) (db : Db) (cookie : Option Text) :
    Option (ℕ × Session) :=
  (cookieSession cfg db cookie).filter fun entry =>
    (Sessions.verdict cfg.idleTtl cfg.sessionTouchInterval entry.2.toSession env.ip env.now
      false).passes

/-- The request of a browser that is signed in for a code with a scope of more than 256
characters. -/
def Overlong (cfg : Config) (env : Env) (db : Db) : Request → Prop
  | .authorize q cookie => ∃ r, validate db q = .ok r ∧ 256 < r.scope.length ∧
      (liveCookie cfg env db cookie).isSome = true ∧ env.fails .issueCode = false
  | .token _ => False

def ShortCodes (db : Db) : Prop := ∀ row ∈ db.codes, row.scope.length ≤ 256

variable {cfg : Config} {env : Env} {α : Type}

/-- A program that issues no code. -/
def Keeps (env : Env) (m : Txn α) : Prop := Meets ShortCodes m (fun _ => ShortCodes) (Fails env)

theorem keeps_pure (a : α) : Keeps env (pure a : Txn α) := Meets.pure a fun _ h => h

theorem keeps_modify (f : Db → Db) (h : ∀ db, (f db).codes = db.codes) :
    Keeps env (modify f) :=
  Meets.modify f _ fun db hdb row hrow => hdb row (h db ▸ hrow)

theorem keeps_bind {β : Type} (m : Txn α) (f : α → Txn β) (h : Keeps env m)
    (hf : ∀ a, Keeps env (f a)) : Keeps env (m >>= f) :=
  Meets.bind m f _ _ h hf

theorem keeps_get (f : Db → Txn α) (h : ∀ db, ShortCodes db → Keeps env (f db)) :
    Keeps env (get >>= f) :=
  Meets.bind _ _ (fun a db => a = db ∧ ShortCodes db) _ (Meets.get _ fun _ hdb => ⟨rfl, hdb⟩)
    fun db => Meets.assume _ fun _ hdb => Meets.weaken _ (h db (hdb.1 ▸ hdb.2))
      (fun _ hs => hs ▸ hdb.2) fun _ _ hs => hs

theorem keeps_call (s : Service) : Keeps env (call env s) := by
  unfold call
  split_ifs with hfails
  · exact Meets.throw _ ⟨s, rfl, hfails⟩
  · exact keeps_pure ()

theorem keeps_emit (type : EventType) (success : Bool) (user session : Option ℕ)
    (client : Option Text) (detail : Detail) (h : validateDetail detail = .ok ()) :
    Keeps env (emit env type success user session client detail) := by
  unfold emit
  rw [h]
  exact keeps_bind _ _ (keeps_call _) fun _ => keeps_modify _ fun _ => rfl

/-! ### Sessions -/

theorem keeps_revoke (id : ℕ) (x : Session) (reason : String) (h : reason.toList.length ≤ 256) :
    Keeps env (revoke env id x reason) := by
  unfold revoke
  refine Meets.ite _ _ _ (fun _ => keeps_pure ()) fun _ => ?_
  refine keeps_bind _ _ (keeps_modify _ fun _ => rfl) fun _ => keeps_emit _ _ _ _ _ _ ?_
  exact validateDetail_ok _ (by simpa [allowedDetailKeys, Value.short] using h)

theorem verdict_stays (idle touch : ℤ) (x : Accounts.Session) (ip : Text) (now : ℤ) :
    Sessions.verdict idle touch x ip now false ≠ .moved := by
  unfold Sessions.verdict
  split_ifs <;> simp_all

/-- Without the binding to an address no address becomes a detail. -/
theorem checkLiveness_meets (id : ℕ) (x : Session) :
    Meets ShortCodes (checkLiveness cfg env id x false) (fun live db => ShortCodes db ∧
      live = (Sessions.verdict cfg.idleTtl cfg.sessionTouchInterval x.toSession env.ip env.now
        false).passes) (Fails env) := by
  unfold checkLiveness
  cases hverdict : Sessions.verdict cfg.idleTtl cfg.sessionTouchInterval x.toSession env.ip env.now
    false with
  | dead => exact Meets.pure _ fun _ h => ⟨h, rfl⟩
  | idle =>
    exact Meets.bind _ _ _ _ (keeps_revoke id x _ (by decide)) fun _ =>
      Meets.pure _ fun _ h => ⟨h, rfl⟩
  | moved => exact absurd hverdict (verdict_stays _ _ _ _ _)
  | touch =>
    exact Meets.bind _ _ _ _ (keeps_modify _ fun _ => rfl) fun _ => Meets.pure _ fun _ h => ⟨h, rfl⟩
  | live => exact Meets.pure _ fun _ h => ⟨h, rfl⟩

theorem getSession_meets (db : Db) (cookie : Option Text) (h : ShortCodes db) :
    Meets (· = db) (getSessionFromCookie cfg env cookie)
      (fun found db' => ShortCodes db' ∧ found = liveCookie cfg env db cookie) (Fails env) := by
  unfold getSessionFromCookie liveCookie
  refine Meets.bind _ _ (fun a db' => a = db ∧ db' = db) _
    (Meets.get _ fun _ hdb => ⟨hdb, hdb⟩) fun a => Meets.assume _ fun _ hdb => ?_
  rw [hdb.1, hdb.2]
  cases hcookie : cookieSession cfg db cookie with
  | none => exact Meets.pure _ fun _ hs => ⟨hs ▸ h, rfl⟩
  | some entry =>
    refine Meets.bind _ _ _ _ (Meets.weaken _ (checkLiveness_meets entry.1 entry.2)
      (fun _ hs => hs ▸ h) fun _ _ hs => hs) fun live => Meets.pure _ fun db' hlive => ?_
    refine ⟨hlive.1, ?_⟩
    rw [hlive.2, Option.filter_some]

theorem keeps_revokeSession (session : ℕ) (reason : String) (h : reason.toList.length ≤ 256) :
    Keeps env (revokeSession env session reason) := by
  unfold revokeSession
  refine keeps_get _ fun db _ => ?_
  cases db.sessions.lookup session with
  | none => exact keeps_pure _
  | some x => exact keeps_revoke _ _ _ h

theorem keeps_liveSession (session : ℕ) : Keeps env (liveSession cfg env session) := by
  unfold liveSession
  refine keeps_get _ fun db _ => ?_
  cases db.sessions.lookup session with
  | none => exact keeps_pure _
  | some x =>
    exact keeps_bind _ _ (Meets.weaken _ (checkLiveness_meets session x) (fun _ h => h)
      fun _ _ h => h.1) fun _ => keeps_pure _

theorem keeps_revokeTokens (chosen : RefreshTokens.RefreshToken → Bool) :
    Keeps env (revokeTokens env chosen) :=
  keeps_modify _ fun _ => rfl

/-! ### The token endpoint -/

theorem family_detail (n : ℕ) :
    validateDetail [("family_id", .str (uuidText n))] = .ok () :=
  validateDetail_ok _ (by simp [allowedDetailKeys, Value.short, uuidText_length])

theorem consumeCode_meets (code : Text) :
    Meets ShortCodes (consumeCode cfg env code)
      (fun found db => ShortCodes db ∧ ∀ row ∈ found, row.scope.length ≤ 256) (Fails env) := by
  unfold consumeCode
  refine Meets.bind _ _ (fun a db => a = db ∧ ShortCodes db) _
    (Meets.get _ fun _ hdb => ⟨rfl, hdb⟩) fun db => Meets.assume _ fun _ hdb => ?_
  obtain ⟨rfl, hcodes⟩ := hdb
  split
  · exact Meets.pure _ fun _ hs => ⟨hs ▸ hcodes, by simp⟩
  · rename_i row hfind
    refine Meets.bind _ _ (fun _ => ShortCodes) _ (Meets.modify _ _ fun db' hs row' hrow' => ?_)
      fun _ => Meets.pure _ fun _ hs => ⟨hs, ?_⟩
    · obtain ⟨old, hold, rfl⟩ := List.mem_map.mp hrow'
      have hshort := hcodes old (hs ▸ hold)
      split_ifs
      · exact hshort
      · exact hshort
    · intro row' hrow'
      rw [← Option.mem_some.mp hrow']
      exact hcodes row (List.mem_of_find?_eq_some hfind)

theorem keeps_replayedCode (client : OAuthClient) (code : Text) :
    Keeps env (replayedCode cfg env client code) := by
  unfold replayedCode
  refine keeps_get _ fun db _ => ?_
  split
  · exact keeps_pure _
  · refine keeps_get _ fun db' _ => ?_
    have hend : ∀ user session : Option ℕ, Keeps env (do
        emit env .oidcCodeReplayDetected false user session (some client.clientId) []
        pure invalidGrant) :=
      fun _ _ => keeps_bind _ _ (keeps_emit _ _ _ _ _ _ rfl) fun _ => keeps_pure _
    refine Meets.ite _ _ _ (fun _ => ?_) fun _ => hend _ _
    exact keeps_bind _ _ (keeps_revokeTokens _) fun _ =>
      keeps_bind _ _ (keeps_revokeSession _ _ (by decide)) fun _ => hend _ _

theorem keeps_activeUser (x : Session) (f : Accounts.User → Txn Response)
    (h : ∀ user, Keeps env (f user)) : Keeps env (do
      match activeUser (← get) x with
      | none => pure invalidGrant
      | some user => f user) := by
  refine keeps_get _ fun db _ => ?_
  cases activeUser db x with
  | none => exact keeps_pure _
  | some user => exact h user

theorem keeps_authorizationCodeGrant (client : OAuthClient) (jkt : Text) (form : TokenForm) :
    Keeps env (authorizationCodeGrant cfg env client jkt form) := by
  unfold authorizationCodeGrant
  refine Meets.ite _ _ _ (fun _ => keeps_pure _) fun _ => ?_
  refine Meets.bind _ _ _ _ (consumeCode_meets form.code) fun found => ?_
  cases found with
  | none =>
    exact Meets.weaken _ (keeps_replayedCode client form.code) (fun _ h => h.1) fun _ _ h => h
  | some row =>
    refine Meets.assume _ fun db hdb => Meets.weaken (P := ShortCodes) _ ?_
      (fun _ h => h ▸ hdb.1) fun _ _ h => h
    have hshort := hdb.2 row rfl
    refine Meets.ite _ _ _ (fun _ => keeps_pure _) fun _ => ?_
    refine Meets.ite _ _ _ (fun _ => keeps_pure _) fun _ => ?_
    refine Meets.ite _ _ _ (fun _ => keeps_pure _) fun _ => ?_
    refine keeps_bind _ _ (keeps_liveSession row.session) fun live => ?_
    cases live with
    | none => exact keeps_pure _
    | some x =>
      refine keeps_activeUser x _ fun user => keeps_bind _ _ (keeps_call _) fun _ => ?_
      refine keeps_bind _ _ (keeps_bind _ _ (keeps_call _) fun _ => keeps_bind _ _
        (keeps_modify _ fun _ => rfl) fun _ => keeps_pure _) fun token => ?_
      refine keeps_bind _ _ (keeps_emit _ _ _ _ _ _ ?_) fun _ => keeps_pure _
      exact validateDetail_ok _ (by simpa [allowedDetailKeys, Value.short] using hshort)

theorem keeps_refreshGrant (client : OAuthClient) (jkt : Text) (form : TokenForm) :
    Keeps env (refreshGrant cfg env client jkt form) := by
  unfold refreshGrant
  refine Meets.ite _ _ _ (fun _ => keeps_pure _) fun _ => keeps_get _ fun db _ => ?_
  split
  · exact keeps_pure _
  rename_i row _
  refine Meets.ite _ _ _ (fun _ => keeps_pure _) fun _ => ?_
  refine Meets.ite _ _ _ (fun _ => ?_) fun _ => ?_
  · exact keeps_bind _ _ (keeps_revokeTokens _) fun _ =>
      keeps_bind _ _ (keeps_revokeSession _ _ (by decide)) fun _ =>
        keeps_bind _ _ (keeps_emit _ _ _ _ _ _ (family_detail _)) fun _ => keeps_pure _
  refine Meets.ite _ _ _ (fun _ => keeps_pure _) fun _ => ?_
  refine Meets.ite _ _ _ (fun _ => keeps_pure _) fun _ => ?_
  refine keeps_bind _ _ (keeps_liveSession row.session) fun live => ?_
  cases live with
  | none => exact keeps_pure _
  | some x =>
    refine keeps_activeUser x _ fun user => keeps_bind _ _ (keeps_bind _ _ (keeps_call _) fun _ =>
      keeps_bind _ _ (keeps_modify _ fun _ => rfl) fun _ => keeps_pure _) fun token => ?_
    exact keeps_bind _ _ (keeps_call _) fun _ =>
      keeps_bind _ _ (keeps_emit _ _ _ _ _ _ (family_detail _)) fun _ => keeps_pure _

theorem keeps_tokenEndpoint (form : TokenForm) : Keeps env (tokenEndpoint cfg env form) := by
  unfold tokenEndpoint
  refine keeps_get _ fun db _ => ?_
  cases db.client form.clientId with
  | none => exact keeps_pure _
  | some client =>
    cases form.jkt with
    | none => exact keeps_pure _
    | some jkt =>
      refine Meets.ite _ _ _ (fun _ => keeps_authorizationCodeGrant client jkt form) fun _ => ?_
      exact Meets.ite _ _ _ (fun _ => keeps_refreshGrant client jkt form) fun _ => keeps_pure _

/-! ### The authorization endpoint -/

theorem issueCode_meets (id : ℕ) (x : Session) (r : OidcRequest)
    (h : r.scope.length ≤ 256 ∨ env.fails .issueCode = true) :
    Meets ShortCodes (issueCode cfg env id x r)
      (fun _ db => ShortCodes db ∧ r.scope.length ≤ 256) (Fails env) := by
  unfold issueCode call
  split_ifs with hfails
  · exact Meets.bind _ _ (fun _ _ => False) _ (Meets.throw _ ⟨_, rfl, hfails⟩) fun _ _ h => h.elim
  · have hshort := h.resolve_right hfails
    refine Meets.bind _ _ _ _ (keeps_pure ()) fun _ => Meets.bind _ _ (fun _ => ShortCodes) _
      (Meets.modify _ _ fun db hdb row hrow => ?_) fun _ => Meets.pure _ fun _ hs => ⟨hs, hshort⟩
    rcases List.mem_append.mp hrow with hrow | hrow
    · exact hdb row hrow
    · rw [List.mem_singleton.mp hrow]
      exact hshort

theorem authorize_meets (db : Db) (q : Query) (cookie : Option Text) (hdb : ShortCodes db)
    (h : ¬ Overlong cfg env db (.authorize q cookie)) :
    Meets (· = db) (authorize cfg env q cookie) (fun _ => ShortCodes) (Fails env) := by
  unfold authorize
  refine Meets.bind _ _ (fun a db' => a = db ∧ db' = db) _
    (Meets.get _ fun _ hs => ⟨hs, hs⟩) fun a => Meets.assume _ fun _ hs => ?_
  rw [hs.1, hs.2]
  cases hvalid : validate db q with
  | error response => exact Meets.pure _ fun _ hs => hs ▸ hdb
  | ok r =>
    refine Meets.bind _ _ _ _ (getSession_meets db cookie hdb) fun found => ?_
    cases found with
    | none =>
      refine Meets.weaken (P := ShortCodes) _ ?_ (fun _ h => h.1) fun _ _ h => h
      exact keeps_bind _ _ (keeps_bind _ _ (keeps_call _) fun _ => keeps_bind _ _
        (keeps_modify _ fun _ => rfl) fun _ => keeps_pure _) fun _ => keeps_pure _
    | some entry =>
      refine Meets.assume _ fun db' hdb' => Meets.weaken (P := ShortCodes) _ ?_
        (fun _ h => h ▸ hdb'.1) fun _ _ h => h
      have hissue : r.scope.length ≤ 256 ∨ env.fails .issueCode = true := by
        by_contra hnot
        rw [not_or, Nat.not_le, Bool.not_eq_true] at hnot
        exact h ⟨r, hvalid, hnot.1, by rw [← hdb'.2]; rfl, hnot.2⟩
      refine Meets.bind _ _ _ _ (issueCode_meets entry.1 entry.2 r hissue) fun code =>
        Meets.assume _ fun db'' hcode => Meets.weaken (P := ShortCodes) _ ?_
          (fun _ h => h ▸ hcode.1) fun _ _ h => h
      refine keeps_bind _ _ (keeps_emit _ _ _ _ _ _ ?_) fun _ => keeps_pure _
      exact validateDetail_ok _ (by simpa [allowedDetailKeys, Value.short] using hcode.2)

theorem getSession_live (db : Db) (cookie : Option Text) (entry : ℕ × Session)
    (h : liveCookie cfg env db cookie = some entry) :
    ∃ db', (getSessionFromCookie cfg env cookie).run db = .ok (some entry, db') := by
  obtain ⟨hcookie, hpasses⟩ := Option.filter_eq_some_iff.mp h
  have hlive : ∃ db', (checkLiveness cfg env entry.1 entry.2 false).run db = .ok (true, db') := by
    unfold checkLiveness
    cases hverdict : Sessions.verdict cfg.idleTtl cfg.sessionTouchInterval entry.2.toSession env.ip
      env.now false with
    | touch => exact ⟨_, rfl⟩
    | live => exact ⟨_, rfl⟩
    | dead | idle | moved =>
      rw [hverdict] at hpasses
      cases hpasses
  obtain ⟨db', hrun⟩ := hlive
  refine ⟨db', ?_⟩
  have hget : (getSessionFromCookie cfg env cookie).run db = (do
      let (live, s) ← (checkLiveness cfg env entry.1 entry.2 false).run db
      .ok (if live then some entry else none, s)) := by
    simp only [getSessionFromCookie, StateT.run_bind, StateT.run_get, pure_bind, hcookie]
    rfl
  rw [hget, hrun]
  rfl

theorem authorize_overlong (db : Db) (q : Query) (cookie : Option Text)
    (h : Overlong cfg env db (.authorize q cookie)) :
    (authorize cfg env q cookie).run db = .error (.detail (.notShort "scope")) := by
  obtain ⟨r, hvalid, hlong, hlive, hissue⟩ := h
  obtain ⟨entry, hentry⟩ := Option.isSome_iff_exists.mp hlive
  obtain ⟨db', hsession⟩ := getSession_live db cookie entry hentry
  have hdetail := validateDetail_long "scope" r.scope (by decide) hlong
  have hcall : call env .issueCode = pure () := if_neg (by simp [hissue])
  simp only [authorize, StateT.run_bind, StateT.run_get, pure_bind, hvalid, hsession, issueCode,
    hcall, emit, hdetail]
  rfl

/-! ### Runs -/

theorem respond_meets (db : Db) (r : Request) (hdb : ShortCodes db)
    (h : ¬ Overlong cfg env db r) :
    Meets (· = db) (respond cfg env r) (fun _ => ShortCodes) (Fails env) := by
  cases r with
  | authorize q cookie => exact authorize_meets db q cookie hdb h
  | token form =>
    exact Meets.weaken _ (keeps_tokenEndpoint form) (fun _ hs => hs ▸ hdb) fun _ _ h => h

theorem respond_overlong (db : Db) (r : Request) (h : Overlong cfg env db r) :
    (respond cfg env r).run db = .error (.detail (.notShort "scope")) := by
  cases r with
  | authorize q cookie => exact authorize_overlong db q cookie h
  | token form => exact h.elim

theorem short_step (cfg : Config) (db : Db) (e : Event) (h : ShortCodes db) :
    ShortCodes (step cfg db e) := by
  cases e with
  | request env r =>
    by_cases hlong : Overlong cfg env db r
    · rw [step, settle, respond_overlong db r hlong]
      exact h
    · exact Meets.settle _ ShortCodes db (respond_meets db r h hlong) rfl h
  | other change => exact fun row hrow => h row (List.mem_filter.mp hrow).1

theorem short_run (cfg : Config) (events : List Event) : ShortCodes (run cfg events) := by
  have hinv : ∀ db, ShortCodes db → ShortCodes (events.foldl (step cfg) db) := by
    induction events with
    | nil => exact fun _ h => h
    | cons e rest ih => exact fun db h => ih _ (short_step cfg db e h)
  exact hinv initial fun row hrow => absurd hrow List.not_mem_nil

/-- In every state that is reached, the only requests that the audit trail aborts are those for a
code with an overlong scope. -/
theorem answered_iff (cfg : Config) (events : List Event) (env : Env) (r : Request) :
    Answered cfg env (run cfg events) r ↔ ¬ Overlong cfg env (run cfg events) r := by
  constructor
  · intro h hlong
    obtain ⟨s, hdetail, -⟩ := h _ (respond_overlong _ r hlong)
    cases hdetail
  · intro hlong f hf
    exact Meets.error _ _ f (respond_meets _ r (short_run cfg events) hlong) rfl hf

def sampleConfig : Config where
  idleTtl := 1800
  sessionTouchInterval := 60
  sha256Hex := id
  sha256B64url := id
  authCodeTtl := 60
  loginFlowTtl := 600
  accessTtl := 300
  uuid text := if text = ['s'] then some 1 else none

def sampleEnv : Env where
  now := 1000
  ip := "10.0.0.7".toList
  fails _ := false
  newFlow := 2
  csrfToken := "csrf".toList
  newCode := "code".toList
  newToken := "refresh".toList
  newId := 3
  newFamily := 4
  accessToken := "access".toList
  idToken := "id".toList

def sampleSession : Session where
  user := 7
  cookieSecretHash := "secret".toList
  sourceIP := "10.0.0.7".toList
  tier := .standard
  amr := []
  lastSeenAt := 990
  absoluteExpiresAt := 9000
  stale := false
  revokedAt := none
  flow := 0
  issuedAt := 900

def sampleDb : Db where
  clients := [⟨"spa".toList, ["https://app.example/cb".toList], ["openid".toList], true⟩]
  users := []
  sessions := [(1, sampleSession)]
  codes := []
  tokens := []
  flows := []
  events := []

/-- The allowed scope, many times over. -/
def sampleQuery (n : ℕ) : Query where
  clientId := some "spa".toList
  redirectUri := some "https://app.example/cb".toList
  state := some "0123456789abcdef".toList
  responseType := some "code".toList
  scope := some (List.replicate n "openid ".toList).flatten
  nonce := some "n".toList
  codeChallengeMethod := some "S256".toList
  codeChallenge := some (List.replicate 43 'a')

set_option maxRecDepth 20000 in
/-- With 37 times the scope that the application may ask for, nothing is answered. -/
theorem long_scope_raises :
    (respond sampleConfig sampleEnv (.authorize (sampleQuery 37) (some "s.secret".toList))).run
        (run sampleConfig [.other ⟨sampleDb, fun _ => true⟩]) =
      .error (.detail (.notShort "scope")) ∧
    ¬ Answered sampleConfig sampleEnv (run sampleConfig [.other ⟨sampleDb, fun _ => true⟩])
      (.authorize (sampleQuery 37) (some "s.secret".toList)) := by
  have hraises : (respond sampleConfig sampleEnv
      (.authorize (sampleQuery 37) (some "s.secret".toList))).run
        (run sampleConfig [.other ⟨sampleDb, fun _ => true⟩]) =
      .error (.detail (.notShort "scope")) := rfl
  refine ⟨hraises, fun h => ?_⟩
  obtain ⟨s, hdetail, -⟩ := h _ hraises
  cases hdetail

end Hyproxy.AuditAborts

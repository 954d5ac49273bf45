import Hyproxy.AuditAborts
import Hyproxy.Runs

/-!
The authorization code flow from its end back to its start. Whoever gets tokens, for a code or for
a refresh token, is the client of one authorization request of a signed-in browser; the code of
that request was redeemed with the verifier of its challenge, and the key that the tokens are
bound to is the one of the proof that came with the code.
-/
namespace Hyproxy.CodeFlow

open Attempts (Meets settle)
open AuditAborts (Request respond liveCookie)
open AuditDetails (Detail EventType validateDetail)
open AuditedRequests
open RefreshTokens (RefreshToken verifyS256)

abbrev Text := List Char

/-! ### Runs -/

/-- What no operation changes of a session. -/
def identity (x : Session) : ℕ × ℤ × ℤ := (x.user, x.issuedAt, x.absoluteExpiresAt)

/-- What the rest of the server does between two requests: it adds, changes and deletes what it
likes, but for the codes and the tokens, which it can only delete or revoke. They go when their
session goes. -/
structure Change where
  db : Db
  keepsCode : AuthCode → Bool
  keepsToken : RefreshToken → Bool
  revokes : RefreshToken → Option ℤ

/-- The sessions after a change; one that was there has the same identity. -/
def Change.sessions (c : Change) (db : Db) : List (ℕ × Session) :=
  c.db.sessions.filter fun entry =>
    (db.sessions.lookup entry.1).all fun x => identity x == identity entry.2

def Change.apply (c : Change) (db : Db) : Db :=
  { c.db with
    sessions := c.sessions db
    codes := db.codes.filter fun row =>
      c.keepsCode row && ((c.sessions db).lookup row.session).isSome
    tokens := (db.tokens.filter fun token =>
      c.keepsToken token && ((c.sessions db).lookup token.session).isSome).map fun token =>
        match c.revokes token with
        | none => token
        | some now => { token with revokedAt := some now } }

inductive Event
  | request (env : Env) (r : Request)
  | other (c : Change)

def step (cfg : Config) (db : Db) : Event → Db
  | .request env r => settle (respond cfg env r) db
  | .other c => c.apply db

def run (cfg : Config) (events : List Event) : Db := events.foldl (step cfg) AuditAborts.initial

/-! ### Requests that belong together -/

/-- The row of the code that answers an authorization request. -/
def codeRow (cfg : Config) (env : Env) (id : ℕ) (x : Session) (r : OidcRequest) : AuthCode :=
  ⟨cfg.sha256Hex env.newCode, r.clientId, x.user, id, r.redirectUri, r.scope, r.nonce,
    r.codeChallenge, x.issuedAt, env.now + cfg.authCodeTtl, none⟩

def unspent (row : AuthCode) : AuthCode := { row with consumedAt := none }

/-- What a refresh token says of those who may use it; its descendants say the same. -/
structure Terms where
  session : ℕ
  clientId : Text
  user : ℕ
  dpopJkt : Text
  scope : Text
  expiresAt : ℤ
  deriving Repr, DecidableEq

def terms (token : RefreshToken) : Terms :=
  ⟨token.session, token.clientId, token.user, token.dpopJkt, token.scope, token.expiresAt⟩

/-- The request is an authorization request of a signed-in browser, and the row is the one of the
code that it is answered with. -/
def Issues (cfg : Config) (env : Env) (db : Db) (r : Request) (row : AuthCode) : Prop :=
  ∃ q cookie req id x, r = .authorize q cookie ∧ validate db q = .ok req ∧
    liveCookie cfg env db cookie = some (id, x) ∧ row = codeRow cfg env id x req

/-- The form is right for the code. -/
structure Redeems (cfg : Config) (env : Env) (form : TokenForm) (row : AuthCode) : Prop where
  grant : form.grantType = "authorization_code".toList
  code : cfg.sha256Hex form.code = row.codeHash
  client : form.clientId = row.clientId
  redirect : form.redirectUri = row.redirectUri
  verifier : verifyS256 cfg.toConfig form.codeVerifier row.codeChallenge = true
  time : env.now < row.expiresAt

/-- The terms are those of the code, of its session and of the key of the proof. -/
structure Bound (form : TokenForm) (row : AuthCode) (t : Terms) : Prop where
  session : t.session = row.session
  client : t.clientId = row.clientId
  user : t.user = row.user
  scope : t.scope = row.scope
  key : form.jkt = some t.dpopJkt

/-- The request redeems a code for tokens on the terms. -/
def Founds (cfg : Config) (env : Env) (db : Db) (r : Request) (t : Terms) : Prop :=
  ∃ form row, r = .token form ∧ row ∈ db.codes ∧ Redeems cfg env form row ∧ Bound form row t

/-- The session of the terms is live, and its user is active. -/
def Live (cfg : Config) (env : Env) (db : Db) (t : Terms) : Prop :=
  ∃ x user, db.sessions.lookup t.session = some x ∧ x.user = t.user ∧
    x.absoluteExpiresAt = t.expiresAt ∧
    (Sessions.verdict cfg.idleTtl cfg.sessionTouchInterval x.toSession env.ip env.now
      false).passes = true ∧
    user ∈ db.users ∧ user.id = t.user ∧ user.status = .active

/-- The form is answered with tokens on the terms: a token of theirs is exchanged, or a code is. -/
structure Serves (cfg : Config) (env : Env) (db : Db) (form : TokenForm) (t : Terms) : Prop where
  client : form.clientId = t.clientId
  key : form.jkt = some t.dpopJkt
  live : Live cfg env db t
  source : (∃ old ∈ db.tokens, terms old = t ∧ env.now < t.expiresAt) ∨
    Founds cfg env db (.token form) t

/-! ### Programs that issue nothing -/

variable {cfg : Config} {env : Env} {α : Type}

/-- What a request has added. -/
structure Adds where
  code : Option AuthCode := none
  terms : Option Terms := none
  deriving Repr, DecidableEq

/-- The state has the same sessions as the first, up to what changes of a session, and but for what
was added no code and no token of other terms. -/
structure Within (first : Db) (added : Adds) (db : Db) : Prop where
  users : db.users = first.users
  sessions : db.sessions.map (fun entry => (entry.1, identity entry.2)) =
    first.sessions.map fun entry => (entry.1, identity entry.2)
  codes : ∀ row ∈ db.codes,
    (∃ old ∈ first.codes, unspent old = unspent row) ∨ added.code = some row
  tokens : ∀ token ∈ db.tokens,
    (∃ old ∈ first.tokens, terms old = terms token) ∨ added.terms = some (terms token)

theorem Within.refl (db : Db) : Within db {} db :=
  ⟨rfl, rfl, fun row h => Or.inl ⟨row, h, rfl⟩, fun token h => Or.inl ⟨token, h, rfl⟩⟩

def Keeps (first : Db) (added : Adds) (m : Txn α) : Prop :=
  Meets (Within first added) m (fun _ => Within first added) fun _ => True

variable {first : Db} {added : Adds}

theorem keeps_pure (a : α) : Keeps first added (pure a : Txn α) := Meets.pure a fun _ h => h

theorem keeps_bind {β : Type} (m : Txn α) (f : α → Txn β) (h : Keeps first added m)
    (hf : ∀ a, Keeps first added (f a)) : Keeps first added (m >>= f) :=
  Meets.bind m f _ _ h hf

theorem keeps_get (f : Db → Txn α) (h : ∀ db, Keeps first added (f db)) :
    Keeps first added (get >>= f) :=
  Meets.bind _ _ (fun _ => Within first added) _ (Meets.get _ fun _ hdb => hdb) h

theorem keeps_call (s : Service) : Keeps first added (call env s) := by
  unfold call
  split_ifs
  · exact Meets.throw _ trivial
  · exact keeps_pure ()

theorem keeps_emit (type : EventType) (success : Bool) (user session : Option ℕ)
    (client : Option Text) (detail : Detail) :
    Keeps first added (emit env type success user session client detail) := by
  unfold emit
  cases validateDetail detail with
  | error e => exact Meets.throw _ trivial
  | ok u =>
    exact keeps_bind _ _ (keeps_call _) fun _ =>
      Meets.modify _ _ fun _ h => ⟨h.users, h.sessions, h.codes, h.tokens⟩

theorem within_setSession (db : Db) (id : ℕ) (f : Session → Session)
    (hf : ∀ x, identity (f x) = identity x) (h : Within first added db) :
    Within first added (db.setSession id f) := by
  refine ⟨h.users, ?_, h.codes, h.tokens⟩
  rw [← h.sessions, Db.setSession, List.map_map]
  refine List.map_congr_left fun entry _ => ?_
  change (entry.1, identity (if entry.1 = id then f entry.2 else entry.2)) = _
  split_ifs
  · rw [hf]
  · rfl

theorem keeps_revoke (id : ℕ) (x : Session) (reason : String) :
    Keeps first added (revoke env id x reason) := by
  unfold revoke
  refine Meets.ite _ _ _ (fun _ => keeps_pure ()) fun _ => ?_
  exact keeps_bind _ _ (Meets.modify _ _ fun db h => within_setSession db id _ (fun _ => rfl) h)
    fun _ => keeps_emit _ _ _ _ _ _

theorem checkLiveness_within (id : ℕ) (x : Session) :
    Meets (Within first added) (checkLiveness cfg env id x false) (fun live db => Within first added db ∧
      live = (Sessions.verdict cfg.idleTtl cfg.sessionTouchInterval x.toSession env.ip env.now
        false).passes) fun _ => True := by
  unfold checkLiveness
  cases hverdict : Sessions.verdict cfg.idleTtl cfg.sessionTouchInterval x.toSession env.ip env.now
    false with
  | dead => exact Meets.pure _ fun _ h => ⟨h, rfl⟩
  | idle =>
    exact Meets.bind _ _ _ _ (keeps_revoke id x _) fun _ => Meets.pure _ fun _ h => ⟨h, rfl⟩
  | moved => exact absurd hverdict (AuditAborts.verdict_stays _ _ _ _ _)
  | touch =>
    exact Meets.bind _ _ (fun _ => Within first added) _
      (Meets.modify _ _ fun db h => within_setSession db id _ (fun _ => rfl) h)
      fun _ => Meets.pure _ fun _ h => ⟨h, rfl⟩
  | live => exact Meets.pure _ fun _ h => ⟨h, rfl⟩

theorem getSession_within (cookie : Option Text) :
    Meets (· = first) (getSessionFromCookie cfg env cookie)
      (fun found db => Within first {} db ∧ found = liveCookie cfg env first cookie)
      fun _ => True := by
  unfold getSessionFromCookie liveCookie
  refine Meets.bind _ _ (fun a db => a = first ∧ db = first) _
    (Meets.get _ fun _ hdb => ⟨hdb, hdb⟩) fun a => Meets.assume _ fun db hdb => ?_
  obtain ⟨rfl, rfl⟩ := hdb
  cases hcookie : cookieSession cfg db cookie with
  | none => exact Meets.pure _ fun _ hs => ⟨hs ▸ Within.refl db, rfl⟩
  | some entry =>
    refine Meets.bind _ _ _ _ (Meets.weaken (P := Within db {}) _
      (checkLiveness_within entry.1 entry.2) (fun _ hs => hs ▸ Within.refl db) fun _ _ hs => hs)
      fun live => Meets.pure _ fun _ hlive => ?_
    refine ⟨hlive.1, ?_⟩
    rw [hlive.2, Option.filter_some]

theorem keeps_revokeSession (session : ℕ) (reason : String) :
    Keeps first added (revokeSession env session reason) := by
  unfold revokeSession
  refine keeps_get _ fun db => ?_
  cases db.sessions.lookup session with
  | none => exact keeps_pure _
  | some x => exact keeps_revoke _ _ _

/-- The session is the one of the first state, and it passes. -/
theorem liveSession_within (db : Db) (session : ℕ) (h : Within first added db) :
    Meets (· = db) (liveSession cfg env session)
      (fun found after => Within first added after ∧ ∀ x ∈ found, db.sessions.lookup session = some x ∧
        (Sessions.verdict cfg.idleTtl cfg.sessionTouchInterval x.toSession env.ip env.now
          false).passes = true) fun _ => True := by
  unfold liveSession
  refine Meets.bind _ _ (fun a after => a = db ∧ after = db) _
    (Meets.get _ fun _ hs => ⟨hs, hs⟩) fun a => Meets.assume _ fun after hafter => ?_
  obtain ⟨rfl, rfl⟩ := hafter
  cases hlookup : after.sessions.lookup session with
  | none => exact Meets.pure _ fun _ hs => ⟨hs ▸ h, by simp⟩
  | some x =>
    refine Meets.bind _ _ _ _ (Meets.weaken _ (checkLiveness_within session x)
      (fun _ hs => hs ▸ h) fun _ _ hs => hs) fun live => Meets.pure _ fun after hlive => ?_
    refine ⟨hlive.1, fun y hy => ?_⟩
    rw [hlive.2] at hy
    split_ifs at hy with hpasses
    · rw [← Option.mem_some.mp hy]
      exact ⟨rfl, hpasses⟩
    · cases hy

theorem keeps_revokeTokens (chosen : RefreshToken → Bool) :
    Keeps first added (revokeTokens env chosen) :=
  Meets.modify _ _ fun db h => ⟨h.users, h.sessions, h.codes, fun token htoken => by
    obtain ⟨old, hold, rfl⟩ := List.mem_map.mp htoken
    split_ifs
    · exact h.tokens old hold
    · exact h.tokens old hold⟩

theorem replayedCode_within (client : OAuthClient) (code : Text) :
    Meets (Within first added) (replayedCode cfg env client code)
      (fun response db => Within first added db ∧ response = invalidGrant) fun _ => True := by
  unfold replayedCode
  have hend (detected : Txn Unit) (h : Keeps first added detected) :
      Meets (Within first added) (do detected; pure invalidGrant)
        (fun response db => Within first added db ∧ response = invalidGrant) fun _ => True :=
    Meets.bind _ _ _ _ h fun _ => Meets.pure _ fun _ h => ⟨h, rfl⟩
  refine Meets.bind _ _ (fun _ => Within first added) _ (Meets.get _ fun _ h => h) fun db => ?_
  split
  · exact Meets.pure _ fun _ h => ⟨h, rfl⟩
  · refine Meets.bind _ _ (fun _ => Within first added) _ (Meets.get _ fun _ h => h) fun db' => ?_
    refine Meets.ite _ _ _ (fun _ => ?_) fun _ => hend _ (keeps_emit _ _ _ _ _ _)
    refine Meets.bind _ _ _ _ (keeps_revokeTokens _) fun _ => ?_
    exact Meets.bind _ _ _ _ (keeps_revokeSession _ _) fun _ => hend _ (keeps_emit _ _ _ _ _ _)

theorem reusedToken_within (client : OAuthClient) (row : RefreshToken) :
    Meets (Within first added) (reusedToken env client row)
      (fun response db => Within first added db ∧ response = invalidGrant) fun _ => True := by
  unfold reusedToken
  refine Meets.bind _ _ _ _ (keeps_revokeTokens _) fun _ => ?_
  refine Meets.bind _ _ _ _ (keeps_revokeSession _ _) fun _ => ?_
  exact Meets.bind _ _ _ _ (keeps_emit _ _ _ _ _ _) fun _ => Meets.pure _ fun _ h => ⟨h, rfl⟩

/-! ### What a request leaves -/

structure Effect (cfg : Config) (env : Env) (first : Db) (r : Request) (response : Response)
    (db : Db) : Prop where
  sessions : db.sessions.map (fun entry => (entry.1, identity entry.2)) =
    first.sessions.map fun entry => (entry.1, identity entry.2)
  codes : ∀ row ∈ db.codes,
    (∃ old ∈ first.codes, unspent old = unspent row) ∨ Issues cfg env first r row
  tokens : ∀ token ∈ db.tokens, (∃ old ∈ first.tokens, terms old = terms token) ∨
    Founds cfg env first r (terms token) ∧ Live cfg env first (terms token)
  answer : ∀ access ttl refresh id scope, response = .tokens access ttl refresh id scope →
    ∃ form t, r = .token form ∧ t.scope = scope ∧ Serves cfg env first form t

def hasTokens : Response → Bool
  | .tokens .. => true
  | _ => false

theorem Within.effect {db : Db} {r : Request} {response : Response} (h : Within first {} db)
    (hnone : hasTokens response = false) : Effect cfg env first r response db := by
  refine ⟨h.sessions, fun row hrow => ?_, fun token htoken => ?_, ?_⟩
  · exact Or.inl ((h.codes row hrow).resolve_right (Option.some_ne_none row).symm)
  · exact Or.inl ((h.tokens token htoken).resolve_right (Option.some_ne_none _).symm)
  · rintro access ttl refresh id scope rfl
    cases hnone

theorem pure_effect (db : Db) (r : Request) (response : Response) (h : Within first {} db)
    (hnone : hasTokens response = false) :
    Meets (· = db) (pure response : Txn Response) (Effect cfg env first r) fun _ => True :=
  Meets.pure _ fun _ hs => hs ▸ h.effect hnone

/-- What was issued for a session is there together with the session, and says its user and its
bounds. -/
structure Backed (db : Db) : Prop where
  codes : ∀ row ∈ db.codes, ∃ x, db.sessions.lookup row.session = some x ∧ x.user = row.user ∧
    x.issuedAt = row.authTime
  tokens : ∀ token ∈ db.tokens, ∃ x, db.sessions.lookup token.session = some x ∧
    x.user = token.user ∧ x.absoluteExpiresAt = token.expiresAt

theorem consumeCode_within (code : Text) :
    Meets (· = first) (consumeCode cfg env code)
      (fun found db => Within first {} db ∧ db.sessions = first.sessions ∧
        ∀ row ∈ found, ∃ old ∈ first.codes, row = { old with consumedAt := some env.now } ∧
          cfg.sha256Hex code = old.codeHash ∧ env.now < old.expiresAt) fun _ => True := by
  unfold consumeCode
  refine Meets.bind _ _ (fun a db => a = first ∧ db = first) _
    (Meets.get _ fun _ hdb => ⟨hdb, hdb⟩) fun a => Meets.assume _ fun db hdb => ?_
  obtain ⟨rfl, rfl⟩ := hdb
  split
  · exact Meets.pure _ fun _ hs => ⟨hs ▸ Within.refl db, hs ▸ rfl, by simp⟩
  · rename_i row hfind
    have hrow := List.mem_of_find?_eq_some hfind
    have hfound := List.find?_some hfind
    rw [Bool.and_eq_true, Bool.and_eq_true, beq_iff_eq, decide_eq_true_eq] at hfound
    refine Meets.bind _ _ (fun _ after => Within db {} after ∧ after.sessions = db.sessions) _
      (Meets.modify _ _ fun after hs => ?_) fun _ => Meets.pure _ fun _ hs => ⟨hs.1, hs.2, ?_⟩
    · subst hs
      refine ⟨⟨rfl, rfl, fun row' hrow' => ?_, (Within.refl after).tokens⟩, rfl⟩
      obtain ⟨old, hold, rfl⟩ := List.mem_map.mp hrow'
      refine Or.inl ⟨old, hold, ?_⟩
      split_ifs <;> rfl
    · intro row' hrow'
      rw [← Option.mem_some.mp hrow']
      exact ⟨row, hrow, rfl, hfound.1.1.symm, hfound.2⟩

theorem activeUser_some (db : Db) (x : Session) (user : Accounts.User)
    (h : activeUser db x = some user) :
    user ∈ db.users ∧ user.id = x.user ∧ user.status = .active := by
  obtain ⟨hfind, hactive⟩ := Option.filter_eq_some_iff.mp h
  exact ⟨List.mem_of_find?_eq_some hfind, by simpa using List.find?_some hfind,
    by simpa using hactive⟩

theorem issueFamily_within (client : OAuthClient) (session : ℕ) (x : Session) (jkt scope : Text) :
    Meets (Within first {}) (issueFamily cfg env client session x jkt scope)
      (fun _ => Within first
        { terms := some ⟨session, client.clientId, x.user, jkt, scope, x.absoluteExpiresAt⟩ })
      fun _ => True := by
  unfold issueFamily
  refine Meets.bind _ _ _ _ (keeps_call _) fun _ => Meets.bind _ _ (fun _ => Within first
    { terms := some ⟨session, client.clientId, x.user, jkt, scope, x.absoluteExpiresAt⟩ }) _
    (Meets.modify _ _ fun db h => ⟨h.users, h.sessions, ?_, fun token htoken => ?_⟩)
    fun _ => Meets.pure _ fun _ h => h
  · exact fun row hrow => Or.inl ((h.codes row hrow).resolve_right (Option.some_ne_none row).symm)
  · rcases List.mem_append.mp htoken with htoken | htoken
    · exact Or.inl ((h.tokens token htoken).resolve_right (Option.some_ne_none _).symm)
    · rw [List.mem_singleton.mp htoken]
      exact Or.inr rfl

theorem rotate_within (row : RefreshToken) (hrow : row ∈ first.tokens) :
    Keeps first {} (rotate cfg env row) := by
  unfold rotate
  refine keeps_bind _ _ (keeps_call _) fun _ => keeps_bind _ _
    (Meets.modify _ _ fun db h => ⟨h.users, h.sessions, h.codes, fun token htoken => ?_⟩)
    fun _ => keeps_pure _
  rcases List.mem_append.mp htoken with htoken | htoken
  · obtain ⟨old, hold, rfl⟩ := List.mem_map.mp htoken
    have hsame : terms (if old.id = row.id then { old with usedAt := some env.now } else old) =
        terms old := by split_ifs <;> rfl
    rw [hsame]
    exact h.tokens old hold
  · rw [List.mem_singleton.mp htoken]
    exact Or.inl ⟨row, hrow, rfl⟩

/-- A code is exchanged. -/
theorem Within.founds {db : Db} {form : TokenForm} {response : Response} {t : Terms}
    (h : Within first { terms := some t } db) (hfounds : Founds cfg env first (.token form) t)
    (hserves : Serves cfg env first form t)
    (hscope : ∀ access ttl refresh id scope, response = .tokens access ttl refresh id scope →
      t.scope = scope) : Effect cfg env first (.token form) response db := by
  refine ⟨h.sessions, fun row hrow => ?_, fun token htoken => ?_, ?_⟩
  · exact Or.inl ((h.codes row hrow).resolve_right (Option.some_ne_none row).symm)
  · refine (h.tokens token htoken).imp_right fun hnew => ?_
    obtain rfl := Option.some.inj hnew
    exact ⟨hfounds, hserves.live⟩
  · exact fun access ttl refresh id scope hresponse =>
      ⟨form, t, rfl, hscope access ttl refresh id scope hresponse, hserves⟩

theorem authorizationCodeGrant_effect (client : OAuthClient) (jkt : Text) (form : TokenForm)
    (hbacked : Backed first) (hclient : client.clientId = form.clientId)
    (hjkt : form.jkt = some jkt) (hgrant : form.grantType = "authorization_code".toList) :
    Meets (· = first) (authorizationCodeGrant cfg env client jkt form)
      (Effect cfg env first (.token form)) fun _ => True := by
  unfold authorizationCodeGrant
  refine Meets.ite _ _ _ (fun _ => pure_effect first _ _ (Within.refl first) rfl) fun _ => ?_
  refine Meets.bind _ _ _ _ (consumeCode_within form.code) fun found => ?_
  cases found with
  | none =>
    exact Meets.weaken (P := Within first {}) _ (replayedCode_within client form.code)
      (fun _ hs => hs.1) fun response db hs => hs.1.effect (by rw [hs.2]; rfl)
  | some row =>
    refine Meets.assume _ fun db hdb => ?_
    obtain ⟨hwithin, hsessions, hrow⟩ := hdb
    obtain ⟨old, hold, rfl, hcode, htime⟩ := hrow row rfl
    refine Meets.ite _ _ _ (fun _ => pure_effect db _ _ hwithin rfl) fun hid => ?_
    refine Meets.ite _ _ _ (fun _ => pure_effect db _ _ hwithin rfl) fun huri => ?_
    refine Meets.ite _ _ _ (fun _ => pure_effect db _ _ hwithin rfl) fun hverifier => ?_
    rw [not_not] at hid huri
    rw [Bool.not_eq_true', Bool.not_eq_false] at hverifier
    refine Meets.bind _ _ _ _ (liveSession_within db old.session hwithin) fun live => ?_
    cases live with
    | none => exact Meets.pure _ fun _ hs => hs.1.effect rfl
    | some x =>
      refine Meets.assume _ fun after hafter => ?_
      obtain ⟨hlookup, hpasses⟩ := hafter.2 x rfl
      rw [hsessions] at hlookup
      obtain ⟨y, hy, huser, -⟩ := hbacked.codes old hold
      obtain rfl := Option.some.inj (hlookup.symm.trans hy)
      refine Meets.bind _ _ (fun a s => a = after ∧ s = after) _
        (Meets.get _ fun _ hs => ⟨hs, hs⟩) fun a => Meets.assume _ fun s hs => ?_
      obtain ⟨rfl, rfl⟩ := hs
      cases hactive : activeUser s x with
      | none => exact Meets.pure _ fun _ hs => hs ▸ hafter.1.effect rfl
      | some user =>
        obtain ⟨hmem, hid', hstatus⟩ := activeUser_some s x user hactive
        rw [hafter.1.users] at hmem
        have hredeems : Redeems cfg env form old :=
          ⟨hgrant, hcode, hclient.symm.trans hid.symm, huri.symm, hverifier, htime⟩
        have hfounds : Founds cfg env first (.token form)
            ⟨old.session, client.clientId, x.user, jkt, old.scope, x.absoluteExpiresAt⟩ :=
          ⟨form, old, rfl, hold, hredeems, rfl, hid.symm, huser, rfl, hjkt⟩
        have hlive : Live cfg env first
            ⟨old.session, client.clientId, x.user, jkt, old.scope, x.absoluteExpiresAt⟩ :=
          ⟨x, user, hlookup, rfl, rfl, hpasses, hmem, hid', hstatus⟩
        refine Meets.bind _ _ (fun _ => Within first {}) _ (Meets.weaken (P := Within first {}) _
          (keeps_call _) (fun _ hs => hs ▸ hafter.1) fun _ _ hs => hs) fun _ => ?_
        refine Meets.bind _ _ _ _ (issueFamily_within client _ x jkt _) fun token => ?_
        refine Meets.bind _ _ _ _ (keeps_emit _ _ _ _ _ _) fun _ => Meets.pure _ fun after' hs =>
          hs.founds hfounds ⟨hclient.symm, hjkt, hlive, Or.inr hfounds⟩ ?_
        rintro access ttl refresh id scope h
        cases h
        rfl

theorem refreshGrant_effect (client : OAuthClient) (jkt : Text) (form : TokenForm)
    (hbacked : Backed first) (hclient : client.clientId = form.clientId)
    (hjkt : form.jkt = some jkt) :
    Meets (· = first) (refreshGrant cfg env client jkt form)
      (Effect cfg env first (.token form)) fun _ => True := by
  have hsame := Within.refl first
  unfold refreshGrant
  refine Meets.ite _ _ _ (fun _ => pure_effect first _ _ hsame rfl) fun _ => ?_
  refine Meets.bind _ _ (fun a db => a = first ∧ db = first) _
    (Meets.get _ fun _ hdb => ⟨hdb, hdb⟩) fun a => Meets.assume _ fun db hdb => ?_
  obtain ⟨rfl, rfl⟩ := hdb
  split
  · exact pure_effect db _ _ hsame rfl
  rename_i row hfind
  have hrow := List.mem_of_find?_eq_some hfind
  refine Meets.ite _ _ _ (fun _ => pure_effect db _ _ hsame rfl) fun hid => ?_
  refine Meets.ite _ _ _ (fun _ => ?_) fun _ => ?_
  · exact Meets.weaken (P := Within db {}) _ (reusedToken_within client row)
      (fun _ hs => hs ▸ Within.refl db) fun response after hs => hs.1.effect (by rw [hs.2]; rfl)
  refine Meets.ite _ _ _ (fun _ => pure_effect db _ _ hsame rfl) fun hexpiry => ?_
  refine Meets.ite _ _ _ (fun _ => pure_effect db _ _ hsame rfl) fun hkey => ?_
  rw [not_not] at hid hkey
  rw [not_or, Int.not_le] at hexpiry
  refine Meets.bind _ _ _ _ (liveSession_within db row.session (Within.refl db)) fun live => ?_
  cases live with
  | none => exact Meets.pure _ fun _ hs => hs.1.effect rfl
  | some x =>
    refine Meets.assume _ fun after hafter => ?_
    obtain ⟨hlookup, hpasses⟩ := hafter.2 x rfl
    obtain ⟨y, hy, huser, hbound⟩ := hbacked.tokens row hrow
    obtain rfl := Option.some.inj (hlookup.symm.trans hy)
    refine Meets.bind _ _ (fun a s => a = after ∧ s = after) _
      (Meets.get _ fun _ hs => ⟨hs, hs⟩) fun a => Meets.assume _ fun s hs => ?_
    obtain ⟨rfl, rfl⟩ := hs
    cases hactive : activeUser s x with
    | none => exact Meets.pure _ fun _ hs => hs ▸ hafter.1.effect rfl
    | some user =>
      obtain ⟨hmem, hid', hstatus⟩ := activeUser_some s x user hactive
      rw [hafter.1.users] at hmem
      have hserves : Serves cfg env db form (terms row) :=
        ⟨hclient.symm.trans hid.symm, hjkt.trans (congrArg some hkey.symm),
          ⟨x, user, hlookup, huser, hbound, hpasses, hmem, hid'.trans huser, hstatus⟩,
          Or.inl ⟨row, hrow, rfl, hexpiry.2⟩⟩
      refine Meets.bind _ _ (fun _ => Within db {}) _ (Meets.weaken (P := Within db {}) _
        (rotate_within row hrow) (fun _ hs => hs ▸ hafter.1) fun _ _ hs => hs) fun token => ?_
      refine Meets.bind _ _ _ _ (keeps_call _) fun _ => ?_
      refine Meets.bind _ _ _ _ (keeps_emit _ _ _ _ _ _) fun _ => Meets.pure _ fun after' hs => ?_
      refine ⟨hs.sessions, fun row hrow => ?_, fun token htoken => ?_, ?_⟩
      · exact Or.inl ((hs.codes row hrow).resolve_right (Option.some_ne_none row).symm)
      · exact Or.inl ((hs.tokens token htoken).resolve_right (Option.some_ne_none _).symm)
      · rintro access ttl refresh id scope h
        cases h
        exact ⟨form, terms row, rfl, rfl, hserves⟩

theorem client_some (db : Db) (id : Text) (client : OAuthClient) (h : db.client id = some client) :
    client.clientId = id := by
  have hfound := List.find?_some h
  rw [Bool.and_eq_true, beq_iff_eq] at hfound
  exact hfound.1

theorem tokenEndpoint_effect (form : TokenForm) (hbacked : Backed first) :
    Meets (· = first) (tokenEndpoint cfg env form) (Effect cfg env first (.token form))
      fun _ => True := by
  unfold tokenEndpoint
  refine Meets.bind _ _ (fun a db => a = first ∧ db = first) _
    (Meets.get _ fun _ hdb => ⟨hdb, hdb⟩) fun a => Meets.assume _ fun db hdb => ?_
  obtain ⟨rfl, rfl⟩ := hdb
  have hsame := Within.refl db
  cases hclient : db.client form.clientId with
  | none => exact pure_effect db _ _ hsame rfl
  | some client =>
    have hid := client_some db _ client hclient
    cases hjkt : form.jkt with
    | none => exact pure_effect db _ _ hsame rfl
    | some jkt =>
      refine Meets.ite _ _ _ (fun hgrant =>
        authorizationCodeGrant_effect client jkt form hbacked hid hjkt hgrant) fun _ => ?_
      exact Meets.ite _ _ _ (fun _ => refreshGrant_effect client jkt form hbacked hid hjkt)
        fun _ => pure_effect db _ _ hsame rfl

theorem validate_error (db : Db) (q : Query) (response : Response)
    (h : validate db q = .error response) : hasTokens response = false := by
  simp only [validate] at h
  repeat' first | split_ifs at h | split at h
  all_goals cases h
  all_goals rfl

theorem issueCode_within (id : ℕ) (x : Session) (r : OidcRequest) :
    Meets (Within first {}) (issueCode cfg env id x r)
      (fun _ => Within first { code := some (codeRow cfg env id x r) }) fun _ => True := by
  unfold issueCode
  refine Meets.bind _ _ _ _ (keeps_call _) fun _ => Meets.bind _ _
    (fun _ => Within first { code := some (codeRow cfg env id x r) }) _
    (Meets.modify _ _ fun db h => ⟨h.users, h.sessions, fun row hrow => ?_, fun token htoken => ?_⟩)
    fun _ => Meets.pure _ fun _ h => h
  · rcases List.mem_append.mp hrow with hrow | hrow
    · exact Or.inl ((h.codes row hrow).resolve_right (Option.some_ne_none row).symm)
    · rw [List.mem_singleton.mp hrow]
      exact Or.inr rfl
  · exact Or.inl ((h.tokens token htoken).resolve_right (Option.some_ne_none _).symm)

theorem authorize_effect (q : Query) (cookie : Option Text) :
    Meets (· = first) (authorize cfg env q cookie) (Effect cfg env first (.authorize q cookie))
      fun _ => True := by
  unfold authorize
  refine Meets.bind _ _ (fun a db => a = first ∧ db = first) _
    (Meets.get _ fun _ hdb => ⟨hdb, hdb⟩) fun a => Meets.assume _ fun db hdb => ?_
  obtain ⟨rfl, rfl⟩ := hdb
  cases hvalid : validate db q with
  | error response => exact pure_effect db _ _ (Within.refl db) (validate_error db q _ hvalid)
  | ok r =>
    refine Meets.bind _ _ _ _ (getSession_within cookie) fun found =>
      Meets.assume _ fun after hafter => ?_
    obtain ⟨hwithin, rfl⟩ := hafter
    cases hcookie : liveCookie cfg env db cookie with
    | none =>
      refine Meets.weaken (P := Within db {}) _ ?_ (fun _ hs => hs ▸ hwithin) fun _ _ hs => hs
      refine Meets.bind _ _ (fun _ => Within db {}) _ ?_ fun _ => Meets.pure _ fun _ h => h.effect rfl
      exact keeps_bind _ _ (keeps_call _) fun _ => keeps_bind _ _
        (Meets.modify _ _ fun _ h => ⟨h.users, h.sessions, h.codes, h.tokens⟩) fun _ => keeps_pure _
    | some entry =>
      have hissues : Issues cfg env db (.authorize q cookie) (codeRow cfg env entry.1 entry.2 r) :=
        ⟨q, cookie, r, entry.1, entry.2, rfl, hvalid, hcookie, rfl⟩
      refine Meets.weaken (P := Within db {}) _ ?_ (fun _ hs => hs ▸ hwithin) fun _ _ hs => hs
      refine Meets.bind _ _ _ _ (issueCode_within entry.1 entry.2 r) fun code => ?_
      refine Meets.bind _ _ _ _ (keeps_emit _ _ _ _ _ _) fun _ => Meets.pure _ fun db' h => ?_
      refine ⟨h.sessions, fun row hrow => (h.codes row hrow).imp_right fun hnew => ?_,
        fun token htoken => ?_, ?_⟩
      · rw [← Option.some.inj hnew]
        exact hissues
      · exact Or.inl ((h.tokens token htoken).resolve_right (Option.some_ne_none _).symm)
      · rintro access ttl refresh id scope hresponse
        cases hresponse

variable (cfg env) in
theorem respond_effect (r : Request) (hbacked : Backed first) :
    Meets (· = first) (respond cfg env r) (Effect cfg env first r) fun _ => True := by
  cases r with
  | authorize q cookie => exact authorize_effect q cookie
  | token form => exact tokenEndpoint_effect form hbacked

/-! ### Steps -/

theorem lookup_identity (sessions : List (ℕ × Session)) (id : ℕ) :
    (sessions.map fun entry => (entry.1, identity entry.2)).lookup id =
      (sessions.lookup id).map identity := by
  induction sessions with
  | nil => rfl
  | cons entry rest ih =>
    rw [List.map_cons, List.lookup_cons, List.lookup_cons, ih]
    split
    · rfl
    · rfl

theorem identity_ext (x y : Session) (h : identity x = identity y) :
    x.user = y.user ∧ x.issuedAt = y.issuedAt ∧ x.absoluteExpiresAt = y.absoluteExpiresAt := by
  simpa only [identity, Prod.mk.injEq] using h

/-- The row of a code in another state, where its session has kept its identity. -/
theorem Backed.code {db : Db} (h : Backed first) (old row : AuthCode) (hold : old ∈ first.codes)
    (heq : unspent old = unspent row)
    (hkept : ∀ x, first.sessions.lookup row.session = some x →
      ∃ y, db.sessions.lookup row.session = some y ∧ identity y = identity x) :
    ∃ y, db.sessions.lookup row.session = some y ∧ y.user = row.user ∧
      y.issuedAt = row.authTime := by
  obtain ⟨x, hx, huser, hauth⟩ := h.codes old hold
  have hsession : old.session = row.session := (congrArg AuthCode.session heq :)
  have huser' : old.user = row.user := (congrArg AuthCode.user heq :)
  have hauth' : old.authTime = row.authTime := (congrArg AuthCode.authTime heq :)
  obtain ⟨y, hy, hid⟩ := hkept x (hsession ▸ hx)
  obtain ⟨hyuser, hyissued, -⟩ := identity_ext y x hid
  exact ⟨y, hy, hyuser.trans (huser.trans huser'), hyissued.trans (hauth.trans hauth')⟩

theorem Backed.token {db : Db} (h : Backed first) (old token : RefreshToken)
    (hold : old ∈ first.tokens) (heq : terms old = terms token)
    (hkept : ∀ x, first.sessions.lookup token.session = some x →
      ∃ y, db.sessions.lookup token.session = some y ∧ identity y = identity x) :
    ∃ y, db.sessions.lookup token.session = some y ∧ y.user = token.user ∧
      y.absoluteExpiresAt = token.expiresAt := by
  obtain ⟨x, hx, huser, hbound⟩ := h.tokens old hold
  have hsession : old.session = token.session := congrArg Terms.session heq
  obtain ⟨y, hy, hid⟩ := hkept x (hsession ▸ hx)
  obtain ⟨hyuser, -, hybound⟩ := identity_ext y x hid
  exact ⟨y, hy, hyuser.trans (huser.trans (congrArg Terms.user heq)),
    hybound.trans (hbound.trans (congrArg Terms.expiresAt heq))⟩

theorem mem_of_lookup (sessions : List (ℕ × Session)) (id : ℕ) (x : Session)
    (h : sessions.lookup id = some x) : (id, x) ∈ sessions := by
  obtain ⟨left, right, rfl, -⟩ := List.lookup_eq_some_iff.mp h
  exact List.mem_append_right _ (List.mem_cons_self ..)

theorem Change.backed (c : Change) (db : Db) (h : Backed db) : Backed (c.apply db) := by
  have hkept : ∀ id, ((c.sessions db).lookup id).isSome = true → ∀ x, db.sessions.lookup id = some x →
      ∃ y, (c.apply db).sessions.lookup id = some y ∧ identity y = identity x := by
    intro id hthere x hx
    obtain ⟨y, hy⟩ := Option.isSome_iff_exists.mp hthere
    have hkept := (List.mem_filter.mp (mem_of_lookup _ id y hy)).2
    rw [hx, Option.all_some, beq_iff_eq] at hkept
    exact ⟨y, hy, hkept.symm⟩
  refine ⟨fun row hrow => ?_, fun token htoken => ?_⟩
  · obtain ⟨hold, hthere⟩ := List.mem_filter.mp hrow
    exact h.code row row hold rfl (hkept _ (Bool.and_eq_true_iff.mp hthere).2)
  · obtain ⟨old, hold, heq⟩ := List.mem_map.mp htoken
    obtain ⟨hold, hthere⟩ := List.mem_filter.mp hold
    have hterms : terms old = terms token := by
      rw [← heq]
      split
      · rfl
      · rfl
    have hsession : old.session = token.session := congrArg Terms.session hterms
    exact h.token old token hold hterms (hkept _ (hsession ▸ (Bool.and_eq_true_iff.mp hthere).2))

theorem liveCookie_lookup (db : Db) (cookie : Option Text) (id : ℕ) (x : Session)
    (h : liveCookie cfg env db cookie = some (id, x)) : db.sessions.lookup id = some x := by
  obtain ⟨hcookie, -⟩ := Option.filter_eq_some_iff.mp h
  cases cookie with
  | none => cases hcookie
  | some value =>
    rw [cookieSession] at hcookie
    split_ifs at hcookie
    obtain ⟨id', hid', hcookie⟩ := Option.bind_eq_some_iff.mp hcookie
    obtain ⟨x', hx', hcookie⟩ := Option.bind_eq_some_iff.mp hcookie
    split_ifs at hcookie
    cases hcookie
    exact hx'

theorem lookup_effect {db : Db} {r : Request} {response : Response}
    (h : Effect cfg env first r response db) (id : ℕ) (x : Session)
    (hx : first.sessions.lookup id = some x) :
    ∃ y, db.sessions.lookup id = some y ∧ identity y = identity x := by
  have hlookup := lookup_identity db.sessions id
  rw [h.sessions, lookup_identity, hx] at hlookup
  cases hy : db.sessions.lookup id with
  | none =>
    rw [hy] at hlookup
    cases hlookup
  | some y =>
    rw [hy] at hlookup
    exact ⟨y, rfl, (Option.some.inj hlookup).symm⟩

theorem Effect.backed {db : Db} {r : Request} {response : Response}
    (h : Effect cfg env first r response db) (hbacked : Backed first) : Backed db := by
  refine ⟨fun row hrow => ?_, fun token htoken => ?_⟩
  · rcases h.codes row hrow with ⟨old, hold, heq⟩ | ⟨q, cookie, req, id, x, -, -, hcookie, rfl⟩
    · exact hbacked.code old row hold heq (lookup_effect h _)
    · obtain ⟨y, hy, hid⟩ := lookup_effect h id x (liveCookie_lookup first cookie id x hcookie)
      obtain ⟨hyuser, hyissued, -⟩ := identity_ext y x hid
      exact ⟨y, hy, hyuser, hyissued⟩
  · rcases h.tokens token htoken with ⟨old, hold, heq⟩ | ⟨-, x, user, hx, huser, hbound, -⟩
    · exact hbacked.token old token hold heq (lookup_effect h _)
    · obtain ⟨y, hy, hid⟩ := lookup_effect h _ x hx
      obtain ⟨hyuser, -, hybound⟩ := identity_ext y x hid
      exact ⟨y, hy, hyuser.trans huser, hybound.trans hbound⟩

variable (cfg) in
/-- A request that is answered has an effect, and one that fails has none. -/
theorem settle_respond (env : Env) (db : Db) (r : Request) (hbacked : Backed db) :
    settle (respond cfg env r) db = db ∨
      ∃ response, Effect cfg env db r response (settle (respond cfg env r) db) := by
  have heffect := respond_effect cfg env r hbacked db rfl
  unfold settle
  cases hrun : (respond cfg env r).run db with
  | error e => exact Or.inl rfl
  | ok out =>
    rw [hrun] at heffect
    exact Or.inr ⟨out.1, heffect⟩

theorem backed_step (db : Db) (e : Event) (h : Backed db) : Backed (step cfg db e) := by
  cases e with
  | request env r =>
    rcases settle_respond cfg env db r h with hsame | ⟨response, heffect⟩
    · rw [step, hsame]
      exact h
    · exact heffect.backed h
  | other c => exact c.backed db h

theorem backed_run (cfg : Config) (events : List Event) : Backed (run cfg events) := by
  have hinv : ∀ db, Backed db → Backed (events.foldl (step cfg) db) := by
    induction events with
    | nil => exact fun _ h => h
    | cons e rest ih => exact fun db h => ih _ (backed_step db e h)
  exact hinv _ ⟨fun _ h => absurd h List.not_mem_nil, fun _ h => absurd h List.not_mem_nil⟩

/-! ### Runs -/

/-- The row of a code leads back to the request that it was issued for. -/
theorem code_origin (cfg : Config) (events : List Event) (row : AuthCode)
    (h : row ∈ (run cfg events).codes) :
    ∃ past env r rest, events = past ++ .request env r :: rest ∧
      Issues cfg env (run cfg past) r (unspent row) := by
  have horigin := Runs.origin_or (step cfg) Backed
    (fun db c => ∃ row ∈ db.codes, unspent row = c)
    (fun db e c => ∃ env r, e = .request env r ∧ Issues cfg env db r c) (fun db e => backed_step db e)
    ?_ AuditAborts.initial events (unspent row)
    ⟨fun _ h => absurd h List.not_mem_nil, fun _ h => absurd h List.not_mem_nil⟩ ⟨row, h, rfl⟩
  · rcases horigin with ⟨row, hrow, -⟩ | ⟨past, e, rest, rfl, env, r, rfl, hissues⟩
    · cases hrow
    · exact ⟨past, env, r, rest, rfl, hissues⟩
  · rintro db e c hbacked ⟨row, hrow, rfl⟩
    cases e with
    | request env r =>
      rcases settle_respond cfg env db r hbacked with hsame | ⟨response, heffect⟩
      · exact Or.inl ⟨row, hsame ▸ hrow, rfl⟩
      · rcases heffect.codes row hrow with ⟨old, hold, heq⟩ | hissues
        · exact Or.inl ⟨old, hold, heq⟩
        · obtain ⟨q, cookie, req, id, x, hr, hvalid, hcookie, rfl⟩ := hissues
          exact Or.inr ⟨env, r, rfl, q, cookie, req, id, x, hr, hvalid, hcookie, rfl⟩
    | other c => exact Or.inl ⟨row, (List.mem_filter.mp hrow).1, rfl⟩

/-- The terms of a token lead back to the exchange of a code. -/
theorem token_origin (cfg : Config) (events : List Event) (token : RefreshToken)
    (h : token ∈ (run cfg events).tokens) :
    ∃ past env r rest, events = past ++ .request env r :: rest ∧
      Founds cfg env (run cfg past) r (terms token) := by
  have horigin := Runs.origin_or (step cfg) Backed
    (fun db t => ∃ token ∈ db.tokens, terms token = t)
    (fun db e t => ∃ env r, e = .request env r ∧ Founds cfg env db r t)
    (fun db e => backed_step db e) ?_ AuditAborts.initial events (terms token)
    ⟨fun _ h => absurd h List.not_mem_nil, fun _ h => absurd h List.not_mem_nil⟩ ⟨token, h, rfl⟩
  · rcases horigin with ⟨token, htoken, -⟩ | ⟨past, e, rest, rfl, env, r, rfl, hfounds⟩
    · cases htoken
    · exact ⟨past, env, r, rest, rfl, hfounds⟩
  · rintro db e t hbacked ⟨token, htoken, rfl⟩
    cases e with
    | request env r =>
      rcases settle_respond cfg env db r hbacked with hsame | ⟨response, heffect⟩
      · exact Or.inl ⟨token, hsame ▸ htoken, rfl⟩
      · exact (heffect.tokens token htoken).imp_right fun hnew => ⟨env, r, rfl, hnew.1⟩
    | other c =>
      obtain ⟨old, hold, heq⟩ := List.mem_map.mp htoken
      refine Or.inl ⟨old, (List.mem_filter.mp hold).1, ?_⟩
      rw [← heq]
      split
      · rfl
      · rfl

/-- Among the events there are an authorization request of a signed-in browser and, after it, a
request that redeems its code on the terms. -/
def Redeemed (cfg : Config) (events : List Event) (t : Terms) : Prop :=
  ∃ start env q cookie middle env' form rest req x,
    events = start ++ .request env (.authorize q cookie) :: middle ++
      .request env' (.token form) :: rest ∧
    validate (run cfg start) q = .ok req ∧
    liveCookie cfg env (run cfg start) cookie = some (t.session, x) ∧
    Redeems cfg env' form (codeRow cfg env t.session x req) ∧
    Bound form (codeRow cfg env t.session x req) t

theorem founds_redeemed (cfg : Config) (past : List Event) (env : Env) (r : Request)
    (rest : List Event) (t : Terms) (h : Founds cfg env (run cfg past) r t) :
    Redeemed cfg (past ++ .request env r :: rest) t := by
  obtain ⟨form, row, rfl, hrow, hredeems, hbound⟩ := h
  obtain ⟨start, env₀, r₀, middle, rfl, q, cookie, req, id, x, rfl, hvalid, hcookie, hcode⟩ :=
    code_origin cfg past row hrow
  have hsession : row.session = id := (congrArg AuthCode.session hcode :)
  obtain rfl := hbound.session.trans hsession
  have hredeems' : Redeems cfg env form (unspent row) := ⟨hredeems.grant, hredeems.code,
    hredeems.client, hredeems.redirect, hredeems.verifier, hredeems.time⟩
  have hbound' : Bound form (unspent row) t :=
    ⟨hbound.session, hbound.client, hbound.user, hbound.scope, hbound.key⟩
  exact ⟨start, env₀, q, cookie, middle, env, form, rest, req, x, rfl, hvalid, hcookie,
    hcode ▸ hredeems', hcode ▸ hbound'⟩

/-- Who is answered with tokens is the client of an authorization request of a browser whose
session is still live, and proves the key that the code of that request was redeemed with; the
scope is the one of that request. -/
theorem tokens_redeemed (cfg : Config) (events : List Event) (env : Env) (form : TokenForm)
    (access : Text) (ttl : ℤ) (refresh : Text) (id : Option Text) (scope : Text) (db : Db)
    (h : (respond cfg env (.token form)).run (run cfg events) =
      .ok (.tokens access ttl refresh id scope, db)) :
    ∃ t : Terms, t.scope = scope ∧ form.clientId = t.clientId ∧ form.jkt = some t.dpopJkt ∧
      Live cfg env (run cfg events) t ∧
      Redeemed cfg (events ++ [.request env (.token form)]) t := by
  have heffect := respond_effect cfg env (.token form) (backed_run cfg events)
    (run cfg events) rfl
  rw [h] at heffect
  obtain ⟨form', t, hform, hscope, hserves⟩ := heffect.answer access ttl refresh id scope rfl
  obtain rfl := Request.token.inj hform
  refine ⟨t, hscope, hserves.client, hserves.key, hserves.live, ?_⟩
  rcases hserves.source with ⟨token, htoken, rfl, -⟩ | hfounds
  · obtain ⟨past, env', r, rest, heq, hfounds⟩ := token_origin cfg events token htoken
    rw [heq, List.append_assoc, List.cons_append]
    exact founds_redeemed cfg past env' r _ _ hfounds
  · exact founds_redeemed cfg events env _ [] t hfounds

/-- A browser is signed in and asks for a code. -/
def signedIn : List Event :=
  [.other ⟨{ AuditAborts.sampleDb with
      users := [⟨7, "alice@example.org".toList, .active, .standard, [], false⟩] },
    fun _ => true, fun _ => true, fun _ => none⟩,
  .request AuditAborts.sampleEnv
    (.authorize (AuditAborts.sampleQuery 1) (some "s.secret".toList))]

def codeForm : TokenForm where
  grantType := "authorization_code".toList
  clientId := "spa".toList
  code := "code".toList
  redirectUri := "https://app.example/cb".toList
  codeVerifier := List.replicate 43 'a'
  refreshToken := []
  jkt := some "thumbprint".toList

def refreshForm (token : Text) : TokenForm where
  grantType := "refresh_token".toList
  clientId := "spa".toList
  code := []
  redirectUri := []
  codeVerifier := []
  refreshToken := token
  jkt := some "thumbprint".toList

/-- A later request, with new values for what it issues. -/
def laterEnv (now : ℤ) (token : Text) (id : ℕ) : Env :=
  { AuditAborts.sampleEnv with now := now, newToken := token, newId := id }

/-- The code is redeemed, and the refresh token that it gives is rotated. -/
def rotated : List Event :=
  signedIn ++ [.request AuditAborts.sampleEnv (.token codeForm),
    .request (laterEnv 1010 "second".toList 5) (.token (refreshForm "refresh".toList))]

set_option maxRecDepth 4000 in
/-- The tokens of the second rotation lead back to the code. -/
theorem tokens_redeemed_sample :
    ∃ t : Terms, t.scope = "openid ".toList ∧ (refreshForm "second".toList).clientId = t.clientId ∧
      (refreshForm "second".toList).jkt = some t.dpopJkt ∧
      Live AuditAborts.sampleConfig (laterEnv 1020 "third".toList 6)
        (run AuditAborts.sampleConfig rotated) t ∧
      Redeemed AuditAborts.sampleConfig (rotated ++
        [.request (laterEnv 1020 "third".toList 6) (.token (refreshForm "second".toList))]) t :=
  tokens_redeemed AuditAborts.sampleConfig rotated (laterEnv 1020 "third".toList 6)
    (refreshForm "second".toList) "access".toList 300 "third".toList none "openid ".toList _ rfl

end Hyproxy.CodeFlow

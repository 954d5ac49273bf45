import Hyproxy.HostScope
import Hyproxy.Revocation
import Hyproxy.Runs

/-!
Whose sessions and gateway sessions are. A session is there because a user has signed
in, and a gateway session because the gateway's callback was given an access token of
its session. What was put into the row then stays, whatever is done to it later.
-/
namespace Hyproxy.SignIns

open Accounts (Amr Session User)
open AuthzCheck (GatewaySession parseCookie resolveGatewaySession)
open SessionArtifacts

/-! ### What stays of a row -/

/-- What is put into a session at its start and not changed any more. -/
def birth (x : Session) : Session :=
  { x with cookieSecretHash := [], lastSeenAt := 0, stale := false, revokedAt := none }

def births (sessions : List (ℕ × Session)) : List (ℕ × Session) :=
  sessions.map fun entry => (entry.1, birth entry.2)

/-- A gateway session can only be revoked. -/
def stamp (gw : GatewaySession) : GatewaySession := { gw with revokedAt := none }

theorem birth_touched (x : Session) (now : ℤ) : birth { x with lastSeenAt := now } = birth x := rfl

theorem birth_stale (x : Session) : birth { x with stale := true } = birth x := rfl

theorem birth_revoked (x : Session) (now : ℤ) : birth { x with revokedAt := some now } = birth x :=
  rfl

theorem birth_reissued (x : Session) (hash : List Char) :
    birth { x with cookieSecretHash := hash } = birth x := rfl

theorem births_map (sessions : List (ℕ × Session)) (id : ℕ) (f : Session → Session)
    (hf : ∀ x, birth (f x) = birth x) :
    births (sessions.map fun entry => (entry.1, if entry.1 = id then f entry.2 else entry.2)) =
      births sessions := by
  rw [births, births, List.map_map]
  refine List.map_congr_left fun entry _ => ?_
  simp only [Function.comp_apply]
  split_ifs
  · rw [hf]
  · rfl

theorem mem_births (sessions : List (ℕ × Session)) (id : ℕ) (x : Session)
    (h : (id, x) ∈ sessions) : (id, birth x) ∈ births sessions :=
  List.mem_map.mpr ⟨(id, x), h, rfl⟩

theorem births_append (sessions : List (ℕ × Session)) (last id : ℕ) (x y : Session)
    (h : (id, birth x) ∈ births (sessions ++ [(last, y)])) :
    (id, birth x) ∈ births sessions ∨ (id = last ∧ birth x = birth y) := by
  rw [births, List.map_append] at h
  exact (List.mem_append.mp h).imp_right fun hlast => Prod.mk.inj (List.mem_singleton.mp hlast)

/-! ### Sessions -/

section

variable (cfg : Sessions.Config) (db : Sessions.Db)

theorem births_revoke (id : ℕ) (x : Session) (type : Accounts.AuthEventType) (ip : List Char)
    (now : ℤ) : births (Sessions.revoke db id x type ip now).sessions = births db.sessions := by
  unfold Sessions.revoke
  split_ifs
  · rfl
  · exact births_map db.sessions id _ fun x => birth_revoked x now

theorem births_checkLiveness (id : ℕ) (x : Session) (ip : List Char) (now : ℤ) (enforceIp : Bool) :
    births (Sessions.checkLiveness cfg db id x ip now enforceIp).2.sessions = births db.sessions := by
  unfold Sessions.checkLiveness
  cases Sessions.verdict cfg.idleTtl cfg.sessionTouchInterval x ip now enforceIp with
  | dead => rfl
  | idle => exact births_revoke db id x _ ip now
  | moved => exact births_map db.sessions id _ birth_stale
  | touch => exact births_map db.sessions id _ fun x => birth_touched x now
  | live => rfl

theorem births_checkSession (claims : Sessions.AccessClaims) (ip : List Char) (now : ℤ) :
    births (Sessions.checkSession cfg db claims ip now).2.sessions = births db.sessions := by
  unfold Sessions.checkSession
  cases db.sessions.lookup claims.sid with
  | none => rfl
  | some x =>
    have hchecked := births_checkLiveness cfg db claims.sid x ip now true
    simp only
    rcases hcheck : Sessions.checkLiveness cfg db claims.sid x ip now true with ⟨passed, db'⟩
    rw [hcheck] at hchecked
    cases passed with
    | false => exact hchecked
    | true =>
      simp only
      cases db'.user x.user with
      | none => exact hchecked
      | some u =>
        simp only
        split_ifs <;> exact hchecked

theorem births_checkRequest (r : Sessions.AuthRequest) (now : ℤ) :
    births (Sessions.checkRequest cfg db r now).2.sessions = births db.sessions := by
  unfold Sessions.checkRequest
  cases Sessions.accessClaims cfg r now with
  | error e => rfl
  | ok found =>
    simp only
    rcases Dpop.verifyProof cfg.dpop db.seen (Sessions.proofRequest r found.1 found.2) now
      with ⟨outcome, seen⟩
    cases outcome with
    | ok p => exact births_checkSession cfg { db with seen := seen } found.2 r.sourceIp now
    | error e => cases e <;> rfl

end

theorem births_resolve (cfg : AuthzCheck.Config) (db : AuthzCheck.Db) (cookie : Option (List Char))
    (ip : List Char) (now : ℤ) (enforceIp : Bool) :
    births (resolveGatewaySession cfg db cookie ip now enforceIp).2.idp.sessions =
      births db.idp.sessions := by
  unfold resolveGatewaySession
  cases AuthzCheck.gatewayOf cfg db cookie ip enforceIp with
  | none => rfl
  | some gw =>
    simp only
    cases db.idp.sessions.lookup gw.idpSession with
    | none => rfl
    | some x =>
      have hchecked := births_checkLiveness cfg.idp db.idp gw.idpSession x ip now false
      simp only
      rcases hcheck : Sessions.checkLiveness cfg.idp db.idp gw.idpSession x ip now false
        with ⟨passed, idp⟩
      rw [hcheck] at hchecked
      cases passed <;> exact hchecked

theorem births_writes (writes : List RefreshTokens.Write) (db : RefreshTokens.Db)
    (h : ∀ w ∈ writes, TokenOperations.Plain w) :
    births (writes.foldl RefreshTokens.apply db).sessions = births db.sessions := by
  induction writes generalizing db with
  | nil => rfl
  | cons w writes ih =>
    refine (ih _ fun w' hw' => h w' (List.mem_cons_of_mem _ hw')).trans ?_
    have hplain := h w (List.mem_cons_self ..)
    cases w with
    | other w =>
      cases w with
      | addSession id x => exact hplain.elim
      | touch id now => exact births_map db.sessions id _ fun x => birth_touched x now
      | stale id => exact births_map db.sessions id _ birth_stale
      | revoke id now => exact births_map db.sessions id _ fun x => birth_revoked x now
      | _ => rfl
    | _ => rfl

/-- The token endpoint and its neighbours create no session. -/
theorem births_operate (cfg : RefreshTokens.Config) (serial : ℕ) (db db' : RefreshTokens.Db)
    (request : RefreshTokens.Request) (now : ℤ) (answer : RefreshTokens.Answer)
    (hrequest : TokenOperations.Operation request)
    (h : TokenOperations.operate cfg serial db request now = .commits answer db') :
    births db'.sessions = births db.sessions := by
  obtain ⟨p, ⟨hbirths, -⟩, -⟩ := ReadCommitted.runAlone_invariant (RefreshTokens.program cfg) now
    (fun db' p => births db'.sessions = births db.sessions ∧
      TokenOperations.Stands cfg db (TokenOperations.linkedSession cfg db request) now db' p)
    (fun view serial p writes p' _ hinv hstatement => by
      obtain ⟨hplain, hnext⟩ := TokenOperations.stands_statement cfg db view _ serial now now p p'
        writes hinv.2 hstatement
      exact ⟨(births_writes writes view hplain).trans hinv.1, hnext⟩)
    _ serial db db' _ answer ⟨rfl, TokenOperations.stands_start cfg db request now hrequest⟩ h
  exact hbirths

theorem births_cookie (cfg : Config) (s : State) (cookie : Option (List Char)) (ip : List Char)
    (now : ℕ) : births (getSessionFromCookie cfg s cookie ip now).2.sessions = births s.sessions := by
  unfold getSessionFromCookie
  cases parseCookie cfg.authz cookie with
  | none => rfl
  | some parsed =>
    simp only
    cases s.sessions.lookup parsed.1 with
    | none => rfl
    | some x =>
      have hchecked := births_checkLiveness cfg.authz.idp s.authz.idp parsed.1 x ip now false
      simp only
      split_ifs
      · rfl
      · rcases hcheck : Sessions.checkLiveness cfg.authz.idp s.authz.idp parsed.1 x ip now false
          with ⟨passed, idp⟩
        rw [hcheck] at hchecked
        cases passed <;> exact hchecked

/-! ### The operations -/

section

variable (cfg : Config) (s : State) (now : ℕ)

/-- The operation is the sign-in from which the session comes. -/
def SignsIn (op : Op) (id : ℕ) (x : Session) : Prop :=
  ∃ ip secret u, op = .finalizeLogin x.flow x.user x.amr ip secret ∧
    (perform cfg s op now).1 = .session id ∧ s.authz.idp.user x.user = some u ∧
    u.status = .active ∧ x.tier = u.tier ∧ cfg.authz.inet ip = some x.sourceIP ∧
    x.absoluteExpiresAt = now + cfg.refreshAbsTtl

theorem births_page (cookie : Option (List Char)) (ip : List Char) :
    births (page cfg s cookie ip now).2.sessions = births s.sessions := by
  have hcookie := births_cookie cfg s cookie ip now
  unfold page
  rcases hfound : getSessionFromCookie cfg s cookie ip now with ⟨found, s'⟩
  rw [hfound] at hcookie
  cases found <;> exact hcookie

theorem births_logout (cookie : Option (List Char)) (ip : List Char) :
    births (logout cfg s cookie ip now).2.sessions = births s.sessions := by
  have hcookie := births_cookie cfg s cookie ip now
  unfold logout
  rcases hfound : getSessionFromCookie cfg s cookie ip now with ⟨found, s'⟩
  rw [hfound] at hcookie
  cases found with
  | none => exact hcookie
  | some session => exact (births_revoke s'.authz.idp session.1 session.2 _ ip now).trans hcookie

theorem births_authorize (cookie : Option (List Char)) (ip : List Char) (params : CodeParams)
    (newCode : List Char) :
    births (authorize cfg s cookie ip params newCode now).2.sessions = births s.sessions := by
  have hcookie := births_cookie cfg s cookie ip now
  unfold authorize
  rcases hfound : getSessionFromCookie cfg s cookie ip now with ⟨found, s'⟩
  rw [hfound] at hcookie
  cases found with
  | none => exact hcookie
  | some session =>
    simp only
    split_ifs
    · rfl
    · exact hcookie

theorem births_token (r : Subtype TokenOperations.Operation) :
    births (token cfg s r.1 now).2.sessions = births s.sessions := by
  unfold token
  cases hoperate : TokenOperations.operate cfg.tokens s.next s.tokenDb r.1 now with
  | commits answer db =>
    exact births_operate cfg.tokens s.next s.tokenDb db r.1 now answer r.2 hoperate
  | raises => rfl
  | unfinished => rfl

theorem births_request (r : Sessions.AuthRequest) (rollback : Bool) :
    births (request cfg s r rollback now).2.sessions = births s.sessions := by
  have hchecked := births_checkRequest cfg.authz.idp s.authz.idp r now
  unfold request
  rcases hcheck : Sessions.checkRequest cfg.authz.idp s.authz.idp r now with ⟨outcome, idp⟩
  rw [hcheck] at hchecked
  cases outcome with
  | ok authed => exact hchecked
  | error e =>
    simp only
    split_ifs
    · rfl
    · exact hchecked

theorem births_resumeCompletedLogin (flow : ℕ) (ip secret : List Char) :
    births (resumeCompletedLogin cfg s flow ip secret now).2.sessions = births s.sessions := by
  unfold resumeCompletedLogin
  cases s.flows.lookup flow with
  | none => rfl
  | some id =>
    simp only
    cases s.sessions.lookup id with
    | none => rfl
    | some x =>
      have hchecked := births_checkLiveness cfg.authz.idp s.authz.idp id x ip now true
      simp only
      rcases hcheck : Sessions.checkLiveness cfg.authz.idp s.authz.idp id x ip now true
        with ⟨passed, idp⟩
      rw [hcheck] at hchecked
      cases passed with
      | false => exact hchecked
      | true => exact (births_map idp.sessions id _ fun x => birth_reissued x _).trans hchecked

theorem births_check (body : AuthzCheck.CheckRequest) :
    births (check cfg s body now).2.sessions = births s.sessions := by
  unfold check AuthzCheck.check
  cases cfg.authz.inet body.sourceIp with
  | none => rfl
  | some ip =>
    simp only
    rcases AuthzCheck.decision_idp cfg.authz s.authz body now with hsame | hresolved
    · exact congrArg (fun idp : Sessions.Db => births idp.sessions) hsame
    · exact (congrArg (fun idp : Sessions.Db => births idp.sessions) hresolved).trans
        (births_resolve cfg.authz s.authz body.gatewayCookie body.sourceIp now true)

theorem births_gatewayLogout (cookie : Option (List Char)) (ip : List Char) :
    births (gatewayLogout cfg s cookie ip now).2.sessions = births s.sessions := by
  have hresolved := births_resolve cfg.authz s.authz cookie ip now true
  unfold gatewayLogout
  rcases hfound : resolveGatewaySession cfg.authz s.authz cookie ip now true with ⟨found, authz⟩
  rw [hfound] at hresolved
  cases found <;> exact hresolved

theorem births_issueGrant (broker : Broker) (cookie : Option (List Char)) (ip : List Char)
    (resource : ℕ) (newToken : List Char) :
    births (issueGrant cfg s broker cookie ip resource newToken now).2.sessions =
      births s.sessions := by
  have hresolved := births_resolve cfg.authz s.authz cookie ip now broker.enforcesIp
  unfold issueGrant
  rcases hfound : resolveGatewaySession cfg.authz s.authz cookie ip now broker.enforcesIp
    with ⟨found, authz⟩
  rw [hfound] at hresolved
  cases found with
  | none => exact hresolved
  | some gw =>
    have hissued := (Revocation.issue_sessions cfg { s with authz := authz } broker gw resource ip
      newToken now).1
    simp only
    split
    · rfl
    · exact (congrArg births hissued).trans hresolved

theorem births_consumeGrant (broker : Broker) (cookie : Option (List Char)) (ip tok : List Char) :
    births (consumeGrant cfg s broker cookie ip tok now).2.sessions = births s.sessions := by
  have hresolved := births_resolve cfg.authz s.authz cookie ip now broker.enforcesIp
  unfold consumeGrant
  rcases hfound : resolveGatewaySession cfg.authz s.authz cookie ip now broker.enforcesIp
    with ⟨found, authz⟩
  rw [hfound] at hresolved
  cases found with
  | none => exact hresolved
  | some gw =>
    simp only
    cases cfg.authz.inet ip with
    | none => rfl
    | some address =>
      simp only
      split_ifs <;> exact hresolved

/-- A sign-in is the one operation that adds a session. -/
theorem finalizeLogin_births (flow user : ℕ) (amr : List Amr) (ip secret : List Char) (id : ℕ)
    (x : Session)
    (h : (id, birth x) ∈ births (finalizeLogin cfg s flow user amr ip secret now).2.sessions) :
    (id, birth x) ∈ births s.sessions ∨
      SignsIn cfg s now (.finalizeLogin flow user amr ip secret) id x := by
  unfold finalizeLogin at h
  cases huser : s.authz.idp.user user with
  | none => exact Or.inl (by simpa only [huser] using h)
  | some u =>
    cases hflow : s.flows.lookup flow with
    | some done => exact Or.inl (by simpa only [huser, hflow] using h)
    | none =>
      cases hinet : cfg.authz.inet ip with
      | none => exact Or.inl (by simpa only [huser, hflow, hinet] using h)
      | some address =>
        simp only [huser, hflow, hinet] at h
        split_ifs at h with hactive
        · rcases births_append s.sessions s.next id x _ h with hold | ⟨rfl, hbirth⟩
          · exact Or.inl hold
          · have hid : u.id = user := by simpa using List.find?_some huser
            simp only [birth, Session.mk.injEq] at hbirth
            obtain ⟨hu, -, haddress, htier, hamr, -, hbound, -, -, hflow'⟩ := hbirth
            refine Or.inr ⟨ip, secret, u, ?_, ?_, ?_, hactive, htier, ?_, hbound⟩
            · rw [hflow', hu, hid, hamr]
            · simp only [perform, finalizeLogin, huser, hflow, hinet, if_pos hactive]
            · rw [hu, hid, huser]
            · rw [haddress, hinet]
        · exact Or.inl h

theorem births_callback (accessToken ip secret : List Char) :
    births (callback cfg s accessToken ip secret now).2.sessions = births s.sessions := by
  unfold callback
  split
  · split <;> rfl
  · rfl
  · rfl

/-- A session was there before with what stays of it, or the operation has signed it in. -/
theorem perform_births (op : Op) (id : ℕ) (x : Session)
    (h : (id, birth x) ∈ births (perform cfg s op now).2.sessions) :
    (id, birth x) ∈ births s.sessions ∨ SignsIn cfg s now op id x := by
  cases op with
  | finalizeLogin flow user amr ip secret =>
    exact finalizeLogin_births cfg s now flow user amr ip secret id x h
  | page cookie ip => exact Or.inl (births_page cfg s now cookie ip ▸ h)
  | logout cookie ip => exact Or.inl (births_logout cfg s now cookie ip ▸ h)
  | authorize cookie ip params newCode =>
    exact Or.inl (births_authorize cfg s now cookie ip params newCode ▸ h)
  | token r => exact Or.inl (births_token cfg s now r ▸ h)
  | request r rollback => exact Or.inl (births_request cfg s now r rollback ▸ h)
  | resumeCompletedLogin flow ip secret =>
    exact Or.inl (births_resumeCompletedLogin cfg s now flow ip secret ▸ h)
  | callback accessToken ip secret =>
    exact Or.inl (births_callback cfg s now accessToken ip secret ▸ h)
  | check body => exact Or.inl (births_check cfg s now body ▸ h)
  | gatewayLogout cookie ip => exact Or.inl (births_gatewayLogout cfg s now cookie ip ▸ h)
  | issueGrant broker cookie ip resource newToken =>
    exact Or.inl (births_issueGrant cfg s now broker cookie ip resource newToken ▸ h)
  | consumeGrant broker cookie ip tok =>
    exact Or.inl (births_consumeGrant cfg s now broker cookie ip tok ▸ h)
  | setTables t => exact Or.inl h
  | setUser u externalId => exact Or.inl h
  | deleteUser user => exact Or.inl ((List.filter_sublist.map _).subset h)

end

/-! ### Gateway sessions -/

theorem cookie_gateways (cfg : Config) (s : State) (cookie : Option (List Char)) (ip : List Char)
    (now : ℕ) : (getSessionFromCookie cfg s cookie ip now).2.authz.gateways = s.authz.gateways := by
  unfold getSessionFromCookie
  cases parseCookie cfg.authz cookie with
  | none => rfl
  | some parsed =>
    simp only
    cases s.sessions.lookup parsed.1 with
    | none => rfl
    | some x =>
      simp only
      split_ifs
      · rfl
      · rcases Sessions.checkLiveness cfg.authz.idp s.authz.idp parsed.1 x ip now false
          with ⟨passed, idp⟩
        cases passed <;> rfl

theorem resolve_gateways (cfg : Config) (s : State) (cookie : Option (List Char)) (ip : List Char)
    (now : ℕ) (enforceIp : Bool) :
    (resolveGatewaySession cfg.authz s.authz cookie ip now enforceIp).2.gateways =
      s.authz.gateways :=
  (HostScope.resolveGatewaySession_fixed cfg.authz s.authz cookie ip now enforceIp).gateways

theorem decision_gateways (cfg : AuthzCheck.Config) (db : AuthzCheck.Db)
    (body : AuthzCheck.CheckRequest) (now : ℕ) :
    (AuthzCheck.decision cfg db body now).2.gateways = db.gateways := by
  unfold AuthzCheck.decision
  simp only
  cases AuthzCheck.resourceOf cfg db (AuthzCheck.hostOf cfg body.host) with
  | none => rfl
  | some resource =>
    simp only
    split_ifs
    · unfold AuthzCheck.checkPublic
      split_ifs
      · rfl
      · unfold AuthzCheck.resolvePublicSession
        cases AuthzCheck.publicSessionOf cfg db body.publicCookie resource.id body.sourceIp now <;> rfl
    · have hfixed := (HostScope.resolveGatewaySession_fixed cfg db body.gatewayCookie body.sourceIp now
        true).gateways
      rcases hfound : resolveGatewaySession cfg db body.gatewayCookie body.sourceIp now true
        with ⟨gw, db'⟩
      rw [hfound] at hfixed
      cases gw <;> exact hfixed

theorem issue_gateways (cfg : Config) (s : State) (broker : Broker) (gw : GatewaySession)
    (resource : ℕ) (ip newToken : List Char) (now : ℕ) :
    (issue cfg s broker gw resource ip newToken now).2.authz.gateways = s.authz.gateways := by
  unfold issue
  by_cases henabled : (!cfg.enabled broker) = true
  · rw [if_pos henabled]
  · rw [if_neg henabled]
    cases cfg.authz.inet ip with
    | none => rfl
    | some ip =>
      simp only
      cases s.authz.resources.find? fun row => row.id == resource && row.enabled with
      | none => rfl
      | some row =>
        simp only
        cases s.connections.find? fun row => row.resource == resource with
        | none => rfl
        | some connection =>
          simp only
          split_ifs <;> rfl

section

variable (cfg : Config) (s : State) (now : ℕ)

/-- Each of them was there before, but for a revocation. -/
def Kept (s s' : State) : Prop :=
  ∀ gw ∈ s'.authz.gateways, stamp gw ∈ s.authz.gateways.map stamp

theorem kept_same (s s' : State) (h : s'.authz.gateways = s.authz.gateways) : Kept s s' :=
  fun gw hgw => List.mem_map.mpr ⟨gw, h ▸ hgw, rfl⟩

/-- The operation is the callback from which the gateway session comes. -/
def Opens (op : Op) (gw : GatewaySession) : Prop :=
  ∃ accessToken ip secret claims x, op = .callback accessToken ip secret ∧
    Sessions.verifyAccessToken cfg.authz.idp accessToken now = .ok claims ∧
    claims.sid = gw.idpSession ∧ s.sessions.lookup gw.idpSession = some x ∧ gw.user = x.user ∧
    cfg.authz.inet ip = some gw.sourceIp ∧ gw.cookieSecretHash = cfg.authz.sha256Hex secret ∧
    gw.id = s.next

theorem kept_page (cookie : Option (List Char)) (ip : List Char) :
    Kept s (page cfg s cookie ip now).2 := by
  have hgateways := cookie_gateways cfg s cookie ip now
  unfold page
  rcases hfound : getSessionFromCookie cfg s cookie ip now with ⟨found, s'⟩
  rw [hfound] at hgateways
  cases found <;> exact kept_same s s' hgateways

theorem kept_logout (cookie : Option (List Char)) (ip : List Char) :
    Kept s (logout cfg s cookie ip now).2 := by
  have hgateways := cookie_gateways cfg s cookie ip now
  unfold logout
  rcases hfound : getSessionFromCookie cfg s cookie ip now with ⟨found, s'⟩
  rw [hfound] at hgateways
  cases found <;> exact kept_same s _ hgateways

theorem kept_authorize (cookie : Option (List Char)) (ip : List Char) (params : CodeParams)
    (newCode : List Char) : Kept s (authorize cfg s cookie ip params newCode now).2 := by
  have hgateways := cookie_gateways cfg s cookie ip now
  unfold authorize
  rcases hfound : getSessionFromCookie cfg s cookie ip now with ⟨found, s'⟩
  rw [hfound] at hgateways
  cases found with
  | none => exact kept_same s s' hgateways
  | some session =>
    simp only
    split_ifs
    · exact kept_same s s rfl
    · exact kept_same s _ hgateways

theorem kept_token (r : RefreshTokens.Request) : Kept s (token cfg s r now).2 := by
  unfold token
  cases TokenOperations.operate cfg.tokens s.next s.tokenDb r now <;> exact kept_same s _ rfl

theorem kept_request (r : Sessions.AuthRequest) (rollback : Bool) :
    Kept s (request cfg s r rollback now).2 := by
  unfold request
  rcases Sessions.checkRequest cfg.authz.idp s.authz.idp r now with ⟨outcome, idp⟩
  cases outcome with
  | ok authed => exact kept_same s _ rfl
  | error e =>
    simp only
    split_ifs <;> exact kept_same s _ rfl

theorem kept_resumeCompletedLogin (flow : ℕ) (ip secret : List Char) :
    Kept s (resumeCompletedLogin cfg s flow ip secret now).2 := by
  unfold resumeCompletedLogin
  cases s.flows.lookup flow with
  | none => exact kept_same s s rfl
  | some id =>
    simp only
    cases s.sessions.lookup id with
    | none => exact kept_same s s rfl
    | some x =>
      simp only
      rcases Sessions.checkLiveness cfg.authz.idp s.authz.idp id x ip now true with ⟨passed, idp⟩
      cases passed <;> exact kept_same s _ rfl

theorem kept_check (body : AuthzCheck.CheckRequest) :
    Kept s (check cfg s body now).2 := by
  have hgateways := decision_gateways cfg.authz s.authz body now
  unfold check AuthzCheck.check
  cases cfg.authz.inet body.sourceIp with
  | none => exact kept_same s s rfl
  | some ip => exact kept_same s _ hgateways

theorem kept_gatewayLogout (cookie : Option (List Char)) (ip : List Char) :
    Kept s (gatewayLogout cfg s cookie ip now).2 := by
  have hgateways := resolve_gateways cfg s cookie ip now true
  unfold gatewayLogout
  rcases hfound : resolveGatewaySession cfg.authz s.authz cookie ip now true with ⟨found, authz⟩
  rw [hfound] at hgateways
  cases found with
  | none => exact kept_same s _ hgateways
  | some gw =>
    refine fun gw' hgw' => ?_
    obtain ⟨row, hrow, rfl⟩ := List.mem_map.mp hgw'
    refine List.mem_map.mpr ⟨row, hgateways ▸ hrow, ?_⟩
    split_ifs <;> rfl

theorem kept_issueGrant (broker : Broker) (cookie : Option (List Char)) (ip : List Char)
    (resource : ℕ) (newToken : List Char) :
    Kept s (issueGrant cfg s broker cookie ip resource newToken now).2 := by
  have hgateways := resolve_gateways cfg s cookie ip now broker.enforcesIp
  unfold issueGrant
  rcases hfound : resolveGatewaySession cfg.authz s.authz cookie ip now broker.enforcesIp
    with ⟨found, authz⟩
  rw [hfound] at hgateways
  cases found with
  | none => exact kept_same s _ hgateways
  | some gw =>
    have hissued := issue_gateways cfg { s with authz := authz } broker gw resource ip newToken now
    simp only
    split
    · exact kept_same s s rfl
    · exact kept_same s _ (hissued.trans hgateways)

theorem kept_consumeGrant (broker : Broker) (cookie : Option (List Char)) (ip tok : List Char) :
    Kept s (consumeGrant cfg s broker cookie ip tok now).2 := by
  have hgateways := resolve_gateways cfg s cookie ip now broker.enforcesIp
  unfold consumeGrant
  rcases hfound : resolveGatewaySession cfg.authz s.authz cookie ip now broker.enforcesIp
    with ⟨found, authz⟩
  rw [hfound] at hgateways
  cases found with
  | none => exact kept_same s _ hgateways
  | some gw =>
    simp only
    cases cfg.authz.inet ip with
    | none => exact kept_same s s rfl
    | some address =>
      simp only
      split_ifs <;> exact kept_same s _ hgateways

theorem callback_gateways (accessToken ip secret : List Char) (gw : GatewaySession)
    (h : gw ∈ (callback cfg s accessToken ip secret now).2.authz.gateways) :
    stamp gw ∈ s.authz.gateways.map stamp ∨
      (Opens cfg s now (.callback accessToken ip secret) gw ∧
        s.next < (callback cfg s accessToken ip secret now).2.next) := by
  unfold callback at h ⊢
  cases hclaims : Sessions.verifyAccessToken cfg.authz.idp accessToken now with
  | error detail => exact Or.inl (List.mem_map_of_mem (by simpa only [hclaims] using h))
  | ok claims =>
    cases hinet : cfg.authz.inet ip with
    | none => exact Or.inl (List.mem_map_of_mem (by simpa only [hclaims, hinet] using h))
    | some address =>
      cases hx : s.sessions.lookup claims.sid with
      | none => exact Or.inl (List.mem_map_of_mem (by simpa only [hclaims, hinet, hx] using h))
      | some x =>
        simp only [hclaims, hinet, hx] at h ⊢
        rcases List.mem_append.mp h with hold | hnew
        · exact Or.inl (List.mem_map_of_mem hold)
        · obtain rfl := List.mem_singleton.mp hnew
          exact Or.inr ⟨⟨accessToken, ip, secret, claims, x, rfl, hclaims, rfl, hx, rfl, hinet, rfl,
            rfl⟩, Nat.lt_succ_self _⟩

/-- A gateway session was there before, or the operation has opened it. -/
theorem perform_gateways (op : Op) (gw : GatewaySession)
    (h : gw ∈ (perform cfg s op now).2.authz.gateways) :
    stamp gw ∈ s.authz.gateways.map stamp ∨
      (Opens cfg s now op gw ∧ s.next < (perform cfg s op now).2.next) := by
  cases op with
  | finalizeLogin flow user amr ip secret =>
    refine Or.inl (kept_same s _ ?_ gw h)
    simp only [perform, finalizeLogin]
    split
    · split_ifs <;> rfl
    · rfl
  | page cookie ip => exact Or.inl (kept_page cfg s now cookie ip gw h)
  | logout cookie ip => exact Or.inl (kept_logout cfg s now cookie ip gw h)
  | authorize cookie ip params newCode =>
    exact Or.inl (kept_authorize cfg s now cookie ip params newCode gw h)
  | token r => exact Or.inl (kept_token cfg s now r.1 gw h)
  | request r rollback => exact Or.inl (kept_request cfg s now r rollback gw h)
  | resumeCompletedLogin flow ip secret =>
    exact Or.inl (kept_resumeCompletedLogin cfg s now flow ip secret gw h)
  | callback accessToken ip secret => exact callback_gateways cfg s now accessToken ip secret gw h
  | check body => exact Or.inl (kept_check cfg s now body gw h)
  | gatewayLogout cookie ip => exact Or.inl (kept_gatewayLogout cfg s now cookie ip gw h)
  | issueGrant broker cookie ip resource newToken =>
    exact Or.inl (kept_issueGrant cfg s now broker cookie ip resource newToken gw h)
  | consumeGrant broker cookie ip tok =>
    exact Or.inl (kept_consumeGrant cfg s now broker cookie ip tok gw h)
  | setTables t => exact Or.inl (kept_same s _ rfl gw h)
  | setUser u externalId => exact Or.inl (kept_same s _ rfl gw h)
  | deleteUser id => exact Or.inl (List.mem_map_of_mem (List.mem_of_mem_filter h))

end

theorem Opens.session_eq {cfg : Config} {s : State} {now : ℕ} {op : Op} {gw gw' : GatewaySession}
    (h : Opens cfg s now op gw) (h' : Opens cfg s now op gw') : gw.idpSession = gw'.idpSession := by
  obtain ⟨accessToken, ip, secret, claims, x, hop, hclaims, hsid, -⟩ := h
  obtain ⟨accessToken', ip', secret', claims', x', hop', hclaims', hsid', -⟩ := h'
  obtain ⟨rfl, -, -⟩ := Op.callback.inj (hop.symm.trans hop')
  obtain rfl := Except.ok.inj (hclaims.symm.trans hclaims')
  exact hsid.symm.trans hsid'

/-! ### Runs -/

section

variable (cfg : Config) (start : ℕ) (events : List Event)

theorem session_origin (id : ℕ) (x : Session)
    (h : (id, birth x) ∈ births (after cfg start events).sessions) :
    ∃ past e rest, events = past ++ e :: rest ∧ SignsIn cfg (after cfg start past)
      ((after cfg start past).clock + e.elapsed) e.op id x := by
  rcases Runs.origin_or (step cfg) (fun _ => True)
    (fun s (a : ℕ × Session) => (a.1, birth a.2) ∈ births s.sessions)
    (fun s e a => SignsIn cfg s (s.clock + e.elapsed) e.op a.1 a.2) (fun _ _ _ => trivial)
    (fun s e a _ => perform_births cfg s (s.clock + e.elapsed) e.op a.1 a.2) (initial start) events
    (id, x) trivial h with hnone | horigin
  · cases hnone
  · exact horigin

theorem step_gateways (s : State) (e : Event) (gw : GatewaySession)
    (h : stamp gw ∈ (step cfg s e).authz.gateways.map stamp) :
    stamp gw ∈ s.authz.gateways.map stamp ∨ Opens cfg s (s.clock + e.elapsed) e.op gw := by
  obtain ⟨gw', hgw', heq⟩ := List.mem_map.mp h
  rcases perform_gateways cfg s (s.clock + e.elapsed) e.op gw' hgw' with hold | ⟨hopens, -⟩
  · exact Or.inl (heq ▸ hold)
  · simp only [stamp, GatewaySession.mk.injEq] at heq
    obtain ⟨hid, huser, hsession, hhash, hip, -⟩ := heq
    obtain ⟨accessToken, ip, secret, claims, x, hop, hclaims, hsid, hx, hof, hinet, hsecret, hnext⟩ :=
      hopens
    exact Or.inr ⟨accessToken, ip, secret, claims, x, hop, hclaims, hsession ▸ hsid, hsession ▸ hx,
      huser ▸ hof, hip ▸ hinet, hhash ▸ hsecret, hid ▸ hnext⟩

theorem gateway_origin (gw : GatewaySession) (h : gw ∈ (after cfg start events).authz.gateways) :
    ∃ past e rest, events = past ++ e :: rest ∧ Opens cfg (after cfg start past)
      ((after cfg start past).clock + e.elapsed) e.op gw := by
  rcases Runs.origin_or (step cfg) (fun _ => True)
    (fun s a => stamp a ∈ s.authz.gateways.map stamp)
    (fun s e a => Opens cfg s (s.clock + e.elapsed) e.op a) (fun _ _ _ => trivial)
    (fun s e a _ => step_gateways cfg s e a) (initial start) events gw trivial
    (List.mem_map_of_mem h) with hnone | horigin
  · cases hnone
  · exact horigin

/-- A sign-in and later a callback have led to the gateway session. -/
def SignedIn (gw : GatewaySession) : Prop :=
  ∃ first e second e' third x, events = first ++ e :: second ++ e' :: third ∧
    SignsIn cfg (after cfg start first) ((after cfg start first).clock + e.elapsed) e.op
      gw.idpSession x ∧
    Opens cfg (after cfg start (first ++ e :: second))
      ((after cfg start (first ++ e :: second)).clock + e'.elapsed) e'.op gw ∧
    gw.user = x.user

theorem gateway_signedIn (gw : GatewaySession)
    (h : gw ∈ (after cfg start events).authz.gateways) : SignedIn cfg start events gw := by
  obtain ⟨past, e', third, rfl, hopens⟩ := gateway_origin cfg start events gw h
  have hopened := hopens
  obtain ⟨accessToken, ip, secret, claims, x, -, -, -, hx, huser, -⟩ := hopens
  obtain ⟨first, e, second, rfl, hsigns⟩ := session_origin cfg start past gw.idpSession x
    (mem_births _ _ _ (Sessions.mem_of_lookup _ _ _ hx))
  exact ⟨first, e, second, e', third, x, rfl, hsigns, hopened, huser⟩

end

end Hyproxy.SignIns

import Hyproxy.SessionArtifacts

/-!
Revocation holds over every run: a session that is over stays over, and no
operation succeeds with an artifact that is linked to it. A grant is linked to
its user only, so one that was minted under a session outlives the session.
-/
namespace Hyproxy.Revocation

open Accounts (Session)
open AuthzCheck (GatewaySession gatewayOf parseCookie resolveGatewaySession)
open SessionArtifacts
open SessionLife

theorem gatewayOf_link (cfg : Config) (s : State) (cookie : Option (List Char)) (ip : List Char)
    (enforceIp : Bool) (gw : GatewaySession)
    (h : gatewayOf cfg.authz s.authz cookie ip enforceIp = some gw) :
    gatewayLink cfg s cookie = some gw.idpSession := by
  unfold gatewayOf at h
  unfold gatewayLink
  cases hcookie : parseCookie cfg.authz cookie with
  | none =>
    rw [hcookie] at h
    cases h
  | some parsed =>
    rw [hcookie] at h
    simp only at h ⊢
    cases hfind : s.authz.gateways.find? fun gw => gw.id == parsed.1 with
    | none =>
      rw [hfind] at h
      cases h
    | some found =>
      rw [hfind] at h
      simp only at h
      split_ifs at h
      rw [Option.some.inj h]
      rfl

/-- A gateway session resolves only while the session behind it is not over. -/
theorem resolve_live (cfg : Config) (s : State) (cookie : Option (List Char)) (ip : List Char)
    (now : ℕ) (enforceIp : Bool) (gw : GatewaySession) (authz : AuthzCheck.Db)
    (h : resolveGatewaySession cfg.authz s.authz cookie ip now enforceIp = (some gw, authz)) :
    gatewayLink cfg s cookie = some gw.idpSession ∧ LiveIn s.sessions gw.idpSession now := by
  unfold resolveGatewaySession at h
  cases hgw : gatewayOf cfg.authz s.authz cookie ip enforceIp with
  | none =>
    rw [hgw] at h
    cases h
  | some found =>
    rw [hgw] at h
    simp only at h
    cases hx : s.authz.idp.sessions.lookup found.idpSession with
    | none =>
      rw [hx] at h
      cases h
    | some x =>
      rw [hx] at h
      simp only at h
      rcases hcheck : Sessions.checkLiveness cfg.authz.idp s.authz.idp found.idpSession x ip now
        false with ⟨passed, idp⟩
      rw [hcheck] at h
      cases passed with
      | false => cases h
      | true =>
        obtain ⟨hfound, -⟩ := Prod.mk.inj h
        obtain rfl := Option.some.inj hfound
        exact ⟨gatewayOf_link cfg s cookie ip enforceIp found hgw, x, Sessions.mem_of_lookup _ _ _ hx,
          not_over_of_passes cfg.authz.idp _ _ x ip now false (by rw [hcheck])⟩

theorem resolve_ages (cfg : AuthzCheck.Config) (db : AuthzCheck.Db) (cookie : Option (List Char))
    (ip : List Char) (now : ℤ) (enforceIp : Bool) :
    Ages db.idp.sessions
      (resolveGatewaySession cfg db cookie ip now enforceIp).2.idp.sessions := by
  unfold resolveGatewaySession
  cases gatewayOf cfg db cookie ip enforceIp with
  | none => exact Ages.refl _
  | some gw =>
    simp only
    cases db.idp.sessions.lookup gw.idpSession with
    | none => exact Ages.refl _
    | some x =>
      have hages := ages_checkLiveness cfg.idp db.idp gw.idpSession x ip now false
      simp only
      rcases hcheck : Sessions.checkLiveness cfg.idp db.idp gw.idpSession x ip now false
        with ⟨passed, idp⟩
      rw [hcheck] at hages
      cases passed with
      | false => exact hages
      | true => exact hages

/-- A session cookie names its session, and is good only while the session is not over. -/
theorem cookie_live (cfg : Config) (s s' : State) (cookie : Option (List Char)) (ip : List Char)
    (now : ℕ) (id : ℕ) (x : Session)
    (h : getSessionFromCookie cfg s cookie ip now = (some (id, x), s')) :
    (parseCookie cfg.authz cookie).map Prod.fst = some id ∧ LiveIn s.sessions id now := by
  unfold getSessionFromCookie at h
  cases hcookie : parseCookie cfg.authz cookie with
  | none =>
    rw [hcookie] at h
    cases h
  | some parsed =>
    rw [hcookie] at h
    simp only at h
    cases hx : s.sessions.lookup parsed.1 with
    | none =>
      rw [hx] at h
      cases h
    | some found =>
      rw [hx] at h
      simp only at h
      split_ifs at h
      · cases h
      · rcases hcheck : Sessions.checkLiveness cfg.authz.idp s.authz.idp parsed.1 found ip now
          false with ⟨passed, idp⟩
        rw [hcheck] at h
        cases passed with
        | false => cases h
        | true =>
          obtain ⟨hfound, -⟩ := Prod.mk.inj h
          obtain ⟨rfl, rfl⟩ := Prod.mk.inj (Option.some.inj hfound)
          exact ⟨rfl, found, Sessions.mem_of_lookup _ _ _ hx,
            not_over_of_passes cfg.authz.idp _ _ found ip now false (by rw [hcheck])⟩

theorem cookie_ages (cfg : Config) (s : State) (cookie : Option (List Char)) (ip : List Char)
    (now : ℕ) :
    Ages s.sessions (getSessionFromCookie cfg s cookie ip now).2.sessions ∧
      (getSessionFromCookie cfg s cookie ip now).2.next = s.next := by
  unfold getSessionFromCookie
  cases parseCookie cfg.authz cookie with
  | none => exact ⟨Ages.refl _, rfl⟩
  | some parsed =>
    simp only
    cases s.sessions.lookup parsed.1 with
    | none => exact ⟨Ages.refl _, rfl⟩
    | some x =>
      have hages := ages_checkLiveness cfg.authz.idp s.authz.idp parsed.1 x ip now false
      simp only
      split_ifs
      · exact ⟨Ages.refl _, rfl⟩
      · rcases hcheck : Sessions.checkLiveness cfg.authz.idp s.authz.idp parsed.1 x ip now false
          with ⟨passed, idp⟩
        rw [hcheck] at hages
        cases passed with
        | false => exact ⟨hages, rfl⟩
        | true => exact ⟨hages, rfl⟩

/-- What an operation does to the sessions: they grow older, or one is added. -/
def Effect (s s' : State) : Prop :=
  (Ages s.sessions s'.sessions ∧ s.next ≤ s'.next) ∨
    ∃ x, s'.sessions = s.sessions ++ [(s.next, x)] ∧ s'.next = s.next + 1

theorem effect_none (s : State) : Effect s s := Or.inl ⟨Ages.refl _, le_refl _⟩

theorem effect_finalizeLogin (cfg : Config) (s : State) (flow user : ℕ) (amr : List Accounts.Amr)
    (ip secret : List Char) (now : ℕ) :
    Effect s (finalizeLogin cfg s flow user amr ip secret now).2 := by
  unfold finalizeLogin
  split
  · split_ifs
    · exact Or.inr ⟨_, rfl, rfl⟩
    · exact effect_none s
  · exact effect_none s

theorem effect_cookie (cfg : Config) (s s' : State) (cookie : Option (List Char)) (ip : List Char)
    (now : ℕ) (found : Option (ℕ × Session))
    (h : getSessionFromCookie cfg s cookie ip now = (found, s')) :
    Ages s.sessions s'.sessions ∧ s.next = s'.next := by
  have hages := cookie_ages cfg s cookie ip now
  rw [h] at hages
  exact ⟨hages.1, hages.2.symm⟩

theorem effect_page (cfg : Config) (s : State) (cookie : Option (List Char)) (ip : List Char)
    (now : ℕ) : Effect s (page cfg s cookie ip now).2 := by
  unfold page
  rcases hcookie : getSessionFromCookie cfg s cookie ip now with ⟨found, s'⟩
  obtain ⟨hages, hnext⟩ := effect_cookie cfg s s' cookie ip now found hcookie
  cases found with
  | none => exact Or.inl ⟨hages, hnext.le⟩
  | some session => exact Or.inl ⟨hages, hnext.le⟩

theorem effect_logout (cfg : Config) (s : State) (cookie : Option (List Char)) (ip : List Char)
    (now : ℕ) : Effect s (logout cfg s cookie ip now).2 := by
  unfold logout
  rcases hcookie : getSessionFromCookie cfg s cookie ip now with ⟨found, s'⟩
  obtain ⟨hages, hnext⟩ := effect_cookie cfg s s' cookie ip now found hcookie
  cases found with
  | none => exact Or.inl ⟨hages, hnext.le⟩
  | some session =>
    exact Or.inl ⟨hages.trans (ages_revoke s'.authz.idp session.1 session.2 _ ip now), hnext.le⟩

theorem effect_authorize (cfg : Config) (s : State) (cookie : Option (List Char)) (ip : List Char)
    (params : CodeParams) (newCode : List Char) (now : ℕ) :
    Effect s (authorize cfg s cookie ip params newCode now).2 := by
  unfold authorize
  rcases hcookie : getSessionFromCookie cfg s cookie ip now with ⟨found, s'⟩
  obtain ⟨hages, hnext⟩ := effect_cookie cfg s s' cookie ip now found hcookie
  cases found with
  | none => exact Or.inl ⟨hages, hnext.le⟩
  | some session =>
    simp only
    split_ifs
    · exact effect_none s
    · exact Or.inl ⟨hages, hnext.le⟩

theorem effect_token (cfg : Config) (s : State) (r : RefreshTokens.Request) (now : ℕ)
    (h : TokenOperations.Operation r) : Effect s (token cfg s r now).2 := by
  unfold token
  cases hoperate : TokenOperations.operate cfg.tokens s.next s.tokenDb r now with
  | commits answer db =>
    have hlive := TokenOperations.operate_live cfg.tokens s.next s.tokenDb db r now answer h hoperate
    exact Or.inl ⟨hlive.1, Nat.le_add_right _ _⟩
  | raises => exact effect_none s
  | unfinished => exact effect_none s

theorem effect_request (cfg : Config) (s : State) (r : Sessions.AuthRequest) (rollback : Bool)
    (now : ℕ) : Effect s (request cfg s r rollback now).2 := by
  have hages := ages_checkRequest cfg.authz.idp s.authz.idp r now
  unfold request
  rcases hcheck : Sessions.checkRequest cfg.authz.idp s.authz.idp r now with ⟨outcome, idp⟩
  rw [hcheck] at hages
  cases outcome with
  | ok authed => exact Or.inl ⟨hages, le_refl _⟩
  | error e =>
    simp only
    split_ifs
    · exact effect_none s
    · exact Or.inl ⟨hages, le_refl _⟩

theorem effect_resumeCompletedLogin (cfg : Config) (s : State) (flow : ℕ) (ip secret : List Char)
    (now : ℕ) : Effect s (resumeCompletedLogin cfg s flow ip secret now).2 := by
  unfold resumeCompletedLogin
  cases s.flows.lookup flow with
  | none => exact effect_none s
  | some id =>
    simp only
    cases s.sessions.lookup id with
    | none => exact effect_none s
    | some x =>
      have hages := ages_checkLiveness cfg.authz.idp s.authz.idp id x ip now true
      simp only
      rcases hcheck : Sessions.checkLiveness cfg.authz.idp s.authz.idp id x ip now true
        with ⟨passed, idp⟩
      rw [hcheck] at hages
      cases passed with
      | false => exact Or.inl ⟨hages, le_refl _⟩
      | true =>
        exact Or.inl ⟨hages.trans (ages_map idp.sessions id _ fun x => older_reissued x _),
          le_refl _⟩

theorem effect_callback (cfg : Config) (s : State) (accessToken ip secret : List Char) (now : ℕ) :
    Effect s (callback cfg s accessToken ip secret now).2 := by
  unfold callback
  split
  · split
    · exact effect_none s
    · exact Or.inl ⟨Ages.refl _, Nat.le_succ _⟩
  · exact effect_none s
  · exact effect_none s

theorem effect_check (cfg : Config) (s : State) (body : AuthzCheck.CheckRequest) (now : ℕ) :
    Effect s (check cfg s body now).2 := by
  unfold check AuthzCheck.check
  cases cfg.authz.inet body.sourceIp with
  | none => exact effect_none s
  | some ip =>
    refine Or.inl ⟨?_, le_refl _⟩
    rcases AuthzCheck.decision_idp cfg.authz s.authz body now with hidp | hidp
    · change Ages s.sessions (AuthzCheck.decision cfg.authz s.authz body now).2.idp.sessions
      rw [hidp]
      exact Ages.refl _
    · change Ages s.sessions (AuthzCheck.decision cfg.authz s.authz body now).2.idp.sessions
      rw [hidp]
      exact resolve_ages cfg.authz s.authz _ _ _ true

theorem effect_resolve (cfg : Config) (s s' : State) (cookie : Option (List Char)) (ip : List Char)
    (now : ℕ) (enforceIp : Bool) (found : Option GatewaySession) (authz : AuthzCheck.Db)
    (h : resolveGatewaySession cfg.authz s.authz cookie ip now enforceIp = (found, authz))
    (hsessions : s'.sessions = authz.idp.sessions) (hnext : s'.next = s.next) : Effect s s' := by
  have hages := resolve_ages cfg.authz s.authz cookie ip now enforceIp
  rw [h] at hages
  refine Or.inl ⟨?_, hnext.ge⟩
  rw [hsessions]
  exact hages

theorem effect_gatewayLogout (cfg : Config) (s : State) (cookie : Option (List Char))
    (ip : List Char) (now : ℕ) : Effect s (gatewayLogout cfg s cookie ip now).2 := by
  unfold gatewayLogout
  rcases hgw : resolveGatewaySession cfg.authz s.authz cookie ip now true with ⟨found, authz⟩
  cases found with
  | none => exact effect_resolve cfg s _ cookie ip now true none authz hgw rfl rfl
  | some gw => exact effect_resolve cfg s _ cookie ip now true (some gw) authz hgw rfl rfl

/-- A broker leaves the sessions alone. -/
theorem issue_sessions (cfg : Config) (s : State) (broker : Broker) (gw : GatewaySession)
    (resource : ℕ) (ip newToken : List Char) (now : ℕ) :
    (issue cfg s broker gw resource ip newToken now).2.sessions = s.sessions ∧
      (issue cfg s broker gw resource ip newToken now).2.next = s.next := by
  unfold issue
  by_cases henabled : (!cfg.enabled broker) = true
  · rw [if_pos henabled]
    exact ⟨rfl, rfl⟩
  · rw [if_neg henabled]
    cases cfg.authz.inet ip with
    | none => exact ⟨rfl, rfl⟩
    | some ip =>
      simp only
      cases s.authz.resources.find? fun row => row.id == resource && row.enabled with
      | none => exact ⟨rfl, rfl⟩
      | some row =>
        simp only
        cases s.connections.find? fun row => row.resource == resource with
        | none => exact ⟨rfl, rfl⟩
        | some connection =>
          simp only
          split_ifs <;> exact ⟨rfl, rfl⟩

theorem effect_issueGrant (cfg : Config) (s : State) (broker : Broker)
    (cookie : Option (List Char)) (ip : List Char) (resource : ℕ) (newToken : List Char)
    (now : ℕ) : Effect s (issueGrant cfg s broker cookie ip resource newToken now).2 := by
  unfold issueGrant
  rcases hgw : resolveGatewaySession cfg.authz s.authz cookie ip now broker.enforcesIp
    with ⟨found, authz⟩
  cases found with
  | none => exact effect_resolve cfg s _ cookie ip now _ none authz hgw rfl rfl
  | some gw =>
    simp only
    obtain ⟨hsessions, hnext⟩ :=
      issue_sessions cfg { s with authz := authz } broker gw resource ip newToken now
    split
    · exact effect_none s
    · exact effect_resolve cfg s _ cookie ip now _ (some gw) authz hgw hsessions hnext

theorem effect_consumeGrant (cfg : Config) (s : State) (broker : Broker)
    (cookie : Option (List Char)) (ip token : List Char) (now : ℕ) :
    Effect s (consumeGrant cfg s broker cookie ip token now).2 := by
  unfold consumeGrant
  rcases hgw : resolveGatewaySession cfg.authz s.authz cookie ip now broker.enforcesIp
    with ⟨found, authz⟩
  cases found with
  | none => exact effect_resolve cfg s _ cookie ip now _ none authz hgw rfl rfl
  | some gw =>
    simp only
    cases cfg.authz.inet ip with
    | none => exact effect_none s
    | some address =>
      simp only
      split_ifs
      · exact effect_resolve cfg s _ cookie ip now _ (some gw) authz hgw rfl rfl
      · exact effect_resolve cfg s _ cookie ip now _ (some gw) authz hgw rfl rfl

theorem perform_effect (cfg : Config) (s : State) (op : Op) (now : ℕ) :
    Effect s (perform cfg s op now).2 := by
  cases op with
  | finalizeLogin flow user amr ip secret => exact effect_finalizeLogin cfg s flow user amr ip _ now
  | page cookie ip => exact effect_page cfg s cookie ip now
  | logout cookie ip => exact effect_logout cfg s cookie ip now
  | authorize cookie ip params newCode => exact effect_authorize cfg s cookie ip params newCode now
  | token r => exact effect_token cfg s r.1 now r.2
  | request r rollback => exact effect_request cfg s r rollback now
  | resumeCompletedLogin flow ip secret =>
    exact effect_resumeCompletedLogin cfg s flow ip secret now
  | callback accessToken ip secret => exact effect_callback cfg s accessToken ip secret now
  | check body => exact effect_check cfg s body now
  | gatewayLogout cookie ip => exact effect_gatewayLogout cfg s cookie ip now
  | issueGrant broker cookie ip resource newToken =>
    exact effect_issueGrant cfg s broker cookie ip resource newToken now
  | consumeGrant broker cookie ip token => exact effect_consumeGrant cfg s broker cookie ip token now
  | setTables t => exact effect_none s
  | setUser u externalId => exact effect_none s
  | deleteUser id => exact Or.inl ⟨ages_filter s.sessions _, le_refl _⟩

section

variable (cfg : Config) (s : State) (now id : ℕ)

theorem cookie_linked (cookie : Option (List Char)) (ip : List Char) (x : ℕ × Session) (s' : State)
    (hfound : getSessionFromCookie cfg s cookie ip now = (some x, s'))
    (hcookie : (parseCookie cfg.authz cookie).map Prod.fst = some id) :
    LiveIn s.sessions id now := by
  obtain ⟨hid, hlive⟩ := cookie_live cfg s s' cookie ip now x.1 x.2 hfound
  rw [hid] at hcookie
  exact Option.some.inj hcookie ▸ hlive

theorem gateway_linked (cookie : Option (List Char)) (ip : List Char) (enforceIp : Bool)
    (gw : GatewaySession) (authz : AuthzCheck.Db)
    (hfound : resolveGatewaySession cfg.authz s.authz cookie ip now enforceIp = (some gw, authz))
    (hgateway : gatewayLink cfg s cookie = some id) : LiveIn s.sessions id now := by
  obtain ⟨hid, hlive⟩ := resolve_live cfg s cookie ip now enforceIp gw authz hfound
  rw [hid] at hgateway
  exact Option.some.inj hgateway ▸ hlive

theorem token_live (r : Subtype TokenOperations.Operation)
    (hlink : link cfg s now (.token r) = some id)
    (h : (perform cfg s (.token r) now).1.succeeds = true) : LiveIn s.sessions id now := by
  simp only [perform, token] at h
  cases hoperate : TokenOperations.operate cfg.tokens s.next s.tokenDb r.1 now with
  | raises =>
    rw [hoperate] at h
    cases h
  | unfinished =>
    rw [hoperate] at h
    cases h
  | commits answer db =>
    rw [hoperate] at h
    obtain ⟨linked, hlinked, hlive⟩ :=
      (TokenOperations.operate_live cfg.tokens s.next s.tokenDb db r.1 now answer r.2 hoperate).2 h
    obtain rfl := Option.some.inj (hlink.symm.trans hlinked)
    exact hlive

theorem request_live (r : Sessions.AuthRequest) (rollback : Bool)
    (hlink : link cfg s now (.request r rollback) = some id)
    (h : (perform cfg s (.request r rollback) now).1.succeeds = true) :
    LiveIn s.sessions id now := by
  simp only [perform, request] at h
  rcases hcheck : Sessions.checkRequest cfg.authz.idp s.authz.idp r now with ⟨outcome, idp⟩
  rw [hcheck] at h
  cases outcome with
  | error e => cases h
  | ok authed =>
    obtain ⟨token, claims, haccess, hlive⟩ :=
      checkRequest_live cfg.authz.idp s.authz.idp r now authed (by rw [hcheck])
    simp only [link, haccess] at hlink
    exact Option.some.inj hlink ▸ hlive

theorem resume_live (flow : ℕ) (ip secret : List Char)
    (hlink : link cfg s now (.resumeCompletedLogin flow ip secret) = some id)
    (h : (perform cfg s (.resumeCompletedLogin flow ip secret) now).1.succeeds = true) :
    LiveIn s.sessions id now := by
  simp only [link] at hlink
  simp only [perform, resumeCompletedLogin, hlink] at h
  cases hx : s.sessions.lookup id with
  | none =>
    rw [hx] at h
    cases h
  | some x =>
    rw [hx] at h
    simp only at h
    rcases hcheck : Sessions.checkLiveness cfg.authz.idp s.authz.idp id x ip now true
      with ⟨passed, idp⟩
    rw [hcheck] at h
    cases passed with
    | false => cases h
    | true =>
      exact ⟨x, Sessions.mem_of_lookup _ _ _ hx,
        not_over_of_passes cfg.authz.idp _ id x ip now true (by rw [hcheck])⟩

theorem check_live (body : AuthzCheck.CheckRequest) (hlink : link cfg s now (.check body) = some id)
    (h : (perform cfg s (.check body) now).1.succeeds = true) : LiveIn s.sessions id now := by
  simp only [perform, check, AuthzCheck.check] at h
  cases hip : cfg.authz.inet body.sourceIp with
  | none =>
    rw [hip] at h
    cases h
  | some ip =>
    rw [hip] at h
    simp only [Reply.succeeds, Bool.and_eq_true, Bool.not_eq_eq_eq_not, Bool.not_true,
      List.isEmpty_eq_false_iff] at h
    obtain ⟨gw, authz, hfound⟩ := AuthzCheck.decision_identified cfg.authz s.authz body now h.2
    exact gateway_linked cfg s now id _ _ _ gw authz hfound hlink

end

/-- An operation that succeeds presents no artifact of a session that is over. -/
theorem perform_live (cfg : Config) (s : State) (op : Op) (now id : ℕ)
    (hlink : link cfg s now op = some id) (h : (perform cfg s op now).1.succeeds = true) :
    LiveIn s.sessions id now := by
  cases op with
  | page cookie ip =>
    simp only [perform, page] at h
    rcases hfound : getSessionFromCookie cfg s cookie ip now with ⟨found, s'⟩
    rw [hfound] at h
    cases found with
    | none => cases h
    | some x => exact cookie_linked cfg s now id cookie ip x s' hfound hlink
  | logout cookie ip =>
    simp only [perform, logout] at h
    rcases hfound : getSessionFromCookie cfg s cookie ip now with ⟨found, s'⟩
    rw [hfound] at h
    cases found with
    | none => cases h
    | some x => exact cookie_linked cfg s now id cookie ip x s' hfound hlink
  | authorize cookie ip params newCode =>
    simp only [perform, authorize] at h
    rcases hfound : getSessionFromCookie cfg s cookie ip now with ⟨found, s'⟩
    rw [hfound] at h
    cases found with
    | none => cases h
    | some x => exact cookie_linked cfg s now id cookie ip x s' hfound hlink
  | token r => exact token_live cfg s now id r hlink h
  | request r rollback => exact request_live cfg s now id r rollback hlink h
  | resumeCompletedLogin flow ip secret => exact resume_live cfg s now id flow ip secret hlink h
  | check body => exact check_live cfg s now id body hlink h
  | gatewayLogout cookie ip =>
    simp only [perform, gatewayLogout] at h
    rcases hfound : resolveGatewaySession cfg.authz s.authz cookie ip now true with ⟨found, authz⟩
    rw [hfound] at h
    cases found with
    | none => cases h
    | some gw => exact gateway_linked cfg s now id cookie ip true gw authz hfound hlink
  | issueGrant broker cookie ip resource newToken =>
    simp only [perform, issueGrant] at h
    rcases hfound : resolveGatewaySession cfg.authz s.authz cookie ip now broker.enforcesIp
      with ⟨found, authz⟩
    rw [hfound] at h
    cases found with
    | none => cases h
    | some gw => exact gateway_linked cfg s now id cookie ip _ gw authz hfound hlink
  | consumeGrant broker cookie ip token =>
    simp only [perform, consumeGrant] at h
    rcases hfound : resolveGatewaySession cfg.authz s.authz cookie ip now broker.enforcesIp
      with ⟨found, authz⟩
    rw [hfound] at h
    cases found with
    | none => cases h
    | some gw => exact gateway_linked cfg s now id cookie ip _ gw authz hfound hlink
  | finalizeLogin flow user amr ip secret => cases hlink
  | callback accessToken ip secret => cases hlink
  | setTables t => cases hlink
  | setUser u externalId => cases hlink
  | deleteUser user => cases hlink

/-- The session has been there, and what is left of it is over. -/
def Ended (s : State) (id : ℕ) : Prop :=
  id < s.next ∧ ∀ x, (id, x) ∈ s.sessions → Over x s.clock

/-- The sessions have different identifiers, and the next is none of them. -/
structure Keyed (s : State) : Prop where
  nodup : (s.sessions.map Prod.fst).Nodup
  below : ∀ id ∈ s.sessions.map Prod.fst, id < s.next

theorem keyed_step (cfg : Config) (s : State) (e : Event) (h : Keyed s) : Keyed (step cfg s e) := by
  rcases perform_effect cfg s e.op (s.clock + e.elapsed) with ⟨hages, hnext⟩ | ⟨x, hsessions, hnext⟩
  · exact ⟨hages.keys.nodup h.nodup, fun id hid => (h.below id (hages.keys.subset hid)).trans_le hnext⟩
  · constructor
    · change ((perform cfg s e.op (s.clock + e.elapsed)).2.sessions.map Prod.fst).Nodup
      rw [hsessions, List.map_append, List.nodup_append]
      refine ⟨h.nodup, List.nodup_singleton _, ?_⟩
      rintro id hid other hother rfl
      obtain rfl := List.mem_singleton.mp hother
      exact absurd (h.below _ hid) (Nat.lt_irrefl _)
    · change ∀ id ∈ (perform cfg s e.op (s.clock + e.elapsed)).2.sessions.map Prod.fst,
        id < (perform cfg s e.op (s.clock + e.elapsed)).2.next
      rw [hsessions, hnext, List.map_append]
      intro id hid
      rcases List.mem_append.mp hid with hid | hid
      · have hbelow := h.below id hid
        omega
      · have heq : id = s.next := List.mem_singleton.mp hid
        omega

theorem ended_step (cfg : Config) (s : State) (e : Event) (id : ℕ) (h : Ended s id) :
    Ended (step cfg s e) id := by
  obtain ⟨hnew, hover⟩ := h
  have hclock : (s.clock : ℤ) ≤ ((s.clock + e.elapsed : ℕ) : ℤ) := by omega
  rcases perform_effect cfg s e.op (s.clock + e.elapsed) with ⟨hages, hnext⟩ | ⟨y, hsessions, hnext⟩
  · refine ⟨hnew.trans_le hnext, fun x' hx' => ?_⟩
    obtain ⟨x, hx, holder⟩ := hages.older id x' hx'
    exact holder.over hclock (hover x hx)
  · refine ⟨hnew.trans_le (hnext ▸ Nat.le_succ _), fun x' hx' => ?_⟩
    have hmem : (id, x') ∈ s.sessions ++ [(s.next, y)] := hsessions ▸ hx'
    rcases List.mem_append.mp hmem with hmem | hmem
    · exact (Older.refl x').over hclock (hover x' hmem)
    · obtain ⟨rfl, -⟩ := Prod.mk.inj (List.mem_singleton.mp hmem)
      exact absurd hnew (Nat.lt_irrefl _)

theorem keyed_after (cfg : Config) (start : ℕ) (events : List Event) :
    Keyed (after cfg start events) := by
  suffices hmore : ∀ s, Keyed s → Keyed (events.foldl (step cfg) s) from
    hmore _ ⟨List.nodup_nil, by simp [initial, State.sessions]⟩
  induction events with
  | nil => exact fun s hs => hs
  | cons e events ih => exact fun s hs => ih _ (keyed_step cfg s e hs)

theorem ended_run (cfg : Config) (s : State) (events : List Event) (id : ℕ) (h : Ended s id) :
    Ended (events.foldl (step cfg) s) id := by
  induction events generalizing s with
  | nil => exact h
  | cons e events ih => exact ih _ (ended_step cfg s e id h)

theorem ended_of_over (s : State) (hkeyed : Keyed s) (id : ℕ) (x : Session)
    (hx : (id, x) ∈ s.sessions) (hover : Over x s.clock) : Ended s id := by
  refine ⟨hkeyed.below id (List.mem_map_of_mem hx), fun y hy => ?_⟩
  have heq : (id, y) = (id, x) := List.inj_on_of_nodup_map hkeyed.nodup hy hx rfl
  obtain ⟨-, rfl⟩ := Prod.mk.inj heq
  exact hover

/-- A session that is over stays over, and no artifact that is linked to it is good for anything
any more. -/
theorem revocation_complete (cfg : Config) (start : ℕ) (past future : List Event) (id : ℕ)
    (x : Session) (hx : (id, x) ∈ (after cfg start past).sessions)
    (hover : Over x (after cfg start past).clock) :
    (∀ y, (id, y) ∈ (after cfg start (past ++ future)).sessions →
        Over y (after cfg start (past ++ future)).clock) ∧
      ∀ e : Event, link cfg (after cfg start (past ++ future))
          ((after cfg start (past ++ future)).clock + e.elapsed) e.op = some id →
        (reply cfg (after cfg start (past ++ future)) e).succeeds = false := by
  have hended := ended_of_over _ (keyed_after cfg start past) id x hx hover
  have hlater : Ended (after cfg start (past ++ future)) id := by
    rw [after, List.foldl_append]
    exact ended_run cfg _ future id hended
  refine ⟨hlater.2, fun e hlink => ?_⟩
  by_contra hsuccess
  obtain ⟨y, hy, hlive⟩ := perform_live cfg _ e.op _ id hlink (by simpa [reply] using hsuccess)
  refine hlive ((Older.refl y).over ?_ (hlater.2 y hy))
  omega

def sampleConfig : Config where
  authz :=
    { idp :=
        { idleTtl := 1800000000
          sessionTouchInterval := 60000000
          issuer := ['i']
          dpop := Dpop.sampleConfig
          decodeJwt := fun token =>
            .ok ⟨['i'], some 10000, token.head?.map fun c => c.toNat - '0'.toNat, some ['k'], []⟩ }
      sha256Hex := id
      uuid := fun text => text.head?.map fun c => c.toNat - '0'.toNat
      inet := some
      lower := id
      citext := id
      externalScheme := "https".toList
      authHost := "auth".toList
      adminConsoleHost := none
      authzCacheTtl := 5
      publicSessionBindIp := true }
  sha256B64url := id
  refreshAbsTtl := 21600000000
  authCodeTtl := 60000000
  enabled := fun _ => true
  grantTtl := fun _ => 60000000

def sampleTables : Tables where
  resources := [⟨3, none, [], true, false, none⟩]
  roles := [⟨5, ['r']⟩]
  userRoles := [(7, 5)]
  policies := [⟨5, 3, .allow, none, none, [], true⟩]
  connections := [⟨3, .other, 22⟩]

/-- A user signs in, has a grant minted with the gateway cookie, and logs out. -/
def loggedOut : List Event :=
  [⟨0, .setUser ⟨7, ['u'], .active, .standard, [], false⟩ ['e']⟩,
    ⟨0, .setTables sampleTables⟩,
    ⟨0, .finalizeLogin 0 7 [.pwd, .otp] ['a'] ['x']⟩,
    ⟨0, .callback ['0'] ['a'] ['x']⟩,
    ⟨0, .issueGrant .guac (some "1.x".toList) ['a'] 3 ['t']⟩,
    ⟨1000000, .logout (some "0.x".toList) ['a']⟩]

/-- The user signs in again. -/
def signedInAgain : List Event :=
  [⟨0, .finalizeLogin 1 7 [.pwd, .otp] ['a'] ['y']⟩, ⟨0, .callback ['2'] ['a'] ['y']⟩]

/-- The session of the first sign-in. -/
def firstSession : Session :=
  ⟨7, ['x'], ['a'], .standard, [.pwd, .otp], 0, 21600000000, false, some 1000000, 0⟩

theorem revocation_complete_sample :
    (reply sampleConfig (after sampleConfig 0 (loggedOut ++ signedInAgain))
      ⟨0, .consumeGrant .guac (some "1.x".toList) ['a'] ['t']⟩).succeeds = false :=
  (revocation_complete sampleConfig 0 loggedOut signedInAgain 0 firstSession (by decide)
    (by decide)).2 _ (by decide)

/-- The grant of the first session is consumed with the gateway cookie of the second. -/
theorem grant_outlives_session :
    ¬∀ (cfg : Config) (start : ℕ) (past future : List Event) (id : ℕ) (x : Session),
      (id, x) ∈ (after cfg start past).sessions → Over x (after cfg start past).clock →
      ∀ e : Event, (link cfg (after cfg start (past ++ future))
            ((after cfg start (past ++ future)).clock + e.elapsed) e.op = some id ∨
          grantLink cfg (after cfg start (past ++ future)) e.op = some id) →
        (reply cfg (after cfg start (past ++ future)) e).succeeds = false := by
  intro h
  have hrefused := h sampleConfig 0 loggedOut signedInAgain 0 firstSession (by decide) (by decide)
    ⟨0, .consumeGrant .guac (some "3.y".toList) ['a'] ['t']⟩ (Or.inr (by decide))
  have hallowed : (reply sampleConfig (after sampleConfig 0 (loggedOut ++ signedInAgain))
      ⟨0, .consumeGrant .guac (some "3.y".toList) ['a'] ['t']⟩).succeeds = true := by decide
  rw [hallowed] at hrefused
  cases hrefused

end Hyproxy.Revocation

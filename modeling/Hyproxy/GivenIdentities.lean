import Hyproxy.SignIns
import Hyproxy.StaleAllows

/-!
Whom the identity headers of a request name. They are those of a user who has signed in
and who has then come to the gateway from the address of the request and with the cookie
of the request; they say what the tables say of the user when the decision is made.
-/
namespace Hyproxy.GivenIdentities

open AuthzCheck (CheckRequest GatewaySession decision gatewayOf identityOf parseCookie
  resolveGatewaySession rolesOf utf8)
open EdgeRuns
open HostScope (answer ask)
open IdentityHeaders (Given)
open SessionArtifacts (after reply)
open SignIns (SignedIn)
open StaleAllows (staleness)

/-- The request comes with the cookie of the gateway session, and from its address. -/
def Proves (cfg : AuthzCheck.Config) (body : CheckRequest) (gw : GatewaySession) : Prop :=
  gw.revokedAt = none ∧ gw.sourceIp = body.sourceIp ∧
    ∃ secret, parseCookie cfg body.gatewayCookie = some (gw.id, secret) ∧
      cfg.sha256Hex secret = gw.cookieSecretHash

/-- What the headers say of a user. -/
def shown (db : AuthzCheck.Db) (user : Accounts.User) : DataPlane.Identity where
  forwardedUser := some (utf8 user.email)
  authUserId := some (utf8 (db.externalId user.id))
  authRoles := some (utf8 ([','].intercalate
    (((rolesOf db user.id).map AuthzCheck.Role.name).mergeSort fun a b => decide (a ≤ b))))

section

variable (cfg : AuthzCheck.Config) (db : AuthzCheck.Db) (body : CheckRequest)

theorem gatewayOf_proves (gw : GatewaySession)
    (h : gatewayOf cfg db body.gatewayCookie body.sourceIp true = some gw) :
    gw ∈ db.gateways ∧ Proves cfg body gw := by
  unfold gatewayOf at h
  cases hcookie : parseCookie cfg body.gatewayCookie with
  | none =>
    rw [hcookie] at h
    cases h
  | some parsed =>
    rw [hcookie] at h
    simp only at h
    cases hfound : db.gateways.find? fun gw => gw.id == parsed.1 with
    | none =>
      rw [hfound] at h
      cases h
    | some found =>
      rw [hfound] at h
      simp only [Bool.true_and, bne_iff_ne, ne_eq] at h
      split_ifs at h with hrevoked hsecret haddress
      obtain rfl := Option.some.inj h
      have hid : found.id = parsed.1 := by simpa using List.find?_some hfound
      refine ⟨List.mem_of_find?_eq_some hfound, ?_, haddress, parsed.2, ?_, hsecret⟩
      · simpa only [Bool.not_eq_true, Option.isSome_eq_false_iff, Option.isNone_iff_eq_none] using
          hrevoked
      · rw [hcookie, hid]

variable (now : ℕ)

theorem checkUser_identity (resource : AuthzCheck.Resource) (host path : List Char)
    (gw : GatewaySession)
    (h : (AuthzCheck.checkUser cfg db body resource host path gw now).response.headers ≠ []) :
    ∃ user access, db.idp.user gw.user = some user ∧ user.status = .active ∧
      access.roleNames =
        (((rolesOf db user.id).map AuthzCheck.Role.name).mergeSort fun a b => decide (a ≤ b)) ∧
      (AuthzCheck.checkUser cfg db body resource host path gw now).response.headers =
        identityOf db user access := by
  unfold AuthzCheck.checkUser at h ⊢
  cases huser : db.idp.user gw.user with
  | none =>
    rw [huser] at h
    exact absurd rfl h
  | some user =>
    rw [huser] at h
    simp only at h ⊢
    split_ifs at h ⊢ with hactive htier
    · exact absurd rfl h
    · exact absurd rfl h
    · unfold AuthzCheck.checkAccess at h ⊢
      simp only at h ⊢
      by_cases hallowed : (AuthzCheck.evaluateAccess db user.id resource.id
          (AuthzCheck.portOf body.backendPort resource) path now).decision.allowed = true
      · simp only [if_pos hallowed]
        exact ⟨user, _, rfl, Decidable.of_not_not hactive, rfl, rfl⟩
      · rw [if_neg hallowed] at h
        exact absurd rfl h

/-- An identity is that of the user of the gateway session to which the cookie leads. -/
theorem decision_identity (h : (decision cfg db body now).1.response.headers ≠ []) :
    ∃ gw db' user, resolveGatewaySession cfg db body.gatewayCookie body.sourceIp now true =
        (some gw, db') ∧ db.idp.user gw.user = some user ∧ user.status = .active ∧
      (answer (decision cfg db body now).1.response).headers = shown db user := by
  unfold decision at h ⊢
  simp only at h ⊢
  cases hresource : AuthzCheck.resourceOf cfg db (AuthzCheck.hostOf cfg body.host) with
  | none =>
    rw [hresource] at h
    exact absurd rfl h
  | some resource =>
    rw [hresource] at h
    simp only at h ⊢
    by_cases hpublic : resource.publicAccess = true
    · rw [if_pos hpublic] at h
      exact absurd (AuthzCheck.checkPublic_anonymous cfg db body resource _ _ now).1 h
    · rw [if_neg hpublic] at h ⊢
      have hfixed := HostScope.resolveGatewaySession_fixed cfg db body.gatewayCookie body.sourceIp now
        true
      rcases hgw : resolveGatewaySession cfg db body.gatewayCookie body.sourceIp now true
        with ⟨gw, db'⟩
      rw [hgw] at h hfixed
      cases gw with
      | none => exact absurd rfl h
      | some gw =>
        obtain ⟨user, access, huser, hactive, hroles, hheaders⟩ :=
          checkUser_identity cfg db' body now resource _ _ gw h
        refine ⟨gw, db', user, rfl, ?_, hactive, ?_⟩
        · rw [← huser, Sessions.Db.user, Sessions.Db.user, hfixed.users]
        · simp only [HostScope.answer, HostScope.headerOf, hheaders, identityOf, hroles]
          rw [shown, rolesOf, rolesOf, AuthzCheck.Db.externalId, AuthzCheck.Db.externalId,
            hfixed.roles, hfixed.userRoles, hfixed.externalIds]
          rfl

theorem check_identity (response : AuthzCheck.CheckResponse)
    (h : (AuthzCheck.check cfg db body now).1 = some response)
    (hsome : (answer response).headers ≠ ⟨none, none, none⟩) :
    ∃ gw db' user, resolveGatewaySession cfg db body.gatewayCookie body.sourceIp now true =
        (some gw, db') ∧ db.idp.user gw.user = some user ∧ user.status = .active ∧
      (answer response).headers = shown db user := by
  unfold AuthzCheck.check at h
  cases hinet : cfg.inet body.sourceIp with
  | none =>
    rw [hinet] at h
    cases h
  | some ip =>
    rw [hinet] at h
    obtain rfl := Option.some.inj h
    refine decision_identity cfg db body now fun hnone => hsome ?_
    simp only [answer, HostScope.headerOf, hnone]
    rfl

end

/-- In every run of the edge and the control plane, a request that is passed on under an identity
has one of a user whose sign-in and whose arrival at the gateway the run has seen: it comes from the
address and with the cookie of that gateway session, and the session behind it has not ended, at a
moment no older than decisions are kept. The app is given what the tables say of the user at that
moment, without the headers that the client's `Connection` names. -/
theorem identified_signedIn (cfg : Config) (hsha : Function.Injective cfg.srv.sha256) (start : ℕ)
    (routes : RouteTables.RouteSet) (events : List Event) (x : Served)
    (hx : x ∈ (run cfg start routes events).shared.served) (d : DataPlane.Identity)
    (hground : x.ground = some (.cached d) ∨ x.ground = some (.allowed d))
    (hsome : d ≠ ⟨none, none, none⟩) (hauth : x.loaded.route.authRequired = true)
    (hguac : x.loaded.route.guacTunnel = false) :
    ∃ before rest elapsed gw user ground out, events = before ++ rest ∧
      x.arrived - staleness cfg ≤ (run cfg start routes before).shared.now ∧
      Proves cfg.control.authz (ask (x.loaded.question cfg.srv)) gw ∧
      SignedIn cfg.control start (history cfg (initial start routes) before) gw ∧
      SessionLife.LiveIn (run cfg start routes before).shared.control.sessions gw.idpSession
        (((run cfg start routes before).shared.control.clock + elapsed : ℕ) : ℤ) ∧
      (run cfg start routes before).shared.control.authz.idp.user gw.user = some user ∧
      user.status = .active ∧ d = shown (run cfg start routes before).shared.control.authz user ∧
      x.outcome = .forward ground out ∧
      Given x.loaded.request
        (shown (run cfg start routes before).shared.control.authz user) out.header := by
  have hdecided : ∃ (response : DataPlane.CheckResponse) (ground : DataPlane.Ground)
      (out : DataPlane.Outgoing), response.headers = d ∧ x.outcome = .forward ground out ∧
      Given x.loaded.request response.headers out.header ∧
      StaleAllows.Decided cfg start routes events x.loaded (x.arrived - staleness cfg) response := by
    rcases hground with hcached | hallowed
    · obtain ⟨response, out, -, hpassed, hout, hgiven, hdecided⟩ :=
        StaleAllows.served_decided hsha events x hx _ hcached hauth hguac
      rcases hpassed with ⟨hd, -⟩ | hd
      · exact ⟨response, _, out, (DataPlane.Ground.cached.inj hd).symm, hout, hgiven, hdecided⟩
      · cases hd
    · obtain ⟨response, out, -, hpassed, hout, hgiven, hdecided⟩ :=
        StaleAllows.served_decided hsha events x hx _ hallowed hauth hguac
      rcases hpassed with ⟨hd, -⟩ | hd
      · cases hd
      · exact ⟨response, _, out, (DataPlane.Ground.allowed.inj hd).symm, hout, hgiven, hdecided⟩
  obtain ⟨-, ground, out, rfl, hout, hgiven, before, rest, elapsed, response, rfl, hsince, hreply,
    rfl⟩ := hdecided
  obtain ⟨gw, db', user, hgw, huser, hactive, hshown⟩ := check_identity cfg.control.authz _ _ _
    response ((StaleAllows.reply_check_iff cfg.control _ elapsed _ response).mp hreply) hsome
  obtain ⟨hmem, hproves⟩ := gatewayOf_proves cfg.control.authz _ _ gw
    (HostScope.gatewayOf_of_resolved cfg.control.authz _ db' _ _ _ true gw hgw)
  have hlive := (Revocation.resolve_live cfg.control _ _ _ _ true gw db' hgw).2
  rw [control_run] at hmem
  exact ⟨before, rest, elapsed, gw, user, ground, out, rfl, hsince, hproves,
    SignIns.gateway_signedIn cfg.control start _ gw hmem, hlive, huser, hactive, hshown, hout,
    hshown ▸ hgiven⟩

/-- A request that a kept decision passes on, under the identity of the user who has signed in. -/
theorem identified_signedIn_sample :
    ∃ x ∈ (run StaleAllows.sampleConfig 0 StaleAllows.sampleRoutes
        StaleAllows.sampleRun).shared.served,
      x.ground = some (.cached IdentityHeaders.sampleIdentity) ∧
      ∃ before rest gw user ground out, StaleAllows.sampleRun = before ++ rest ∧
        Proves StaleAllows.sampleControl.authz
          (ask (x.loaded.question IdentityHeaders.sampleServer)) gw ∧
        SignedIn StaleAllows.sampleControl 0 (history StaleAllows.sampleConfig
          (initial 0 StaleAllows.sampleRoutes) before) gw ∧
        IdentityHeaders.sampleIdentity = shown (run StaleAllows.sampleConfig 0
          StaleAllows.sampleRoutes before).shared.control.authz user ∧
        x.outcome = .forward ground out ∧
        Given x.loaded.request (shown (run StaleAllows.sampleConfig 0
          StaleAllows.sampleRoutes before).shared.control.authz user) out.header := by
  have hsome : ((run StaleAllows.sampleConfig 0 StaleAllows.sampleRoutes
      StaleAllows.sampleRun).shared.served.head?.map fun x => (x.ground, x.loaded.route)) =
      some (some (.cached IdentityHeaders.sampleIdentity), HostScope.sampleRoute) := by
    decide +kernel
  obtain ⟨x, hx, hfields⟩ := Option.map_eq_some_iff.mp hsome
  obtain ⟨hground, hroute⟩ := Prod.mk.inj hfields
  obtain ⟨before, rest, elapsed, gw, user, ground, out, hevents, -, hproves, hsigned, -, -, -,
    hshown, hout, hgiven⟩ :=
    identified_signedIn StaleAllows.sampleConfig Function.injective_id 0 StaleAllows.sampleRoutes
      StaleAllows.sampleRun x (List.mem_of_head? hx) IdentityHeaders.sampleIdentity (Or.inl hground)
      (by decide) (by rw [hroute]; rfl) (by rw [hroute]; rfl)
  exact ⟨x, List.mem_of_head? hx, hground, before, rest, gw, user, ground, out, hevents, hproves,
    hsigned, hshown, hout, hgiven⟩

end Hyproxy.GivenIdentities

import Hyproxy.AuthzCheck
import Hyproxy.CacheProvenance
import Hyproxy.IdentityHeaders

/-!
Decisions that hold for a whole host. While the tables stay as they are and the
sessions behind the cookie are live, the answer to a request that was allowed with
host scope is the answer to every request from the same client to the same host
and port; so a hit of the decision cache passes what a check would have passed.
-/
namespace Hyproxy.HostScope

open AuthzCheck
open CacheProvenance (Op Scope Serves run)
open DataPlane (ControlPlane Identity Outgoing Server appHeader gatewayCookie serveApp serveProxy
  setIdentity)
open HostStability (evaluate_of_hostStable hostStable)
open PolicyEngine (PolicyRule evaluate)

/-- The tables are the same, apart from what requests record in passing. -/
structure Fixed (db db' : Db) : Prop where
  users : db'.idp.users = db.idp.users
  externalIds : db'.externalIds = db.externalIds
  resources : db'.resources = db.resources
  roles : db'.roles = db.roles
  userRoles : db'.userRoles = db.userRoles
  policies : db'.policies = db.policies
  gateways : db'.gateways = db.gateways

/-- The session behind the cookie is not revoked, stale, expired or idle. -/
def LinkedLive (cfg : Config) (db : Db) (cookie : Option (List Char)) (ip : List Char) (now : ℤ) :
    Prop :=
  ∀ gw, gatewayOf cfg db cookie ip true = some gw →
    ∃ x, db.idp.sessions.lookup gw.idpSession = some x ∧ x.revokedAt = none ∧ x.stale = false ∧
      now < x.absoluteExpiresAt ∧ now - x.lastSeenAt ≤ cfg.idp.idleTtl

/-- The request comes from the same client to the same host and port. -/
structure SameScope (body body' : CheckRequest) : Prop where
  host : body'.host = body.host
  backendPort : body'.backendPort = body.backendPort
  sourceIp : body'.sourceIp = body.sourceIp
  gatewayCookie : body'.gatewayCookie = body.gatewayCookie

theorem Fixed.refl (db : Db) : Fixed db db := ⟨rfl, rfl, rfl, rfl, rfl, rfl, rfl⟩

theorem Fixed.symm {db db' : Db} (h : Fixed db db') : Fixed db' db :=
  ⟨h.users.symm, h.externalIds.symm, h.resources.symm, h.roles.symm, h.userRoles.symm,
    h.policies.symm, h.gateways.symm⟩

theorem Fixed.trans {a b c : Db} (hab : Fixed a b) (hbc : Fixed b c) : Fixed a c :=
  ⟨hbc.users.trans hab.users, hbc.externalIds.trans hab.externalIds,
    hbc.resources.trans hab.resources, hbc.roles.trans hab.roles,
    hbc.userRoles.trans hab.userRoles, hbc.policies.trans hab.policies,
    hbc.gateways.trans hab.gateways⟩

/-! ### The gateway session -/

theorem gatewayOf_fixed (cfg : Config) (db db' : Db) (h : Fixed db db')
    (cookie : Option (List Char)) (ip : List Char) (enforceIp : Bool) :
    gatewayOf cfg db' cookie ip enforceIp = gatewayOf cfg db cookie ip enforceIp := by
  unfold gatewayOf
  rw [h.gateways]

theorem checkLiveness_users (cfg : Sessions.Config) (db : Sessions.Db) (id : ℕ)
    (x : Accounts.Session) (ip : List Char) (now : ℤ) (enforceIp : Bool) :
    (Sessions.checkLiveness cfg db id x ip now enforceIp).2.users = db.users := by
  unfold Sessions.checkLiveness Sessions.revoke
  split
  · rfl
  · simp only
    split_ifs <;> rfl
  · rfl
  · rfl
  · rfl

theorem resolveGatewaySession_fixed (cfg : Config) (db : Db) (cookie : Option (List Char))
    (ip : List Char) (now : ℤ) (enforceIp : Bool) :
    Fixed db (resolveGatewaySession cfg db cookie ip now enforceIp).2 := by
  unfold resolveGatewaySession
  cases gatewayOf cfg db cookie ip enforceIp with
  | none => exact Fixed.refl db
  | some gw =>
    simp only
    cases db.idp.sessions.lookup gw.idpSession with
    | none => exact Fixed.refl db
    | some x =>
      have husers := checkLiveness_users cfg.idp db.idp gw.idpSession x ip now false
      simp only
      rcases hlive : Sessions.checkLiveness cfg.idp db.idp gw.idpSession x ip now false with
        ⟨passes, idp⟩
      rw [hlive] at husers
      cases passes <;> exact ⟨husers, rfl, rfl, rfl, rfl, rfl, rfl⟩

theorem gatewayOf_of_resolved (cfg : Config) (db db' : Db) (cookie : Option (List Char))
    (ip : List Char) (now : ℤ) (enforceIp : Bool) (gw : GatewaySession)
    (h : resolveGatewaySession cfg db cookie ip now enforceIp = (some gw, db')) :
    gatewayOf cfg db cookie ip enforceIp = some gw := by
  unfold resolveGatewaySession at h
  cases hgw : gatewayOf cfg db cookie ip enforceIp with
  | none =>
    rw [hgw] at h
    cases h
  | some found =>
    rw [hgw] at h
    simp only at h
    cases hx : db.idp.sessions.lookup found.idpSession with
    | none =>
      rw [hx] at h
      cases h
    | some x =>
      rw [hx] at h
      simp only at h
      rcases hlive : Sessions.checkLiveness cfg.idp db.idp found.idpSession x ip now false with
        ⟨passes, idp⟩
      rw [hlive] at h
      cases passes with
      | false => cases h
      | true => exact (Prod.mk.inj h).1

/-- A live session behind the cookie lets the gateway session through. -/
theorem resolved_of_live (cfg : Config) (db : Db) (cookie : Option (List Char)) (ip : List Char)
    (now : ℤ) (gw : GatewaySession) (hgw : gatewayOf cfg db cookie ip true = some gw)
    (hlive : LinkedLive cfg db cookie ip now) :
    (resolveGatewaySession cfg db cookie ip now true).1 = some gw := by
  obtain ⟨x, hx, hrevoked, hstale, habsolute, hidle⟩ := hlive gw hgw
  have hpasses : (Sessions.checkLiveness cfg.idp db.idp gw.idpSession x ip now false).1 = true := by
    rw [Sessions.checkLiveness_passes, Sessions.verdict, if_neg (by simp [hrevoked, hstale]),
      if_neg (by omega), if_neg (by omega), if_neg (by simp)]
    split_ifs <;> rfl
  unfold resolveGatewaySession
  rw [hgw]
  simp only [hx]
  rcases hcheck : Sessions.checkLiveness cfg.idp db.idp gw.idpSession x ip now false with
    ⟨passes, idp⟩
  rw [hcheck] at hpasses
  simp only at hpasses
  rw [hpasses]

/-! ### The verdict -/

theorem evaluateAccess_fixed (db db' : Db) (h : Fixed db db') (user resource : ℕ) (port : ℤ)
    (path path' : List Char) (now now' : ℕ)
    (hstable : (evaluateAccess db user resource port path now).hostStable = true) :
    evaluateAccess db' user resource port path' now' =
      evaluateAccess db user resource port path now := by
  have hroles : rolesOf db' user = rolesOf db user := by
    unfold rolesOf
    rw [h.roles, h.userRoles]
  have hpolicies : policiesOf db' resource = policiesOf db resource := by
    unfold policiesOf
    rw [h.policies]
  have hfirst := evaluate_of_hostStable _ _
    ⟨(rolesOf db user).map Role.id, resource, port, now⟩ hstable path
  have hsecond := evaluate_of_hostStable _ _
    ⟨(rolesOf db user).map Role.id, resource, port, now'⟩ hstable path'
  unfold evaluateAccess
  simp only [hroles, hpolicies, hfirst, hsecond]

theorem checkAccess_fixed (cfg : Config) (db db' : Db) (h : Fixed db db') (body body' : CheckRequest)
    (hport : body'.backendPort = body.backendPort) (resource : Resource) (path path' : List Char)
    (user : Accounts.User) (now now' : ℕ)
    (hscope : (checkAccess cfg db body resource path user now).response.cacheScopeHost = true) :
    (checkAccess cfg db' body' resource path' user now').response =
      (checkAccess cfg db body resource path user now).response := by
  have hport' : portOf body'.backendPort resource = portOf body.backendPort resource := by
    rw [hport]
  have hid : db'.externalId user.id = db.externalId user.id := by
    unfold Db.externalId
    rw [h.externalIds]
  unfold checkAccess at hscope ⊢
  simp only [hport'] at hscope ⊢
  by_cases hallowed : (evaluateAccess db user.id resource.id (portOf body.backendPort resource) path
      now).decision.allowed = true
  · rw [if_pos hallowed] at hscope ⊢
    have hstable := (Bool.and_eq_true_iff.mp hscope).1
    rw [evaluateAccess_fixed db db' h _ _ _ path path' now now' hstable, if_pos hallowed]
    simp only [identityOf, hid]
  · rw [if_neg hallowed] at hscope
    cases hscope

theorem checkUser_fixed (cfg : Config) (db db' : Db) (h : Fixed db db') (body body' : CheckRequest)
    (hport : body'.backendPort = body.backendPort) (resource : Resource) (host path path' : List Char)
    (gw : GatewaySession) (now now' : ℕ)
    (hscope : (checkUser cfg db body resource host path gw now).response.cacheScopeHost = true) :
    (checkUser cfg db' body' resource host path' gw now').response =
      (checkUser cfg db body resource host path gw now).response := by
  have huser : db'.idp.user gw.user = db.idp.user gw.user := by
    unfold Sessions.Db.user
    rw [h.users]
  unfold checkUser at hscope ⊢
  rw [huser]
  cases hfound : db.idp.user gw.user with
  | none =>
    rw [hfound] at hscope
    cases hscope
  | some user =>
    rw [hfound] at hscope
    simp only at hscope ⊢
    by_cases hstatus : user.status ≠ .active
    · rw [if_pos hstatus] at hscope
      cases hscope
    · rw [if_neg hstatus] at hscope ⊢
      by_cases htier : user.tier ≠ .admin ∧ some host = cfg.adminConsoleHost
      · rw [if_pos htier] at hscope
        cases hscope
      · rw [if_neg htier] at hscope ⊢
        rw [if_neg hstatus, if_neg htier]
        exact checkAccess_fixed cfg db db' h body body' hport resource path path' user now now' hscope

theorem checkPublic_scope (cfg : Config) (db : Db) (body : CheckRequest) (resource : Resource)
    (host path : List Char) (now : ℤ) :
    (checkPublic cfg db body resource host path now).1.response.cacheScopeHost = false := by
  unfold checkPublic
  split_ifs
  · rfl
  · rcases resolvePublicSession cfg db body.publicCookie resource.id body.sourceIp now with ⟨row, db'⟩
    cases row <;> rfl

theorem decision_fixed (cfg : Config) (db db' : Db) (h : Fixed db db') (body body' : CheckRequest)
    (hsame : SameScope body body') (now now' : ℕ)
    (hlive : LinkedLive cfg db' body'.gatewayCookie body'.sourceIp now')
    (hscope : (decision cfg db body now).1.response.cacheScopeHost = true) :
    (decision cfg db' body' now').1.response = (decision cfg db body now).1.response := by
  have hresource :
      resourceOf cfg db' (hostOf cfg body.host) = resourceOf cfg db (hostOf cfg body.host) := by
    unfold resourceOf
    rw [h.resources]
  unfold decision at hscope ⊢
  simp only [hsame.host, hresource] at hscope ⊢
  cases hfound : resourceOf cfg db (hostOf cfg body.host) with
  | none =>
    rw [hfound] at hscope
    cases hscope
  | some resource =>
    rw [hfound] at hscope
    simp only at hscope ⊢
    by_cases hpublic : resource.publicAccess = true
    · rw [if_pos hpublic, checkPublic_scope] at hscope
      cases hscope
    · rw [if_neg hpublic] at hscope
      rw [if_neg hpublic, if_neg hpublic]
      have hfixed := resolveGatewaySession_fixed cfg db body.gatewayCookie body.sourceIp now true
      rcases hgw : resolveGatewaySession cfg db body.gatewayCookie body.sourceIp now true
        with ⟨gw, touched⟩
      rw [hgw] at hscope hfixed
      cases gw with
      | none => cases hscope
      | some gw =>
        have hcookie := gatewayOf_of_resolved cfg db touched _ _ _ _ gw hgw
        rw [← gatewayOf_fixed cfg db db' h, ← hsame.gatewayCookie, ← hsame.sourceIp] at hcookie
        have hresolved := resolved_of_live cfg db' _ _ now' gw hcookie hlive
        have hfixed' := resolveGatewaySession_fixed cfg db' body'.gatewayCookie body'.sourceIp now' true
        rcases hgw' : resolveGatewaySession cfg db' body'.gatewayCookie body'.sourceIp now' true
          with ⟨gw', touched'⟩
        rw [hgw'] at hresolved hfixed'
        simp only at hresolved
        subst hresolved
        exact checkUser_fixed cfg touched touched' (hfixed.symm.trans (h.trans hfixed')) body body'
          hsame.backendPort resource _ _ _ gw now now' hscope

/-- While the tables stay and the linked session lives, an allow with host scope is the answer to
every request in its scope. -/
theorem check_fixed (cfg : Config) (db db' : Db) (h : Fixed db db') (body body' : CheckRequest)
    (hsame : SameScope body body') (now now' : ℕ)
    (hlive : LinkedLive cfg db' body'.gatewayCookie body'.sourceIp now') (resp : CheckResponse)
    (hresp : (check cfg db body now).1 = some resp) (hscope : resp.cacheScopeHost = true) :
    (check cfg db' body' now').1 = some resp := by
  unfold check at hresp ⊢
  rw [hsame.sourceIp]
  cases hinet : cfg.inet body.sourceIp with
  | none =>
    rw [hinet] at hresp
    cases hresp
  | some ip =>
    rw [hinet] at hresp
    obtain rfl := Option.some.inj hresp
    exact congrArg some (decision_fixed cfg db db' h body body' hsame now now' hlive hscope)

/-! ### Across the wire -/

/-- The request as it reaches the control plane: JSON text, with empty fields left out. -/
def ask (q : DataPlane.CheckRequest) : CheckRequest where
  host := Utf8.decode false q.host
  method := Utf8.decode false q.method
  uri := Utf8.decode false q.uri
  sourceIp := Utf8.decode false q.sourceIP
  backendPort := if q.backendPort = 0 then none else some q.backendPort
  gatewayCookie := if q.gatewayCookie = [] then none else some (Utf8.decode false q.gatewayCookie)
  publicCookie := if q.publicCookie = [] then none else some (Utf8.decode false q.publicCookie)

def verdictOf : Answer → DataPlane.Verdict
  | .allow => .allow
  | .deny => .other "deny".toList
  | .authRequired => .authRequired
  | .notFound => .notFound

def headerOf (resp : CheckResponse) (name : List Char) : Option (List Char) :=
  (resp.headers.lookup name).map utf8

/-- The answer as the data plane decodes it. -/
def answer (resp : CheckResponse) : DataPlane.CheckResponse where
  decision := verdictOf resp.decision
  headers :=
    { forwardedUser := headerOf resp "X-Forwarded-User".toList
      authUserId := headerOf resp "X-Auth-User-Id".toList
      authRoles := headerOf resp "X-Auth-Roles".toList }
  redirect := utf8 resp.redirect
  cacheScopeHost := resp.cacheScopeHost
  cacheTTLSecs := resp.cacheTtlSecs

/-- The client's `Check` against a state of the control plane. -/
def checkOf (cfg : Config) (db : Db) (now : ℕ) (q : DataPlane.CheckRequest) :
    Option DataPlane.CheckResponse :=
  ((check cfg db (ask q) now).1).map answer

/-- The question is about this scope. -/
structure AsksFor (q : DataPlane.CheckRequest) (s : Scope) : Prop where
  host : q.host = s.host
  backendPort : q.backendPort = s.backendPort
  sourceIP : q.sourceIP = s.sourceIP
  cookie : q.gatewayCookie = s.cookie

/-- The decision was given in this scope by a control plane with these tables. -/
def GivenBy (cfg : Config) (db : Db) (s : Scope) (d : DataPlane.CheckResponse) : Prop :=
  ∃ db' now q, Fixed db db' ∧ AsksFor q s ∧ checkOf cfg db' now q = some d

theorem checkOf_fixed (cfg : Config) (db : Db) (s : Scope) (d : DataPlane.CheckResponse)
    (hgiven : GivenBy cfg db s d) (hscope : d.cacheScopeHost = true) (db' : Db) (h : Fixed db db')
    (q : DataPlane.CheckRequest) (hq : AsksFor q s) (now : ℕ)
    (hlive : LinkedLive cfg db' (ask q).gatewayCookie (ask q).sourceIp now) :
    checkOf cfg db' now q = some d := by
  obtain ⟨before, past, q', hbefore, hq', hd⟩ := hgiven
  obtain ⟨resp, hresp, rfl⟩ := Option.map_eq_some_iff.mp hd
  have hsame : SameScope (ask q') (ask q) := by
    constructor <;> simp only [ask, hq.host, hq.backendPort, hq.sourceIP, hq.cookie, hq'.host,
      hq'.backendPort, hq'.sourceIP, hq'.cookie]
  have hcheck := check_fixed cfg before db' (hbefore.symm.trans h) _ _ hsame past now hlive resp hresp
    hscope
  rw [checkOf, hcheck]
  rfl

theorem serveProxy_ground (srv : Server) (upstream : DataPlane.Upstream)
    (ground other g : DataPlane.Ground) (r : DataPlane.Request) (h : HttpHeader.Header)
    (out : Outgoing) (hout : serveProxy srv upstream ground r h = .forward g out) :
    serveProxy srv upstream other r h = .forward other out := by
  unfold serveProxy at hout ⊢
  cases hheader : HttpHeader.proxyHeader h r.inbound with
  | none =>
    rw [hheader] at hout
    cases hout
  | some header =>
    rw [hheader] at hout
    rw [(DataPlane.Outcome.forward.inj hout).2.symm]

theorem serveChecked_allow (srv : Server) (cp : ControlPlane) (cache : DataPlane.AuthzCache)
    (now : ℤ) (r : DataPlane.Request) (host : List Char) (route : DataPlane.Route)
    (h : HttpHeader.Header) (cookie publicCookie : List Char) (d : DataPlane.CheckResponse)
    (hcheck : cp.check ⟨host, r.method, r.url.requestURI, r.clientIP, route.backendPort, cookie,
      publicCookie⟩ = some d) (hallow : d.decision = .allow) :
    (DataPlane.serveChecked srv cp cache now r host route h cookie publicCookie).1 =
      serveProxy srv (.app host) (.allowed d.headers) r (setIdentity h d.headers) := by
  unfold DataPlane.serveChecked
  simp only [hcheck, hallow]

/-- A request that the cache let pass would have passed a check, with the same request going to the
same backend. -/
theorem hit_passes_check (srv : Server) (hsha : Function.Injective srv.sha256) (cfg : Config)
    (db db' : Db) (h : Fixed db db') (ops : List Op)
    (hgiven : ∀ s d t, Op.store s d t ∈ ops → GivenBy cfg db s d) (cp : ControlPlane)
    (checkedAt : ℕ) (hcp : cp.check = checkOf cfg db' checkedAt) (now : ℤ) (r : DataPlane.Request)
    (route : DataPlane.Route) (s : Scope) (hserves : Serves srv r route s)
    (hlive : LinkedLive cfg db' (ask (DataPlane.checkRequest srv r s.host route)).gatewayCookie
      (ask (DataPlane.checkRequest srv r s.host route)).sourceIp checkedAt)
    (d : Identity) (out : Outgoing)
    (hhit : (serveApp srv cp (run srv ops) now r s.host route).1 = .forward (.cached d) out) :
    (serveApp srv cp [] now r s.host route).1 = .forward (.allowed d) out := by
  have hget := CacheProvenance.serveApp_cached srv cp _ now r route s hserves d out hhit
  obtain ⟨before, stored, t, later, rfl, -, rfl, hallow, hscope, -, -⟩ :=
    CacheProvenance.hit_stored srv hsha ops s now d hget
  have hasks : AsksFor (DataPlane.checkRequest srv r s.host route) s :=
    ⟨rfl, hserves.backendPort, hserves.sourceIP, hserves.cookie⟩
  have hcheck := checkOf_fixed cfg db s stored (hgiven s stored t (by simp)) hscope db' h _ hasks
    checkedAt hlive
  rw [← hcp] at hcheck
  have hkey : DataPlane.requestKey srv r s.host route = s.key srv := by
    rw [DataPlane.requestKey, Scope.key, hserves.backendPort, hserves.sourceIP, hserves.cookie]
  rcases CacheProvenance.serveApp_cases srv cp now r s.host route with ⟨outcome, hplain⟩ | hcases
  · rw [hplain] at hhit
    have hcached := (DataPlane.serveApp_passes srv cp [] now r s.host route (.cached stored.headers)
      out (by rw [hplain]; exact hhit)).cached _ rfl
    exact absurd hcached.1 (by simp [DecisionCache.get])
  · have hpasses := (DataPlane.serveApp_passes srv cp _ now r s.host route _ out hhit).cached _ rfl
    rw [hcases, if_pos hpasses.2, hkey] at hhit
    rw [hcases, if_pos hpasses.2]
    rcases hlookup : DecisionCache.get (run srv (before ++ Op.store s stored t :: later)) (s.key srv)
      now with ⟨found, cache⟩
    rw [hlookup] at hhit hget
    simp only at hget
    subst hget
    have hmiss : DecisionCache.get ([] : DataPlane.AuthzCache) (DataPlane.requestKey srv r s.host route)
        now = (none, []) := rfl
    rw [hmiss]
    simp only
    have hserved := serveChecked_allow srv cp [] now r s.host route (appHeader srv r)
      (gatewayCookie srv r) (DataPlane.checkRequest srv r s.host route).publicCookie stored hcheck
      hallow
    exact hserved.trans (serveProxy_ground srv _ _ _ _ r _ out hhit)

/-- Host stability is sound for the evaluator, for the checks of one state of the tables, and for
the decision cache. -/
theorem host_stability_sound {Role Resource : Type} [DecidableEq Role] [DecidableEq Resource] :
    (∀ (rules : List (PolicyRule Role Resource)) (allowed : Bool) (roleIds : List Role)
        (resource : Resource) (port : ℤ), hostStable rules allowed roleIds resource port = true →
      ∀ path now, (evaluate rules ⟨roleIds, resource, port, now⟩ path).allowed = true) ∧
    (∀ cfg db db' body body' now now', Fixed db db' → SameScope body body' →
      LinkedLive cfg db' body'.gatewayCookie body'.sourceIp (Int.ofNat now') →
      ∀ resp, (check cfg db body now).1 = some resp → resp.decision = .allow →
        resp.cacheScopeHost = true → (check cfg db' body' now').1 = some resp) ∧
    (∀ srv, Function.Injective srv.sha256 → ∀ cfg db db', Fixed db db' → ∀ ops,
      (∀ s d t, Op.store s d t ∈ ops → GivenBy cfg db s d) →
      ∀ cp checkedAt, cp.check = checkOf cfg db' checkedAt → ∀ now r route s,
      Serves srv r route s →
      LinkedLive cfg db' (ask (DataPlane.checkRequest srv r s.host route)).gatewayCookie
        (ask (DataPlane.checkRequest srv r s.host route)).sourceIp (Int.ofNat checkedAt) →
      ∀ d out, (serveApp srv cp (run srv ops) now r s.host route).1 = .forward (.cached d) out →
        (serveApp srv cp [] now r s.host route).1 = .forward (.allowed d) out) := by
  refine ⟨?_, ?_, ?_⟩
  · intro rules allowed roleIds resource port hstable path now
    rw [evaluate_of_hostStable rules allowed ⟨roleIds, resource, port, now⟩ hstable path]
  · intro cfg db db' body body' now now' h hsame hlive resp hresp _ hscope
    exact check_fixed cfg db db' h body body' hsame now now' hlive resp hresp hscope
  · intro srv hsha cfg db db' h ops hgiven cp checkedAt hcp now r route s hserves hlive d out hhit
    exact hit_passes_check srv hsha cfg db db' h ops hgiven cp checkedAt hcp now r route s hserves
      hlive d out hhit

def sampleConfig : Config where
  idp :=
    { idleTtl := 1800000000
      sessionTouchInterval := 60000000
      issuer := "https://id.example.org".toList
      dpop := Dpop.sampleConfig
      decodeJwt := fun _ => .error "bad signature" }
  sha256Hex := id
  uuid := fun text => if text = "id".toList then some 1 else none
  inet := some
  lower := id
  citext := id
  externalScheme := "https".toList
  authHost := "auth.example.org".toList
  adminConsoleHost := none
  authzCacheTtl := 5
  publicSessionBindIp := true

/-- A signed-in user whose role is allowed on the host without conditions. -/
def sampleDb : Db where
  idp :=
    { users := [⟨7, "ann@example.org".toList, .active, .standard, [], false⟩]
      sessions := [(0, ⟨7, [], "192.0.2.7".toList, .standard, [], 0, 21600000000, false, none, 0⟩)]
      seen := []
      events := [] }
  externalIds := [(7, "u-1".toList)]
  resources := [⟨3, some "app.example.org".toList, [443], true, false, none⟩]
  roles := [⟨5, "users".toList⟩]
  userRoles := [(7, 5)]
  policies := [⟨5, 3, .allow, none, none, [], true⟩]
  gateways := [⟨1, 7, 0, "secret".toList, "192.0.2.7".toList, none⟩]
  publicSessions := []
  audit := []

def sampleScope : Scope where
  host := "app.example.org".toList
  backendPort := 443
  sourceIP := "192.0.2.7".toList
  cookie := "id.secret".toList
  routed := ⟨"app.example.org".toList, by decide⟩
  plain := by decide

def sampleRequest : DataPlane.Request := (IdentityHeaders.sampleCall ["close".toList]).request

def sampleRoute : DataPlane.Route := ⟨443, none, false, false, false, false, false⟩

def sampleQuestion : DataPlane.CheckRequest :=
  DataPlane.checkRequest IdentityHeaders.sampleServer sampleRequest sampleScope.host sampleRoute

/-- The answer at time zero, which has host scope. -/
def sampleAnswer : DataPlane.CheckResponse :=
  (checkOf sampleConfig sampleDb 0 sampleQuestion).getD
    ⟨.notFound, ⟨none, none, none⟩, [], false, 0⟩

def samplePlane : ControlPlane := ⟨checkOf sampleConfig sampleDb 7000000, fun _ => none, fun _ => none⟩

/-- A hit after three seconds, and what a check would have passed instead. -/
theorem host_stability_sound_sample :
    ∃ out, (serveApp IdentityHeaders.sampleServer samplePlane
        (run IdentityHeaders.sampleServer [.store sampleScope sampleAnswer 0]) 3000000000 sampleRequest
        sampleScope.host sampleRoute).1 = .forward (.cached sampleAnswer.headers) out ∧
      (serveApp IdentityHeaders.sampleServer samplePlane [] 3000000000 sampleRequest sampleScope.host
        sampleRoute).1 = .forward (.allowed sampleAnswer.headers) out := by
  obtain ⟨header, hheader⟩ := HttpHeader.proxyHeader_of_no_upgrade
    (setIdentity (appHeader IdentityHeaders.sampleServer sampleRequest) sampleAnswer.headers)
    sampleRequest.inbound (by rw [IdentityHeaders.decided_connection]; decide)
  obtain ⟨out, hout, -, -⟩ := DataPlane.serveProxy_of_header IdentityHeaders.sampleServer
    (.app sampleScope.host) (.cached sampleAnswer.headers) sampleRequest _ _ hheader
  have hhit : (serveApp IdentityHeaders.sampleServer samplePlane
      (run IdentityHeaders.sampleServer [.store sampleScope sampleAnswer 0]) 3000000000 sampleRequest
      sampleScope.host sampleRoute).1 = .forward (.cached sampleAnswer.headers) out := hout
  refine ⟨out, hhit, ?_⟩
  refine (@host_stability_sound ℕ ℕ inferInstance inferInstance).2.2 IdentityHeaders.sampleServer
    Function.injective_id sampleConfig sampleDb sampleDb (Fixed.refl _)
    [.store sampleScope sampleAnswer 0] ?_ samplePlane 7000000 rfl 3000000000 sampleRequest sampleRoute
    sampleScope ⟨rfl, rfl, by decide⟩ ?_ sampleAnswer.headers out hhit
  · intro s d t hmem
    obtain ⟨rfl, rfl, -⟩ := Op.store.inj (List.mem_singleton.mp hmem)
    exact ⟨sampleDb, 0, sampleQuestion, Fixed.refl _, ⟨rfl, rfl, rfl, by decide⟩, rfl⟩
  · intro gw hgw
    have hfound : gatewayOf sampleConfig sampleDb (some "id.secret".toList) "192.0.2.7".toList true =
        some ⟨1, 7, 0, "secret".toList, "192.0.2.7".toList, none⟩ := by decide
    obtain rfl := Option.some.inj (hfound.symm.trans hgw)
    exact ⟨_, rfl, rfl, rfl, by decide, by decide⟩

end Hyproxy.HostScope

import Hyproxy.EdgeRuns
import Hyproxy.Mediation

/-!
How old a decision can be on which the edge forwards a request. The control plane
has decided on this very request, for it or on the tables of a moment that is at
most the lifetime of a cache entry before the request came, whatever has changed
since.
-/
namespace Hyproxy.StaleAllows

open AuthzCheck (decision resolveGatewaySession)
open CacheProvenance (Scope Serves Stored mem_store serveChecked_store)
open DataPlane hiding Event step
open DecisionCache (Entry get_some mem_get_cache ttlCap)
open EdgeRuns
open HostScope (AsksFor LinkedLive SameScope answer ask check_fixed)
open IdentityHeaders (Given forwarded_identity)
open RouteSwaps (consults)
open RouteTables (RouteSet)

/-! ### What a decision with host scope shows -/

section

variable (cfg : AuthzCheck.Config) (db : AuthzCheck.Db) (body : AuthzCheck.CheckRequest) (now : ℕ)

theorem checkAccess_ttl (resource : AuthzCheck.Resource) (path : List Char) (user : Accounts.User)
    (h : (AuthzCheck.checkAccess cfg db body resource path user now).response.cacheScopeHost = true) :
    (AuthzCheck.checkAccess cfg db body resource path user now).response.cacheTtlSecs =
      cfg.authzCacheTtl := by
  unfold AuthzCheck.checkAccess at h ⊢
  by_cases hallowed : (AuthzCheck.evaluateAccess db user.id resource.id
      (AuthzCheck.portOf body.backendPort resource) path now).decision.allowed = true
  · simp only [hallowed, if_true] at h ⊢
    rw [if_pos h]
  · simp only [hallowed, Bool.false_eq_true, if_false] at h
    cases h

theorem checkUser_ttl (resource : AuthzCheck.Resource) (host path : List Char)
    (gw : AuthzCheck.GatewaySession)
    (h : (AuthzCheck.checkUser cfg db body resource host path gw now).response.cacheScopeHost = true) :
    (AuthzCheck.checkUser cfg db body resource host path gw now).response.cacheTtlSecs =
      cfg.authzCacheTtl := by
  unfold AuthzCheck.checkUser at h ⊢
  cases hfound : db.idp.user gw.user with
  | none =>
    rw [hfound] at h
    cases h
  | some user =>
    rw [hfound] at h
    simp only at h ⊢
    split_ifs at h ⊢
    · cases h
    · cases h
    · exact checkAccess_ttl cfg db body now resource path user h

/-- It rests on a gateway session, and may be kept as long as the settings say. -/
theorem decision_scoped (h : (decision cfg db body now).1.response.cacheScopeHost = true) :
    (∃ gw db', resolveGatewaySession cfg db body.gatewayCookie body.sourceIp now true =
        (some gw, db')) ∧
      (decision cfg db body now).1.response.cacheTtlSecs = cfg.authzCacheTtl := by
  unfold decision at h ⊢
  simp only at h ⊢
  cases hresource : AuthzCheck.resourceOf cfg db (AuthzCheck.hostOf cfg body.host) with
  | none =>
    rw [hresource] at h
    cases h
  | some resource =>
    rw [hresource] at h
    simp only at h ⊢
    by_cases hpublic : resource.publicAccess = true
    · rw [if_pos hpublic, HostScope.checkPublic_scope] at h
      cases h
    · rw [if_neg hpublic] at h ⊢
      rcases hgw : resolveGatewaySession cfg db body.gatewayCookie body.sourceIp now true
        with ⟨gw, db'⟩
      rw [hgw] at h
      cases gw with
      | none => cases h
      | some gw => exact ⟨⟨gw, db', rfl⟩, checkUser_ttl cfg db' body now resource _ _ gw h⟩

/-- A gateway session that is let through has a live session behind it. -/
theorem linkedLive_of_resolved (cookie : Option (List Char)) (ip : List Char) (now : ℤ)
    (gw : AuthzCheck.GatewaySession) (db' : AuthzCheck.Db)
    (h : resolveGatewaySession cfg db cookie ip now true = (some gw, db')) :
    LinkedLive cfg db cookie ip now := by
  intro found hfound
  unfold resolveGatewaySession at h
  rw [hfound] at h
  simp only at h
  cases hx : db.idp.sessions.lookup found.idpSession with
  | none =>
    rw [hx] at h
    cases h
  | some x =>
    rw [hx] at h
    simp only at h
    rcases hcheck : Sessions.checkLiveness cfg.idp db.idp found.idpSession x ip now false
      with ⟨passed, idp⟩
    rw [hcheck] at h
    cases passed with
    | false => cases h
    | true =>
      have hverdict := Sessions.checkLiveness_passes cfg.idp db.idp found.idpSession x ip now false
      rw [hcheck] at hverdict
      unfold Sessions.verdict at hverdict
      split_ifs at hverdict with hdead hexpired hidle hmoved htouch <;> try cases hverdict
      all_goals
        simp only [Bool.or_eq_true, not_or, Bool.not_eq_true, Option.isSome_eq_false_iff,
          Option.isNone_iff_eq_none] at hdead
        exact ⟨x, rfl, hdead.1, hdead.2, Int.not_le.mp hexpired, Int.not_lt.mp hidle⟩

end

/-! ### The same question in the same scope -/

theorem reply_check_iff (cfg : SessionArtifacts.Config) (s : SessionArtifacts.State) (elapsed : ℕ)
    (body : AuthzCheck.CheckRequest) (response : AuthzCheck.CheckResponse) :
    SessionArtifacts.reply cfg s ⟨elapsed, .check body⟩ = .check response ↔
      (AuthzCheck.check cfg.authz s.authz body (s.clock + elapsed)).1 = some response := by
  simp only [SessionArtifacts.reply, SessionArtifacts.perform, SessionArtifacts.check]
  rcases AuthzCheck.check cfg.authz s.authz body (s.clock + elapsed) with ⟨answered, authz⟩
  cases answered with
  | none => simp
  | some found => simp

theorem check_scoped (cfg : AuthzCheck.Config) (db : AuthzCheck.Db)
    (body : AuthzCheck.CheckRequest) (now : ℕ) (response : AuthzCheck.CheckResponse)
    (h : (AuthzCheck.check cfg db body now).1 = some response)
    (hscope : response.cacheScopeHost = true) :
    LinkedLive cfg db body.gatewayCookie body.sourceIp now ∧
      response.cacheTtlSecs = cfg.authzCacheTtl := by
  unfold AuthzCheck.check at h
  cases hinet : cfg.inet body.sourceIp with
  | none =>
    rw [hinet] at h
    cases h
  | some ip =>
    rw [hinet] at h
    obtain rfl := Option.some.inj h
    obtain ⟨⟨gw, db', hgw⟩, httl⟩ := decision_scoped cfg db body now hscope
    exact ⟨linkedLive_of_resolved cfg db _ _ _ gw db' hgw, httl⟩

theorem sameScope_of_scope (srv : Server) (c c' : Loaded) (h : c.scope srv = c'.scope srv) :
    SameScope (ask (c.question srv)) (ask (c'.question srv)) := by
  have hasks : AsksFor (c.question srv) (c'.scope srv) := h ▸ ⟨rfl, rfl, rfl, rfl⟩
  have hasks' : AsksFor (c'.question srv) (c'.scope srv) := ⟨rfl, rfl, rfl, rfl⟩
  constructor <;>
    simp only [ask, hasks.host, hasks.backendPort, hasks.sourceIP, hasks.cookie, hasks'.host,
      hasks'.backendPort, hasks'.sourceIP, hasks'.cookie]

/-- At one moment, a decision with host scope is the answer to every request in its scope. -/
theorem reply_of_scope (cfg : Config) (s : SessionArtifacts.State) (c c' : Loaded)
    (h : c.scope cfg.srv = c'.scope cfg.srv) (elapsed : ℕ) (response : AuthzCheck.CheckResponse)
    (hreply : SessionArtifacts.reply cfg.control s (c.asked cfg.srv elapsed) = .check response)
    (hscope : response.cacheScopeHost = true) :
    SessionArtifacts.reply cfg.control s (c'.asked cfg.srv elapsed) = .check response := by
  have hcheck := (reply_check_iff _ _ _ _ _).mp hreply
  have hsame := sameScope_of_scope cfg.srv c c' h
  refine (reply_check_iff _ _ _ _ _).mpr ?_
  refine check_fixed cfg.control.authz s.authz s.authz (HostScope.Fixed.refl _) _ _ hsame _ _ ?_
    response hcheck hscope
  rw [hsame.gatewayCookie, hsame.sourceIp]
  exact (check_scoped _ _ _ _ response hcheck hscope).1

/-! ### The run -/

/-- How long a decision can be relied on after it was asked for. -/
def staleness (cfg : Config) : ℤ :=
  max 0 (min (cfg.control.authz.authzCacheTtl * 1000000000) ttlCap)

section

variable (cfg : Config) (start : ℕ) (routes : RouteSet)

/-- At some moment of the run, and not before the clock read `since`, the control plane decides so
on the request. -/
def Decided (past : List Event) (c : Loaded) (since : ℤ) (d : CheckResponse) : Prop :=
  ∃ before rest elapsed response, past = before ++ rest ∧
    since ≤ (run cfg start routes before).shared.now ∧
    SessionArtifacts.reply cfg.control (run cfg start routes before).shared.control
      (c.asked cfg.srv elapsed) = .check response ∧
    d = answer response

/-- An entry of the cache is a decision with host scope, made as long before its end as decisions
are kept at most. -/
def Kept (past : List Event) (p : List Char × Entry Identity) : Prop :=
  ∃ c d, p.1 = (c.scope cfg.srv).key cfg.srv ∧ d.decision = .allow ∧ d.cacheScopeHost = true ∧
    d.headers = p.2.headers ∧ Decided cfg start routes past c (p.2.expires - staleness cfg) d

def Grounded (past : List Event) (x : Served) : Prop :=
  ∀ ground out, x.outcome = .forward ground out → out.upstream = .app x.loaded.host →
    x.loaded.route.authRequired = true → x.loaded.route.guacTunnel = false →
    ∃ d, d.decision = .allow ∧
      ((ground = .cached d.headers ∧ d.cacheScopeHost = true) ∨ ground = .allowed d.headers) ∧
      Given x.loaded.request d.headers out.header ∧
      Decided cfg start routes past x.loaded (x.arrived - staleness cfg) d

structure Good (past : List Event) (s : Shared) : Prop where
  cache : ∀ p ∈ s.cache, Kept cfg start routes past p
  served : ∀ x ∈ s.served, Grounded cfg start routes past x

/-- What holds while a request waits, when the clock reads `clock`. -/
def Waits (past : List Event) (clock : ℤ) : Point → Prop
  | .loaded _ => True
  | .lookup _ now => now ≤ clock
  | .check _ now => now ≤ clock
  | .answered c now d => ∀ d' ∈ d, Decided cfg start routes past c now d'

variable {cfg start routes}

theorem Decided.since {past : List Event} {c : Loaded} {since since' : ℤ} {d : CheckResponse}
    (h : Decided cfg start routes past c since d) (hle : since' ≤ since) :
    Decided cfg start routes past c since' d := by
  obtain ⟨before, rest, elapsed, response, hpast, hsince, hreply, hd⟩ := h
  exact ⟨before, rest, elapsed, response, hpast, Int.le_trans hle hsince, hreply, hd⟩

theorem Decided.more {past : List Event} {c : Loaded} {since : ℤ} {d : CheckResponse}
    (h : Decided cfg start routes past c since d) (e : Event) :
    Decided cfg start routes (past ++ [e]) c since d := by
  obtain ⟨before, rest, elapsed, response, rfl, hrest⟩ := h
  exact ⟨before, rest ++ [e], elapsed, response, by simp, hrest⟩

/-- A decision with host scope is made on every request in its scope. -/
theorem Decided.scope {past : List Event} {c c' : Loaded} {since : ℤ} {d : CheckResponse}
    (h : Decided cfg start routes past c since d) (hscope : d.cacheScopeHost = true)
    (hsame : c.scope cfg.srv = c'.scope cfg.srv) : Decided cfg start routes past c' since d := by
  obtain ⟨before, rest, elapsed, response, hpast, hsince, hreply, rfl⟩ := h
  exact ⟨before, rest, elapsed, response, hpast, hsince,
    reply_of_scope cfg _ c c' hsame elapsed response hreply hscope, rfl⟩

theorem Decided.ttl {past : List Event} {c : Loaded} {since : ℤ} {d : CheckResponse}
    (h : Decided cfg start routes past c since d) (hscope : d.cacheScopeHost = true) :
    d.cacheTTLSecs = cfg.control.authz.authzCacheTtl := by
  obtain ⟨before, rest, elapsed, response, -, -, hreply, rfl⟩ := h
  exact (check_scoped _ _ _ _ response ((reply_check_iff _ _ _ _ _).mp hreply) hscope).2

theorem Good.more {past : List Event} {s : Shared} (h : Good cfg start routes past s) (e : Event) :
    Good cfg start routes (past ++ [e]) s := by
  constructor
  · intro p hp
    obtain ⟨c, d, hkey, hallow, hscope, hheaders, hdecided⟩ := h.cache p hp
    exact ⟨c, d, hkey, hallow, hscope, hheaders, hdecided.more e⟩
  · intro x hx ground out hout happ hauth hguac
    obtain ⟨d, hallow, hground, hgiven, hdecided⟩ := h.served x hx ground out hout happ hauth hguac
    exact ⟨d, hallow, hground, hgiven, hdecided.more e⟩

theorem Waits.more {past : List Event} {clock clock' : ℤ} {p : Point}
    (h : Waits cfg start routes past clock p) (e : Event) (hle : clock ≤ clock') :
    Waits cfg start routes (past ++ [e]) clock' p := by
  cases p with
  | loaded c => trivial
  | lookup c now => exact Int.le_trans h hle
  | check c now => exact Int.le_trans h hle
  | answered c now d => exact fun d' hd' => (h d' hd').more e

theorem staleness_nonneg (cfg : Config) : 0 ≤ staleness cfg := Int.le_max_left _ _

theorem good_serve {past : List Event} {s : Shared} {c : Loaded} {now : ℤ} {outcome : Outcome}
    (h : Good cfg start routes past s)
    (hserved : Grounded cfg start routes past ⟨c, now, outcome⟩) :
    Good cfg start routes past (s.serve c now outcome) := by
  refine ⟨h.cache, fun x hx => ?_⟩
  rcases List.mem_cons.mp hx with rfl | hx
  · exact hserved
  · exact h.served x hx

/-- An app that needs authorization is reached by way of the cache and the check. -/
theorem consults_of_app (srv : Server) (cp : ControlPlane) (cache : AuthzCache) (now : ℤ)
    (r : Request) (host : List Char) (route : DataPlane.Route) (ground : Ground) (out : Outgoing)
    (hout : (serveApp srv cp cache now r host route).1 = .forward ground out)
    (happ : out.upstream = .app host) (hauth : route.authRequired = true)
    (hguac : route.guacTunnel = false) : consults srv r route = true := by
  have hground := (Mediation.serveApp_mediated srv cp cache now r host route ground out hout).authorized
    hauth happ
  unfold serveApp at hout
  simp only [hguac, hauth, Bool.false_eq_true, if_false, Bool.not_true] at hout
  by_cases hlan : (route.lanOnly && !srv.isLAN r.clientIP) = true
  · rw [if_pos hlan] at hout
    split_ifs at hout
  · rw [if_neg hlan] at hout
    by_cases hgate : (route.publicGate && isPublicGatePath r.url.path) = true
    · rw [if_pos hgate] at hout
      obtain ⟨rfl, -⟩ := serveProxy_forward srv _ _ _ r _ out hout
      exact absurd hground id
    · rw [if_neg hgate] at hout
      by_cases hpath : (route.guacTunnelPath && r.url.path == "/guac/tunnel".toList) = true
      · rw [if_pos hpath] at hout
        obtain ⟨-, hupstream, -⟩ := Mediation.serveGrantedWS_consumed srv _ _ r _ _ out hout
        rw [happ] at hupstream
        cases hupstream
      · rw [if_neg hpath] at hout
        by_cases hrtsp : (route.rtspTunnelPath && r.url.path == "/rtsp/stream".toList) = true
        · rw [if_pos hrtsp] at hout
          obtain ⟨-, hupstream, -⟩ := Mediation.serveGrantedWS_consumed srv _ _ r _ _ out hout
          rw [happ] at hupstream
          cases hupstream
        · rw [Bool.not_eq_true] at hlan hgate hpath hrtsp
          rw [consults, hlan, hgate, hguac, hpath, hrtsp, hauth]
          rfl

theorem good_begin {past : List Event} {s : Shared} (h : Good cfg start routes past s) (i : Start) :
    Good cfg start routes past (begin cfg s i).1 ∧
      ∀ p ∈ (begin cfg s i).2, Waits cfg start routes past (begin cfg s i).1.now p := by
  cases i with
  | operate e => exact ⟨⟨h.cache, h.served⟩, fun p hp => by cases hp⟩
  | elapse ns => exact ⟨⟨h.cache, h.served⟩, fun p hp => by cases hp⟩
  | store table => exact ⟨⟨h.cache, h.served⟩, fun p hp => by cases hp⟩
  | purge => exact ⟨⟨fun p hp => (by cases hp), h.served⟩, fun p hp => by cases hp⟩
  | request a consumeGuac consumeRtsp =>
    simp only [begin]
    cases load s.routes a with
    | none => exact ⟨h, fun p hp => by cases hp⟩
    | some c =>
      simp only
      by_cases hconsults : consults cfg.srv c.request c.route = true
      · rw [if_pos hconsults]
        refine ⟨h, fun p hp => ?_⟩
        obtain rfl := Option.some.inj hp
        trivial
      · rw [if_neg hconsults]
        refine ⟨good_serve h fun ground out hout happ hauth hguac => ?_, fun p hp => by cases hp⟩
        exact absurd (consults_of_app cfg.srv _ _ _ _ _ _ ground out hout happ hauth hguac) hconsults

theorem good_finish {past : List Event} {s : Shared} (h : Good cfg start routes past s) (c : Loaded)
    (now : ℤ) (d : Option CheckResponse) (hd : ∀ d' ∈ d, Decided cfg start routes past c now d') :
    Good cfg start routes past (finish cfg s c now d) := by
  have hnonneg := staleness_nonneg cfg
  refine good_serve ⟨fun p hp => ?_, h.served⟩ fun ground out hout _ _ _ => ?_
  · have hserves : Serves cfg.srv c.request c.route (c.scope cfg.srv) := ⟨rfl, rfl, rfl⟩
    have hstored := serveChecked_store cfg.srv (plane d) s.cache now c.request (c.scope cfg.srv)
      c.route (appHeader cfg.srv c.request) (c.question cfg.srv).publicCookie hserves
    have hp' : p ∈ (serveChecked cfg.srv (plane d) s.cache now c.request (c.scope cfg.srv).host
      c.route (appHeader cfg.srv c.request) (gatewayCookie cfg.srv c.request)
      (c.question cfg.srv).publicCookie).2 := hp
    rw [hstored] at hp'
    cases d with
    | none => exact h.cache p hp'
    | some d =>
      rcases mem_store cfg.srv s.cache (c.scope cfg.srv) d now p hp' with hold | ⟨hkey, hstored⟩
      · exact h.cache p hold
      · have hdecided := hd d rfl
        have httl := hdecided.ttl hstored.scope
        have hexpires := hstored.expires
        have hbound : min (d.cacheTTLSecs * 1000000000) ttlCap ≤ staleness cfg := by
          rw [httl]
          exact Int.le_max_right _ _
        exact ⟨c, d, hkey, hstored.allow, hstored.scope, hstored.headers.symm,
          hdecided.since (by omega)⟩
  · obtain ⟨d', hd', hallow, hproxy⟩ := serveChecked_forward cfg.srv _ _ _ _ _ _ _ _ _ ground out hout
    obtain ⟨rfl, -, hheader, -⟩ := serveProxy_forward cfg.srv _ _ _ _ _ out hproxy
    have hgiven := forwarded_identity cfg.srv c.request d'.headers out.header hheader
    exact ⟨d', hallow, Or.inr rfl, hgiven, (hd d' hd').since (Int.sub_le_self now hnonneg)⟩

theorem good_turn {past : List Event} {s : Shared} (hsha : Function.Injective cfg.srv.sha256)
    (h : Good cfg start routes past s) (hs : s = (run cfg start routes past).shared) (p : Point)
    (hp : Waits cfg start routes past s.now p) (wake : Wake) :
    Good cfg start routes past (turn cfg s p wake).1 ∧
      ∀ p' ∈ (turn cfg s p wake).2, Waits cfg start routes past (turn cfg s p wake).1.now p' := by
  have hstay : Good cfg start routes past s ∧ ∀ p' ∈ some p, Waits cfg start routes past s.now p' :=
    ⟨h, fun p' hp' => Option.some.inj hp' ▸ hp⟩
  cases p with
  | loaded c =>
    cases wake with
    | decide elapsed => exact hstay
    | fail => exact hstay
    | go => exact ⟨h, fun p' hp' => Option.some.inj hp' ▸ Int.le_refl _⟩
  | lookup c now =>
    cases wake with
    | decide elapsed => exact hstay
    | fail => exact hstay
    | go =>
      simp only [turn]
      by_cases hcookie : gatewayCookie cfg.srv c.request = []
      · rw [if_pos hcookie]
        exact ⟨h, fun p' hp' => Option.some.inj hp' ▸ hp⟩
      · rw [if_neg hcookie]
        have hmem := mem_get_cache s.cache ((c.scope cfg.srv).key cfg.srv) now
        have hhit := get_some s.cache ((c.scope cfg.srv).key cfg.srv) now
        rcases hget : DecisionCache.get s.cache ((c.scope cfg.srv).key cfg.srv) now
          with ⟨found, cache⟩
        rw [hget] at hmem hhit
        have hrest : Good cfg start routes past { s with cache := cache } :=
          ⟨fun p hp => h.cache p (hmem p hp), h.served⟩
        cases found with
        | none => exact ⟨hrest, fun p' hp' => Option.some.inj hp' ▸ hp⟩
        | some headers =>
          refine ⟨good_serve hrest fun ground out hout _ _ _ => ?_, fun p hp => by cases hp⟩
          obtain ⟨rfl, -, hheader, -⟩ := serveProxy_forward cfg.srv _ _ _ _ _ out hout
          have hgiven := forwarded_identity cfg.srv c.request headers out.header hheader
          obtain ⟨e, hentry, rfl, hlive⟩ := hhit headers rfl
          obtain ⟨c', d, hkey, hallow, hscope, hheaders, hdecided⟩ := h.cache _ hentry
          have hsame := CacheProvenance.key_injective cfg.srv hsha _ _ hkey
          refine ⟨d, hallow, Or.inl ⟨by rw [hheaders], hscope⟩, hheaders ▸ hgiven, ?_⟩
          exact (hdecided.since (Int.sub_le_sub_right hlive _)).scope hscope hsame.symm
  | check c now =>
    cases wake with
    | go => exact hstay
    | fail =>
      exact ⟨good_finish h c now none fun d hd => (by cases hd), fun p hp => by cases hp⟩
    | decide elapsed =>
      refine ⟨⟨h.cache, h.served⟩, fun p' hp' => ?_⟩
      obtain rfl := Option.some.inj hp'
      intro d hd
      cases hreply : SessionArtifacts.reply cfg.control s.control (c.asked cfg.srv elapsed) with
      | check response =>
        rw [hreply] at hd
        obtain rfl := Option.some.inj hd
        subst hs
        exact ⟨past, [], elapsed, response, (List.append_nil _).symm, hp, hreply, rfl⟩
      | _ =>
        rw [hreply] at hd
        cases hd
  | answered c now d =>
    cases wake with
    | decide elapsed => exact hstay
    | go => exact ⟨good_finish h c now d hp, fun p hp => by cases hp⟩
    | fail =>
      exact ⟨good_finish h c now none fun d hd => (by cases hd), fun p hp => by cases hp⟩

theorem now_begin (s : Shared) (i : Start) : s.now ≤ (begin cfg s i).1.now := by
  cases i with
  | elapse ns =>
    change s.now ≤ s.now + ns
    omega
  | request a consumeGuac consumeRtsp =>
    simp only [begin]
    cases load s.routes a with
    | none => exact Int.le_refl _
    | some c =>
      simp only
      split_ifs <;> exact Int.le_refl _
  | _ => exact Int.le_refl _

theorem now_turn (s : Shared) (p : Point) (wake : Wake) : (turn cfg s p wake).1.now = s.now := by
  cases p with
  | lookup c now =>
    cases wake with
    | go =>
      simp only [turn]
      split_ifs
      · rfl
      · rcases DecisionCache.get s.cache ((c.scope cfg.srv).key cfg.srv) now with ⟨_ | headers, cache⟩
        · rfl
        · rfl
    | _ => rfl
  | _ => cases wake <;> rfl

variable (cfg start routes) in
/-- What a run has come to after some of its events. -/
structure Inv (past : List Event) (s : Tasks.System Shared Point) : Prop where
  good : Good cfg start routes past s.shared
  waits : ∀ y ∈ s.tasks, Waits cfg start routes past s.shared.now y.point

theorem inv_step (hsha : Function.Injective cfg.srv.sha256) (past : List Event) (e : Event)
    (h : Inv cfg start routes past (run cfg start routes past)) :
    Inv cfg start routes (past ++ [e]) (step cfg (run cfg start routes past) e) := by
  generalize hnext : step cfg (run cfg start routes past) e = next
  have heffect : Tasks.Effect (program cfg) (run cfg start routes past) e next :=
    hnext ▸ Tasks.step_effect (program cfg) _ e
  cases heffect with
  | none id o => exact ⟨h.good.more _, fun y hy => (h.waits y hy).more _ (Int.le_refl _)⟩
  | start i =>
    obtain ⟨hgood, hwaits⟩ := good_begin h.good i
    refine ⟨hgood.more _, fun y hy => ?_⟩
    rcases Tasks.mem_spawn _ _ _ y hy with ⟨hpoint, -⟩ | hold
    · exact (hwaits _ hpoint).more _ (Int.le_refl _)
    · exact (h.waits y hold).more _ (now_begin _ i)
  | resume x wake hmem =>
    obtain ⟨hgood, hwaits⟩ := good_turn hsha h.good rfl x.point (h.waits x hmem) wake
    refine ⟨hgood.more _, fun y hy => ?_⟩
    rcases Tasks.mem_settle _ _ _ y hy with ⟨hpoint, -⟩ | ⟨hold, -⟩
    · exact (hwaits _ hpoint).more _ (Int.le_refl _)
    · exact (h.waits y hold).more _ (Int.le_of_eq (now_turn _ _ wake).symm)

theorem inv_run (hsha : Function.Injective cfg.srv.sha256) (events : List Event) :
    Inv cfg start routes events (run cfg start routes events) := by
  induction events using List.reverseRecOn with
  | nil => exact ⟨⟨fun p hp => (by cases hp), fun x hx => (by cases hx)⟩, fun y hy => by cases hy⟩
  | append_singleton past e ih =>
    have hlast : run cfg start routes (past ++ [e]) = step cfg (run cfg start routes past) e := by
      rw [run, List.foldl_append]
      rfl
    exact hlast ▸ inv_step hsha past e ih

theorem now_step (s : Tasks.System Shared Point) (e : Event) :
    s.shared.now ≤ (step cfg s e).shared.now := by
  generalize hnext : step cfg s e = next
  have heffect : Tasks.Effect (program cfg) s e next := hnext ▸ Tasks.step_effect (program cfg) s e
  cases heffect with
  | none id o => exact Int.le_refl _
  | start i => exact now_begin s.shared i
  | resume x wake hmem => exact Int.le_of_eq (now_turn s.shared x.point wake).symm

variable (cfg) in
theorem now_run (s : Tasks.System Shared Point) (events : List Event) :
    s.shared.now ≤ (events.foldl (step cfg) s).shared.now := by
  induction events generalizing s with
  | nil => exact Int.le_refl _
  | cons e rest ih => exact Int.le_trans (now_step s e) (ih (step cfg s e))

/-- What a request was passed on was decided for it. -/
theorem served_decided (hsha : Function.Injective cfg.srv.sha256) (events : List Event) (x : Served)
    (hx : x ∈ (run cfg start routes events).shared.served) (ground : Ground)
    (hground : x.ground = some ground) (hauth : x.loaded.route.authRequired = true)
    (hguac : x.loaded.route.guacTunnel = false) :
    ∃ d out, d.decision = .allow ∧
      ((ground = .cached d.headers ∧ d.cacheScopeHost = true) ∨ ground = .allowed d.headers) ∧
      x.outcome = .forward ground out ∧ Given x.loaded.request d.headers out.header ∧
      Decided cfg start routes events x.loaded (x.arrived - staleness cfg) d := by
  obtain ⟨out, hout, happ⟩ := x.ground_some ground hground
  obtain ⟨d, hallow, hpassed, hgiven, hdecided⟩ :=
    (inv_run hsha events).good.served x hx ground out hout happ hauth hguac
  exact ⟨d, out, hallow, hpassed, hout, hgiven, hdecided⟩

end

/-- In every run of the edge and the control plane, a request that the edge passes to an app was
allowed by the control plane: on the tables of a moment of the run that is no older than the request
by more than decisions are kept, the control plane answers this very request with an allow. The app
is given the identity headers of that answer, without those that the client's `Connection` names. -/
theorem forwarded_allowed (cfg : Config) (hsha : Function.Injective cfg.srv.sha256) (start : ℕ)
    (routes : RouteSet) (events : List Event) (x : Served)
    (hx : x ∈ (run cfg start routes events).shared.served) (ground : Ground)
    (hground : x.ground = some ground) (hauth : x.loaded.route.authRequired = true)
    (hguac : x.loaded.route.guacTunnel = false) :
    ∃ before rest elapsed response out, events = before ++ rest ∧
      x.arrived - staleness cfg ≤ (run cfg start routes before).shared.now ∧
      SessionArtifacts.reply cfg.control (run cfg start routes before).shared.control
        (x.loaded.asked cfg.srv elapsed) = .check response ∧
      response.decision = .allow ∧
      ((ground = .cached (answer response).headers ∧ response.cacheScopeHost = true) ∨
        ground = .allowed (answer response).headers) ∧
      x.outcome = .forward ground out ∧
      Given x.loaded.request (answer response).headers out.header := by
  obtain ⟨d, out, hallow, hpassed, hout, hgiven, before, rest, elapsed, response, hevents, hsince,
    hreply, rfl⟩ := served_decided hsha events x hx ground hground hauth hguac
  refine ⟨before, rest, elapsed, response, out, hevents, hsince, hreply, ?_, hpassed, hout, hgiven⟩
  cases hdecision : response.decision with
  | allow => rfl
  | _ =>
    simp only [answer, HostScope.verdictOf, hdecision] at hallow
    cases hallow

def sampleControl : SessionArtifacts.Config where
  authz :=
    { HostScope.sampleConfig with
      idp :=
        { HostScope.sampleConfig.idp with
          decodeJwt := fun token =>
            .ok ⟨"https://id.example.org".toList, some 10000, some 0, some token, []⟩ }
      uuid := fun text =>
        if text = "id".toList then some 1 else if text = "s".toList then some 0 else none }
  sha256B64url := id
  refreshAbsTtl := 21600000000
  authCodeTtl := 60000000
  enabled := fun _ => true
  grantTtl := fun _ => 60000000

def sampleConfig : Config := ⟨IdentityHeaders.sampleServer, sampleControl⟩

def sampleRoutes : RouteSet :=
  ⟨⟨"auth.example.org".toList,
    [("app.example.org".toList, ⟨HostScope.sampleRoute, "http://10.0.0.5:80".toList⟩)]⟩, []⟩

def sampleTables (policies : List (PolicyEngine.PolicyRule ℕ ℕ)) : SessionArtifacts.Tables where
  resources := [⟨3, some "app.example.org".toList, [443], true, false, none⟩]
  roles := [⟨5, "users".toList⟩]
  userRoles := [(7, 5)]
  policies := policies
  connections := []

/-- A user whose role is allowed on the app signs in, at the gateway too. -/
def sampleSignIn : List Event :=
  [.start (.operate
      ⟨0, .setUser ⟨7, "ann@example.org".toList, .active, .standard, [], false⟩ "u-1".toList⟩),
    .start (.operate ⟨0, .setTables (sampleTables [⟨5, 3, .allow, none, none, [], true⟩])⟩),
    .start (.operate ⟨0, .finalizeLogin 0 7 [.pwd, .otp] "192.0.2.7".toList "x".toList⟩),
    .start (.operate ⟨0, .callback "t".toList "192.0.2.7".toList "secret".toList⟩)]

def sampleArrival : Start :=
  .request ⟨HostScope.sampleRequest, by decide⟩ (fun _ => none) (fun _ => none)

/-- A request is decided on; the policy is withdrawn, and three seconds later comes another one. -/
def sampleRun : List Event :=
  sampleSignIn ++ [.start sampleArrival, .resume 4 .go, .resume 4 .go, .resume 4 (.decide 0),
    .resume 4 .go, .start (.operate ⟨0, .setTables (sampleTables [])⟩), .start (.elapse 3000000000),
    .start sampleArrival, .resume 7 .go, .resume 7 .go]

/-- The second request passes on the decision of the first, which is three of five seconds old. -/
theorem forwarded_allowed_sample :
    ∃ x ∈ (run sampleConfig 0 sampleRoutes sampleRun).shared.served,
      x.arrived = 3000000000 ∧ x.ground = some (.cached IdentityHeaders.sampleIdentity) ∧
      ∃ before rest elapsed response out, sampleRun = before ++ rest ∧
        3000000000 - staleness sampleConfig ≤ (run sampleConfig 0 sampleRoutes before).shared.now ∧
        SessionArtifacts.reply sampleControl (run sampleConfig 0 sampleRoutes before).shared.control
          (x.loaded.asked IdentityHeaders.sampleServer elapsed) = .check response ∧
        response.decision = .allow ∧
        ((Ground.cached IdentityHeaders.sampleIdentity = .cached (answer response).headers ∧
            response.cacheScopeHost = true) ∨
          Ground.cached IdentityHeaders.sampleIdentity = .allowed (answer response).headers) ∧
        x.outcome = .forward (.cached IdentityHeaders.sampleIdentity) out ∧
        Given x.loaded.request (answer response).headers out.header := by
  have hsome : ((run sampleConfig 0 sampleRoutes sampleRun).shared.served.head?.map fun x =>
      (x.arrived, x.ground, x.loaded.route)) = some (3000000000,
        some (.cached IdentityHeaders.sampleIdentity), HostScope.sampleRoute) := by decide +kernel
  obtain ⟨x, hx, hfields⟩ := Option.map_eq_some_iff.mp hsome
  obtain ⟨harrived, hground, hroute⟩ : x.arrived = 3000000000 ∧
      x.ground = some (.cached IdentityHeaders.sampleIdentity) ∧
      x.loaded.route = HostScope.sampleRoute := by simpa using hfields
  have hmem := List.mem_of_head? hx
  have hallowed := forwarded_allowed sampleConfig Function.injective_id 0 sampleRoutes sampleRun x hmem
    _ hground (by rw [hroute]; rfl) (by rw [hroute]; rfl)
  rw [harrived] at hallowed
  exact ⟨x, hmem, harrived, hground, hallowed⟩

end Hyproxy.StaleAllows

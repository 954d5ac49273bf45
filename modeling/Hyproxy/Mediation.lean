import Hyproxy.IdentityHeaders
import Hyproxy.RouteTables

/-!
Complete mediation. Whatever the control plane answers, and whatever the cache
holds, the backend of a route that comes from a resource is contacted only on a
hit of the decision cache, an allow or a consumed grant, and that of a route for
the LAN only for a client on it.
-/
namespace Hyproxy.Mediation

open DataPlane
open RouteTables (Config Exported Interface Platform ResourceRow buildRouteSet decodeRoutes
  exportRoutes isLAN mem_buildRouteSet mem_of_table_lookup newServer resolveLanNets routesJson
  serveHTTP validate validate_backends)

/-- A single-use grant was consumed for this request. -/
def Consumed (srv : Server) (consume : ConsumeRequest → Option Bool) (r : Request) : Prop :=
  ∃ token ≠ [], consume ⟨token, r.clientIP, gatewayCookie srv r⟩ = some true

/-- The ground on which a request was let through is an authorization. -/
def Authorized (srv : Server) (cp : ControlPlane) (cache : AuthzCache) (now : ℤ) (r : Request)
    (host : List Char) (route : DataPlane.Route) : Ground → Prop
  | .gate => False
  | .openRoute => False
  | .grant => Consumed srv cp.consumeGuac r ∨ Consumed srv cp.consumeRtsp r
  | .cached d => gatewayCookie srv r ≠ [] ∧
      (DecisionCache.get cache (requestKey srv r host route) now).1 = some d
  | .allowed d => ∃ resp, cp.check (checkRequest srv r host route) = some resp ∧
      resp.decision = .allow ∧ resp.headers = d

/-- What a forwarded request shows about its route. -/
structure Mediated (srv : Server) (cp : ControlPlane) (cache : AuthzCache) (now : ℤ) (r : Request)
    (host : List Char) (route : DataPlane.Route) (ground : Ground) (out : Outgoing) : Prop where
  lan : route.lanOnly = true → srv.isLAN r.clientIP = true
  upstream : (out.upstream = .controlPlane ∧ ground = .gate) ∨
    (out.upstream = .app host ∧ ground = .openRoute ∧ route.authRequired = false) ∨
    ((out.upstream = .app host ∨ (out.upstream = .guac ∧ route.guacTunnelPath = true) ∨
        (out.upstream = .rtsp ∧ route.rtspTunnelPath = true)) ∧
      Authorized srv cp cache now r host route ground)

theorem serveGrantedWS_consumed (srv : Server) (consume : ConsumeRequest → Option Bool)
    (upstream : Upstream) (r : Request) (h : HttpHeader.Header) (g : Ground) (out : Outgoing)
    (hout : serveGrantedWS srv consume upstream r h (gatewayCookie srv r) = .forward g out) :
    g = .grant ∧ out.upstream = upstream ∧ Consumed srv consume r := by
  obtain ⟨htoken, hconsume, hproxy⟩ := serveGrantedWS_forward srv consume upstream r h _ g out hout
  obtain ⟨rfl, hupstream, -⟩ := serveProxy_forward srv upstream .grant g r h out hproxy
  exact ⟨rfl, hupstream, _, htoken, hconsume⟩

/-- One case for each way through the handler. -/
theorem serveApp_mediated (srv : Server) (cp : ControlPlane) (cache : AuthzCache) (now : ℤ)
    (r : Request) (host : List Char) (route : DataPlane.Route) (ground : Ground) (out : Outgoing)
    (hout : (serveApp srv cp cache now r host route).1 = .forward ground out) :
    Mediated srv cp cache now r host route ground out := by
  have hpasses := serveApp_passes srv cp cache now r host route ground out hout
  have hchecked : ∀ cache',
      (serveChecked srv cp cache' now r host route (appHeader srv r) (gatewayCookie srv r)
        (checkRequest srv r host route).publicCookie).1 = .forward ground out →
      out.upstream = .app host ∧ Authorized srv cp cache now r host route ground := by
    intro cache' hserved
    obtain ⟨resp, hresp, hallow, hproxy⟩ :=
      serveChecked_forward srv cp cache' now r host route _ _ _ ground out hserved
    obtain ⟨rfl, hupstream, -⟩ := serveProxy_forward srv _ _ _ r _ out hproxy
    exact ⟨hupstream, resp, hresp, hallow, rfl⟩
  unfold serveApp at hout
  simp only at hout
  by_cases hlan : (route.lanOnly && !srv.isLAN r.clientIP) = true
  · rw [if_pos hlan] at hout
    split_ifs at hout
  · rw [if_neg hlan] at hout
    have hinside : route.lanOnly = true → srv.isLAN r.clientIP = true := by
      intro hroute
      simpa [hroute] using hlan
    refine ⟨hinside, ?_⟩
    by_cases hgate : (route.publicGate && isPublicGatePath r.url.path) = true
    · rw [if_pos hgate] at hout
      obtain ⟨rfl, hupstream, -⟩ := serveProxy_forward srv _ _ _ r _ out hout
      exact Or.inl ⟨hupstream, rfl⟩
    · rw [if_neg hgate] at hout
      by_cases hguac : route.guacTunnel = true
      · rw [if_pos hguac] at hout
        obtain ⟨rfl, hupstream, hconsumed⟩ := serveGrantedWS_consumed srv _ _ r _ _ out hout
        exact Or.inr (Or.inr ⟨Or.inl hupstream, Or.inl hconsumed⟩)
      · rw [if_neg hguac] at hout
        by_cases hpath : (route.guacTunnelPath && r.url.path == "/guac/tunnel".toList) = true
        · rw [if_pos hpath] at hout
          obtain ⟨rfl, hupstream, hconsumed⟩ := serveGrantedWS_consumed srv _ _ r _ _ out hout
          exact Or.inr (Or.inr ⟨Or.inr (Or.inl ⟨hupstream, (Bool.and_eq_true_iff.mp hpath).1⟩),
            Or.inl hconsumed⟩)
        · rw [if_neg hpath] at hout
          by_cases hrtsp : (route.rtspTunnelPath && r.url.path == "/rtsp/stream".toList) = true
          · rw [if_pos hrtsp] at hout
            obtain ⟨rfl, hupstream, hconsumed⟩ := serveGrantedWS_consumed srv _ _ r _ _ out hout
            exact Or.inr (Or.inr ⟨Or.inr (Or.inr ⟨hupstream, (Bool.and_eq_true_iff.mp hrtsp).1⟩),
              Or.inr hconsumed⟩)
          · rw [if_neg hrtsp] at hout
            by_cases hopen : (!route.authRequired) = true
            · rw [if_pos hopen] at hout
              obtain ⟨rfl, hupstream, -⟩ := serveProxy_forward srv _ _ _ r _ out hout
              exact Or.inr (Or.inl ⟨hupstream, rfl, by simpa using hopen⟩)
            · rw [if_neg hopen] at hout
              refine Or.inr (Or.inr ?_)
              split at hout
              · rename_i hcookie
                split at hout
                · rename_i headers cache' hget
                  obtain ⟨rfl, hupstream, -⟩ := serveProxy_forward srv _ _ _ r _ out hout
                  exact ⟨Or.inl hupstream, hcookie, congrArg Prod.fst hget⟩
                · obtain ⟨hupstream, hauthorized⟩ := hchecked _ hout
                  exact ⟨Or.inl hupstream, hauthorized⟩
              · obtain ⟨hupstream, hauthorized⟩ := hchecked _ hout
                exact ⟨Or.inl hupstream, hauthorized⟩

section

variable {srv : Server} {cp : ControlPlane} {cache : AuthzCache} {now : ℤ} {r : Request}
  {host : List Char} {route : DataPlane.Route} {ground : Ground} {out : Outgoing}

/-- The backend of a route that needs authorization. -/
theorem Mediated.authorized (h : Mediated srv cp cache now r host route ground out)
    (hauth : route.authRequired = true) (hupstream : out.upstream = .app host) :
    Authorized srv cp cache now r host route ground := by
  rcases h.upstream with ⟨hplane, -⟩ | ⟨-, -, hopen⟩ | ⟨-, hauthorized⟩
  · rw [hupstream] at hplane
    cases hplane
  · rw [hauth] at hopen
    cases hopen
  · exact hauthorized

theorem Mediated.no_tunnel (h : Mediated srv cp cache now r host route ground out)
    (hguac : route.guacTunnelPath = false) (hrtsp : route.rtspTunnelPath = false) :
    out.upstream = .app host ∨ out.upstream = .controlPlane := by
  rcases h.upstream with ⟨hplane, -⟩ | ⟨happ, -⟩ | ⟨happ | ⟨-, hpath⟩ | ⟨-, hpath⟩, -⟩
  · exact Or.inr hplane
  · exact Or.inl happ
  · exact Or.inl happ
  · rw [hguac] at hpath
    cases hpath
  · rw [hrtsp] at hpath
    cases hpath

theorem Mediated.guac (h : Mediated srv cp cache now r host route ground out)
    (hupstream : out.upstream = .guac) : route.guacTunnelPath = true := by
  rcases h.upstream with ⟨hplane, -⟩ | ⟨happ, -⟩ | ⟨happ | ⟨-, hpath⟩ | ⟨hrtsp, -⟩, -⟩
  · rw [hupstream] at hplane
    cases hplane
  · rw [hupstream] at happ
    cases happ
  · rw [hupstream] at happ
    cases happ
  · exact hpath
  · rw [hupstream] at hrtsp
    cases hrtsp

theorem Mediated.rtsp (h : Mediated srv cp cache now r host route ground out)
    (hupstream : out.upstream = .rtsp) : route.rtspTunnelPath = true := by
  rcases h.upstream with ⟨hplane, -⟩ | ⟨happ, -⟩ | ⟨happ | ⟨hguac, -⟩ | ⟨-, hpath⟩, -⟩
  · rw [hupstream] at hplane
    cases hplane
  · rw [hupstream] at happ
    cases happ
  · rw [hupstream] at happ
    cases happ
  · rw [hupstream] at hguac
    cases hguac
  · exact hpath

end

theorem isLAN_contains (p : Platform) (nets : List RouteTables.Network) (ip : List Char)
    (h : isLAN p nets ip = true) :
    ∃ parsed, p.parseIP ip = some parsed ∧ ∃ n ∈ nets, n.contains parsed = true := by
  unfold isLAN at h
  cases hparsed : p.parseIP ip with
  | none =>
    rw [hparsed] at h
    cases h
  | some parsed =>
    rw [hparsed] at h
    exact ⟨parsed, rfl, List.any_eq_true.mp h⟩

/-- What is forwarded for an app was served by the handler for apps. -/
theorem serveHTTP_app (blocked : Request → Bool) (srv : Server) (rs : RouteTables.RouteSet)
    (cp : ControlPlane) (cache : AuthzCache) (now : ℤ) (r : Request) (host : List Char)
    (route : RouteTables.Route) (outcome : Outcome)
    (hlookup : rs.table.lookup r.host = .app host route)
    (h : (serveHTTP blocked srv rs cp cache now r).1 = some outcome) :
    (serveApp srv cp cache now r host route.toRoute).1 = outcome := by
  unfold serveHTTP at h
  by_cases hblocked : blocked r = true
  · rw [if_pos hblocked] at h
    cases h
  · rw [if_neg hblocked, hlookup] at h
    exact Option.some.inj h

/-- The hosts that the configuration routes itself. -/
def Static (cfg : Config) (host : List Char) : Prop := ∃ route, (host, route) ∈ cfg.routes

/-- Mediation of every snapshot that an accepted configuration and the resources can give. -/
theorem complete_mediation (p : Platform) (raw cfg : Config) (hcfg : validate p raw = .ok cfg)
    (base srv : Server) (interfaces : Option (List Interface))
    (hsrv : newServer base p cfg interfaces = some srv) (rows : List ResourceRow) :
    ∃ dbRoutes, decodeRoutes (routesJson (exportRoutes rows)) = some dbRoutes ∧
      (∀ host route, (host, route) ∈ (buildRouteSet p cfg dbRoutes).table.routes →
        ¬ Static cfg host → route.authRequired = true) ∧
      ∀ (blocked : Request → Bool) (cp : ControlPlane) (cache : AuthzCache) (now : ℤ)
        (r : Request) (host : List Char) (route : RouteTables.Route) (ground : Ground) (out : Outgoing),
        (buildRouteSet p cfg dbRoutes).table.lookup r.host = .app host route →
        (serveHTTP blocked srv (buildRouteSet p cfg dbRoutes) cp cache now r).1 =
          some (.forward ground out) →
        (∃ u, p.parseURL (RouteTables.backendOf cfg route) = some u ∧
          (host, u) ∈ (buildRouteSet p cfg dbRoutes).proxies) ∧
        (¬ Static cfg host → out.upstream = .app host →
          Authorized srv cp cache now r host route.toRoute ground) ∧
        (¬ Static cfg host → out.upstream = .app host ∨ out.upstream = .controlPlane) ∧
        (route.lanOnly = true → ∃ nets ip, resolveLanNets p cfg interfaces = some nets ∧
          p.parseIP r.clientIP = some ip ∧ ∃ n ∈ nets, n.contains ip = true) ∧
        (out.upstream = .guac → cfg.guacBackend ≠ []) ∧
        (out.upstream = .rtsp → cfg.rtspBackend ≠ []) := by
  obtain ⟨dbRoutes, hdecoded, hexported⟩ := RouteTables.decodeRoutes_exported rows
  have hdb : ∀ host route, (host, route) ∈ (buildRouteSet p cfg dbRoutes).table.routes →
      ¬ Static cfg host → Exported route := by
    intro host route hmem hstatic
    rcases (mem_buildRouteSet p cfg dbRoutes (host, route) hmem).1 with hown | hother
    · exact absurd ⟨route, hown⟩ hstatic
    · exact hexported _ hother.1
  have hauth : ∀ host route, (host, route) ∈ (buildRouteSet p cfg dbRoutes).table.routes →
      ¬ Static cfg host → route.authRequired = true := by
    intro host route hmem hstatic
    rw [DataPlane.Route.authRequired, (hdb host route hmem hstatic).auth]
    rfl
  refine ⟨dbRoutes, hdecoded, hauth, ?_⟩
  intro blocked cp cache now r host route ground out hlookup hout
  have hmem := mem_of_table_lookup _ r.host host route hlookup
  obtain ⟨horigin, hproxy⟩ := mem_buildRouteSet p cfg dbRoutes (host, route) hmem
  have hserved := serveHTTP_app blocked srv _ cp cache now r host route _ hlookup hout
  have hmediated := serveApp_mediated _ cp cache now r host route.toRoute ground out hserved
  have htunnel : (route.guacTunnelPath = true → cfg.guacBackend ≠ []) ∧
      (route.rtspTunnelPath = true → cfg.rtspBackend ≠ []) := by
    rcases horigin with hown | ⟨hother, -⟩
    · exact validate_backends p raw cfg hcfg _ hown
    · have hroute : Exported route := hexported _ hother
      rw [hroute.guacTunnelPath, hroute.rtspTunnelPath]
      exact ⟨fun h => absurd h Bool.false_ne_true, fun h => absurd h Bool.false_ne_true⟩
  refine ⟨hproxy, ?_, ?_, ?_, ?_, ?_⟩
  · exact fun hstatic hupstream => hmediated.authorized (hauth host route hmem hstatic) hupstream
  · intro hstatic
    have hroute := hdb host route hmem hstatic
    exact hmediated.no_tunnel hroute.guacTunnelPath hroute.rtspTunnelPath
  · intro hlan
    obtain ⟨nets, hnets, rfl⟩ := Option.map_eq_some_iff.mp hsrv
    obtain ⟨ip, hip, hinside⟩ := isLAN_contains p nets r.clientIP (hmediated.lan hlan)
    exact ⟨nets, ip, hnets, hip, hinside⟩
  · exact fun hguac => htunnel.1 (hmediated.guac hguac)
  · exact fun hrtsp => htunnel.2 (hmediated.rtsp hrtsp)

/-- A platform that knows two backends, one network and two addresses. -/
def samplePlatform : Platform where
  parseURL := fun raw =>
    if raw = "http://127.0.0.1:8500".toList then
      some ⟨"http".toList, "127.0.0.1:8500".toList, [], "8500".toList⟩
    else if raw = "http://10.0.0.5:80".toList then
      some ⟨"http".toList, "10.0.0.5:80".toList, [], "80".toList⟩
    else if raw = [] then some ⟨[], [], [], []⟩
    else none
  parseCIDR := fun raw =>
    if raw = "10.0.0.0/24".toList then some ⟨[10, 0, 0, 0], [255, 255, 255, 0]⟩ else none
  parseIP := fun raw =>
    if raw = "10.0.0.7".toList then some [10, 0, 0, 7]
    else if raw = "192.0.2.7".toList then some [192, 0, 2, 7]
    else none

def sampleConfig : Config where
  listen := ":443".toList
  tlsCert := "c".toList
  tlsKey := "k".toList
  authzURL := "http://127.0.0.1:8500".toList
  authHost := "auth.example.org".toList
  authBackend := "http://127.0.0.1:8500".toList
  gatewayCookieName := "gw".toList
  publicCookieName := "pub".toList
  routes := [("admin.example.org".toList, ⟨⟨8500, none, false, false, false, false, true⟩,
    "http://127.0.0.1:8500".toList⟩)]
  guacBackend := []
  rtspBackend := []
  lanCidrs := ["10.0.0.0/24".toList]
  lanOnlyRedirect := []

def sampleRows : List ResourceRow :=
  [⟨⟨3, some "app.example.org".toList, [80], true, false, none⟩, .http, "10.0.0.5".toList⟩]

def sampleServer : Server :=
  { IdentityHeaders.sampleServer with
    isLAN := isLAN samplePlatform [⟨[10, 0, 0, 0], [255, 255, 255, 0]⟩] }

/-- A signed-in browser at the app, which the control plane allows. -/
def sampleCall : Call := IdentityHeaders.sampleCall ["close".toList]

def sampleRoute : RouteTables.Route :=
  ⟨⟨80, none, false, false, false, false, false⟩, "http://10.0.0.5:80".toList⟩

theorem sampleCall_forwarded :
    ∃ out, out.upstream = .app "app.example.org".toList ∧
      (serveHTTP (fun _ => false) sampleServer
        (buildRouteSet samplePlatform sampleConfig [("app.example.org".toList, sampleRoute)])
        sampleCall.cp [] 0 sampleCall.request).1 =
          some (.forward (.allowed IdentityHeaders.sampleIdentity) out) := by
  obtain ⟨header, hheader⟩ := HttpHeader.proxyHeader_of_no_upgrade
    (setIdentity (appHeader sampleServer sampleCall.request) IdentityHeaders.sampleIdentity)
    sampleCall.request.inbound (by rw [IdentityHeaders.decided_connection]; decide)
  obtain ⟨out, hout, -, hupstream⟩ := serveProxy_of_header sampleServer
    (.app "app.example.org".toList) (.allowed IdentityHeaders.sampleIdentity) sampleCall.request _
    header hheader
  have hserved := serveApp_of_allow sampleServer sampleCall.cp [] 0 sampleCall.request
    "app.example.org".toList 80 ⟨.allow, IdentityHeaders.sampleIdentity, [], false, 0⟩ rfl rfl rfl
  exact ⟨out, hupstream, congrArg some (hserved.trans hout)⟩

/-- The console and one resource: the route of the resource needs authentication, and what goes to
its backend rests on an allow. -/
theorem complete_mediation_sample :
    ∃ dbRoutes out, decodeRoutes (routesJson (exportRoutes sampleRows)) = some dbRoutes ∧
      (∀ host route, (host, route) ∈ (buildRouteSet samplePlatform sampleConfig dbRoutes).table.routes →
        ¬ Static sampleConfig host → route.authRequired = true) ∧
      (serveHTTP (fun _ => false) sampleServer (buildRouteSet samplePlatform sampleConfig dbRoutes)
        sampleCall.cp [] 0 sampleCall.request).1 =
          some (.forward (.allowed IdentityHeaders.sampleIdentity) out) ∧
      (∃ u, samplePlatform.parseURL "http://10.0.0.5:80".toList = some u ∧
        ("app.example.org".toList, u) ∈
          (buildRouteSet samplePlatform sampleConfig dbRoutes).proxies) ∧
      Authorized sampleServer sampleCall.cp [] 0 sampleCall.request "app.example.org".toList
        sampleRoute.toRoute (.allowed IdentityHeaders.sampleIdentity) := by
  obtain ⟨dbRoutes, hdecoded, hauth, hmediated⟩ := complete_mediation samplePlatform sampleConfig
    sampleConfig rfl IdentityHeaders.sampleServer sampleServer none rfl sampleRows
  have hroutes : decodeRoutes (routesJson (exportRoutes sampleRows)) =
      some [("app.example.org".toList, sampleRoute)] := rfl
  obtain rfl : dbRoutes = [("app.example.org".toList, sampleRoute)] :=
    Option.some.inj (hdecoded.symm.trans hroutes)
  obtain ⟨out, hupstream, hout⟩ := sampleCall_forwarded
  have hstatic : ¬ Static sampleConfig "app.example.org".toList := by
    intro hroute
    obtain ⟨route, hmem⟩ := hroute
    simp [sampleConfig] at hmem
  obtain ⟨hproxy, hauthorized, -⟩ := hmediated (fun _ => false) sampleCall.cp [] 0
    sampleCall.request "app.example.org".toList sampleRoute _ out rfl hout
  exact ⟨_, out, hdecoded, hauth, hout, hproxy, hauthorized hstatic hupstream⟩

example : (resolveLanNets samplePlatform sampleConfig none).map (fun nets =>
    (isLAN samplePlatform nets "10.0.0.7".toList, isLAN samplePlatform nets "192.0.2.7".toList)) =
      some (true, false) := by decide

end Hyproxy.Mediation

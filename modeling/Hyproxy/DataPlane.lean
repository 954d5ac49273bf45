import Hyproxy.Cookies
import Hyproxy.DecisionCache
import Hyproxy.UrlQuery
import Mathlib.Algebra.Group.Nat.Defs

/-!
The request handler of the data plane for app hosts (`serveApp` and
`serveGrantedWS` in `internal/proxy/server.go`). A request ends in an answer of
its own or is handed to a reverse proxy; what the proxy sends on is the outcome,
together with the ground on which the handler let it pass. The control plane is
whatever it answers.
-/
namespace Hyproxy.DataPlane

open HttpHeader Cookies RequestTarget UrlQuery DecisionCache

def identityHeaders : List (List Char) :=
  ["X-Forwarded-User".toList, "X-Auth-User-Id".toList, "X-Auth-Roles".toList]

/-- The headers of a decision: each identity header is set to a value or left out. -/
structure Identity where
  forwardedUser : Option (List Char)
  authUserId : Option (List Char)
  authRoles : Option (List Char)
  deriving Repr, DecidableEq

def Identity.values (d : Identity) : List (Option (List Char)) :=
  [d.forwardedUser, d.authUserId, d.authRoles]

/-- The map as the handler iterates over it. -/
def Identity.pairs (d : Identity) : List (List Char × List Char) :=
  (identityHeaders.zip d.values).filterMap (fun p => p.2.map (fun value => (p.1, value)))

def Identity.lookup (d : Identity) (name : List Char) : Option (List Char) := d.pairs.lookup name

structure Route where
  backendPort : ℤ
  auth : Option Bool
  guacTunnel : Bool
  guacTunnelPath : Bool
  rtspTunnelPath : Bool
  publicGate : Bool
  lanOnly : Bool
  deriving Repr, DecidableEq

def Route.authRequired (r : Route) : Bool := r.auth.getD true

structure Request where
  method : List Char
  host : List Char
  url : Url
  header : Header
  clientIP : List Char
  tls : Bool

def Request.inbound (r : Request) : Inbound := ⟨r.clientIP, r.host, r.tls⟩

structure CheckRequest where
  host : List Char
  method : List Char
  uri : List Char
  sourceIP : List Char
  backendPort : ℤ
  gatewayCookie : List Char
  publicCookie : List Char
  deriving Repr, DecidableEq

inductive Verdict
  | allow
  | authRequired
  | notFound
  | other (text : List Char)
  deriving Repr, DecidableEq

structure CheckResponse where
  decision : Verdict
  headers : Identity
  redirect : List Char
  cacheScopeHost : Bool
  cacheTTLSecs : ℤ
  deriving Repr, DecidableEq

structure ConsumeRequest where
  token : List Char
  sourceIP : List Char
  gatewayCookie : List Char
  deriving Repr, DecidableEq

/-- What the control plane answers while one request is served; none is an error. -/
structure ControlPlane where
  check : CheckRequest → Option CheckResponse
  consumeGuac : ConsumeRequest → Option Bool
  consumeRtsp : ConsumeRequest → Option Bool

/-- The fixed part of the server, with the parsing limits of its runtime. -/
structure Server where
  cookieName : List Char
  publicCookieName : List Char
  isLAN : List Char → Bool
  lanOnlyRedirect : List Char
  maxCookies : ℕ
  maxParams : ℕ
  sha256 : List Char → List Char

inductive Upstream
  | controlPlane
  | app (host : List Char)
  | guac
  | rtsp
  deriving Repr, DecidableEq

/-- Why the handler let a request pass. -/
inductive Ground
  | gate
  | openRoute
  | grant
  | cached (headers : Identity)
  | allowed (headers : Identity)
  deriving Repr, DecidableEq

structure Outgoing where
  upstream : Upstream
  header : Header
  url : Url

inductive Outcome
  | forward (ground : Ground) (out : Outgoing)
  | redirect (location : List Char)
  | error (status : ℕ) (text : String)

abbrev AuthzCache := Cache (List Char) Identity

/-- `upstream.ServeHTTP` of a proxy made by `newReverseProxy`. -/
def serveProxy (srv : Server) (upstream : Upstream) (ground : Ground) (r : Request) (h : Header) :
    Outcome :=
  match proxyHeader h r.inbound with
  | none => .error 502 "bad gateway"
  | some header =>
    .forward ground
      ⟨upstream, header, { r.url with rawQuery := cleanQueryParams srv.maxParams r.url.rawQuery }⟩

def stripIdentityHeaders (h : Header) : Header := identityHeaders.foldl del h

def setIdentity (h : Header) (d : Identity) : Header :=
  d.pairs.foldl (fun h p => set h p.1 p.2) h

def isPublicGatePath (path : List Char) : Bool := "/__hyproxy/".toList.isPrefixOf path

def serveGrantedWS (srv : Server) (consume : ConsumeRequest → Option Bool) (upstream : Upstream)
    (r : Request) (h : Header) (cookie : List Char) : Outcome :=
  let token := getFirst (parseQuery srv.maxParams r.url.rawQuery) "token".toList
  if token = [] then .error 401 "missing token"
  else
    match consume ⟨token, r.clientIP, cookie⟩ with
    | none => .error 503 "authorization unavailable"
    | some false => .error 403 "forbidden"
    | some true => serveProxy srv upstream .grant r h

def authzCacheKey (srv : Server) (host : List Char) (backendPort : ℤ) (sourceIP cookie : List Char) :
    List Char :=
  srv.sha256 (host ++ '\x00' :: (toString backendPort).toList ++ '\x00' :: sourceIP ++
    '\x00' :: cookie)

/-- A product of 64-bit integers. -/
def nanoseconds (secs : ℤ) : ℤ := (secs * 1000000000).bmod (2 ^ 64)

def isGetOrHead (method : List Char) : Bool :=
  method == "GET".toList || method == "HEAD".toList

/-- The per-request check, after a cache miss. -/
def serveChecked (srv : Server) (cp : ControlPlane) (cache : AuthzCache) (now : ℤ) (r : Request)
    (host : List Char) (route : Route) (h : Header) (cookie publicCookie : List Char) :
    Outcome × AuthzCache :=
  match cp.check ⟨host, r.method, r.url.requestURI, r.clientIP, route.backendPort, cookie,
    publicCookie⟩ with
  | none => (.error 503 "authorization unavailable", cache)
  | some decision =>
    match decision.decision with
    | .allow =>
      let cache :=
        if cookie ≠ [] ∧ decision.cacheScopeHost = true ∧ 0 < decision.cacheTTLSecs then
          put cache (authzCacheKey srv host route.backendPort r.clientIP cookie) decision.headers
            (nanoseconds decision.cacheTTLSecs) now
        else cache
      (serveProxy srv (.app host) (.allowed decision.headers) r (setIdentity h decision.headers),
        cache)
    | .authRequired =>
      if isGetOrHead r.method ∧ decision.redirect ≠ [] then (.redirect decision.redirect, cache)
      else (.error 401 "authentication required", cache)
    | .notFound => (.error 404 "404 page not found", cache)
    | .other _ => (.error 403 "forbidden", cache)

def serveApp (srv : Server) (cp : ControlPlane) (cache : AuthzCache) (now : ℤ) (r : Request)
    (host : List Char) (route : Route) : Outcome × AuthzCache :=
  if route.lanOnly && !srv.isLAN r.clientIP then
    if isGetOrHead r.method ∧ srv.lanOnlyRedirect ≠ [] then (.redirect srv.lanOnlyRedirect, cache)
    else (.error 403 "forbidden", cache)
  else
    let h := stripIdentityHeaders r.header
    let (cookie, h) := extractCookie srv.maxCookies h srv.cookieName
    if route.publicGate && isPublicGatePath r.url.path then
      (serveProxy srv .controlPlane .gate r h, cache)
    else
      let (publicCookie, h) := extractCookie srv.maxCookies h srv.publicCookieName
      if route.guacTunnel then
        (serveGrantedWS srv cp.consumeGuac (.app host) r h cookie, cache)
      else if route.guacTunnelPath && r.url.path == "/guac/tunnel".toList then
        (serveGrantedWS srv cp.consumeGuac .guac r h cookie, cache)
      else if route.rtspTunnelPath && r.url.path == "/rtsp/stream".toList then
        (serveGrantedWS srv cp.consumeRtsp .rtsp r h cookie, cache)
      else if !route.authRequired then
        (serveProxy srv (.app host) .openRoute r h, cache)
      else if cookie ≠ [] then
        match get cache (authzCacheKey srv host route.backendPort r.clientIP cookie) now with
        | (some headers, cache) =>
          (serveProxy srv (.app host) (.cached headers) r (setIdentity h headers), cache)
        | (none, cache) => serveChecked srv cp cache now r host route h cookie publicCookie
      else serveChecked srv cp cache now r host route h cookie publicCookie

/-- The headers of the client's request once the handler has cleaned them. -/
def gateHeader (srv : Server) (r : Request) : Header :=
  (extractCookie srv.maxCookies (stripIdentityHeaders r.header) srv.cookieName).2

def appHeader (srv : Server) (r : Request) : Header :=
  (extractCookie srv.maxCookies (gateHeader srv r) srv.publicCookieName).2

def gatewayCookie (srv : Server) (r : Request) : List Char :=
  (extractCookie srv.maxCookies (stripIdentityHeaders r.header) srv.cookieName).1

/-- The question that the handler asks the control plane. -/
def checkRequest (srv : Server) (r : Request) (host : List Char) (route : Route) : CheckRequest :=
  ⟨host, r.method, r.url.requestURI, r.clientIP, route.backendPort, gatewayCookie srv r,
    (extractCookie srv.maxCookies (gateHeader srv r) srv.publicCookieName).1⟩

def requestKey (srv : Server) (r : Request) (host : List Char) (route : Route) : List Char :=
  authzCacheKey srv host route.backendPort r.clientIP (gatewayCookie srv r)

/-- The headers handed to the proxy, for each ground of passing. -/
def headerFor (srv : Server) (r : Request) : Ground → Header
  | .gate => gateHeader srv r
  | .openRoute => appHeader srv r
  | .grant => appHeader srv r
  | .cached d => setIdentity (appHeader srv r) d
  | .allowed d => setIdentity (appHeader srv r) d

theorem serveProxy_forward (srv : Server) (upstream : Upstream) (ground g : Ground) (r : Request)
    (h : Header) (out : Outgoing) (hout : serveProxy srv upstream ground r h = .forward g out) :
    g = ground ∧ out.upstream = upstream ∧ proxyHeader h r.inbound = some out.header ∧
      out.url.rawQuery = cleanQueryParams srv.maxParams r.url.rawQuery := by
  unfold serveProxy at hout
  split at hout
  · cases hout
  · rename_i header hheader
    obtain ⟨rfl, rfl⟩ := Outcome.forward.inj hout
    exact ⟨rfl, rfl, hheader, rfl⟩

theorem serveProxy_of_header (srv : Server) (upstream : Upstream) (ground : Ground) (r : Request)
    (h header : Header) (hheader : proxyHeader h r.inbound = some header) :
    ∃ out, serveProxy srv upstream ground r h = .forward ground out ∧ out.header = header ∧
      out.upstream = upstream := by
  unfold serveProxy
  rw [hheader]
  exact ⟨_, rfl, rfl, rfl⟩

theorem serveGrantedWS_forward (srv : Server) (consume : ConsumeRequest → Option Bool)
    (upstream : Upstream) (r : Request) (h : Header) (cookie : List Char) (g : Ground)
    (out : Outgoing)
    (hout : serveGrantedWS srv consume upstream r h cookie = .forward g out) :
    getFirst (parseQuery srv.maxParams r.url.rawQuery) "token".toList ≠ [] ∧
      consume ⟨getFirst (parseQuery srv.maxParams r.url.rawQuery) "token".toList, r.clientIP,
        cookie⟩ = some true ∧
      serveProxy srv upstream .grant r h = .forward g out := by
  unfold serveGrantedWS at hout
  simp only at hout
  split at hout
  · cases hout
  · rename_i htoken
    split at hout
    · cases hout
    · cases hout
    · rename_i hconsume
      exact ⟨htoken, hconsume, hout⟩

/-- How a request can pass the handler. -/
structure Passes (srv : Server) (cp : ControlPlane) (cache : AuthzCache) (now : ℤ) (r : Request)
    (host : List Char) (route : Route) (ground : Ground) (out : Outgoing) : Prop where
  header : proxyHeader (headerFor srv r ground) r.inbound = some out.header
  query : out.url.rawQuery = cleanQueryParams srv.maxParams r.url.rawQuery
  gate : out.upstream = .controlPlane ↔ ground = .gate
  app : ground = .gate ∨ ground = .grant ∨ out.upstream = .app host
  cached : ∀ d, ground = .cached d →
    (get cache (requestKey srv r host route) now).1 = some d ∧ gatewayCookie srv r ≠ []
  allowed : ∀ d, ground = .allowed d → ∃ resp,
    cp.check (checkRequest srv r host route) = some resp ∧ resp.decision = .allow ∧
      resp.headers = d

theorem serveChecked_forward (srv : Server) (cp : ControlPlane) (cache : AuthzCache) (now : ℤ)
    (r : Request) (host : List Char) (route : Route) (h : Header) (cookie publicCookie : List Char)
    (g : Ground) (out : Outgoing)
    (hout : (serveChecked srv cp cache now r host route h cookie publicCookie).1 =
      .forward g out) :
    ∃ resp, cp.check ⟨host, r.method, r.url.requestURI, r.clientIP, route.backendPort, cookie,
        publicCookie⟩ = some resp ∧ resp.decision = .allow ∧
      serveProxy srv (.app host) (.allowed resp.headers) r (setIdentity h resp.headers) =
        .forward g out := by
  unfold serveChecked at hout
  split at hout
  · cases hout
  · rename_i resp hcheck
    split at hout
    · rename_i hallow
      exact ⟨resp, hcheck, hallow, hout⟩
    · split at hout <;> cases hout
    · cases hout
    · cases hout

theorem passes_of_serveProxy (srv : Server) (cp : ControlPlane) (cache : AuthzCache) (now : ℤ)
    (r : Request) (host : List Char) (route : Route) (upstream : Upstream) (ground g : Ground)
    (out : Outgoing)
    (hout : serveProxy srv upstream ground r (headerFor srv r ground) = .forward g out)
    (hgate : upstream = .controlPlane ↔ ground = .gate)
    (happ : ground = .gate ∨ ground = .grant ∨ upstream = .app host)
    (hcached : ∀ d, ground = .cached d →
      (get cache (requestKey srv r host route) now).1 = some d ∧ gatewayCookie srv r ≠ [])
    (hallowed : ∀ d, ground = .allowed d → ∃ resp,
      cp.check (checkRequest srv r host route) = some resp ∧ resp.decision = .allow ∧
        resp.headers = d) :
    Passes srv cp cache now r host route g out := by
  obtain ⟨rfl, rfl, hheader, hquery⟩ := serveProxy_forward srv upstream ground g r _ out hout
  exact ⟨hheader, hquery, hgate, happ, hcached, hallowed⟩

/-- One case for each way through the handler. -/
theorem serveApp_passes (srv : Server) (cp : ControlPlane) (cache : AuthzCache) (now : ℤ)
    (r : Request) (host : List Char) (route : Route) (ground : Ground) (out : Outgoing)
    (hout : (serveApp srv cp cache now r host route).1 = .forward ground out) :
    Passes srv cp cache now r host route ground out := by
  have hgrant : ∀ (consume : ConsumeRequest → Option Bool) (upstream : Upstream),
      upstream ≠ .controlPlane →
      serveGrantedWS srv consume upstream r (appHeader srv r) (gatewayCookie srv r) =
        .forward ground out → Passes srv cp cache now r host route ground out := by
    intro consume upstream hne hws
    obtain ⟨-, -, hproxy⟩ := serveGrantedWS_forward srv consume upstream r _ _ ground out hws
    exact passes_of_serveProxy srv cp cache now r host route upstream .grant ground out hproxy
      (by simp [hne]) (by simp) (by simp) (by simp)
  have hcheck : ∀ cache',
      (serveChecked srv cp cache' now r host route (appHeader srv r) (gatewayCookie srv r)
        (checkRequest srv r host route).publicCookie).1 = .forward ground out →
      Passes srv cp cache now r host route ground out := by
    intro cache' hchecked
    obtain ⟨resp, hresp, hallow, hproxy⟩ :=
      serveChecked_forward srv cp cache' now r host route _ _ _ ground out hchecked
    refine passes_of_serveProxy srv cp cache now r host route (.app host) (.allowed resp.headers)
      ground out hproxy (by simp) (by simp) (by simp) ?_
    intro d hd
    obtain rfl := Ground.allowed.inj hd
    exact ⟨resp, hresp, hallow, rfl⟩
  unfold serveApp at hout
  simp only at hout
  split at hout
  · split at hout <;> cases hout
  · split at hout
    · exact passes_of_serveProxy srv cp cache now r host route .controlPlane .gate ground out hout
        (by simp) (by simp) (by simp) (by simp)
    · split at hout
      · exact hgrant cp.consumeGuac (.app host) (by simp) hout
      · split at hout
        · exact hgrant cp.consumeGuac .guac (by simp) hout
        · split at hout
          · exact hgrant cp.consumeRtsp .rtsp (by simp) hout
          · split at hout
            · exact passes_of_serveProxy srv cp cache now r host route (.app host) .openRoute ground
                out hout (by simp) (by simp) (by simp) (by simp)
            · split at hout
              · rename_i hcookie
                split at hout
                · rename_i headers cache' hget
                  refine passes_of_serveProxy srv cp cache now r host route (.app host)
                    (.cached headers) ground out hout (by simp) (by simp) ?_ (by simp)
                  intro d hd
                  obtain rfl := Ground.cached.inj hd
                  exact ⟨congrArg Prod.fst hget, hcookie⟩
                · exact hcheck _ hout
              · exact hcheck _ hout

/-- On a plain authenticated route a cache miss and an allow reach the backend. -/
theorem serveApp_of_allow (srv : Server) (cp : ControlPlane) (cache : AuthzCache) (now : ℤ)
    (r : Request) (host : List Char) (port : ℤ) (resp : CheckResponse)
    (hmiss : (get cache (requestKey srv r host ⟨port, none, false, false, false, false, false⟩)
      now).1 = none)
    (hcheck : cp.check (checkRequest srv r host ⟨port, none, false, false, false, false, false⟩) =
      some resp)
    (hallow : resp.decision = .allow) :
    (serveApp srv cp cache now r host ⟨port, none, false, false, false, false, false⟩).1 =
      serveProxy srv (.app host) (.allowed resp.headers) r
        (setIdentity (appHeader srv r) resp.headers) := by
  have hchecked : ∀ cache', (serveChecked srv cp cache' now r host
      ⟨port, none, false, false, false, false, false⟩ (appHeader srv r) (gatewayCookie srv r)
      (checkRequest srv r host ⟨port, none, false, false, false, false, false⟩).publicCookie).1 =
        serveProxy srv (.app host) (.allowed resp.headers) r
          (setIdentity (appHeader srv r) resp.headers) := by
    intro cache'
    unfold serveChecked
    change (match cp.check (checkRequest srv r host ⟨port, none, false, false, false, false, false⟩)
      with
      | none => _
      | some decision => _ : Outcome × AuthzCache).1 = _
    rw [hcheck]
    simp only [hallow]
  unfold serveApp
  simp only [Bool.false_and, Bool.false_eq_true, if_false, Route.authRequired, Option.getD_none,
    Bool.not_true]
  split
  · split
    · rename_i headers cache' hget
      have hsome : (get cache (requestKey srv r host
          ⟨port, none, false, false, false, false, false⟩) now).1 = some headers :=
        congrArg Prod.fst hget
      rw [hmiss] at hsome
      cases hsome
    · exact hchecked _
  · exact hchecked _

/-- A route without authentication goes to its backend at once. -/
theorem serveApp_of_open (srv : Server) (cp : ControlPlane) (cache : AuthzCache) (now : ℤ)
    (r : Request) (host : List Char) (port : ℤ) :
    (serveApp srv cp cache now r host ⟨port, some false, false, false, false, false, false⟩).1 =
      serveProxy srv (.app host) .openRoute r (appHeader srv r) := rfl

theorem serveChecked_cache (srv : Server) (cp : ControlPlane) (cache : AuthzCache) (now : ℤ)
    (r : Request) (host : List Char) (route : Route) (h : Header) (p : List Char × Entry Identity)
    (hp : p ∈ (serveChecked srv cp cache now r host route h (gatewayCookie srv r)
      (checkRequest srv r host route).publicCookie).2) :
    p ∈ cache ∨ (p.1 = requestKey srv r host route ∧
      ∃ resp, cp.check (checkRequest srv r host route) = some resp ∧ resp.decision = .allow ∧
        resp.headers = p.2.headers) := by
  unfold serveChecked at hp
  split at hp
  · exact Or.inl hp
  · rename_i resp hcheck
    split at hp
    · rename_i hallow
      simp only at hp
      split at hp
      · rcases mem_put _ _ _ _ _ p hp with hp | ⟨hkey, hheaders⟩
        · exact Or.inl hp
        · exact Or.inr ⟨hkey, resp, hcheck, hallow, hheaders.symm⟩
      · exact Or.inl hp
    · split at hp <;> exact Or.inl hp
    · exact Or.inl hp
    · exact Or.inl hp

/-- A request adds at most its own allow to the cache, under its own key. -/
theorem serveApp_cache (srv : Server) (cp : ControlPlane) (cache : AuthzCache) (now : ℤ)
    (r : Request) (host : List Char) (route : Route) (p : List Char × Entry Identity)
    (hp : p ∈ (serveApp srv cp cache now r host route).2) :
    p ∈ cache ∨ (p.1 = requestKey srv r host route ∧
      ∃ resp, cp.check (checkRequest srv r host route) = some resp ∧ resp.decision = .allow ∧
        resp.headers = p.2.headers) := by
  unfold serveApp at hp
  simp only at hp
  split at hp
  · split at hp <;> exact Or.inl hp
  · split at hp
    · exact Or.inl hp
    · split at hp
      · exact Or.inl hp
      · split at hp
        · exact Or.inl hp
        · split at hp
          · exact Or.inl hp
          · split at hp
            · exact Or.inl hp
            · split at hp
              · split at hp
                · rename_i headers cache' hget
                  have hcache := congrArg Prod.snd hget
                  exact Or.inl (mem_get_cache cache _ now p (by rw [hcache]; exact hp))
                · rename_i cache' hget
                  have hcache := congrArg Prod.snd hget
                  rcases serveChecked_cache srv cp cache' now r host route _ p hp with hp | hp
                  · exact Or.inl (mem_get_cache cache _ now p (by rw [hcache]; exact hp))
                  · exact Or.inr hp
              · exact serveChecked_cache srv cp cache now r host route _ p hp

/-- One request as it is served: the answers of the control plane, the time and the route. -/
structure Call where
  cp : ControlPlane
  now : ℤ
  request : Request
  host : List Char
  route : Route

inductive Event
  | call (c : Call)
  | purge

def Call.serve (srv : Server) (c : Call) (cache : AuthzCache) : Outcome × AuthzCache :=
  serveApp srv c.cp cache c.now c.request c.host c.route

def step (srv : Server) (cache : AuthzCache) : Event → AuthzCache
  | .call c => (c.serve srv cache).2
  | .purge => purge cache

/-- The cache after a run of the data plane. -/
def cacheAfter (srv : Server) (events : List Event) : AuthzCache := events.foldl (step srv) []

/-- The control plane allowed this very request with these headers. -/
def Call.Allowed (srv : Server) (c : Call) (d : Identity) : Prop :=
  ∃ resp, c.cp.check (checkRequest srv c.request c.host c.route) = some resp ∧
    resp.decision = .allow ∧ resp.headers = d

def Call.key (srv : Server) (c : Call) : List Char := requestKey srv c.request c.host c.route

/-- Every entry of the cache is an allow that the control plane gave under that key. -/
theorem cacheAfter_allowed (srv : Server) (events : List Event) (p : List Char × Entry Identity)
    (hp : p ∈ cacheAfter srv events) :
    ∃ c, Event.call c ∈ events ∧ c.key srv = p.1 ∧ c.Allowed srv p.2.headers := by
  induction events using List.reverseRecOn with
  | nil => cases hp
  | append_singleton events e ih =>
    rw [cacheAfter, List.foldl_append, List.foldl_cons, List.foldl_nil] at hp
    cases e with
    | purge => cases hp
    | call c =>
      rcases serveApp_cache srv c.cp _ c.now c.request c.host c.route p hp with hp | ⟨hkey, hallow⟩
      · obtain ⟨c', hmem, h⟩ := ih hp
        exact ⟨c', List.mem_append_left _ hmem, h⟩
      · exact ⟨c, by simp, hkey.symm, hallow⟩

end Hyproxy.DataPlane

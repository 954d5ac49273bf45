import Hyproxy.AuthzCheck
import Hyproxy.CacheProvenance
import Hyproxy.PublicHosts

/-!
The route tables of the data plane: the static routes of its configuration, the
routes that the control plane derives from resources and exports as JSON, and the
snapshot that merges both. A map is the list of its entries in the order of
iteration. Parsers of the platform are parameters.
-/
namespace Hyproxy.RouteTables

open AuthzCheck (Resource utf8)
open DataPlane (ControlPlane Outcome Request Server serveApp serveProxy stripIdentityHeaders)
open PolicyEngine (Json)
open PublicHosts (lower rstripDots)
open Routing (Table toLower trimDot)
open Text (strip)

/-- A parsed URL, as far as backends are concerned; the port is a text of digits. -/
structure BackendUrl where
  scheme : List Char
  host : List Char
  path : List Char
  port : List Char
  deriving Repr, DecidableEq

/-- An address has 4 or 16 bytes, and a network a mask of as many. -/
structure Network where
  ip : List ℕ
  mask : List ℕ
  deriving Repr, DecidableEq

/-- `url.Parse`, `net.ParseCIDR` and `net.ParseIP` -/
structure Platform where
  parseURL : List Char → Option BackendUrl
  parseCIDR : List Char → Option Network
  parseIP : List Char → Option (List ℕ)

structure Route extends DataPlane.Route where
  backend : List Char
  deriving Repr, DecidableEq

abbrev Routes := List (List Char × Route)

/-- The configuration, apart from its log and bot filter settings. -/
structure Config where
  listen : List Char
  tlsCert : List Char
  tlsKey : List Char
  authzURL : List Char
  authHost : List Char
  authBackend : List Char
  gatewayCookieName : List Char
  publicCookieName : List Char
  routes : Routes
  guacBackend : List Char
  rtspBackend : List Char
  lanCidrs : List (List Char)
  lanOnlyRedirect : List Char
  deriving Repr, DecidableEq

inductive BackendError
  | unparseable
  | notAbsolute
  | path
  deriving Repr, DecidableEq

inductive ConfigError
  | listenRequired
  | tlsRequired
  | authzRequired
  | backend (field : String) (e : BackendError)
  | lanCidrs
  | lanOnlyRedirect
  | routeHost (host : List Char)
  | routeBackend (host : List Char) (e : BackendError)
  | guacTunnelPath (host : List Char)
  | rtspTunnelPath (host : List Char)
  deriving Repr, DecidableEq

def isHttp (scheme : List Char) : Bool := scheme == "http".toList || scheme == "https".toList

def parseBackend (p : Platform) (raw : List Char) : Except BackendError BackendUrl :=
  match p.parseURL raw with
  | none => .error .unparseable
  | some u =>
    if !isHttp u.scheme || u.host == [] then .error .notAbsolute
    else if u.path ≠ [] ∧ u.path ≠ "/".toList then .error .path
    else .ok u

def digitsValue (digits : List Char) : ℕ :=
  digits.foldl (fun n c => 10 * n + (c.toNat - '0'.toNat)) 0

/-- A port beyond the range of an integer is not read. -/
def portOf (u : BackendUrl) : ℕ :=
  if u.port ≠ [] then if digitsValue u.port < 2 ^ 63 then digitsValue u.port else 0
  else if u.scheme = "https".toList then 443
  else 80

def checkBackend (p : Platform) (field : String) (raw : List Char) : Except ConfigError Unit :=
  match parseBackend p raw with
  | .error e => .error (.backend field e)
  | .ok _ => .ok ()

/-- A backend that may be left out. -/
def checkOptional (p : Platform) (field : String) (raw : List Char) : Except ConfigError Unit :=
  if raw = [] then .ok () else checkBackend p field raw

def checkRequired (cfg : Config) : Except ConfigError Unit :=
  if cfg.listen = [] then .error .listenRequired
  else if cfg.tlsCert = [] ∨ cfg.tlsKey = [] then .error .tlsRequired
  else if cfg.authzURL = [] ∨ cfg.authHost = [] ∨ cfg.authBackend = [] then .error .authzRequired
  else .ok ()

def checkLan (p : Platform) (cfg : Config) : Except ConfigError Unit :=
  if cfg.lanCidrs.any fun cidr => (p.parseCIDR cidr).isNone then .error .lanCidrs
  else if cfg.lanOnlyRedirect = [] then .ok ()
  else
    match p.parseURL cfg.lanOnlyRedirect with
    | none => .error .lanOnlyRedirect
    | some u => if !isHttp u.scheme || u.host == [] then .error .lanOnlyRedirect else .ok ()

def checkRoute (p : Platform) (cfg : Config) (host : List Char) (route : Route) :
    Except ConfigError (List Char × Route) :=
  let h := toLower (trimDot host)
  if h == [] || h.any fun c => " /?#@\\".toList.contains c then .error (.routeHost host)
  else
    match parseBackend p route.backend with
    | .error e => .error (.routeBackend host e)
    | .ok u =>
      if route.guacTunnelPath && cfg.guacBackend == [] then .error (.guacTunnelPath host)
      else if route.rtspTunnelPath && cfg.rtspBackend == [] then .error (.rtspTunnelPath host)
      else .ok (h, if route.backendPort = 0 then { route with backendPort := portOf u } else route)

/-- Setting an entry of a map -/
def insert {α : Type} (m : List (List Char × α)) (entry : List Char × α) : List (List Char × α) :=
  m.filter (fun other => other.1 != entry.1) ++ [entry]

def checkRoutes (p : Platform) (cfg : Config) : Except ConfigError Routes :=
  cfg.routes.foldlM (fun done entry => (checkRoute p cfg entry.1 entry.2).map (insert done)) []

def orDefault (name fallback : List Char) : List Char := if name = [] then fallback else name

/-- `Validate`, which also fills in what was left out. -/
def validate (p : Platform) (cfg : Config) : Except ConfigError Config := do
  checkRequired cfg
  checkOptional p "guac_backend" cfg.guacBackend
  checkOptional p "rtsp_backend" cfg.rtspBackend
  checkLan p cfg
  checkBackend p "auth_backend" cfg.authBackend
  checkBackend p "authz_url" cfg.authzURL
  let routes ← checkRoutes p cfg
  return { cfg with
    gatewayCookieName := orDefault cfg.gatewayCookieName "__Secure-gw".toList
    publicCookieName := orDefault cfg.publicCookieName "__Host-hypublic".toList
    authHost := toLower cfg.authHost
    routes := routes }

/-! ### The networks of the LAN -/

/-- `IP.To4`, where it is not nil -/
def to4 (ip : List ℕ) : List ℕ :=
  if ip.length = 16 ∧ ip.take 12 = List.replicate 10 0 ++ [255, 255] then ip.drop 12 else ip

def masked (ip mask : List ℕ) : List ℕ := List.zipWith (fun a m => a &&& m) ip mask

/-- `networkNumberAndMask` -/
def Network.normal (n : Network) : Option (List ℕ × List ℕ) :=
  let ip := to4 n.ip
  if ip.length ≠ 4 ∧ ip.length ≠ 16 then none
  else if n.mask.length = 4 then if ip.length = 4 then some (ip, n.mask) else none
  else if n.mask.length = 16 then some (ip, if ip.length = 4 then n.mask.drop 12 else n.mask)
  else none

def Network.contains (n : Network) (ip : List ℕ) : Bool :=
  match n.normal with
  | none => false
  | some (number, mask) =>
    decide ((to4 ip).length = number.length) && masked number mask == masked (to4 ip) mask

/-- A network interface; an address that is no network, or cannot be listed, is none. -/
structure Interface where
  up : Bool
  addrs : Option (List (Option Network))
  deriving Repr, DecidableEq

/-- The IPv4 subnets of one interface. -/
def Interface.subnets (iface : Interface) : List Network :=
  if !iface.up then []
  else
    (iface.addrs.getD []).filterMap fun addr =>
      match addr with
      | none => none
      | some n =>
        if (to4 n.ip).length ≠ 4 then none
        else some ⟨masked (to4 n.ip) (if n.mask.length = 16 then n.mask.drop 12 else n.mask), n.mask⟩

/-- `resolveLanNets`; none is an error at startup. -/
def resolveLanNets (p : Platform) (cfg : Config) (interfaces : Option (List Interface)) :
    Option (List Network) :=
  let lanOnly := cfg.routes.any fun entry => entry.2.lanOnly
  let nets :=
    if cfg.lanCidrs ≠ [] then cfg.lanCidrs.mapM p.parseCIDR
    else
      match interfaces with
      | none => if lanOnly then none else some []
      | some ifaces => some (ifaces.flatMap Interface.subnets)
  nets.bind fun nets => if lanOnly && nets.isEmpty then none else some nets

def isLAN (p : Platform) (nets : List Network) (ip : List Char) : Bool :=
  match p.parseIP ip with
  | none => false
  | some parsed => nets.any fun n => n.contains parsed

/-! ### The routes of the resources -/

inductive Protocol
  | http
  | https
  | tcp
  | vnc
  | rdp
  | ssh
  | rtsp
  deriving Repr, DecidableEq

structure ResourceRow extends Resource where
  protocol : Protocol
  host : List Char
  deriving Repr, DecidableEq

structure RouteOut where
  backend : Option (List Char) := none
  backendPort : ℤ := 0
  guacTunnel : Bool := false
  publicGate : Bool := false
  deriving Repr, DecidableEq

def httpScheme : Protocol → Option (List Char)
  | .http => some "http".toList
  | .https => some "https".toList
  | _ => none

/-- The entry of one resource in the table that is exported. -/
def routeOf (r : ResourceRow) : Option (List Char × RouteOut) :=
  match r.publicHost with
  | none => none
  | some publicHost =>
    let host := rstripDots (lower (strip publicHost))
    if !r.enabled || host == [] then none
    else
      match httpScheme r.protocol, r.ports with
      | some scheme, port :: _ =>
        some (host, { backend := some (scheme ++ "://".toList ++ r.host ++ ':' :: (toString port).toList)
                      backendPort := port
                      publicGate := r.publicAccess })
      | _, _ => none

/-- `routes` -/
def exportRoutes (rows : List ResourceRow) : List (List Char × RouteOut) :=
  (rows.filterMap routeOf).foldl insert []

def RouteOut.json (r : RouteOut) : Json :=
  .obj
    [("backend".toList, match r.backend with
      | none => .null
      | some backend => .str backend),
     ("backend_port".toList, .num r.backendPort 0),
     ("guac_tunnel".toList, .bool r.guacTunnel),
     ("public_gate".toList, .bool r.publicGate)]

def routesJson (table : List (List Char × RouteOut)) : Json :=
  .obj [("routes".toList, .obj (table.map fun entry => (entry.1, entry.2.json)))]

/-! ### What the data plane reads -/

/-- The last member of that name, with case ignored; a null is as if it were left out. -/
def member (fields : List (List Char × Json)) (name : List Char) : Option Json :=
  ((fields.filter fun field => toLower (utf8 field.1) == name).getLast?).bind fun field =>
    match field.2 with
    | .null => none
    | value => some value

def decodeText : Option Json → Option (List Char)
  | none => some []
  | some (.str s) => some (utf8 s)
  | some _ => none

def decodePort : Option Json → Option ℤ
  | none => some 0
  | some (.num n 0) => some n
  | some _ => none

def decodeFlag : Option Json → Option (Option Bool)
  | none => some none
  | some (.bool b) => some (some b)
  | some _ => none

/-- A `config.Route` by its tags; another type than a field's is an error. -/
def decodeRoute : Json → Option Route
  | .obj fields =>
    match decodeText (member fields "backend".toList),
      decodePort (member fields "backend_port".toList), decodeFlag (member fields "auth".toList),
      decodeFlag (member fields "guac_tunnel".toList),
      decodeFlag (member fields "guac_tunnel_path".toList),
      decodeFlag (member fields "rtsp_tunnel_path".toList),
      decodeFlag (member fields "public_gate".toList),
      decodeFlag (member fields "lan_only".toList) with
    | some backend, some port, some auth, some guac, some guacPath, some rtspPath, some gate,
      some lan =>
      some ⟨⟨port, auth, guac.getD false, guacPath.getD false, rtspPath.getD false, gate.getD false,
        lan.getD false⟩, backend⟩
    | _, _, _, _, _, _, _, _ => none
  | .null => some ⟨⟨0, none, false, false, false, false, false⟩, []⟩
  | _ => none

/-- The body of the answer. -/
def decodeRoutes : Json → Option Routes
  | .obj fields =>
    match member fields "routes".toList with
    | none => some []
    | some (.obj entries) =>
      entries.foldlM (fun done entry =>
        (decodeRoute entry.2).map fun route => insert done (utf8 entry.1, route)) []
    | some _ => none
  | .null => some []
  | _ => none

/-- One snapshot: the routes and their proxies come from the same generation. -/
structure RouteSet where
  table : Table Route
  proxies : List (List Char × BackendUrl)

/-- The backend of a route; a Guacamole route of the control plane carries none of its own. -/
def backendOf (cfg : Config) (route : Route) : List Char :=
  if route.backend = [] ∧ route.guacTunnel = true then cfg.guacBackend else route.backend

/-- Static routes take precedence, and a route without a usable backend is skipped. -/
def buildRouteSet (p : Platform) (cfg : Config) (dbRoutes : Routes) : RouteSet :=
  let merged := cfg.routes.foldl insert dbRoutes
  let backed := merged.filterMap fun entry =>
    if backendOf cfg entry.2 = [] then none
    else (p.parseURL (backendOf cfg entry.2)).map fun u => (entry, u)
  ⟨⟨cfg.authHost, backed.map Prod.fst⟩, backed.map fun x => (x.1.1, x.2)⟩

/-! ### Serving -/

def isPublicBrokerPath (path : List Char) : Bool :=
  path == "/guac/token".toList || path == "/rtsp/token".toList

def serveAuthHost (srv : Server) (r : Request) : Outcome :=
  if !"/gateway/".toList.isPrefixOf r.url.path && !isPublicBrokerPath r.url.path then
    .error 404 "404 page not found"
  else serveProxy srv .controlPlane .gate r (stripIdentityHeaders r.header)

/-- `ServeHTTP`; a blocked request gets no answer. -/
def serveHTTP (blocked : Request → Bool) (srv : Server) (rs : RouteSet) (cp : ControlPlane)
    (cache : DataPlane.AuthzCache) (now : ℤ) (r : Request) : Option Outcome × DataPlane.AuthzCache :=
  if blocked r then (none, cache)
  else
    match rs.table.lookup r.host with
    | .none => (some (.error 421 ""), cache)
    | .auth => (some (serveAuthHost srv r), cache)
    | .app host route =>
      ((some (serveApp srv cp cache now r host route.toRoute).1),
        (serveApp srv cp cache now r host route.toRoute).2)

/-- `NewServer`: the server that a configuration starts, if the networks of the LAN are known where
they matter. -/
def newServer (base : Server) (p : Platform) (cfg : Config) (interfaces : Option (List Interface)) :
    Option Server :=
  (resolveLanNets p cfg interfaces).map fun nets =>
    { base with
      cookieName := cfg.gatewayCookieName
      publicCookieName := cfg.publicCookieName
      isLAN := isLAN p nets
      lanOnlyRedirect := cfg.lanOnlyRedirect }

/-! ### The entries of a table -/

theorem mem_insert {α : Type} (m : List (List Char × α)) (entry x : List Char × α)
    (hx : x ∈ insert m entry) : x = entry ∨ (x ∈ m ∧ x.1 ≠ entry.1) := by
  rcases List.mem_append.mp hx with hx | hx
  · obtain ⟨hmem, hne⟩ := List.mem_filter.mp hx
    exact Or.inr ⟨hmem, by simpa using hne⟩
  · exact Or.inl (List.mem_singleton.mp hx)

theorem mem_foldl_insert {α : Type} (entries m : List (List Char × α)) (x : List Char × α)
    (hx : x ∈ entries.foldl insert m) : x ∈ entries ∨ (x ∈ m ∧ ∀ entry ∈ entries, x.1 ≠ entry.1) := by
  induction entries generalizing m with
  | nil => exact Or.inr ⟨hx, fun entry hentry => absurd hentry List.not_mem_nil⟩
  | cons entry rest ih =>
    rcases ih (insert m entry) hx with hrest | ⟨hmem, hne⟩
    · exact Or.inl (List.mem_cons_of_mem _ hrest)
    · rcases mem_insert m entry x hmem with rfl | ⟨hold, hother⟩
      · exact Or.inl (List.mem_cons_self ..)
      · exact Or.inr ⟨hold, List.forall_mem_cons.mpr ⟨hother, hne⟩⟩

/-- A route of a snapshot is a static one, or one of the control plane under another host. -/
theorem mem_buildRouteSet (p : Platform) (cfg : Config) (dbRoutes : Routes) (entry : List Char × Route)
    (hentry : entry ∈ (buildRouteSet p cfg dbRoutes).table.routes) :
    (entry ∈ cfg.routes ∨ (entry ∈ dbRoutes ∧ ∀ other ∈ cfg.routes, entry.1 ≠ other.1)) ∧
      ∃ u, p.parseURL (backendOf cfg entry.2) = some u ∧
        (entry.1, u) ∈ (buildRouteSet p cfg dbRoutes).proxies := by
  obtain ⟨backed, hbacked, rfl⟩ := List.mem_map.mp hentry
  obtain ⟨merged, hmerged, hsome⟩ := List.mem_filterMap.mp hbacked
  split_ifs at hsome
  obtain ⟨u, hu, rfl⟩ := Option.map_eq_some_iff.mp hsome
  refine ⟨mem_foldl_insert _ _ _ hmerged, u, hu, ?_⟩
  exact List.mem_map.mpr ⟨(merged, u), hbacked, rfl⟩

/-- The proxy of a route is made of its own backend. -/
theorem proxies_lookup (backed : List ((List Char × Route) × BackendUrl)) (host : List Char)
    (route : Route) (h : (backed.map Prod.fst).lookup host = some route) :
    ∃ u, ((host, route), u) ∈ backed ∧
      (backed.map fun x => (x.1.1, x.2)).lookup host = some u := by
  induction backed with
  | nil => cases h
  | cons x rest ih =>
    obtain ⟨⟨name, own⟩, u⟩ := x
    rw [List.map_cons, List.lookup_cons] at h ⊢
    by_cases hname : host = name
    · subst hname
      rw [beq_self_eq_true] at h ⊢
      obtain rfl := Option.some.inj h
      exact ⟨u, List.mem_cons_self .., rfl⟩
    · rw [beq_eq_false_iff_ne.mpr hname] at h ⊢
      obtain ⟨found, hmem, hfound⟩ := ih h
      exact ⟨found, List.mem_cons_of_mem _ hmem, hfound⟩

/-- What a host is dialled at. -/
theorem dialled_of_lookup (p : Platform) (cfg : Config) (dbRoutes : Routes) (raw host : List Char)
    (route : Route) (h : (buildRouteSet p cfg dbRoutes).table.lookup raw = .app host route) :
    ∃ u, p.parseURL (backendOf cfg route) = some u ∧
      (buildRouteSet p cfg dbRoutes).proxies.lookup host = some u := by
  obtain ⟨u, hbacked, hproxy⟩ := proxies_lookup _ host route (Routing.lookup_app _ raw host route h)
  obtain ⟨merged, -, hsome⟩ := List.mem_filterMap.mp hbacked
  split_ifs at hsome
  obtain ⟨url, hurl, heq⟩ := Option.map_eq_some_iff.mp hsome
  obtain ⟨rfl, rfl⟩ := Prod.mk.inj heq
  exact ⟨url, hurl, hproxy⟩

theorem mem_of_table_lookup {α : Type} (t : Table α) (raw host : List Char) (route : α)
    (h : t.lookup raw = .app host route) : (host, route) ∈ t.routes := by
  obtain ⟨before, after, hsplit, -⟩ :=
    List.lookup_eq_some_iff.mp (Routing.lookup_app t raw host route h)
  rw [hsplit]
  simp

/-! ### The routes of the control plane -/

/-- A route that was exported: it goes to a backend of its own, and it is neither open nor a
tunnel. -/
structure Exported (route : Route) : Prop where
  auth : route.auth = none
  guacTunnel : route.guacTunnel = false
  guacTunnelPath : route.guacTunnelPath = false
  rtspTunnelPath : route.rtspTunnelPath = false
  lanOnly : route.lanOnly = false

theorem routeOf_spec (row : ResourceRow) (host : List Char) (out : RouteOut)
    (h : routeOf row = some (host, out)) : ∃ backend, out.backend = some backend ∧
      out.guacTunnel = false := by
  unfold routeOf at h
  cases hpublic : row.publicHost with
  | none =>
    rw [hpublic] at h
    cases h
  | some publicHost =>
    rw [hpublic] at h
    simp only at h
    split_ifs at h
    cases hscheme : httpScheme row.protocol with
    | none =>
      rw [hscheme] at h
      cases h
    | some scheme =>
      rw [hscheme] at h
      cases hports : row.ports with
      | nil =>
        rw [hports] at h
        cases h
      | cons port rest =>
        rw [hports] at h
        obtain ⟨-, rfl⟩ := Prod.mk.inj (Option.some.inj h)
        exact ⟨_, rfl, rfl⟩

/-- What becomes of an exported route across the wire. -/
theorem decodeRoute_json (out : RouteOut) (backend : List Char)
    (hbackend : out.backend = some backend) :
    decodeRoute out.json =
      some ⟨⟨out.backendPort, none, out.guacTunnel, false, false, out.publicGate, false⟩,
        utf8 backend⟩ := by
  obtain ⟨_, port, guac, gate⟩ := out
  obtain rfl := hbackend
  rfl

theorem mem_exportRoutes (rows : List ResourceRow) (entry : List Char × RouteOut)
    (hentry : entry ∈ exportRoutes rows) :
    ∃ backend, entry.2.backend = some backend ∧ entry.2.guacTunnel = false := by
  rcases mem_foldl_insert _ _ entry hentry with hmem | ⟨hmem, -⟩
  · obtain ⟨row, -, hrow⟩ := List.mem_filterMap.mp hmem
    exact routeOf_spec row entry.1 entry.2 hrow
  · cases hmem

theorem decodeEntries_exported (table : List (List Char × RouteOut)) (done : Routes)
    (htable : ∀ entry ∈ table, ∃ backend, entry.2.backend = some backend ∧ entry.2.guacTunnel = false)
    (hdone : ∀ entry ∈ done, Exported entry.2) :
    ∃ dbRoutes, (table.map fun entry => (entry.1, entry.2.json)).foldlM (fun done entry =>
        (decodeRoute entry.2).map fun route => insert done (utf8 entry.1, route)) done =
          some dbRoutes ∧ ∀ entry ∈ dbRoutes, Exported entry.2 := by
  induction table generalizing done with
  | nil => exact ⟨done, rfl, hdone⟩
  | cons entry rest ih =>
    rw [List.forall_mem_cons] at htable
    obtain ⟨⟨backend, hbackend, hguac⟩, hrest⟩ := htable
    rw [List.map_cons, List.foldlM_cons, decodeRoute_json entry.2 backend hbackend]
    refine ih _ hrest fun other hother => ?_
    rcases mem_insert _ _ other hother with rfl | ⟨hmem, -⟩
    · exact ⟨rfl, hguac, rfl, rfl, rfl⟩
    · exact hdone other hmem

/-- Every export is decoded, and the routes need authentication. -/
theorem decodeRoutes_exported (rows : List ResourceRow) :
    ∃ dbRoutes, decodeRoutes (routesJson (exportRoutes rows)) = some dbRoutes ∧
      ∀ entry ∈ dbRoutes, Exported entry.2 :=
  decodeEntries_exported (exportRoutes rows) [] (mem_exportRoutes rows)
    fun _ hentry => absurd hentry List.not_mem_nil

/-! ### What an accepted configuration guarantees -/

theorem bind_eq_ok {α β : Type} (x : Except ConfigError α) (f : α → Except ConfigError β) (r : β)
    (h : x >>= f = .ok r) : ∃ a, x = .ok a ∧ f a = .ok r := by
  cases x with
  | error e => cases h
  | ok a => exact ⟨a, rfl, h⟩

theorem checkRoute_backends (p : Platform) (cfg : Config) (host : List Char) (route : Route)
    (entry : List Char × Route) (hok : checkRoute p cfg host route = .ok entry) :
    (entry.2.guacTunnelPath = true → cfg.guacBackend ≠ []) ∧
      (entry.2.rtspTunnelPath = true → cfg.rtspBackend ≠ []) := by
  unfold checkRoute at hok
  simp only at hok
  by_cases hhost : (toLower (trimDot host) == [] ||
      (toLower (trimDot host)).any fun c => " /?#@\\".toList.contains c) = true
  · rw [if_pos hhost] at hok
    cases hok
  rw [if_neg hhost] at hok
  cases hbackend : parseBackend p route.backend with
  | error e =>
    rw [hbackend] at hok
    cases hok
  | ok u =>
    rw [hbackend] at hok
    simp only at hok
    by_cases hguac : (route.guacTunnelPath && cfg.guacBackend == []) = true
    · rw [if_pos hguac] at hok
      cases hok
    · rw [if_neg hguac] at hok
      by_cases hrtsp : (route.rtspTunnelPath && cfg.rtspBackend == []) = true
      · rw [if_pos hrtsp] at hok
        cases hok
      · rw [if_neg hrtsp] at hok
        obtain rfl := Except.ok.inj hok
        have hflags : (if route.backendPort = 0 then { route with backendPort := portOf u }
            else route).guacTunnelPath = route.guacTunnelPath ∧
          (if route.backendPort = 0 then { route with backendPort := portOf u }
            else route).rtspTunnelPath = route.rtspTunnelPath := by
          split_ifs <;> exact ⟨rfl, rfl⟩
        simp only [hflags.1, hflags.2]
        exact ⟨fun hpath hempty => hguac (by simp [hpath, hempty]),
          fun hpath hempty => hrtsp (by simp [hpath, hempty])⟩

theorem checkRoutes_backends (p : Platform) (cfg : Config) (entries done routes : Routes)
    (hok : entries.foldlM (fun done entry => (checkRoute p cfg entry.1 entry.2).map (insert done))
      done = .ok routes)
    (hdone : ∀ entry ∈ done, (entry.2.guacTunnelPath = true → cfg.guacBackend ≠ []) ∧
      (entry.2.rtspTunnelPath = true → cfg.rtspBackend ≠ [])) :
    ∀ entry ∈ routes, (entry.2.guacTunnelPath = true → cfg.guacBackend ≠ []) ∧
      (entry.2.rtspTunnelPath = true → cfg.rtspBackend ≠ []) := by
  induction entries generalizing done with
  | nil =>
    obtain rfl := Except.ok.inj hok
    exact hdone
  | cons entry rest ih =>
    rw [List.foldlM_cons] at hok
    cases hcheck : checkRoute p cfg entry.1 entry.2 with
    | error e =>
      rw [hcheck] at hok
      cases hok
    | ok checked =>
      rw [hcheck] at hok
      refine ih (insert done checked) hok fun other hother => ?_
      rcases mem_insert _ _ other hother with rfl | ⟨hmem, -⟩
      · exact checkRoute_backends p cfg _ _ _ hcheck
      · exact hdone other hmem

/-- A route with a tunnel path is accepted only with a backend for the tunnel. -/
theorem validate_backends (p : Platform) (raw cfg : Config) (hok : validate p raw = .ok cfg) :
    ∀ entry ∈ cfg.routes, (entry.2.guacTunnelPath = true → cfg.guacBackend ≠ []) ∧
      (entry.2.rtspTunnelPath = true → cfg.rtspBackend ≠ []) := by
  obtain ⟨-, -, hok⟩ := bind_eq_ok _ _ _ hok
  obtain ⟨-, -, hok⟩ := bind_eq_ok _ _ _ hok
  obtain ⟨-, -, hok⟩ := bind_eq_ok _ _ _ hok
  obtain ⟨-, -, hok⟩ := bind_eq_ok _ _ _ hok
  obtain ⟨-, -, hok⟩ := bind_eq_ok _ _ _ hok
  obtain ⟨-, -, hok⟩ := bind_eq_ok _ _ _ hok
  obtain ⟨routes, hroutes, hok⟩ := bind_eq_ok _ _ _ hok
  obtain rfl := Except.ok.inj hok
  exact checkRoutes_backends p raw raw.routes [] routes hroutes
    fun _ hentry => absurd hentry List.not_mem_nil

end Hyproxy.RouteTables

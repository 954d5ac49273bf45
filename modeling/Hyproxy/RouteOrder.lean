import Hyproxy.RouteMaps

/-!
The static routes that `Validate` leaves, and the order in which the map of routes
is iterated. Each route is checked by itself; keys that are the same host, in lower
case and without a final dot, become one entry, which the last of them in the order
sets. The function that lowers a host is a parameter.
-/
namespace Hyproxy.RouteOrder

open RouteMaps
open RouteTables (Config ConfigError Platform Route Routes checkBackend checkLan checkOptional
  checkRequired orDefault parseBackend portOf)
open Routing (toLower trimDot)

variable (lower : List Char → List Char) (p : Platform)

/-- The key of a host in the routes that `Validate` leaves. -/
def hostKey (host : List Char) : List Char := lower (trimDot host)

def checkRoute (cfg : Config) (host : List Char) (route : Route) :
    Except ConfigError (List Char × Route) :=
  let h := hostKey lower host
  if h == [] || h.any fun c => " /?#@\\".toList.contains c then .error (.routeHost host)
  else
    match parseBackend p route.backend with
    | .error e => .error (.routeBackend host e)
    | .ok u =>
      if route.guacTunnelPath && cfg.guacBackend == [] then .error (.guacTunnelPath host)
      else if route.rtspTunnelPath && cfg.rtspBackend == [] then .error (.rtspTunnelPath host)
      else .ok (h, if route.backendPort = 0 then { route with backendPort := portOf u } else route)

def checkRoutes (cfg : Config) : Except ConfigError Routes :=
  cfg.routes.foldlM
    (fun done entry => (checkRoute lower p cfg entry.1 entry.2).map (RouteTables.insert done)) []

/-- The checks before those of the routes. -/
def checkHead (cfg : Config) : Except ConfigError Unit := do
  checkRequired cfg
  checkOptional p "guac_backend" cfg.guacBackend
  checkOptional p "rtsp_backend" cfg.rtspBackend
  checkLan p cfg
  checkBackend p "auth_backend" cfg.authBackend
  checkBackend p "authz_url" cfg.authzURL

/-- `Validate` -/
def validate (cfg : Config) : Except ConfigError Config := do
  checkHead p cfg
  let routes ← checkRoutes lower p cfg
  return { cfg with
    gatewayCookieName := orDefault cfg.gatewayCookieName "__Secure-gw".toList
    publicCookieName := orDefault cfg.publicCookieName "__Host-hypublic".toList
    authHost := lower cfg.authHost
    routes := routes }

theorem validate_toLower (cfg : Config) : validate toLower p cfg = RouteTables.validate p cfg := by
  unfold validate RouteTables.validate checkHead
  simp only [bind_assoc]
  rfl

/-! ### What the checks leave -/

/-- The route with the port of its backend where none is given. -/
def filled (route : Route) : Route :=
  match parseBackend p route.backend with
  | .error _ => route
  | .ok u => if route.backendPort = 0 then { route with backendPort := portOf u } else route

/-- The entry that an accepted one becomes. -/
def normal (entry : List Char × Route) : List Char × Route :=
  (hostKey lower entry.1, filled p entry.2)

/-- The checks of one entry pass. -/
def Passes (cfg : Config) (entry : List Char × Route) : Prop :=
  ∃ checked, checkRoute lower p cfg entry.1 entry.2 = .ok checked

def normalRoutes (entries : Routes) : Routes :=
  (entries.map (normal lower p)).foldl RouteTables.insert []

def normalConfig (cfg : Config) : Config :=
  { cfg with
    gatewayCookieName := orDefault cfg.gatewayCookieName "__Secure-gw".toList
    publicCookieName := orDefault cfg.publicCookieName "__Host-hypublic".toList
    authHost := lower cfg.authHost
    routes := normalRoutes lower p cfg.routes }

theorem checkRoute_ok (cfg : Config) (entry checked : List Char × Route)
    (h : checkRoute lower p cfg entry.1 entry.2 = .ok checked) :
    checked = normal lower p entry ∧ ∃ u, parseBackend p entry.2.backend = .ok u := by
  unfold checkRoute at h
  simp only at h
  cases hbackend : parseBackend p entry.2.backend with
  | error e =>
    rw [hbackend] at h
    split_ifs at h
  | ok u =>
    rw [hbackend] at h
    simp only at h
    have hentry : (hostKey lower entry.1, if entry.2.backendPort = 0 then
        { entry.2 with backendPort := portOf u } else entry.2) = normal lower p entry := by
      simp only [normal, filled, hbackend]
    rw [hentry] at h
    split_ifs at h
    obtain rfl := Except.ok.inj h
    exact ⟨rfl, u, rfl⟩

theorem checkEntries_iff (cfg : Config) (entries done routes : Routes) :
    entries.foldlM (fun done entry =>
        (checkRoute lower p cfg entry.1 entry.2).map (RouteTables.insert done)) done = .ok routes ↔
      (∀ entry ∈ entries, Passes lower p cfg entry) ∧
        routes = (entries.map (normal lower p)).foldl RouteTables.insert done := by
  induction entries generalizing done with
  | nil =>
    simp only [List.foldlM_nil, List.not_mem_nil, false_implies, implies_true, true_and,
      List.map_nil, List.foldl_nil]
    exact ⟨fun h => (Except.ok.inj h).symm, fun h => by rw [h]; rfl⟩
  | cons entry rest ih =>
    rw [List.foldlM_cons, List.forall_mem_cons, List.map_cons, List.foldl_cons]
    cases hcheck : checkRoute lower p cfg entry.1 entry.2 with
    | error e =>
      have hfails : ¬ Passes lower p cfg entry := by
        rintro ⟨checked, hchecked⟩
        rw [hcheck] at hchecked
        cases hchecked
      exact ⟨fun h => (by cases h), fun h => absurd h.1.1 hfails⟩
    | ok checked =>
      obtain ⟨rfl, -⟩ := checkRoute_ok lower p cfg entry checked hcheck
      have hpasses : Passes lower p cfg entry := ⟨_, hcheck⟩
      have hrest := ih (RouteTables.insert done (normal lower p entry))
      simp only [hpasses, true_and]
      exact hrest

theorem validate_ok_iff (cfg result : Config) :
    validate lower p cfg = .ok result ↔
      checkHead p cfg = .ok () ∧ (∀ entry ∈ cfg.routes, Passes lower p cfg entry) ∧
        result = normalConfig lower p cfg := by
  have hroutes := checkEntries_iff lower p cfg cfg.routes []
  constructor
  · intro h
    obtain ⟨⟨⟩, hhead, h⟩ := RouteTables.bind_eq_ok _ _ _ h
    obtain ⟨routes, hchecked, h⟩ := RouteTables.bind_eq_ok _ _ _ h
    obtain ⟨hpasses, rfl⟩ := (hroutes routes).mp hchecked
    exact ⟨hhead, hpasses, (Except.ok.inj h).symm⟩
  · rintro ⟨hhead, hpasses, rfl⟩
    have hchecked := (hroutes (normalRoutes lower p cfg.routes)).mpr ⟨hpasses, rfl⟩
    unfold validate checkRoutes
    rw [hhead, hchecked]
    rfl

/-- Each host of the routes that are left. -/
theorem lookup_normalRoutes (entries : Routes) (host : List Char) :
    (normalRoutes lower p entries).lookup host =
      (entries.map (normal lower p)).reverse.lookup host := by
  rw [normalRoutes, lookup_foldl_insert]
  simp

theorem distinct_normalRoutes (entries : Routes) : Distinct (normalRoutes lower p entries) :=
  distinct_foldl_insert _ [] List.nodup_nil

/-! ### The order of the routes -/

/-- Both are errors, or the same configuration, whose routes are a map. -/
def SameResult : Except ConfigError Config → Except ConfigError Config → Prop
  | .error _, .error _ => True
  | .ok c₁, .ok c₂ =>
    SameMap c₁.routes c₂.routes ∧ { c₁ with routes := [] } = { c₂ with routes := [] }
  | _, _ => False

/-- The configuration as `Validate` finds it in that order of the map. -/
def inOrder (cfg : Config) (order : Routes) : Config := { cfg with routes := order }

def OrderFree (cfg : Config) : Prop :=
  ∀ order₁ order₂, order₁.Perm cfg.routes → order₂.Perm cfg.routes →
    SameResult (validate lower p (inOrder cfg order₁)) (validate lower p (inOrder cfg order₂))

/-- Some check refuses the configuration. -/
def Refused (cfg : Config) : Prop :=
  checkHead p cfg ≠ .ok () ∨ ∃ entry ∈ cfg.routes, ¬ Passes lower p cfg entry

/-- Keys that are the same host have the same route. -/
def Agree (cfg : Config) : Prop :=
  ∀ a ∈ cfg.routes, ∀ b ∈ cfg.routes, hostKey lower a.1 = hostKey lower b.1 →
    filled p a.2 = filled p b.2

theorem validate_inOrder (cfg : Config) (order : Routes) (horder : order.Perm cfg.routes) :
    (Refused lower p cfg ∧ ∃ e, validate lower p (inOrder cfg order) = .error e) ∨
      (¬ Refused lower p cfg ∧ validate lower p (inOrder cfg order) =
        .ok (normalConfig lower p (inOrder cfg order))) := by
  have hok := validate_ok_iff lower p (inOrder cfg order)
  have hpasses : (∀ entry ∈ order, Passes lower p cfg entry) ↔
      ∀ entry ∈ cfg.routes, Passes lower p cfg entry :=
    ⟨fun h entry hentry => h entry (horder.mem_iff.mpr hentry),
      fun h entry hentry => h entry (horder.mem_iff.mp hentry)⟩
  by_cases hrefused : Refused lower p cfg
  · refine Or.inl ⟨hrefused, ?_⟩
    cases hresult : validate lower p (inOrder cfg order) with
    | error e => exact ⟨e, rfl⟩
    | ok result =>
      obtain ⟨hhead, hall, -⟩ := (hok result).mp hresult
      rcases hrefused with hrefused | ⟨entry, hentry, hfails⟩
      · exact absurd hhead hrefused
      · exact absurd (hpasses.mp hall entry hentry) hfails
  · refine Or.inr ⟨hrefused, (hok _).mpr ⟨?_, ?_, rfl⟩⟩
    · by_contra hhead
      exact hrefused (Or.inl hhead)
    · refine hpasses.mpr fun entry hentry => ?_
      by_contra hfails
      exact hrefused (Or.inr ⟨entry, hentry, hfails⟩)

/-- In the order that sets an entry last, its host has its route. -/
theorem exists_order_last (cfg : Config) (entry : List Char × Route) (h : entry ∈ cfg.routes) :
    ∃ order, order.Perm cfg.routes ∧
      (normalRoutes lower p order).lookup (hostKey lower entry.1) = some (filled p entry.2) := by
  refine ⟨cfg.routes.erase entry ++ [entry], ?_, ?_⟩
  · exact List.perm_append_comm.trans (List.perm_cons_erase h).symm
  · rw [lookup_normalRoutes, List.map_append, List.reverse_append, List.map_singleton,
      List.reverse_singleton, List.singleton_append, lookup_cons]
    exact if_pos rfl

theorem sameMap_of_agree (cfg : Config) (order₁ order₂ : Routes) (h₁ : order₁.Perm cfg.routes)
    (h₂ : order₂.Perm cfg.routes) (hagree : Agree lower p cfg) :
    SameMap (normalRoutes lower p order₁) (normalRoutes lower p order₂) := by
  have hsame : SameMap (order₁.map (normal lower p)).reverse
      (order₂.map (normal lower p)).reverse := by
    refine sameMap_of_mem_iff _ _ (fun entry => ?_) ?_
    · rw [List.mem_reverse, List.mem_reverse]
      exact ((h₁.trans h₂.symm).map _).mem_iff
    · intro a ha b hb hkey
      obtain ⟨x, hx, rfl⟩ := List.mem_map.mp (List.mem_reverse.mp ha)
      obtain ⟨y, hy, rfl⟩ := List.mem_map.mp (List.mem_reverse.mp hb)
      exact hagree x (h₁.mem_iff.mp hx) y (h₁.mem_iff.mp hy) hkey
  intro host
  rw [lookup_normalRoutes, lookup_normalRoutes]
  exact hsame host

/-- The order of the map does not matter when the configuration is refused, or keys that are the
same host have the same route, and only then. -/
theorem orderFree_iff (cfg : Config) :
    OrderFree lower p cfg ↔ Refused lower p cfg ∨ Agree lower p cfg := by
  constructor
  · intro h
    by_cases hrefused : Refused lower p cfg
    · exact Or.inl hrefused
    refine Or.inr fun a ha b hb hkey => ?_
    obtain ⟨order₁, h₁, hlast₁⟩ := exists_order_last lower p cfg a ha
    obtain ⟨order₂, h₂, hlast₂⟩ := exists_order_last lower p cfg b hb
    have hsame := h order₁ order₂ h₁ h₂
    obtain ⟨habsurd, -⟩ | ⟨-, hok₁⟩ := validate_inOrder lower p cfg order₁ h₁
    · exact absurd habsurd hrefused
    obtain ⟨habsurd, -⟩ | ⟨-, hok₂⟩ := validate_inOrder lower p cfg order₂ h₂
    · exact absurd habsurd hrefused
    rw [hok₁, hok₂] at hsame
    have hhost := hsame.1 (hostKey lower a.1)
    simp only [normalConfig, inOrder] at hhost
    rw [hlast₁, hkey, hlast₂] at hhost
    exact Option.some.inj hhost
  · intro h order₁ order₂ h₁ h₂
    rcases validate_inOrder lower p cfg order₁ h₁ with ⟨hrefused, e₁, he₁⟩ | ⟨haccepted, hok₁⟩
    · obtain ⟨-, e₂, he₂⟩ | ⟨haccepted, -⟩ := validate_inOrder lower p cfg order₂ h₂
      · rw [he₁, he₂]
        trivial
      · exact absurd hrefused haccepted
    · obtain ⟨hrefused, -⟩ | ⟨-, hok₂⟩ := validate_inOrder lower p cfg order₂ h₂
      · exact absurd hrefused haccepted
      · rw [hok₁, hok₂]
        exact ⟨sameMap_of_agree lower p cfg order₁ order₂ h₁ h₂ (h.resolve_left haccepted), rfl⟩

def sampleBackend : List Char := "http://10.0.0.5:80".toList

def samplePlatform : Platform where
  parseURL := fun raw =>
    if raw = sampleBackend then some ⟨"http".toList, "10.0.0.5:80".toList, [], "80".toList⟩
    else if raw = [] then some ⟨[], [], [], []⟩
    else none
  parseCIDR := fun _ => none
  parseIP := fun _ => none

def sampleRoute (lanOnly : Bool) : Route :=
  ⟨⟨80, none, false, false, false, false, lanOnly⟩, sampleBackend⟩

def sampleConfig (routes : Routes) : Config where
  listen := ":443".toList
  tlsCert := "c".toList
  tlsKey := "k".toList
  authzURL := sampleBackend
  authHost := "auth.example.org".toList
  authBackend := sampleBackend
  gatewayCookieName := []
  publicCookieName := []
  routes := routes
  guacBackend := []
  rtspBackend := []
  lanCidrs := []
  lanOnlyRedirect := []

/-- One host in two spellings, with the restriction to the LAN and without it. -/
def sampleTwice : Config :=
  sampleConfig [("admin.example.org".toList, sampleRoute true),
    ("Admin.example.org".toList, sampleRoute false)]

theorem spellings_differ : ¬ ∀ cfg : Config, OrderFree toLower samplePlatform cfg := by
  intro h
  have hsame := h sampleTwice sampleTwice.routes sampleTwice.routes.reverse (List.Perm.refl _)
    (List.reverse_perm _)
  have h₁ : validate toLower samplePlatform (inOrder sampleTwice sampleTwice.routes) =
      .ok (normalConfig toLower samplePlatform (inOrder sampleTwice sampleTwice.routes)) := rfl
  have h₂ : validate toLower samplePlatform (inOrder sampleTwice sampleTwice.routes.reverse) =
      .ok (normalConfig toLower samplePlatform
        (inOrder sampleTwice sampleTwice.routes.reverse)) := rfl
  rw [h₁, h₂] at hsame
  exact absurd (hsame.1 "admin.example.org".toList) (by decide)

end Hyproxy.RouteOrder

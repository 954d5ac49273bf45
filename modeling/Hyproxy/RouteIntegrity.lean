import Hyproxy.RouteOrder
import Hyproxy.RouteSwaps

/-!
The route set after any sequence of swaps. What is installed is what the last map
of the control plane and the static routes make: a static host has its static
route, another host has its route of the map when that has a usable backend, and
every route has its proxy. A swap with an equal map changes nothing.
-/
namespace Hyproxy.RouteIntegrity

open RouteMaps
open RouteSwaps (deepEqual unchanged)
open RouteTables (BackendUrl Config Platform Route RouteSet Routes backendOf buildRouteSet isHttp
  parseBackend validate)
open Routing

/-- A map of routes that the control plane sends. -/
structure RouteMap where
  entries : Routes
  distinct : Distinct entries

structure Installed where
  routes : RouteSet
  lastDBRoutes : Option Routes
  cache : DataPlane.AuthzCache

def swapRoutes (p : Platform) (cfg : Config) (s : Installed) (dbRoutes : Option Routes) :
    Installed :=
  if unchanged s.lastDBRoutes dbRoutes then s
  else ⟨buildRouteSet p cfg (dbRoutes.getD []), dbRoutes, []⟩

/-- The server as `NewServer` leaves it -/
def initial (p : Platform) (cfg : Config) : Installed := ⟨buildRouteSet p cfg [], none, []⟩

/-- A swap, or requests, which leave another cache. -/
inductive Event
  | swap (dbRoutes : RouteMap)
  | serve (cache : DataPlane.AuthzCache)

def step (p : Platform) (cfg : Config) (s : Installed) : Event → Installed
  | .swap dbRoutes => swapRoutes p cfg s (some dbRoutes.entries)
  | .serve cache => { s with cache := cache }

def run (p : Platform) (cfg : Config) (events : List Event) : Installed :=
  events.foldl (step p cfg) (initial p cfg)

def Event.map : Event → Option RouteMap
  | .swap dbRoutes => some dbRoutes
  | .serve _ => none

/-- The map that was passed last, if there was one. -/
def lastMap (events : List Event) : Option RouteMap := (events.filterMap Event.map).getLast?

def lastEntries (events : List Event) : Routes := ((lastMap events).map RouteMap.entries).getD []

/-- The route has a backend, and it parses. -/
def backed (p : Platform) (cfg : Config) (route : Route) : Bool :=
  backendOf cfg route != [] && (p.parseURL (backendOf cfg route)).isSome

/-- Route sets with the same routes and proxies. -/
structure SameRoutes (left right : RouteSet) : Prop where
  authHost : left.table.authHost = right.table.authHost
  table : SameMap left.table.routes right.table.routes
  proxies : SameMap left.proxies right.proxies

/-- What a route set is for the static routes and a map of the control plane. -/
structure Integrity (p : Platform) (cfg : Config) (dbRoutes : Routes) (rs : RouteSet) : Prop where
  keys : ∀ host, (rs.table.routes.lookup host).isSome ↔ (rs.proxies.lookup host).isSome
  proxied : ∀ raw host route, rs.table.lookup raw = .app host route →
    ∃ u, p.parseURL (backendOf cfg route) = some u ∧ rs.proxies.lookup host = some u
  static : ∀ entry ∈ cfg.routes, rs.table.routes.lookup entry.1 = some entry.2
  dynamic : ∀ host, cfg.routes.lookup host = none →
    rs.table.routes.lookup host = (dbRoutes.lookup host).filter (backed p cfg)
  auth : ∀ raw, normalizeHost raw = some cfg.authHost → rs.table.lookup raw = .auth
  unshadowed : ∀ raw host route, normalizeHost raw = normalizeHost cfg.authHost →
    rs.table.lookup raw = .app host route → cfg.routes.lookup host = some route

/-- The auth host is written in the form in which hosts are compared, or has none; else its form is
a static host, or the map has no usable route for it. -/
def AuthKept (p : Platform) (cfg : Config) (dbRoutes : Routes) : Prop :=
  ∀ host, normalizeHost cfg.authHost = some host → host = cfg.authHost ∨
    (cfg.routes.lookup host).isSome ∨ (dbRoutes.lookup host).filter (backed p cfg) = none

/-! ### Equal maps -/

theorem keys_perm_of_sameMap (m₁ m₂ : Routes) (h₁ : Distinct m₁) (h₂ : Distinct m₂)
    (hsame : SameMap m₁ m₂) : (m₁.map Prod.fst).Perm (m₂.map Prod.fst) := by
  have hkey : ∀ (m : Routes) host, host ∈ m.map Prod.fst ↔ m.lookup host ≠ none := by
    intro m host
    rw [ne_eq, lookup_none_iff]
    simp
  refine (List.perm_ext_iff_of_nodup h₁ h₂).mpr fun host => ?_
  rw [hkey, hkey, hsame host]

/-- `reflect.DeepEqual` decides whether two maps are the same. -/
theorem deepEqual_iff (m₁ m₂ : Routes) (h₁ : Distinct m₁) (h₂ : Distinct m₂) :
    deepEqual m₁ m₂ = true ↔ SameMap m₁ m₂ := by
  simp only [deepEqual, Bool.and_eq_true, beq_iff_eq, List.all_eq_true]
  constructor
  · rintro ⟨hlength, hall⟩ host
    have hsub : m₁.map Prod.fst ⊆ m₂.map Prod.fst := by
      intro key hkey
      obtain ⟨entry, hentry, rfl⟩ := List.mem_map.mp hkey
      exact List.mem_map_of_mem (mem_of_lookup m₂ _ _ (hall entry hentry))
    have hperm : (m₁.map Prod.fst).Perm (m₂.map Prod.fst) :=
      (List.subperm_of_subset h₁ hsub).perm_of_length_le (by simp [hlength])
    cases hfound : m₁.lookup host with
    | some route => exact (hall (host, route) (mem_of_lookup m₁ host route hfound)).symm
    | none =>
      symm
      rw [lookup_none_iff] at hfound ⊢
      intro entry hentry heq
      have hkey := hperm.mem_iff.mpr (List.mem_map_of_mem (f := Prod.fst) hentry)
      obtain ⟨other, hother, hsame⟩ := List.mem_map.mp hkey
      exact hfound other hother (hsame.trans heq)
  · intro hsame
    have hperm := keys_perm_of_sameMap m₁ m₂ h₁ h₂ hsame
    refine ⟨by simpa using hperm.length_eq, fun entry hentry => ?_⟩
    rw [← hsame entry.1]
    exact lookup_of_mem m₁ h₁ entry hentry

/-! ### The route set of one map -/

theorem lookup_merged (cfg : Config) (dbRoutes : Routes) (hstatic : Distinct cfg.routes)
    (host : List Char) :
    (cfg.routes.foldl RouteTables.insert dbRoutes).lookup host =
      (cfg.routes.lookup host).or (dbRoutes.lookup host) := by
  rw [lookup_foldl_insert, lookup_reverse cfg.routes hstatic]

/-- An entry with its proxy, as `buildRouteSet` keeps it. -/
def withProxy (p : Platform) (cfg : Config) (entry : List Char × Route) :
    Option ((List Char × Route) × BackendUrl) :=
  if backendOf cfg entry.2 = [] then none
  else (p.parseURL (backendOf cfg entry.2)).map fun u => (entry, u)

theorem withProxy_cases (p : Platform) (cfg : Config) (entry : List Char × Route) :
    (backed p cfg entry.2 = false ∧ withProxy p cfg entry = none) ∨
      ∃ u, backed p cfg entry.2 = true ∧ p.parseURL (backendOf cfg entry.2) = some u ∧
        withProxy p cfg entry = some (entry, u) := by
  unfold withProxy backed
  by_cases hempty : backendOf cfg entry.2 = []
  · exact Or.inl ⟨by simp [hempty], if_pos hempty⟩
  · rw [if_neg hempty]
    cases hparse : p.parseURL (backendOf cfg entry.2) with
    | none => exact Or.inl ⟨by simp, rfl⟩
    | some u => exact Or.inr ⟨u, by simpa using hempty, rfl, rfl⟩

theorem routes_eq_filter (p : Platform) (cfg : Config) (m : Routes) :
    (m.filterMap (withProxy p cfg)).map Prod.fst = m.filter fun entry => backed p cfg entry.2 := by
  induction m with
  | nil => rfl
  | cons entry rest ih =>
    obtain ⟨hbacked, hproxy⟩ | ⟨u, hbacked, -, hproxy⟩ := withProxy_cases p cfg entry
    · rw [List.filterMap_cons_none hproxy, List.filter_cons, if_neg (by simp [hbacked]), ih]
    · rw [List.filterMap_cons_some hproxy, List.filter_cons, if_pos hbacked, List.map_cons, ih]

/-- The proxy of a host is that of its route. -/
theorem lookup_proxies (p : Platform) (cfg : Config) (m : Routes) (host : List Char) :
    ((m.filterMap (withProxy p cfg)).map fun x => (x.1.1, x.2)).lookup host =
      (((m.filterMap (withProxy p cfg)).map Prod.fst).lookup host).bind fun route =>
        p.parseURL (backendOf cfg route) := by
  induction m with
  | nil => rfl
  | cons entry rest ih =>
    obtain ⟨-, hproxy⟩ | ⟨u, -, hparse, hproxy⟩ := withProxy_cases p cfg entry
    · rw [List.filterMap_cons_none hproxy, ih]
    · rw [List.filterMap_cons_some hproxy, List.map_cons, List.map_cons, lookup_cons,
        lookup_cons, ih]
      split_ifs
      · exact hparse.symm
      · rfl

/-- The whole table: static routes first, and of the rest what has a backend. -/
theorem lookup_table (p : Platform) (cfg : Config) (dbRoutes : Routes)
    (hstatic : Distinct cfg.routes) (hdistinct : Distinct dbRoutes) (host : List Char) :
    (buildRouteSet p cfg dbRoutes).table.routes.lookup host =
      ((cfg.routes.lookup host).or (dbRoutes.lookup host)).filter (backed p cfg) := by
  have hmerged := distinct_foldl_insert cfg.routes dbRoutes hdistinct
  have htable : (buildRouteSet p cfg dbRoutes).table.routes =
      ((cfg.routes.foldl RouteTables.insert dbRoutes).filterMap (withProxy p cfg)).map Prod.fst :=
    rfl
  rw [htable, routes_eq_filter, lookup_filter _ hmerged, lookup_merged cfg dbRoutes hstatic]

theorem lookup_buildProxies (p : Platform) (cfg : Config) (dbRoutes : Routes) (host : List Char) :
    (buildRouteSet p cfg dbRoutes).proxies.lookup host =
      ((buildRouteSet p cfg dbRoutes).table.routes.lookup host).bind fun route =>
        p.parseURL (backendOf cfg route) :=
  lookup_proxies p cfg _ host

/-- Equal maps make the same route set. -/
theorem sameRoutes_of_sameMap (p : Platform) (cfg : Config) (hstatic : Distinct cfg.routes)
    (m₁ m₂ : Routes) (h₁ : Distinct m₁) (h₂ : Distinct m₂) (hsame : SameMap m₁ m₂) :
    SameRoutes (buildRouteSet p cfg m₁) (buildRouteSet p cfg m₂) := by
  have htable : SameMap (buildRouteSet p cfg m₁).table.routes
      (buildRouteSet p cfg m₂).table.routes := by
    intro host
    rw [lookup_table p cfg m₁ hstatic h₁, lookup_table p cfg m₂ hstatic h₂, hsame host]
  refine ⟨rfl, htable, fun host => ?_⟩
  rw [lookup_buildProxies, lookup_buildProxies, htable host]

/-- The static routes are usable. -/
def StaticBacked (p : Platform) (cfg : Config) : Prop :=
  ∀ entry ∈ cfg.routes, backed p cfg entry.2 = true

/-- A route takes the auth host exactly when it is of the map and the auth host is not kept. -/
theorem unshadowed_iff (p : Platform) (cfg : Config) (dbRoutes : Routes)
    (hstatic : Distinct cfg.routes) (hbacked : StaticBacked p cfg) (hdistinct : Distinct dbRoutes) :
    (∀ raw host route, normalizeHost raw = normalizeHost cfg.authHost →
        (buildRouteSet p cfg dbRoutes).table.lookup raw = .app host route →
          cfg.routes.lookup host = some route) ↔ AuthKept p cfg dbRoutes := by
  have htable := lookup_table p cfg dbRoutes hstatic hdistinct
  have hauth : (buildRouteSet p cfg dbRoutes).table.authHost = cfg.authHost := rfl
  constructor
  · intro h host hhost
    by_cases hself : host = cfg.authHost
    · exact .inl hself
    refine .inr ?_
    cases hown : cfg.routes.lookup host with
    | some own => exact .inl rfl
    | none =>
      refine .inr (Option.eq_none_iff_forall_not_mem.mpr fun route hroute => ?_)
      have hfound : (buildRouteSet p cfg dbRoutes).table.lookup cfg.authHost = .app host route := by
        rw [lookup_app_iff, hauth, htable, hown, Option.none_or]
        exact ⟨hhost, hself, hroute⟩
      have hstaticRoute := h cfg.authHost host route rfl hfound
      rw [hown] at hstaticRoute
      cases hstaticRoute
  · intro h raw host route hsame hlookup
    obtain ⟨hhost, hother, hroute⟩ := (lookup_app_iff ..).mp hlookup
    rw [htable] at hroute
    rcases h host (hsame ▸ hhost) with hself | hown | hnone
    · exact absurd hself hother
    · obtain ⟨own, hown⟩ := Option.isSome_iff_exists.mp hown
      have hmem := hbacked _ (mem_of_lookup cfg.routes host own hown)
      rw [hown, Option.some_or, Option.filter_some, if_pos hmem] at hroute
      rw [hown, hroute]
    · cases hown : cfg.routes.lookup host with
      | none =>
        rw [hown, Option.none_or, hnone] at hroute
        cases hroute
      | some own =>
        have hmem := hbacked _ (mem_of_lookup cfg.routes host own hown)
        rw [hown, Option.some_or, Option.filter_some, if_pos hmem] at hroute
        exact hroute

theorem integrity_buildRouteSet (p : Platform) (cfg : Config) (dbRoutes : Routes)
    (hstatic : Distinct cfg.routes) (hbacked : StaticBacked p cfg) (hdistinct : Distinct dbRoutes) :
    Integrity p cfg dbRoutes (buildRouteSet p cfg dbRoutes) ↔ AuthKept p cfg dbRoutes := by
  refine ⟨fun h => (unshadowed_iff p cfg dbRoutes hstatic hbacked hdistinct).mp h.unshadowed,
    fun hkept => ?_⟩
  have htable := lookup_table p cfg dbRoutes hstatic hdistinct
  have hproxies := lookup_buildProxies p cfg dbRoutes
  have hproxy : ∀ host route,
      (buildRouteSet p cfg dbRoutes).table.routes.lookup host = some route →
        ∃ u, p.parseURL (backendOf cfg route) = some u ∧
          (buildRouteSet p cfg dbRoutes).proxies.lookup host = some u := by
    intro host route hroute
    have hkept := hroute
    rw [htable, Option.filter_eq_some_iff] at hkept
    obtain ⟨u, hu⟩ := Option.isSome_iff_exists.mp (Bool.and_eq_true_iff.mp hkept.2).2
    exact ⟨u, hu, by rw [hproxies, hroute, Option.bind_some, hu]⟩
  constructor
  · intro host
    constructor
    · intro h
      obtain ⟨route, hroute⟩ := Option.isSome_iff_exists.mp h
      obtain ⟨u, -, hu⟩ := hproxy host route hroute
      rw [hu]
      rfl
    · intro h
      rw [hproxies] at h
      exact Option.isSome_of_isSome_bind h
  · intro raw host route hlookup
    exact hproxy host route (Routing.lookup_app _ raw host route hlookup)
  · intro entry hentry
    rw [htable, lookup_of_mem cfg.routes hstatic entry hentry, Option.some_or, Option.filter_some,
      if_pos (hbacked entry hentry)]
  · intro host hnone
    rw [htable, hnone, Option.none_or]
  · intro raw hraw
    have hauth : (buildRouteSet p cfg dbRoutes).table.authHost = cfg.authHost := rfl
    simp [Table.lookup, hraw, hauth]
  · exact (unshadowed_iff p cfg dbRoutes hstatic hbacked hdistinct).mpr hkept

/-! ### The static routes of an accepted configuration -/

/-- `url.Parse` of the empty text is no http address. -/
def EmptyIsNoBackend (p : Platform) : Prop := ∀ u, p.parseURL [] = some u → isHttp u.scheme = false

theorem parseBackend_ok (p : Platform) (raw : List Char) (u : BackendUrl)
    (h : parseBackend p raw = .ok u) : p.parseURL raw = some u ∧ isHttp u.scheme = true := by
  unfold parseBackend at h
  cases hparse : p.parseURL raw with
  | none =>
    rw [hparse] at h
    cases h
  | some found =>
    rw [hparse] at h
    simp only at h
    split_ifs at h with habsolute hpath
    obtain rfl := Except.ok.inj h
    simp only [Bool.or_eq_true, not_or, Bool.not_eq_true'] at habsolute
    exact ⟨rfl, by simpa using habsolute.1⟩

theorem filled_backend (p : Platform) (route : Route) :
    (RouteOrder.filled p route).backend = route.backend := by
  unfold RouteOrder.filled
  cases parseBackend p route.backend with
  | error e => rfl
  | ok u =>
    simp only
    split_ifs <;> rfl

theorem static_of_validate (p : Platform) (raw cfg : Config) (hempty : EmptyIsNoBackend p)
    (hok : validate p raw = .ok cfg) : Distinct cfg.routes ∧ StaticBacked p cfg := by
  rw [← RouteOrder.validate_toLower] at hok
  obtain ⟨-, hpasses, rfl⟩ := (RouteOrder.validate_ok_iff toLower p raw cfg).mp hok
  refine ⟨RouteOrder.distinct_normalRoutes toLower p raw.routes, fun entry hentry => ?_⟩
  rcases RouteTables.mem_foldl_insert _ _ entry hentry with hmem | ⟨hmem, -⟩
  · obtain ⟨given, hgiven, rfl⟩ := List.mem_map.mp hmem
    obtain ⟨checked, hchecked⟩ := hpasses given hgiven
    obtain ⟨-, u, hu⟩ := RouteOrder.checkRoute_ok toLower p raw given checked hchecked
    obtain ⟨hparse, hhttp⟩ := parseBackend_ok p _ u hu
    have hne : given.2.backend ≠ [] := by
      intro hnil
      rw [hnil] at hparse
      rw [hempty u hparse] at hhttp
      cases hhttp
    have hbackend : (RouteOrder.normal toLower p given).2.backend = given.2.backend :=
      filled_backend p given.2
    have hof : backendOf (RouteOrder.normalConfig toLower p raw)
        (RouteOrder.normal toLower p given).2 = given.2.backend := by
      rw [backendOf, hbackend, if_neg fun h => hne h.1]
    rw [backed, hof, hparse]
    simpa using hne
  · cases hmem

/-! ### Swaps, one after the other -/

theorem lastMap_swap (events : List Event) (m : RouteMap) :
    lastMap (events ++ [.swap m]) = some m := by
  simp [lastMap, Event.map]

theorem lastMap_serve (events : List Event) (cache : DataPlane.AuthzCache) :
    lastMap (events ++ [.serve cache]) = lastMap events := by
  simp [lastMap, Event.map]

/-- What is installed is made of a map that equals the last one. -/
inductive FollowsLast (p : Platform) (cfg : Config) : Option RouteMap → Installed → Prop
  | none (s : Installed) (hlast : s.lastDBRoutes = none)
      (hroutes : s.routes = buildRouteSet p cfg []) : FollowsLast p cfg none s
  | some (s : Installed) (m last : RouteMap) (hlast : s.lastDBRoutes = some last.entries)
      (hsame : SameMap last.entries m.entries)
      (hroutes : s.routes = buildRouteSet p cfg last.entries) : FollowsLast p cfg (some m) s

theorem swap_equal (p : Platform) (cfg : Config) (s : Installed) (m last : RouteMap)
    (hlast : s.lastDBRoutes = some last.entries) (hsame : SameMap m.entries last.entries) :
    swapRoutes p cfg s (some m.entries) = s := by
  have hequal := (deepEqual_iff m.entries last.entries m.distinct last.distinct).mpr hsame
  rw [swapRoutes, hlast, unchanged, if_pos hequal]

theorem swap_other (p : Platform) (cfg : Config) (s : Installed) (m : RouteMap)
    (h : unchanged s.lastDBRoutes (some m.entries) = false) :
    swapRoutes p cfg s (some m.entries) = ⟨buildRouteSet p cfg m.entries, some m.entries, []⟩ := by
  rw [swapRoutes, h]
  rfl

theorem step_followsLast (p : Platform) (cfg : Config) (past : List Event) (s : Installed)
    (e : Event) (h : FollowsLast p cfg (lastMap past) s) :
    FollowsLast p cfg (lastMap (past ++ [e])) (step p cfg s e) := by
  cases e with
  | serve cache =>
    rw [lastMap_serve]
    generalize lastMap past = found at h ⊢
    cases h with
    | none _ hlast hroutes => exact .none _ hlast hroutes
    | some _ m last hlast hsame hroutes => exact .some _ m last hlast hsame hroutes
  | swap m =>
    rw [lastMap_swap, step]
    have hinstalled : FollowsLast p cfg (some m)
        ⟨buildRouteSet p cfg m.entries, some m.entries, []⟩ := .some _ m m rfl (fun _ => rfl) rfl
    by_cases hequal : unchanged s.lastDBRoutes (some m.entries) = true
    · generalize lastMap past = found at h
      cases h with
      | none _ hlast _ =>
        rw [hlast] at hequal
        cases hequal
      | some _ before last hlast _ hroutes =>
        rw [hlast, unchanged, deepEqual_iff _ _ m.distinct last.distinct] at hequal
        rw [swap_equal p cfg s m last hlast hequal]
        exact .some s m last hlast (fun host => (hequal host).symm) hroutes
    · rw [swap_other p cfg s m (by simpa using hequal)]
      exact hinstalled

theorem run_followsLast (p : Platform) (cfg : Config) (events : List Event) :
    FollowsLast p cfg (lastMap events) (run p cfg events) := by
  induction events using List.reverseRecOn with
  | nil => exact .none _ rfl rfl
  | append_singleton past e ih =>
    rw [run, List.foldl_append, List.foldl_cons, List.foldl_nil]
    exact step_followsLast p cfg past _ e ih

theorem Integrity.congr {p : Platform} {cfg : Config} {m₁ m₂ : Routes} {rs : RouteSet}
    (h : Integrity p cfg m₁ rs) (hsame : SameMap m₁ m₂) : Integrity p cfg m₂ rs :=
  { h with dynamic := fun host hnone => (h.dynamic host hnone).trans (by rw [hsame host]) }

theorem AuthKept.congr {p : Platform} {cfg : Config} {m₁ m₂ : Routes} (h : AuthKept p cfg m₁)
    (hsame : SameMap m₁ m₂) : AuthKept p cfg m₂ := by
  intro host hhost
  rw [← hsame host]
  exact h host hhost

/-- In every run of swaps the installed route set is sound exactly when the auth host is kept from
the last map; it is that of the last map, and a swap with an equal map leaves the server as it
is. -/
theorem installed_integrity (p : Platform) (raw cfg : Config) (hempty : EmptyIsNoBackend p)
    (hok : validate p raw = .ok cfg) (events : List Event) :
    (Integrity p cfg (lastEntries events) (run p cfg events).routes ↔
        AuthKept p cfg (lastEntries events)) ∧
      SameRoutes (run p cfg events).routes (buildRouteSet p cfg (lastEntries events)) ∧
        ∀ last m : RouteMap, lastMap events = some last → SameMap m.entries last.entries →
          step p cfg (run p cfg events) (.swap m) = run p cfg events := by
  obtain ⟨hdistinct, hbacked⟩ := static_of_validate p raw cfg hempty hok
  have hfollows := run_followsLast p cfg events
  unfold lastEntries
  generalize lastMap events = found at hfollows ⊢
  cases hfollows with
  | none _ hlast hroutes =>
    rw [hroutes]
    exact ⟨integrity_buildRouteSet p cfg [] hdistinct hbacked List.nodup_nil,
      sameRoutes_of_sameMap p cfg hdistinct [] [] List.nodup_nil List.nodup_nil fun _ => rfl,
      fun _ _ habsurd => by cases habsurd⟩
  | some _ m last hlast hsame hroutes =>
    have hbuilt := integrity_buildRouteSet p cfg _ hdistinct hbacked last.distinct
    have hback : SameMap m.entries last.entries := fun host => (hsame host).symm
    rw [Option.map_some, Option.getD_some, hroutes]
    refine ⟨⟨fun h => ?_, fun h => ?_⟩, ?_, ?_⟩
    · exact (hbuilt.mp (h.congr hback)).congr hsame
    · exact (hbuilt.mpr (h.congr hback)).congr hsame
    · exact sameRoutes_of_sameMap p cfg hdistinct _ _ last.distinct m.distinct hsame
    · rintro other again heq hagain
      obtain rfl := Option.some.inj heq
      exact swap_equal p cfg _ again last hlast fun host => (hagain host).trans (hback host)

/-! ### A swap that nothing interrupts -/

def installed (s : RouteSwaps.Shared) : Installed := ⟨s.routes, s.lastDBRoutes, s.erased⟩

/-- All turns of a swap, one after the other. -/
def swapAlone (cfg : RouteSwaps.Config) (s : RouteSwaps.Shared) (dbRoutes : Option Routes) :
    RouteSwaps.Shared :=
  match RouteSwaps.acquire s dbRoutes with
  | (s, none) => s
  | (s, some point) =>
    match RouteSwaps.turn cfg s point .go with
    | (s, none) => s
    | (s, some point) => (RouteSwaps.turn cfg s point .go).1

/-- The turns of a swap make what `SwapRoutes` does as one call. -/
theorem installed_swapAlone (cfg : RouteSwaps.Config) (s : RouteSwaps.Shared)
    (dbRoutes : Option Routes) (hfree : s.locked = false) :
    installed (swapAlone cfg s dbRoutes) =
      swapRoutes cfg.platform cfg.static (installed s) dbRoutes := by
  unfold swapAlone RouteSwaps.acquire swapRoutes
  rw [hfree, if_neg Bool.false_ne_true]
  by_cases hequal : unchanged s.lastDBRoutes dbRoutes = true
  · rw [if_pos hequal]
    exact (if_pos hequal).symm
  · rw [if_neg hequal]
    exact (if_neg hequal).symm

def sampleStatic : Config := RouteOrder.sampleConfig
  [("Admin.example.org".toList, RouteOrder.sampleRoute true)]

/-- A resource of its own host, and one that claims the host of the console. -/
def sampleMap : RouteMap where
  entries := [("app.example.org".toList, RouteOrder.sampleRoute false),
    ("admin.example.org".toList, RouteOrder.sampleRoute false)]
  distinct := by
    unfold Distinct
    decide

def sampleEvents : List Event := [.swap sampleMap, .serve []]

theorem empty_sample : EmptyIsNoBackend RouteOrder.samplePlatform := by
  intro u hu
  have hempty : RouteOrder.samplePlatform.parseURL [] = some ⟨[], [], [], []⟩ := rfl
  rw [hempty] at hu
  cases hu
  rfl

theorem installed_integrity_sample :
    let cfg := RouteOrder.normalConfig toLower RouteOrder.samplePlatform sampleStatic
    let s := run RouteOrder.samplePlatform cfg sampleEvents
    s.routes.table.lookup "Auth.Example.org:443".toList = .auth ∧
      Integrity RouteOrder.samplePlatform cfg (lastEntries sampleEvents) s.routes ∧
        SameRoutes s.routes
          (buildRouteSet RouteOrder.samplePlatform cfg (lastEntries sampleEvents)) ∧
          ∀ last m : RouteMap, lastMap sampleEvents = some last → SameMap m.entries last.entries →
            step RouteOrder.samplePlatform cfg s (.swap m) = s := by
  obtain ⟨hsound, hroutes, hequal⟩ := installed_integrity RouteOrder.samplePlatform sampleStatic _
    empty_sample rfl sampleEvents
  refine ⟨by decide, hsound.mpr ?_, hroutes, hequal⟩
  intro host hhost
  exact .inl (Option.some.inj (hhost.symm.trans (by decide)))

/-- The auth host with a final dot, which `Validate` leaves. -/
def dottedStatic : Config := { sampleStatic with authHost := "auth.example.org.".toList }

/-- A resource that claims the auth host. -/
def claimedMap : RouteMap where
  entries := [("auth.example.org".toList, RouteOrder.sampleRoute false)]
  distinct := List.nodup_singleton _

/-- A route of the map takes the auth host when the configuration writes it with a final dot. -/
theorem auth_host_shadowed :
    ¬ ∀ p raw cfg events, EmptyIsNoBackend p → validate p raw = .ok cfg →
      Integrity p cfg (lastEntries events) (run p cfg events).routes := by
  intro h
  have hsound := h RouteOrder.samplePlatform dottedStatic _ [.swap claimedMap] empty_sample rfl
  have htaken := hsound.unshadowed "auth.example.org".toList "auth.example.org".toList
    (RouteOrder.sampleRoute false) (by decide) (by decide)
  exact absurd htaken (by decide)

end Hyproxy.RouteIntegrity

import Hyproxy.CacheProvenance
import Hyproxy.Mediation
import Hyproxy.Runs
import Hyproxy.Tasks

/-!
Requests while the routes are swapped. A request loads one snapshot and then asks
the decision cache, asks the control plane and stores the answer, each a step of
its own; a swap stores the new snapshot and purges the cache. An entry carries the
generation of the request that obtained it, which the code does not record.
-/
namespace Hyproxy.RouteSwaps

open DataPlane
open DecisionCache (Cache get_some mem_get_cache mem_put_entry put)
open RouteTables (Platform RouteSet Routes buildRouteSet)
open Runs (Along)
open Tasks (Program System)

/-- A request that was served from the cache: the table that it loaded, and the one that the request
which had obtained the decision had loaded. -/
structure Hit where
  loaded : ℕ
  obtained : ℕ
  headers : Identity
  deriving Repr, DecidableEq

/-- What the requests and the swaps share. `purging` holds from the storing of a table to the purge
that follows it. -/
structure Shared where
  generation : ℕ
  routes : RouteSet
  lastDBRoutes : Option Routes
  locked : Bool
  purging : Bool
  cache : Cache (List Char) (ℕ × Identity)
  hits : List Hit

/-- A request with what it took from its snapshot. -/
structure Loaded where
  generation : ℕ
  request : Request
  host : List Char
  route : DataPlane.Route

inductive Start
  | request (r : Request)
  | swap (dbRoutes : Option Routes)

/-- Where a request or a swap waits. -/
inductive Point
  | lookup (c : Loaded)
  | check (c : Loaded) (now : ℤ)
  | put (c : Loaded) (now : ℤ) (d : CheckResponse)
  | lock (dbRoutes : Option Routes)
  | store (dbRoutes : Option Routes)
  | purge

/-- What a wait ends with: the clock, the answer of the control plane, or nothing. -/
inductive Wake
  | clock (now : ℤ)
  | answer (d : Option CheckResponse)
  | go

/-- The handler gets as far as the decision cache. -/
def consults (srv : Server) (r : Request) (route : DataPlane.Route) : Bool :=
  !(route.lanOnly && !srv.isLAN r.clientIP) &&
    !(route.publicGate && isPublicGatePath r.url.path) && !route.guacTunnel &&
    !(route.guacTunnelPath && r.url.path == "/guac/tunnel".toList) &&
    !(route.rtspTunnelPath && r.url.path == "/rtsp/stream".toList) && route.authRequired

/-- `reflect.DeepEqual` of two maps -/
def deepEqual (a b : Routes) : Bool :=
  a.length == b.length && a.all fun entry => b.lookup entry.1 == some entry.2

/-- `s.lastDBRoutes != nil && reflect.DeepEqual(dbRoutes, s.lastDBRoutes)`, where none stands for a
nil map. -/
def unchanged : Option Routes → Option Routes → Bool
  | some last, some dbRoutes => deepEqual dbRoutes last
  | _, _ => false

structure Config where
  srv : Server
  platform : Platform
  static : RouteTables.Config

def Loaded.key (cfg : Config) (c : Loaded) : List Char := requestKey cfg.srv c.request c.host c.route

/-- `SwapRoutes` up to the storing, once the lock is free. -/
def acquire (s : Shared) (dbRoutes : Option Routes) : Shared × Option Point :=
  if s.locked then (s, some (.lock dbRoutes))
  else if unchanged s.lastDBRoutes dbRoutes then (s, none)
  else ({ s with locked := true }, some (.store dbRoutes))

def cacheable (srv : Server) (c : Loaded) (d : CheckResponse) : Bool :=
  decide (d.decision = .allow) && gatewayCookie srv c.request != [] && d.cacheScopeHost &&
    decide (0 < d.cacheTTLSecs)

def begin (cfg : Config) (s : Shared) : Start → Shared × Option Point
  | .swap dbRoutes => acquire s dbRoutes
  | .request r =>
    match s.routes.table.lookup r.host with
    | .app host route =>
      if consults cfg.srv r route.toRoute then
        (s, some (.lookup ⟨s.generation, r, host, route.toRoute⟩))
      else (s, none)
    | _ => (s, none)

def turn (cfg : Config) (s : Shared) : Point → Wake → Shared × Option Point
  | .lookup c, .clock now =>
    if gatewayCookie cfg.srv c.request = [] then (s, some (.check c now))
    else
      match DecisionCache.get s.cache (c.key cfg) now with
      | (some (obtained, headers), cache) =>
        ({ s with cache := cache, hits := ⟨c.generation, obtained, headers⟩ :: s.hits }, none)
      | (none, cache) => ({ s with cache := cache }, some (.check c now))
  | .check _ _, .answer none => (s, none)
  | .check c now, .answer (some d) =>
    if cacheable cfg.srv c d then (s, some (.put c now d)) else (s, none)
  | .put c now d, _ =>
    ({ s with
        cache := put s.cache (c.key cfg) (c.generation, d.headers) (nanoseconds d.cacheTTLSecs) now },
      none)
  | .lock dbRoutes, _ => acquire s dbRoutes
  | .store dbRoutes, _ =>
    ({ s with
        generation := s.generation + 1
        routes := buildRouteSet cfg.platform cfg.static (dbRoutes.getD [])
        lastDBRoutes := dbRoutes
        purging := true },
      some .purge)
  | .purge, _ => ({ s with cache := [], locked := false, purging := false }, none)
  | p, _ => (s, some p)

def program (cfg : Config) : Program Shared Start Wake Point := ⟨begin cfg, turn cfg⟩

/-- The server at its start, with the static routes alone. -/
def initial (cfg : Config) : System Shared Point :=
  ⟨⟨0, buildRouteSet cfg.platform cfg.static [], none, false, false, [], []⟩, [], 0⟩

abbrev Event := Tasks.Event Start Wake

def step (cfg : Config) : System Shared Point → Event → System Shared Point := Tasks.step (program cfg)

def run (cfg : Config) (events : List Event) : System Shared Point :=
  events.foldl (step cfg) (initial cfg)

/-- A turn that finds an entry, or leaves one, does so under the table that is current, and not
between its storing and the purge; what is left before the purge does no harm. -/
def current (cfg : Config) (s : Shared) : Point → Wake → Bool
  | .lookup c, .clock now =>
    (DecisionCache.get s.cache (c.key cfg) now).1.isNone ||
      (!s.purging && c.generation == s.generation)
  | .put c _ _, _ => s.purging || c.generation == s.generation
  | _, _ => true

/-- The task that is resumed takes such a turn. -/
def Guard (cfg : Config) (s : System Shared Point) : Event → Prop
  | .start _ => True
  | .resume id wake => ((s.task id).all fun task => current cfg s.shared task.point wake) = true

instance (cfg : Config) (s : System Shared Point) (e : Event) : Decidable (Guard cfg s e) :=
  match e with
  | .start _ => isTrue trivial
  | .resume id wake =>
    inferInstanceAs (Decidable
      (((s.task id).all fun task => current cfg s.shared task.point wake) = true))

/-! ### A request that nothing interrupts -/

/-- The cache of the code, which has no generations. -/
def Shared.erased (s : Shared) : AuthzCache := DecisionCache.mapHeaders Prod.snd s.cache

/-- All turns of a request, one after the other. -/
def alone (cfg : Config) (cp : ControlPlane) (s : Shared) (c : Loaded) (now : ℤ) : Shared :=
  match turn cfg s (.lookup c) (.clock now) with
  | (s, some (.check c now)) =>
    match turn cfg s (.check c now) (.answer (cp.check (checkRequest cfg.srv c.request c.host c.route)))
      with
    | (s, some p) => (turn cfg s p .go).1
    | (s, none) => s
  | (s, _) => s

theorem serveApp_of_consults (srv : Server) (cp : ControlPlane) (cache : AuthzCache) (now : ℤ)
    (r : Request) (host : List Char) (route : DataPlane.Route) (h : consults srv r route = true) :
    serveApp srv cp cache now r host route =
      if gatewayCookie srv r ≠ [] then
        match DecisionCache.get cache (requestKey srv r host route) now with
        | (some headers, cache) =>
          (serveProxy srv (.app host) (.cached headers) r (setIdentity (appHeader srv r) headers),
            cache)
        | (none, cache) =>
          serveChecked srv cp cache now r host route (appHeader srv r) (gatewayCookie srv r)
            (checkRequest srv r host route).publicCookie
      else
        serveChecked srv cp cache now r host route (appHeader srv r) (gatewayCookie srv r)
          (checkRequest srv r host route).publicCookie := by
  simp only [consults, Bool.and_eq_true, Bool.not_eq_eq_eq_not, Bool.not_true] at h
  obtain ⟨⟨⟨⟨⟨hlan, hgate⟩, hguac⟩, hpath⟩, hrtsp⟩, hauth⟩ := h
  simp only [serveApp, hlan, hgate, hguac, hpath, hrtsp, hauth, Bool.false_eq_true, if_false,
    Bool.not_true]
  rfl

theorem serveChecked_stored (srv : Server) (cp : ControlPlane) (cache : AuthzCache) (now : ℤ)
    (c : Loaded) (h : HttpHeader.Header) :
    (serveChecked srv cp cache now c.request c.host c.route h (gatewayCookie srv c.request)
        (checkRequest srv c.request c.host c.route).publicCookie).2 =
      match cp.check (checkRequest srv c.request c.host c.route) with
      | none => cache
      | some d =>
        if cacheable srv c d = true then
          put cache (requestKey srv c.request c.host c.route) d.headers (nanoseconds d.cacheTTLSecs) now
        else cache := by
  unfold serveChecked
  change (match cp.check (checkRequest srv c.request c.host c.route) with
    | none => _
    | some d => _ : Outcome × AuthzCache).2 = _
  cases cp.check (checkRequest srv c.request c.host c.route) with
  | none => rfl
  | some d =>
    simp only [cacheable, Bool.and_eq_true, decide_eq_true_iff, bne_iff_ne]
    cases hdecision : d.decision with
    | allow =>
      simp only [true_and, and_assoc]
      rfl
    | authRequired =>
      simp only
      split_ifs <;> simp_all
    | notFound => simp
    | other text => simp

/-- The turns after a miss. -/
theorem answered_erased (cfg : Config) (s : Shared) (c : Loaded) (now : ℤ) (d : CheckResponse) :
    (match turn cfg s (.check c now) (.answer (some d)) with
      | (s, some p) => (turn cfg s p .go).1
      | (s, none) => s).erased =
      if cacheable cfg.srv c d = true then
        put s.erased (c.key cfg) d.headers (nanoseconds d.cacheTTLSecs) now
      else s.erased := by
  simp only [turn]
  by_cases hcacheable : cacheable cfg.srv c d = true
  · simp only [if_pos hcacheable]
    exact (DecisionCache.put_mapHeaders Prod.snd s.cache (c.key cfg) (c.generation, d.headers)
      (nanoseconds d.cacheTTLSecs) now).symm
  · simp only [if_neg hcacheable]

/-- A request that nothing interrupts leaves the cache that the handler leaves. -/
theorem alone_serveApp (cfg : Config) (cp : ControlPlane) (s : Shared) (c : Loaded) (now : ℤ)
    (hconsults : consults cfg.srv c.request c.route = true) :
    (alone cfg cp s c now).erased =
      (serveApp cfg.srv cp s.erased now c.request c.host c.route).2 := by
  have hmissed : ∀ s : Shared,
      (match turn cfg s (.check c now)
          (.answer (cp.check (checkRequest cfg.srv c.request c.host c.route))) with
        | (s, some p) => (turn cfg s p .go).1
        | (s, none) => s).erased =
      (serveChecked cfg.srv cp s.erased now c.request c.host c.route (appHeader cfg.srv c.request)
        (gatewayCookie cfg.srv c.request)
        (checkRequest cfg.srv c.request c.host c.route).publicCookie).2 := by
    intro s
    rw [serveChecked_stored]
    cases cp.check (checkRequest cfg.srv c.request c.host c.route) with
    | none => rfl
    | some d => exact answered_erased cfg s c now d
  rw [serveApp_of_consults cfg.srv cp _ now _ _ _ hconsults]
  unfold alone
  by_cases hcookie : gatewayCookie cfg.srv c.request = []
  · simp only [turn, hcookie, ne_eq, not_true_eq_false, if_false]
    have hchecked := hmissed s
    rw [hcookie] at hchecked
    exact hchecked
  · have hget := DecisionCache.get_mapHeaders Prod.snd s.cache (c.key cfg) now
    simp only [turn, if_neg hcookie]
    rw [if_pos hcookie]
    rcases hfound : DecisionCache.get s.cache (c.key cfg) now with ⟨found, cache⟩
    rw [hfound] at hget
    unfold Shared.erased
    rw [show requestKey cfg.srv c.request c.host c.route = c.key cfg from rfl, hget]
    cases found with
    | some found => rfl
    | none => exact hmissed { s with cache := cache }

/-- Between swaps each entry is of the current table, and every hit was of the right one. -/
structure Inv (s : Shared) : Prop where
  entries : s.purging = false → ∀ p ∈ s.cache, p.2.headers.1 = s.generation
  hits : ∀ hit ∈ s.hits, hit.obtained = hit.loaded

theorem acquire_inv (s : Shared) (dbRoutes : Option Routes) (h : Inv s) :
    Inv (acquire s dbRoutes).1 := by
  unfold acquire
  split_ifs
  · exact h
  · exact h
  · exact ⟨h.entries, h.hits⟩

theorem begin_inv (cfg : Config) (s : Shared) (i : Start) (h : Inv s) : Inv (begin cfg s i).1 := by
  cases i with
  | swap dbRoutes => exact acquire_inv s dbRoutes h
  | request r =>
    simp only [begin]
    cases s.routes.table.lookup r.host with
    | none => exact h
    | auth => exact h
    | app host route =>
      simp only
      split_ifs <;> exact h

theorem turn_inv (cfg : Config) (s : Shared) (p : Point) (wake : Wake) (h : Inv s)
    (hcurrent : current cfg s p wake = true) : Inv (turn cfg s p wake).1 := by
  cases p with
  | lookup c =>
    cases wake with
    | answer d => exact h
    | go => exact h
    | clock now =>
      simp only [turn]
      split_ifs
      · exact h
      · have hcache := mem_get_cache s.cache (c.key cfg) now
        have hget := get_some s.cache (c.key cfg) now
        simp only [current] at hcurrent
        rcases hfound : DecisionCache.get s.cache (c.key cfg) now with ⟨found, cache⟩
        rw [hfound] at hcache hget hcurrent
        cases found with
        | none => exact ⟨fun hquiet p hp => h.entries hquiet p (hcache p hp), h.hits⟩
        | some found =>
          obtain ⟨hquiet, hloaded⟩ : s.purging = false ∧ c.generation = s.generation := by
            simpa using hcurrent
          obtain ⟨e, hmem, hheaders, -⟩ := hget found rfl
          have htag := h.entries hquiet _ hmem
          refine ⟨fun hquiet p hp => h.entries hquiet p (hcache p hp), ?_⟩
          refine List.forall_mem_cons.mpr ⟨?_, h.hits⟩
          rw [hloaded, ← htag, hheaders]
  | check c now =>
    cases wake with
    | clock t => exact h
    | go => exact h
    | answer d =>
      cases d with
      | none => exact h
      | some d =>
        simp only [turn]
        split_ifs <;> exact h
  | put c now d =>
    refine ⟨fun hquiet p hp => ?_, h.hits⟩
    have hloaded : c.generation = s.generation := by
      have hnow : s.purging = false := hquiet
      simpa [current, hnow] using hcurrent
    rcases mem_put_entry _ _ _ _ _ p hp with hold | ⟨-, rfl⟩
    · exact h.entries hquiet p hold
    · exact hloaded
  | lock dbRoutes => exact acquire_inv s dbRoutes h
  | store dbRoutes => exact ⟨fun hquiet => absurd hquiet (by simp [turn]), h.hits⟩
  | purge => exact ⟨fun _ p hp => absurd hp List.not_mem_nil, h.hits⟩

theorem step_inv (cfg : Config) (s : System Shared Point) (e : Event) (h : Inv s.shared)
    (hguard : Guard cfg s e) : Inv (step cfg s e).shared := by
  cases e with
  | start i => exact begin_inv cfg s.shared i h
  | resume id wake =>
    cases htask : s.task id with
    | none =>
      simp only [step, Tasks.step, htask]
      exact h
    | some task =>
      simp only [step, Tasks.step, htask]
      exact turn_inv cfg s.shared task.point wake h (by simpa [Guard, htask] using hguard)

/-- In a run in which entries are found and left under the current table only, a request is served
by decisions of its own generation. -/
theorem hits_of_generation (cfg : Config) (events : List Event)
    (hguard : Along (step cfg) (Guard cfg) (initial cfg) events) :
    ∀ hit ∈ (run cfg events).shared.hits, hit.obtained = hit.loaded := by
  have hinv := hguard.invariant (fun s => Inv s.shared)
    ⟨fun _ p hp => absurd hp List.not_mem_nil, fun hit hhit => absurd hhit List.not_mem_nil⟩
    (step_inv cfg)
  exact hinv.hits

def sampleConfig : Config :=
  ⟨IdentityHeaders.sampleServer, Mediation.samplePlatform, Mediation.sampleConfig⟩

/-- One resource, first without and then with the password gate. -/
def sampleRoutes (publicGate : Bool) : Routes :=
  [("app.example.org".toList, ⟨⟨80, none, false, false, false, publicGate, false⟩,
    "http://10.0.0.5:80".toList⟩)]

def sampleSwap (publicGate : Bool) (id : ℕ) : List Event :=
  [.start (.swap (some (sampleRoutes publicGate))), .resume id .go, .resume id .go]

def sampleRequest : Start := .request (IdentityHeaders.sampleCall []).request

def sampleAllow : Wake := .answer (some ⟨.allow, IdentityHeaders.sampleIdentity, [], true, 5⟩)

/-- Two requests under one table, the second of which is served from the cache. -/
def sampleRun : List Event :=
  sampleSwap false 0 ++ [.start sampleRequest, .resume 1 (.clock 0), .resume 1 sampleAllow,
    .resume 1 .go, .start sampleRequest, .resume 2 (.clock 1)]

theorem hits_of_generation_sample :
    (run sampleConfig sampleRun).shared.hits = [⟨1, 1, IdentityHeaders.sampleIdentity⟩] ∧
      ∀ hit ∈ (run sampleConfig sampleRun).shared.hits, hit.obtained = hit.loaded :=
  ⟨by decide, hits_of_generation sampleConfig sampleRun (by decide)⟩

/-- A request that waits for its answer while the routes are swapped stores it after the purge. -/
def lateRun : List Event :=
  sampleSwap false 0 ++ [.start sampleRequest, .resume 1 (.clock 0), .resume 1 sampleAllow] ++
    sampleSwap true 2 ++ [.resume 1 .go, .start sampleRequest, .resume 3 (.clock 1)]

/-- A decision of the first table lets a request under the second one through. -/
theorem late_decision_served :
    ¬∀ (cfg : Config) (events : List Event), ∀ hit ∈ (run cfg events).shared.hits,
      hit.obtained = hit.loaded := by
  intro h
  have hhits : (run sampleConfig lateRun).shared.hits = [⟨2, 1, IdentityHeaders.sampleIdentity⟩] := by
    decide
  exact absurd (h sampleConfig lateRun ⟨2, 1, IdentityHeaders.sampleIdentity⟩ (by rw [hhits]; simp))
    (by decide)

example : (run sampleConfig (sampleRun.take 7 ++ [.start (.swap (some (sampleRoutes true))),
    .resume 2 .go, .start sampleRequest, .resume 3 (.clock 1)])).shared.hits =
      [⟨2, 1, IdentityHeaders.sampleIdentity⟩] := by decide

end Hyproxy.RouteSwaps

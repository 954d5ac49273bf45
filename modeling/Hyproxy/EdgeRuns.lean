import Hyproxy.HostScope
import Hyproxy.RouteSwaps
import Hyproxy.SessionArtifacts

/-!
The edge and the control plane as one system. A request at the edge loads the
routes, reads the clock, asks the decision cache, has the control plane decide and
keeps the decision, each as a turn of its own. In between the routes are swapped,
and the control plane goes on with its own operations; a decision is made on the
tables that it finds then. The two clocks have nothing to do with each other.
-/
namespace Hyproxy.EdgeRuns

open CacheProvenance (Scope)
open DataPlane
open DecisionCache (get purge)
open HostScope (answer ask checkOf)
open RouteSwaps (consults)
open RouteTables (RouteSet)
open Tasks (Program System)

structure Config where
  srv : Server
  control : SessionArtifacts.Config

/-- A request of a connection; the address comes from the socket. -/
structure Arrival where
  request : Request
  plain : '\x00' ∉ request.clientIP

/-- A request with what it took from the routes. -/
structure Loaded where
  arrival : Arrival
  host : List Char
  route : DataPlane.Route
  routed : ∃ raw, Routing.normalizeHost raw = some host

def Loaded.request (c : Loaded) : Request := c.arrival.request

def Loaded.question (srv : Server) (c : Loaded) : CheckRequest :=
  checkRequest srv c.request c.host c.route

def Loaded.scope (srv : Server) (c : Loaded) : Scope where
  host := c.host
  backendPort := c.route.backendPort
  sourceIP := c.request.clientIP
  cookie := gatewayCookie srv c.request
  routed := c.routed
  plain := c.arrival.plain

/-- A request that was served, and the clock that it read when it came to the cache. -/
structure Served where
  loaded : Loaded
  arrived : ℤ
  outcome : Outcome

/-- The ground on which it was passed to the app of its host. -/
def Served.ground (x : Served) : Option Ground :=
  match x.outcome with
  | .forward ground out => if out.upstream = .app x.loaded.host then some ground else none
  | _ => none

/-- What the edge and the control plane hold; `now` is the clock of the edge, in nanoseconds. -/
structure Shared where
  control : SessionArtifacts.State
  now : ℤ
  routes : RouteSet
  cache : AuthzCache
  served : List Served

/-- A request for a tunnel is given the answers of the brokers. -/
inductive Start
  | operate (e : SessionArtifacts.Event)
  | elapse (ns : ℕ)
  | store (routes : RouteSet)
  | purge
  | request (a : Arrival) (consumeGuac consumeRtsp : ConsumeRequest → Option Bool)

/-- Where a request waits. -/
inductive Point
  | loaded (c : Loaded)
  | lookup (c : Loaded) (now : ℤ)
  | check (c : Loaded) (now : ℤ)
  | answered (c : Loaded) (now : ℤ) (d : Option CheckResponse)

/-- What a wait ends with. The control plane decides when its clock has moved on, or it cannot be
reached. -/
inductive Wake
  | go
  | decide (elapsed : ℕ)
  | fail

/-- The control plane alone answers, and only with this. -/
def plane (d : Option CheckResponse) : ControlPlane := ⟨fun _ => d, fun _ => none, fun _ => none⟩

def answerOf : SessionArtifacts.Reply → Option CheckResponse
  | .check response => some (answer response)
  | _ => none

/-- The question of the request, as an operation of the control plane. -/
def Loaded.asked (srv : Server) (c : Loaded) (elapsed : ℕ) : SessionArtifacts.Event :=
  ⟨elapsed, .check (ask (c.question srv))⟩

def Shared.serve (s : Shared) (c : Loaded) (now : ℤ) (outcome : Outcome) : Shared :=
  { s with served := ⟨c, now, outcome⟩ :: s.served }

/-- The snapshot of the routes is all that the rest of the request uses of them. -/
def load (routes : RouteSet) (a : Arrival) : Option Loaded :=
  match h : routes.table.lookup a.request.host with
  | .app host route => some ⟨a, host, route.toRoute, _, ((Routing.lookup_app_iff ..).mp h).1⟩
  | _ => none

def begin (cfg : Config) (s : Shared) : Start → Shared × Option Point
  | .operate e => ({ s with control := SessionArtifacts.step cfg.control s.control e }, none)
  | .elapse ns => ({ s with now := s.now + ns }, none)
  | .store routes => ({ s with routes := routes }, none)
  | .purge => ({ s with cache := purge s.cache }, none)
  | .request a consumeGuac consumeRtsp =>
    match load s.routes a with
    | none => (s, none)
    | some c =>
      if consults cfg.srv c.request c.route then (s, some (.loaded c))
      else
        (s.serve c s.now (serveApp cfg.srv ⟨fun _ => none, consumeGuac, consumeRtsp⟩ s.cache s.now
          c.request c.host c.route).1, none)

/-- `serveChecked` once the answer is there. -/
def finish (cfg : Config) (s : Shared) (c : Loaded) (now : ℤ) (d : Option CheckResponse) : Shared :=
  let served := serveChecked cfg.srv (plane d) s.cache now c.request c.host c.route
    (appHeader cfg.srv c.request) (gatewayCookie cfg.srv c.request) (c.question cfg.srv).publicCookie
  { s with cache := served.2 }.serve c now served.1

def turn (cfg : Config) (s : Shared) : Point → Wake → Shared × Option Point
  | .loaded c, .go => (s, some (.lookup c s.now))
  | .lookup c now, .go =>
    if gatewayCookie cfg.srv c.request = [] then (s, some (.check c now))
    else
      match get s.cache ((c.scope cfg.srv).key cfg.srv) now with
      | (some headers, cache) =>
        ({ s with cache := cache }.serve c now (serveProxy cfg.srv (.app c.host) (.cached headers)
          c.request (setIdentity (appHeader cfg.srv c.request) headers)), none)
      | (none, cache) => ({ s with cache := cache }, some (.check c now))
  | .check c now, .decide elapsed =>
    ({ s with control := SessionArtifacts.step cfg.control s.control (c.asked cfg.srv elapsed) },
      some (.answered c now
        (answerOf (SessionArtifacts.reply cfg.control s.control (c.asked cfg.srv elapsed)))))
  | .check c now, .fail => (finish cfg s c now none, none)
  | .answered c now d, .go => (finish cfg s c now d, none)
  | .answered c now _, .fail => (finish cfg s c now none, none)
  | p, _ => (s, some p)

def program (cfg : Config) : Program Shared Start Wake Point := ⟨begin cfg, turn cfg⟩

/-- Both have just started, the edge with the routes of its configuration. -/
def initial (start : ℕ) (routes : RouteSet) : System Shared Point :=
  ⟨⟨SessionArtifacts.initial start, 0, routes, [], []⟩, [], 0⟩

abbrev Event := Tasks.Event Start Wake

def step (cfg : Config) : System Shared Point → Event → System Shared Point :=
  Tasks.step (program cfg)

def run (cfg : Config) (start : ℕ) (routes : RouteSet) (events : List Event) :
    System Shared Point :=
  events.foldl (step cfg) (initial start routes)

/-! ### What the control plane does -/

def Point.operations (srv : Server) : Point → Wake → List SessionArtifacts.Event
  | .check c _, .decide elapsed => [c.asked srv elapsed]
  | _, _ => []

/-- The operations of the control plane in an event: its own, and the decision that a request of the
edge asks for. -/
def operations (cfg : Config) (s : System Shared Point) : Event → List SessionArtifacts.Event
  | .start (.operate e) => [e]
  | .start _ => []
  | .resume id wake =>
    match s.task id with
    | none => []
    | some x => x.point.operations cfg.srv wake

def history (cfg : Config) : System Shared Point → List Event → List SessionArtifacts.Event
  | _, [] => []
  | s, e :: rest => operations cfg s e ++ history cfg (step cfg s e) rest

theorem control_begin (cfg : Config) (s : Shared) (a : Arrival)
    (consumeGuac consumeRtsp : ConsumeRequest → Option Bool) :
    (begin cfg s (.request a consumeGuac consumeRtsp)).1.control = s.control := by
  simp only [begin]
  cases load s.routes a with
  | none => rfl
  | some c =>
    simp only
    split_ifs <;> rfl

theorem control_turn (cfg : Config) (s : Shared) (p : Point) (wake : Wake) :
    (turn cfg s p wake).1.control =
      (p.operations cfg.srv wake).foldl (SessionArtifacts.step cfg.control) s.control := by
  cases p with
  | lookup c now =>
    cases wake with
    | go =>
      simp only [turn]
      split_ifs
      · rfl
      · rcases get s.cache ((c.scope cfg.srv).key cfg.srv) now with ⟨_ | headers, cache⟩ <;> rfl
    | _ => rfl
  | _ => cases wake <;> rfl

theorem control_step (cfg : Config) (s : System Shared Point) (e : Event) :
    (step cfg s e).shared.control =
      (operations cfg s e).foldl (SessionArtifacts.step cfg.control) s.shared.control := by
  cases e with
  | start i =>
    cases i with
    | request a consumeGuac consumeRtsp => exact control_begin cfg s.shared a consumeGuac consumeRtsp
    | _ => rfl
  | resume id wake =>
    simp only [step, Tasks.step, operations]
    cases s.task id with
    | none => rfl
    | some x => exact control_turn cfg s.shared x.point wake

/-- The control plane makes the operations of its history, and no others. -/
theorem control_history (cfg : Config) (s : System Shared Point) (events : List Event) :
    (events.foldl (step cfg) s).shared.control =
      (history cfg s events).foldl (SessionArtifacts.step cfg.control) s.shared.control := by
  induction events generalizing s with
  | nil => rfl
  | cons e rest ih =>
    rw [List.foldl_cons, ih, history, List.foldl_append, control_step]

theorem control_run (cfg : Config) (start : ℕ) (routes : RouteSet) (events : List Event) :
    (run cfg start routes events).shared.control =
      SessionArtifacts.after cfg.control start (history cfg (initial start routes) events) :=
  control_history cfg (initial start routes) events

/-! ### A request that is served -/

theorem Served.ground_some (x : Served) (ground : Ground) (h : x.ground = some ground) :
    ∃ out, x.outcome = .forward ground out ∧ out.upstream = .app x.loaded.host := by
  unfold Served.ground at h
  cases hout : x.outcome with
  | forward found out =>
    rw [hout] at h
    simp only at h
    split_ifs at h with happ
    exact ⟨out, by rw [Option.some.inj h], happ⟩
  | redirect location =>
    rw [hout] at h
    cases h
  | error status text =>
    rw [hout] at h
    cases h

/-! ### A request that nothing interrupts -/

/-- All turns of a request, one after the other. -/
def alone (cfg : Config) (s : Shared) (c : Loaded) (elapsed : ℕ) : Shared :=
  match turn cfg s (.lookup c s.now) .go with
  | (s, some p) =>
    match turn cfg s p (.decide elapsed) with
    | (s, some p) => (turn cfg s p .go).1
    | (s, none) => s
  | (s, none) => s

theorem answerOf_reply (cfg : Config) (s : SessionArtifacts.State) (c : Loaded) (elapsed : ℕ) :
    answerOf (SessionArtifacts.reply cfg.control s (c.asked cfg.srv elapsed)) =
      checkOf cfg.control.authz s.authz (s.clock + elapsed) (c.question cfg.srv) := by
  unfold SessionArtifacts.reply checkOf
  simp only [Loaded.asked, SessionArtifacts.perform, SessionArtifacts.check]
  rcases AuthzCheck.check cfg.control.authz s.authz (ask (c.question cfg.srv)) (s.clock + elapsed)
    with ⟨response, authz⟩
  cases response <;> rfl

/-- A request that nothing interrupts is served as `serveApp` serves it, by a control plane that
decides on its tables. -/
theorem alone_serveApp (cfg : Config) (s : Shared) (c : Loaded) (elapsed : ℕ)
    (consumeGuac consumeRtsp : ConsumeRequest → Option Bool)
    (hconsults : consults cfg.srv c.request c.route = true) :
    (alone cfg s c elapsed).served = ⟨c, s.now, (serveApp cfg.srv
        ⟨checkOf cfg.control.authz s.control.authz (s.control.clock + elapsed), consumeGuac,
          consumeRtsp⟩ s.cache s.now c.request c.host c.route).1⟩ :: s.served ∧
      (alone cfg s c elapsed).cache = (serveApp cfg.srv
        ⟨checkOf cfg.control.authz s.control.authz (s.control.clock + elapsed), consumeGuac,
          consumeRtsp⟩ s.cache s.now c.request c.host c.route).2 := by
  have hdecided : ∀ cache,
      serveChecked cfg.srv (plane (answerOf (SessionArtifacts.reply cfg.control s.control
          (c.asked cfg.srv elapsed)))) cache s.now c.request c.host c.route
          (appHeader cfg.srv c.request) (gatewayCookie cfg.srv c.request)
          (c.question cfg.srv).publicCookie =
        serveChecked cfg.srv
          ⟨checkOf cfg.control.authz s.control.authz (s.control.clock + elapsed), consumeGuac,
            consumeRtsp⟩ cache s.now c.request c.host c.route (appHeader cfg.srv c.request)
          (gatewayCookie cfg.srv c.request) (c.question cfg.srv).publicCookie := by
    intro cache
    rw [answerOf_reply]
    rfl
  rw [RouteSwaps.serveApp_of_consults cfg.srv _ _ _ _ _ _ hconsults]
  unfold alone
  by_cases hcookie : gatewayCookie cfg.srv c.request = []
  · simp only [turn, hcookie, ne_eq, not_true_eq_false, if_true, if_false, finish, Shared.serve]
    rw [hcookie] at hdecided
    exact ⟨by rw [hdecided]; rfl, by rw [hdecided]; rfl⟩
  · have hkey : requestKey cfg.srv c.request c.host c.route = (c.scope cfg.srv).key cfg.srv := rfl
    simp only [turn, if_neg hcookie]
    rw [if_pos hcookie, hkey]
    rcases get s.cache ((c.scope cfg.srv).key cfg.srv) s.now with ⟨found, cache⟩
    cases found with
    | some headers => exact ⟨rfl, rfl⟩
    | none =>
      simp only [finish, Shared.serve]
      exact ⟨by rw [hdecided]; rfl, by rw [hdecided]; rfl⟩

end Hyproxy.EdgeRuns

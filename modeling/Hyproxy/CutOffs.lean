import Hyproxy.SignIns
import Hyproxy.StaleAllows

/-!
How long a revocation takes to reach the edge. A gateway cookie leads to the same
session for good, and a session that is over stays so; hence the decisions on
which the edge forwards requests with the cookie are from before its end, and
they are not kept for longer than their lifetime.
-/
namespace Hyproxy.CutOffs

open AuthzCheck (GatewaySession parseCookie resolveGatewaySession)
open SessionArtifacts

/-! ### What a cookie leads to -/

/-- The numbers of the gateway sessions are used up, and each is that of one session. -/
structure Numbered (s : State) : Prop where
  below : ∀ gw ∈ s.authz.gateways, gw.id < s.next
  same : ∀ gw ∈ s.authz.gateways, ∀ gw' ∈ s.authz.gateways, gw.id = gw'.id →
    gw.idpSession = gw'.idpSession

/-- A gateway session with this number is of this session. -/
def Linked (s : State) (gateway id : ℕ) : Prop :=
  gateway < s.next ∧ ∀ gw ∈ s.authz.gateways, gw.id = gateway → gw.idpSession = id

theorem next_step (cfg : Config) (s : State) (e : Event) : s.next ≤ (step cfg s e).next := by
  rcases Revocation.perform_effect cfg s e.op (s.clock + e.elapsed) with ⟨-, hnext⟩ | ⟨x, -, hnext⟩
  · exact hnext
  · exact (Nat.le_succ _).trans_eq hnext.symm

/-- Each of the gateway sessions was there before, of the same session, or is the new one. -/
theorem step_gateways (cfg : Config) (s : State) (e : Event) (gw' : GatewaySession)
    (h : gw' ∈ (step cfg s e).authz.gateways) :
    (∃ gw ∈ s.authz.gateways, gw.id = gw'.id ∧ gw.idpSession = gw'.idpSession) ∨
      (SignIns.Opens cfg s (s.clock + e.elapsed) e.op gw' ∧ gw'.id = s.next ∧
        s.next < (step cfg s e).next) := by
  rcases SignIns.perform_gateways cfg s (s.clock + e.elapsed) e.op gw' h with hold | ⟨hopens, hnext⟩
  · obtain ⟨gw, hgw, heq⟩ := List.mem_map.mp hold
    simp only [SignIns.stamp, GatewaySession.mk.injEq] at heq
    exact Or.inl ⟨gw, hgw, heq.1, heq.2.2.1⟩
  · have hopened := hopens
    obtain ⟨-, -, -, -, -, -, -, -, -, -, -, -, hid⟩ := hopens
    exact Or.inr ⟨hopened, hid, hnext⟩

theorem numbered_step (cfg : Config) (s : State) (e : Event) (h : Numbered s) :
    Numbered (step cfg s e) := by
  constructor
  · intro gw hgw
    rcases step_gateways cfg s e gw hgw with ⟨old, hold, hid, -⟩ | ⟨-, hid, hnext⟩
    · exact hid ▸ (h.below old hold).trans_le (next_step cfg s e)
    · exact hid ▸ hnext
  · intro gw hgw gw' hgw' heq
    rcases step_gateways cfg s e gw hgw with ⟨old, hold, hid, hsession⟩ | ⟨hopens, hid, -⟩ <;>
      rcases step_gateways cfg s e gw' hgw' with
        ⟨old', hold', hid', hsession'⟩ | ⟨hopens', hid', -⟩
    · have hsame := h.same old hold old' hold' (by omega)
      omega
    · have hbelow := h.below old hold
      omega
    · have hbelow := h.below old' hold'
      omega
    · exact hopens.session_eq hopens'

theorem numbered_run (cfg : Config) (s : State) (events : List Event) (h : Numbered s) :
    Numbered (events.foldl (step cfg) s) := by
  induction events generalizing s with
  | nil => exact h
  | cons e events ih => exact ih _ (numbered_step cfg s e h)

theorem linked_step (cfg : Config) (s : State) (e : Event) (gateway id : ℕ) (h : Linked s gateway id) :
    Linked (step cfg s e) gateway id := by
  refine ⟨h.1.trans_le (next_step cfg s e), fun gw hgw heq => ?_⟩
  rcases step_gateways cfg s e gw hgw with ⟨old, hold, hid, hsession⟩ | ⟨-, hid, -⟩
  · exact hsession ▸ h.2 old hold (hid.trans heq)
  · have hbelow := h.1
    omega

theorem linked_run (cfg : Config) (s : State) (events : List Event) (gateway id : ℕ)
    (h : Linked s gateway id) : Linked (events.foldl (step cfg) s) gateway id := by
  induction events generalizing s with
  | nil => exact h
  | cons e events ih => exact ih _ (linked_step cfg s e gateway id h)

theorem gatewayLink_some (cfg : Config) (s : State) (cookie : Option (List Char)) (id : ℕ)
    (h : gatewayLink cfg s cookie = some id) : ∃ gateway secret gw,
      parseCookie cfg.authz cookie = some (gateway, secret) ∧ gw ∈ s.authz.gateways ∧
        gw.id = gateway ∧ gw.idpSession = id := by
  unfold gatewayLink at h
  cases hcookie : parseCookie cfg.authz cookie with
  | none =>
    rw [hcookie] at h
    cases h
  | some parsed =>
    rw [hcookie] at h
    obtain ⟨gw, hgw, hid⟩ := Option.map_eq_some_iff.mp h
    exact ⟨parsed.1, parsed.2, gw, rfl, List.mem_of_find?_eq_some hgw,
      by simpa using List.find?_some hgw, hid⟩

/-- A cookie leads to the same session for good. -/
theorem gatewayLink_run (cfg : Config) (s : State) (hnumbered : Numbered s) (events : List Event)
    (cookie : Option (List Char)) (id id' : ℕ) (h : gatewayLink cfg s cookie = some id)
    (h' : gatewayLink cfg (events.foldl (step cfg) s) cookie = some id') : id' = id := by
  obtain ⟨gateway, secret, gw, hcookie, hgw, hid, rfl⟩ := gatewayLink_some cfg s cookie id h
  obtain ⟨gateway', secret', gw', hcookie', hgw', hid', rfl⟩ := gatewayLink_some cfg _ cookie id' h'
  obtain ⟨rfl, -⟩ := Prod.mk.inj (Option.some.inj (hcookie.symm.trans hcookie'))
  have hlinked : Linked s gateway gw.idpSession :=
    ⟨hid ▸ hnumbered.below gw hgw, fun other hother heq =>
      hnumbered.same other hother gw hgw (heq.trans hid.symm)⟩
  exact (linked_run cfg s events gateway _ hlinked).2 gw' hgw' hid'

/-! ### At the edge -/

/-- An answer with host scope, or under an identity, is given on a live session. -/
theorem reply_live (cfg : Config) (s : State) (elapsed : ℕ) (body : AuthzCheck.CheckRequest)
    (response : AuthzCheck.CheckResponse)
    (hreply : reply cfg s ⟨elapsed, .check body⟩ = .check response)
    (h : response.cacheScopeHost = true ∨ response.headers ≠ []) :
    ∃ id, gatewayLink cfg s body.gatewayCookie = some id ∧
      SessionLife.LiveIn s.sessions id ((s.clock + elapsed : ℕ) : ℤ) := by
  have hcheck := (StaleAllows.reply_check_iff cfg s elapsed body response).mp hreply
  unfold AuthzCheck.check at hcheck
  cases hinet : cfg.authz.inet body.sourceIp with
  | none =>
    rw [hinet] at hcheck
    cases hcheck
  | some ip =>
    rw [hinet] at hcheck
    obtain rfl := Option.some.inj hcheck
    have hresolved : ∃ gw db', resolveGatewaySession cfg.authz s.authz body.gatewayCookie
        body.sourceIp ((s.clock + elapsed : ℕ) : ℤ) true = (some gw, db') := by
      rcases h with hscope | hheaders
      · exact (StaleAllows.decision_scoped cfg.authz s.authz body _ hscope).1
      · exact AuthzCheck.decision_identified cfg.authz s.authz body _ hheaders
    obtain ⟨gw, db', hgw⟩ := hresolved
    obtain ⟨hlink, hlive⟩ := Revocation.resolve_live cfg s _ _ _ true gw db' hgw
    exact ⟨gw.idpSession, hlink, hlive⟩

/-- Between two moments the control plane has gone on. -/
theorem control_later (cfg : EdgeRuns.Config) (start : ℕ) (routes : RouteTables.RouteSet)
    (past before : List EdgeRuns.Event) (hbefore : past <+: before) :
    ∃ steps : List Event, (EdgeRuns.run cfg start routes before).shared.control =
      steps.foldl (step cfg.control) (EdgeRuns.run cfg start routes past).shared.control := by
  obtain ⟨more, rfl⟩ := hbefore
  refine ⟨EdgeRuns.history cfg (EdgeRuns.run cfg start routes past) more, ?_⟩
  rw [← EdgeRuns.control_history, EdgeRuns.run, EdgeRuns.run, List.foldl_append]

/-- A moment with a later clock is a later moment. -/
theorem prefix_of_later (cfg : EdgeRuns.Config) (start : ℕ) (routes : RouteTables.RouteSet)
    (past rest before after : List EdgeRuns.Event) (hevents : past ++ rest = before ++ after)
    (hlater : (EdgeRuns.run cfg start routes past).shared.now <
      (EdgeRuns.run cfg start routes before).shared.now) : past <+: before := by
  rcases List.prefix_or_prefix_of_prefix ⟨rest, rfl⟩ (hevents ▸ List.prefix_append before after)
    with hbefore | ⟨more, rfl⟩
  · exact hbefore
  · have hclock := StaleAllows.now_run cfg (EdgeRuns.run cfg start routes before) more
    unfold EdgeRuns.run at hlater hclock
    rw [List.foldl_append] at hlater
    omega

/-- After the session behind a gateway cookie has come to its end, the edge still passes requests with
the cookie for as long as decisions are kept; a request that comes later is passed to no app on a
kept decision, and on a new one only without an identity. -/
theorem ended_cut_off (cfg : EdgeRuns.Config) (hsha : Function.Injective cfg.srv.sha256) (start : ℕ)
    (routes : RouteTables.RouteSet) (past rest : List EdgeRuns.Event) (id : ℕ) (x : Accounts.Session)
    (hx : (id, x) ∈ (EdgeRuns.run cfg start routes past).shared.control.sessions)
    (hover : SessionLife.Over x (EdgeRuns.run cfg start routes past).shared.control.clock)
    (y : EdgeRuns.Served) (hy : y ∈ (EdgeRuns.run cfg start routes (past ++ rest)).shared.served)
    (hlink : gatewayLink cfg.control (EdgeRuns.run cfg start routes past).shared.control
      (HostScope.ask (y.loaded.question cfg.srv)).gatewayCookie = some id)
    (hlate : (EdgeRuns.run cfg start routes past).shared.now + StaleAllows.staleness cfg < y.arrived)
    (hauth : y.loaded.route.authRequired = true) (hguac : y.loaded.route.guacTunnel = false) :
    (∀ d, y.ground ≠ some (.cached d)) ∧
      ∀ d, y.ground = some (.allowed d) → d = ⟨none, none, none⟩ := by
  have hdecided : ∀ ground, y.ground = some ground → ∃ response : AuthzCheck.CheckResponse,
      ((ground = .cached (HostScope.answer response).headers ∧ response.cacheScopeHost = true) ∨
        ground = .allowed (HostScope.answer response).headers) ∧
      ¬ (response.cacheScopeHost = true ∨ response.headers ≠ []) := by
    intro ground hground
    obtain ⟨d, -, -, hpassed, -, -, before, later, elapsed, response, hevents, hsince, hreply, rfl⟩ :=
      StaleAllows.served_decided hsha (past ++ rest) y hy ground hground hauth hguac
    refine ⟨response, hpassed, fun hidentified => ?_⟩
    have hbefore := prefix_of_later cfg start routes past rest before later hevents (by omega)
    obtain ⟨steps, hsteps⟩ := control_later cfg start routes past before hbefore
    obtain ⟨id', hlink', y', hy', hnot⟩ :=
      reply_live cfg.control _ elapsed _ response hreply hidentified
    rw [hsteps] at hlink' hy' hnot
    rw [EdgeRuns.control_run] at hlink hlink' hx hover hy' hnot
    have hnumbered : Numbered (after cfg.control start
        (EdgeRuns.history cfg (EdgeRuns.initial start routes) past)) :=
      numbered_run cfg.control _ _ ⟨fun gw hgw => (by cases hgw), fun gw hgw => by cases hgw⟩
    obtain rfl := gatewayLink_run cfg.control _ hnumbered steps _ id id' hlink hlink'
    have hended := Revocation.ended_of_over _ (Revocation.keyed_after cfg.control start _) id' x
      hx hover
    have hstill := (Revocation.ended_run cfg.control _ steps id' hended).2 y' hy'
    exact hnot ((SessionLife.Older.refl y').over (by omega) hstill)
  constructor
  · intro d hground
    obtain ⟨response, hpassed, hnone⟩ := hdecided _ hground
    rcases hpassed with ⟨-, hscope⟩ | hallowed
    · exact hnone (Or.inl hscope)
    · cases hallowed
  · intro d hground
    obtain ⟨response, hpassed, hnone⟩ := hdecided _ hground
    rcases hpassed with ⟨hcached, -⟩ | hallowed
    · cases hcached
    · have hheaders : response.headers = [] := by
        by_contra hne
        exact hnone (Or.inr hne)
      rw [DataPlane.Ground.allowed.inj hallowed]
      simp only [HostScope.answer, HostScope.headerOf, hheaders]
      rfl

/-- A request is decided on, the user logs out, and two more come, the second after six seconds. -/
def sampleRun : List EdgeRuns.Event :=
  [.start StaleAllows.sampleArrival, .resume 6 .go, .resume 6 .go, .start (.elapse 6000000000),
    .start StaleAllows.sampleArrival, .resume 8 .go, .resume 8 .go, .resume 8 (.decide 0),
    .resume 8 .go]

def samplePast : List EdgeRuns.Event :=
  StaleAllows.sampleSignIn ++ [.start StaleAllows.sampleArrival, .resume 4 .go, .resume 4 .go,
    .resume 4 (.decide 0), .resume 4 .go,
    .start (.operate ⟨0, .logout (some "s.x".toList) "192.0.2.7".toList⟩)]

/-- At once after the logout the kept decision still serves; the request after six seconds does not
pass. -/
theorem ended_cut_off_sample :
    ((EdgeRuns.run StaleAllows.sampleConfig 0 StaleAllows.sampleRoutes
        (samplePast ++ sampleRun)).shared.served.map EdgeRuns.Served.ground =
      [none, some (.cached IdentityHeaders.sampleIdentity),
        some (.allowed IdentityHeaders.sampleIdentity)]) ∧
    ∃ y ∈ (EdgeRuns.run StaleAllows.sampleConfig 0 StaleAllows.sampleRoutes
        (samplePast ++ sampleRun)).shared.served,
      y.arrived = 6000000000 ∧ (∀ d, y.ground ≠ some (.cached d)) ∧
        ∀ d, y.ground = some (.allowed d) → d = ⟨none, none, none⟩ := by
  refine ⟨by decide +kernel, ?_⟩
  have hsome : ((EdgeRuns.run StaleAllows.sampleConfig 0 StaleAllows.sampleRoutes
      (samplePast ++ sampleRun)).shared.served.head?.map fun y => (y.arrived, y.loaded.route,
        (HostScope.ask (y.loaded.question StaleAllows.sampleConfig.srv)).gatewayCookie)) =
      some (6000000000, HostScope.sampleRoute, some "id.secret".toList) := by decide +kernel
  obtain ⟨y, hy, hfields⟩ := Option.map_eq_some_iff.mp hsome
  obtain ⟨harrived, hroute, hcookie⟩ : y.arrived = 6000000000 ∧
      y.loaded.route = HostScope.sampleRoute ∧
      (HostScope.ask (y.loaded.question StaleAllows.sampleConfig.srv)).gatewayCookie =
        some "id.secret".toList := by simpa using hfields
  refine ⟨y, List.mem_of_head? hy, harrived, ?_⟩
  refine ended_cut_off StaleAllows.sampleConfig Function.injective_id 0 StaleAllows.sampleRoutes
    samplePast sampleRun 0 ⟨7, ['x'], "192.0.2.7".toList, .standard, [.pwd, .otp], 0, 21600000000,
      false, some 0, 0⟩ (by decide +kernel) (by decide +kernel) y (List.mem_of_head? hy) ?_ ?_ ?_ ?_
  · rw [hcookie]
    decide +kernel
  · rw [harrived]
    decide +kernel
  · rw [hroute]
    rfl
  · rw [hroute]
    rfl

end Hyproxy.CutOffs

import Hyproxy.DataPlane
import Hyproxy.Routing

/-!
Where a hit of the decision cache comes from. A scope is what a decision is
conditioned on: a routed host, a backend port, a client address and a gateway
cookie. Over any sequence of operations each entry is the last storing of its key,
and the key determines the scope.
-/
namespace Hyproxy.CacheProvenance

open DataPlane HttpHeader Routing
open DecisionCache (Entry get_some length_get length_put maxEntries mem_get_cache mem_put_entry
  purge put ttlCap)

structure Scope where
  host : List Char
  backendPort : ℤ
  sourceIP : List Char
  cookie : List Char
  routed : ∃ raw, normalizeHost raw = some host
  plain : '\x00' ∉ sourceIP

def Scope.key (srv : Server) (s : Scope) : List Char :=
  authzCacheKey srv s.host s.backendPort s.sourceIP s.cookie

/-- What a request does with an allow before it passes it on. -/
def store (srv : Server) (cache : AuthzCache) (s : Scope) (d : CheckResponse) (now : ℤ) :
    AuthzCache :=
  if d.decision = .allow ∧ s.cookie ≠ [] ∧ d.cacheScopeHost = true ∧ 0 < d.cacheTTLSecs then
    put cache (s.key srv) d.headers (nanoseconds d.cacheTTLSecs) now
  else cache

inductive Op
  | get (s : Scope) (now : ℤ)
  | store (s : Scope) (d : CheckResponse) (now : ℤ)
  | purge

def apply (srv : Server) (cache : AuthzCache) : Op → AuthzCache
  | .get s now => (DecisionCache.get cache (s.key srv) now).2
  | .store s d now => store srv cache s d now
  | .purge => purge cache

def run (srv : Server) (ops : List Op) : AuthzCache := ops.foldl (apply srv) []

/-- The cache after the operations holds an entry that this storing left. -/
structure Stored (s : Scope) (d : CheckResponse) (t : ℤ) (e : Entry Identity) : Prop where
  allow : d.decision = .allow
  cookie : s.cookie ≠ []
  scope : d.cacheScopeHost = true
  ttl : 0 < d.cacheTTLSecs
  headers : e.headers = d.headers
  expires : e.expires ≤ t + min (d.cacheTTLSecs * 1000000000) ttlCap

/-! ### The key -/

/-- The text of an integer is the digits of a number, with a sign in front if it is negative. -/
theorem repr_cases (n : ℤ) : (∃ m : ℕ, n = m ∧ (toString n).toList = Nat.toDigits 10 m) ∨
    ∃ m : ℕ, n = Int.negSucc m ∧ (toString n).toList = '-' :: Nat.toDigits 10 (m + 1) := by
  cases n with
  | ofNat m => exact Or.inl ⟨m, rfl, Nat.toList_repr⟩
  | negSucc m =>
    refine Or.inr ⟨m, rfl, ?_⟩
    show ("-" ++ Nat.repr (m + 1)).toList = _
    rw [String.toList_append, Nat.toList_repr]
    rfl

theorem isDigit_of_digits (m : ℕ) (c : Char) (h : c ∈ Nat.toDigits 10 m) : c.isDigit = true :=
  Nat.isDigit_of_mem_toDigits (by decide) (by decide) h

theorem digits_injective (m n : ℕ) (h : Nat.toDigits 10 m = Nat.toDigits 10 n) : m = n := by
  rw [← Nat.ofDigitChars_ten_toDigits (n := m), h, Nat.ofDigitChars_ten_toDigits]

theorem repr_plain (n : ℤ) : '\x00' ∉ (toString n).toList := by
  intro hmem
  rcases repr_cases n with ⟨m, -, htext⟩ | ⟨m, -, htext⟩
  · rw [htext] at hmem
    exact absurd (isDigit_of_digits m _ hmem) (by decide)
  · rw [htext, List.mem_cons] at hmem
    rcases hmem with hsign | hmem
    · exact absurd hsign (by decide)
    · exact absurd (isDigit_of_digits (m + 1) _ hmem) (by decide)

theorem repr_injective (m n : ℤ) (h : (toString m).toList = (toString n).toList) : m = n := by
  have hsign : ∀ a b : ℕ, Nat.toDigits 10 a ≠ '-' :: Nat.toDigits 10 b := by
    intro a b heq
    have hmem : '-' ∈ Nat.toDigits 10 a := by
      rw [heq]
      exact List.mem_cons_self ..
    exact absurd (isDigit_of_digits a _ hmem) (by decide)
  rcases repr_cases m with ⟨a, rfl, hm⟩ | ⟨a, rfl, hm⟩ <;>
    rcases repr_cases n with ⟨b, rfl, hn⟩ | ⟨b, rfl, hn⟩ <;> rw [hm, hn] at h
  · rw [digits_injective a b h]
  · exact absurd h (hsign a (b + 1))
  · exact absurd h.symm (hsign b (a + 1))
  · have hsame := digits_injective (a + 1) (b + 1) (List.cons.inj h).2
    rw [Nat.add_right_cancel hsame]

/-- A field without the separator can be told from what follows it. -/
theorem field_injective (a b rest rest' : List Char) (ha : '\x00' ∉ a) (hb : '\x00' ∉ b)
    (h : a ++ '\x00' :: rest = b ++ '\x00' :: rest') : a = b ∧ rest = rest' := by
  have hcut := Text.cut_append '\x00' a rest ha
  rw [h, Text.cut_append '\x00' b rest' hb] at hcut
  exact ⟨(congrArg Prod.fst hcut).symm, (congrArg Prod.snd hcut).symm⟩

theorem key_injective (srv : Server) (hsha : Function.Injective srv.sha256) (s s' : Scope)
    (h : s.key srv = s'.key srv) : s = s' := by
  obtain ⟨host, port, ip, cookie, ⟨raw, hrouted⟩, hplain⟩ := s
  obtain ⟨host', port', ip', cookie', ⟨raw', hrouted'⟩, hplain'⟩ := s'
  have hframe := hsha h
  simp only [List.append_assoc, List.cons_append] at hframe
  obtain ⟨rfl, hafterHost⟩ := field_injective _ _ _ _ (normalizeHost_nul raw _ hrouted)
    (normalizeHost_nul raw' _ hrouted') hframe
  obtain ⟨hport, hafterPort⟩ := field_injective _ _ _ _ (repr_plain _) (repr_plain _) hafterHost
  obtain rfl := repr_injective _ _ hport
  obtain ⟨rfl, rfl⟩ := field_injective _ _ _ _ hplain hplain' hafterPort
  rfl

/-! ### The entries -/

/-- Seconds beyond the range of the product are far beyond the cap. -/
theorem nanoseconds_cap (secs : ℤ) (hsecs : 0 < secs) :
    min (nanoseconds secs) ttlCap ≤ min (secs * 1000000000) ttlCap := by
  have hcap : ttlCap = 60000000000 := rfl
  by_cases hrange : secs * 1000000000 < 2 ^ 63
  · have hexact : nanoseconds secs = secs * 1000000000 := by
      rw [nanoseconds, Int.bmod_eq_of_le (by omega) (by omega)]
    exact Int.le_of_eq (by rw [hexact])
  · omega

theorem mem_store (srv : Server) (c : AuthzCache) (s : Scope) (d : CheckResponse) (now : ℤ)
    (p : List Char × Entry Identity) (hp : p ∈ store srv c s d now) :
    p ∈ c ∨ (p.1 = s.key srv ∧ Stored s d now p.2) := by
  unfold store at hp
  split_ifs at hp with hguard
  · rcases mem_put_entry c _ _ _ _ p hp with hp | ⟨-, rfl⟩
    · exact Or.inl hp
    · refine Or.inr ⟨rfl, hguard.1, hguard.2.1, hguard.2.2.1, hguard.2.2.2, rfl, ?_⟩
      have hcap := nanoseconds_cap d.cacheTTLSecs hguard.2.2.2
      exact Int.add_le_add_left hcap now
  · exact Or.inl hp

/-- Each entry was stored under its key, and nothing was purged since. -/
theorem mem_run (srv : Server) (ops : List Op) (p : List Char × Entry Identity)
    (hp : p ∈ run srv ops) :
    ∃ before s d t later, ops = before ++ .store s d t :: later ∧ Op.purge ∉ later ∧
      p.1 = s.key srv ∧ Stored s d t p.2 := by
  induction ops using List.reverseRecOn with
  | nil => cases hp
  | append_singleton ops op ih =>
    rw [run, List.foldl_append, List.foldl_cons, List.foldl_nil] at hp
    have hextend : p ∈ run srv ops → op ≠ .purge →
        ∃ before s d t later, ops ++ [op] = before ++ .store s d t :: later ∧ Op.purge ∉ later ∧
          p.1 = s.key srv ∧ Stored s d t p.2 := by
      intro hold hne
      obtain ⟨before, s, d, t, later, rfl, hlater, hkey, hstored⟩ := ih hold
      refine ⟨before, s, d, t, later ++ [op], by simp, ?_, hkey, hstored⟩
      simpa [hlater] using Ne.symm hne
    cases op with
    | get s now => exact hextend (mem_get_cache _ _ now p hp) (by simp)
    | store s d now =>
      rcases mem_store srv _ s d now p hp with hold | ⟨hkey, hstored⟩
      · exact hextend hold (by simp)
      · exact ⟨ops, s, d, now, [], rfl, List.not_mem_nil, hkey, hstored⟩
    | purge => cases hp

/-- A hit is an allow for the same scope, stored since the last purge and not outlived. -/
theorem hit_stored (srv : Server) (hsha : Function.Injective srv.sha256) (ops : List Op) (s : Scope)
    (now : ℤ) (headers : Identity)
    (hhit : (DecisionCache.get (run srv ops) (s.key srv) now).1 = some headers) :
    ∃ before d t later, ops = before ++ .store s d t :: later ∧ Op.purge ∉ later ∧
      d.headers = headers ∧ d.decision = .allow ∧ d.cacheScopeHost = true ∧ 0 < d.cacheTTLSecs ∧
      now - t ≤ min (d.cacheTTLSecs * 1000000000) ttlCap := by
  obtain ⟨e, hmem, rfl, hlive⟩ := get_some _ _ now headers hhit
  obtain ⟨before, s', d, t, later, hops, hlater, hkey, hstored⟩ := mem_run srv ops _ hmem
  obtain rfl := key_injective srv hsha s s' hkey
  have hexpires := hstored.expires
  simp only at hexpires
  exact ⟨before, d, t, later, hops, hlater, hstored.headers.symm, hstored.allow, hstored.scope,
    hstored.ttl, by omega⟩

/-! ### The bound -/

theorem length_run (srv : Server) (ops : List Op) : (run srv ops).length ≤ maxEntries := by
  induction ops using List.reverseRecOn with
  | nil => exact Nat.zero_le _
  | append_singleton ops op ih =>
    rw [run, List.foldl_append, List.foldl_cons, List.foldl_nil]
    cases op with
    | get s now =>
      exact Nat.le_trans (length_get _ _ now) ih
    | store s d now =>
      simp only [apply, store]
      split_ifs
      · exact length_put _ _ _ _ _ ih
      · exact ih
    | purge => exact Nat.zero_le _

/-! ### The request handler -/

/-- The request is served in this scope. -/
structure Serves (srv : Server) (r : Request) (route : Route) (s : Scope) : Prop where
  backendPort : route.backendPort = s.backendPort
  sourceIP : r.clientIP = s.sourceIP
  cookie : gatewayCookie srv r = s.cookie

/-- The handler stores what `store` stores. -/
theorem serveChecked_store (srv : Server) (cp : ControlPlane) (cache : AuthzCache) (now : ℤ)
    (r : Request) (s : Scope) (route : Route) (h : Header) (publicCookie : List Char)
    (hserves : Serves srv r route s) :
    (serveChecked srv cp cache now r s.host route h (gatewayCookie srv r) publicCookie).2 =
      match cp.check ⟨s.host, r.method, r.url.requestURI, r.clientIP, route.backendPort,
        gatewayCookie srv r, publicCookie⟩ with
      | none => cache
      | some d => store srv cache s d now := by
  unfold serveChecked store
  rw [hserves.backendPort, hserves.sourceIP, hserves.cookie]
  cases hcheck : cp.check ⟨s.host, r.method, r.url.requestURI, s.sourceIP, s.backendPort, s.cookie,
    publicCookie⟩ with
  | none => rfl
  | some d =>
    cases hdecision : d.decision with
    | allow => simp only [hdecision, true_and, Scope.key]
    | authRequired =>
      simp only [hdecision]
      split_ifs <;> simp_all
    | notFound => simp [hdecision]
    | other text => simp [hdecision]

theorem serveChecked_outcome (srv : Server) (cp : ControlPlane) (cache cache' : AuthzCache) (now : ℤ)
    (r : Request) (host : List Char) (route : Route) (h : Header) (cookie publicCookie : List Char) :
    (serveChecked srv cp cache now r host route h cookie publicCookie).1 =
      (serveChecked srv cp cache' now r host route h cookie publicCookie).1 := by
  unfold serveChecked
  cases cp.check ⟨host, r.method, r.url.requestURI, r.clientIP, route.backendPort, cookie,
    publicCookie⟩ with
  | none => rfl
  | some d =>
    cases hdecision : d.decision with
    | allow => simp only [hdecision]
    | authRequired =>
      simp only [hdecision]
      split_ifs <;> rfl
    | notFound => simp only [hdecision]
    | other text => simp only [hdecision]

/-- The part of the handler that may ask the cache, and what precedes it. -/
theorem serveApp_cases (srv : Server) (cp : ControlPlane) (now : ℤ) (r : Request)
    (host : List Char) (route : Route) :
    (∃ outcome, ∀ cache, serveApp srv cp cache now r host route = (outcome, cache)) ∨
      ∀ cache, serveApp srv cp cache now r host route =
        if gatewayCookie srv r ≠ [] then
          match DecisionCache.get cache (requestKey srv r host route) now with
          | (some headers, cache) =>
            (serveProxy srv (.app host) (.cached headers) r (setIdentity (appHeader srv r) headers),
              cache)
          | (none, cache) =>
            serveChecked srv cp cache now r host route (appHeader srv r) (gatewayCookie srv r)
              (checkRequest srv r host route).publicCookie
        else
          serveChecked srv cp cache now r host route (appHeader srv r) (gatewayCookie srv r)
            (checkRequest srv r host route).publicCookie := by
  unfold serveApp
  simp only
  by_cases hlan : (route.lanOnly && !srv.isLAN r.clientIP) = true
  · refine Or.inl ?_
    simp only [if_pos hlan]
    by_cases hget : isGetOrHead r.method = true ∧ srv.lanOnlyRedirect ≠ []
    · exact ⟨_, fun _ => if_pos hget⟩
    · exact ⟨_, fun _ => if_neg hget⟩
  · simp only [if_neg hlan]
    by_cases hgate : (route.publicGate && isPublicGatePath r.url.path) = true
    · exact Or.inl ⟨_, fun _ => if_pos hgate⟩
    · simp only [if_neg hgate]
      by_cases hguac : route.guacTunnel = true
      · exact Or.inl ⟨_, fun _ => if_pos hguac⟩
      · simp only [if_neg hguac]
        by_cases hpath : (route.guacTunnelPath && r.url.path == "/guac/tunnel".toList) = true
        · exact Or.inl ⟨_, fun _ => if_pos hpath⟩
        · simp only [if_neg hpath]
          by_cases hrtsp : (route.rtspTunnelPath && r.url.path == "/rtsp/stream".toList) = true
          · exact Or.inl ⟨_, fun _ => if_pos hrtsp⟩
          · simp only [if_neg hrtsp]
            by_cases hopen : (!route.authRequired) = true
            · exact Or.inl ⟨_, fun _ => if_pos hopen⟩
            · simp only [if_neg hopen]
              exact Or.inr fun _ => rfl

/-- A request asks the cache at most once and stores at most its own decision; without a cookie it
does neither. -/
theorem serveApp_ops (srv : Server) (cp : ControlPlane) (cache : AuthzCache) (now : ℤ) (r : Request)
    (route : Route) (s : Scope) (hserves : Serves srv r route s) :
    (serveApp srv cp cache now r s.host route).2 = cache ∨
      (s.cookie ≠ [] ∧ ((serveApp srv cp cache now r s.host route).2 =
          apply srv cache (.get s now) ∨
        ∃ d, cp.check (checkRequest srv r s.host route) = some d ∧
          (serveApp srv cp cache now r s.host route).2 =
            apply srv (apply srv cache (.get s now)) (.store s d now))) := by
  have hkey : requestKey srv r s.host route = s.key srv := by
    rw [requestKey, Scope.key, hserves.backendPort, hserves.sourceIP, hserves.cookie]
  rcases serveApp_cases srv cp now r s.host route with ⟨outcome, hplain⟩ | hasks
  · exact Or.inl (by rw [hplain])
  · have hchecked := fun cache' => serveChecked_store srv cp cache' now r s route (appHeader srv r)
      (checkRequest srv r s.host route).publicCookie hserves
    rw [hasks cache]
    by_cases hcookie : gatewayCookie srv r ≠ []
    · rw [if_pos hcookie, hkey]
      refine Or.inr ⟨hserves.cookie ▸ hcookie, ?_⟩
      rcases hget : DecisionCache.get cache (s.key srv) now with ⟨headers, cache'⟩
      have happly : apply srv cache (.get s now) = cache' := congrArg Prod.snd hget
      rw [happly]
      cases headers with
      | some headers => exact Or.inl rfl
      | none =>
        simp only
        rw [hchecked cache']
        cases hcheck : cp.check ⟨s.host, r.method, r.url.requestURI, r.clientIP, route.backendPort,
          gatewayCookie srv r, (checkRequest srv r s.host route).publicCookie⟩ with
        | none => exact Or.inl rfl
        | some d => exact Or.inr ⟨d, hcheck, rfl⟩
    · rw [if_neg hcookie, hchecked cache]
      refine Or.inl ?_
      have hempty : s.cookie = [] := by
        rw [← hserves.cookie]
        exact Classical.not_not.mp hcookie
      split
      · rfl
      · rw [store, if_neg fun hguard => hguard.2.1 hempty]

theorem serveApp_of_no_cookie (srv : Server) (cp : ControlPlane) (cache cache' : AuthzCache) (now : ℤ)
    (r : Request) (route : Route) (s : Scope) (hserves : Serves srv r route s)
    (hcookie : s.cookie = []) :
    (serveApp srv cp cache now r s.host route).1 = (serveApp srv cp cache' now r s.host route).1 ∧
      (serveApp srv cp cache now r s.host route).2 = cache := by
  refine ⟨?_, (serveApp_ops srv cp cache now r route s hserves).resolve_right fun h => h.1 hcookie⟩
  rcases serveApp_cases srv cp now r s.host route with ⟨outcome, hplain⟩ | hasks
  · rw [hplain, hplain]
  · have hnone : ¬ gatewayCookie srv r ≠ [] := by
      rw [hserves.cookie, hcookie]
      exact fun h => h rfl
    rw [hasks, hasks, if_neg hnone, if_neg hnone]
    exact serveChecked_outcome ..

/-- A request passed on the ground of the cache was answered by the entry of its scope. -/
theorem serveApp_cached (srv : Server) (cp : ControlPlane) (cache : AuthzCache) (now : ℤ)
    (r : Request) (route : Route) (s : Scope) (hserves : Serves srv r route s) (d : Identity)
    (out : Outgoing) (hout : (serveApp srv cp cache now r s.host route).1 = .forward (.cached d) out) :
    (DecisionCache.get cache (s.key srv) now).1 = some d := by
  have hpasses := (serveApp_passes srv cp cache now r s.host route _ out hout).cached d rfl
  rw [requestKey, hserves.backendPort, hserves.sourceIP, hserves.cookie] at hpasses
  exact hpasses.1

/-- Provenance of the decision cache: what a hit rests on, that the key determines the scope, the
bound on the entries, and how requests use the cache. -/
theorem decision_cache_provenance (srv : Server) (hsha : Function.Injective srv.sha256) :
    (∀ ops s now headers, (DecisionCache.get (run srv ops) (s.key srv) now).1 = some headers →
      ∃ before d t later, ops = before ++ .store s d t :: later ∧ Op.purge ∉ later ∧
        d.headers = headers ∧ d.decision = .allow ∧ d.cacheScopeHost = true ∧
        0 < d.cacheTTLSecs ∧ now - t ≤ min (d.cacheTTLSecs * 1000000000) ttlCap) ∧
    (∀ s s' : Scope, s.key srv = s'.key srv → s = s') ∧
    (∀ ops, (run srv ops).length ≤ maxEntries) ∧
    (∀ cp cache now r route s, Serves srv r route s →
      ((serveApp srv cp cache now r s.host route).2 = cache ∨
        (s.cookie ≠ [] ∧ ((serveApp srv cp cache now r s.host route).2 =
            apply srv cache (.get s now) ∨
          ∃ d, cp.check (checkRequest srv r s.host route) = some d ∧
            (serveApp srv cp cache now r s.host route).2 =
              apply srv (apply srv cache (.get s now)) (.store s d now)))) ∧
      (∀ d out, (serveApp srv cp cache now r s.host route).1 = .forward (.cached d) out →
        (DecisionCache.get cache (s.key srv) now).1 = some d) ∧
      (s.cookie = [] → ∀ cache',
        (serveApp srv cp cache now r s.host route).1 =
          (serveApp srv cp cache' now r s.host route).1 ∧
        (serveApp srv cp cache now r s.host route).2 = cache)) := by
  refine ⟨hit_stored srv hsha, key_injective srv hsha, length_run srv, ?_⟩
  intro cp cache now r route s hserves
  exact ⟨serveApp_ops srv cp cache now r route s hserves,
    fun d out => serveApp_cached srv cp cache now r route s hserves d out,
    fun hcookie cache' => serveApp_of_no_cookie srv cp cache cache' now r route s hserves hcookie⟩

def sampleServer : Server :=
  ⟨"gw".toList, "pub".toList, fun _ => true, [], 3000, 10000, id⟩

def sampleScope : Scope where
  host := "app.local.test".toList
  backendPort := 443
  sourceIP := "10.0.0.7".toList
  cookie := "id.secret".toList
  routed := ⟨"App.Local.Test:8443".toList, by decide⟩
  plain := by decide

def sampleAllow : CheckResponse :=
  ⟨.allow, ⟨some "ada".toList, none, none⟩, [], true, 30⟩

/-- A hit within the half minute that the control plane granted. -/
theorem decision_cache_provenance_sample :
    ∃ before d t later, [Op.purge, .store sampleScope sampleAllow 5] =
        before ++ .store sampleScope d t :: later ∧ Op.purge ∉ later ∧
      d.headers = sampleAllow.headers ∧ d.decision = .allow ∧ d.cacheScopeHost = true ∧
      0 < d.cacheTTLSecs ∧ 30000000005 - t ≤ min (d.cacheTTLSecs * 1000000000) ttlCap :=
  (decision_cache_provenance sampleServer Function.injective_id).1
    [.purge, .store sampleScope sampleAllow 5] sampleScope 30000000005 sampleAllow.headers
    (by decide)

end Hyproxy.CacheProvenance

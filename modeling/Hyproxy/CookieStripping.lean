import Hyproxy.IdentityHeaders

/-!
Which authorization cookies can still reach a backend. The handler takes out the
gateway cookie and then the public cookie, each time rewriting the header only if
the last cookie of that name has a value; a header with too many cookies is not
read at all. The result is stated on the client's own header, for every way in
which a request leaves for anything but the control plane.
-/
namespace Hyproxy.CookieStripping

open HttpHeader Cookies DataPlane IdentityHeaders

/-- Some cookie of the request has this name. -/
def Carries (h : Header) (name : List Char) : Prop :=
  ∃ p ∈ nameValues (h "Cookie".toList), p.1 = name

theorem lastOf_filter (pairs : List (List Char × List Char)) (name other : List Char)
    (hne : name ≠ other) : lastOf (pairs.filter (fun p => p.1 ≠ other)) name = lastOf pairs name := by
  unfold lastOf
  rw [List.filter_filter]
  congr 3
  refine List.filter_congr (fun p _ => ?_)
  by_cases hp : p.1 = name
  · simp [hp, hne]
  · simp [hp]

theorem carries_extract_self (maxNum : ℕ) (h : Header) (name : List Char) (hname : name ≠ []) :
    Carries (extractCookie maxNum h name).2 name ↔
      Carries h name ∧ ¬ Strips maxNum (h "Cookie".toList) name := by
  by_cases hstrip : Strips maxNum (h "Cookie".toList) name
  · have hpairs := (extractCookie_strips maxNum h name hname hstrip).1
    refine iff_of_false ?_ (fun hc => hc.2 hstrip)
    rintro ⟨p, hp, hpn⟩
    rw [hpairs] at hp
    simp [hpn] at hp
  · rw [extractCookie_kept maxNum h name hname hstrip]
    exact ⟨fun hc => ⟨hc, hstrip⟩, fun hc => hc.1⟩

theorem carries_extract_other (maxNum : ℕ) (h : Header) (name other : List Char)
    (hother : other ≠ []) (hne : name ≠ other) :
    (Carries (extractCookie maxNum h other).2 name ↔ Carries h name) ∧
      (Strips maxNum ((extractCookie maxNum h other).2 "Cookie".toList) name ↔
        Strips maxNum (h "Cookie".toList) name) := by
  by_cases hstrip : Strips maxNum (h "Cookie".toList) other
  · obtain ⟨hpairs, hread⟩ := extractCookie_strips maxNum h other hother hstrip
    constructor
    · unfold Carries
      rw [hpairs]
      constructor
      · rintro ⟨p, hp, hpn⟩
        exact ⟨p, List.mem_of_mem_filter hp, hpn⟩
      · rintro ⟨p, hp, rfl⟩
        exact ⟨p, List.mem_filter.mpr ⟨hp, by simpa using hne⟩, rfl⟩
    · unfold Strips
      rw [hpairs, lastOf_filter _ name other hne]
      exact and_congr_left (fun _ => iff_of_true hread hstrip.1)
  · rw [extractCookie_kept maxNum h other hother hstrip]
    exact ⟨Iff.rfl, Iff.rfl⟩

/-- After both extractions a name is left exactly when it was there and was not stripped. -/
theorem carries_extract_twice (maxNum : ℕ) (h : Header) (first second name : List Char)
    (hfirst : first ≠ []) (hsecond : second ≠ []) (hname : name = first ∨ name = second) :
    Carries (extractCookie maxNum (extractCookie maxNum h first).2 second).2 name ↔
      Carries h name ∧ ¬ Strips maxNum (h "Cookie".toList) name := by
  by_cases hsame : name = second
  · subst hsame
    rw [carries_extract_self maxNum _ name hsecond]
    by_cases heq : name = first
    · subst heq
      rw [carries_extract_self maxNum h name hfirst]
      refine ⟨fun hc => hc.1, fun hc => ⟨hc, ?_⟩⟩
      rw [extractCookie_kept maxNum h name hfirst hc.2]
      exact hc.2
    · obtain ⟨hcarries, hstrips⟩ := carries_extract_other maxNum h name first hfirst heq
      rw [hcarries, hstrips]
  · obtain rfl : name = first := hname.resolve_right hsame
    rw [(carries_extract_other maxNum _ name second hsecond hsame).1,
      carries_extract_self maxNum h name hfirst]

theorem carries_appHeader (srv : Server) (r : Request) (name : List Char)
    (hgateway : srv.cookieName ≠ []) (hpublic : srv.publicCookieName ≠ [])
    (hname : name = srv.cookieName ∨ name = srv.publicCookieName) :
    Carries (appHeader srv r) name ↔
      Carries r.header name ∧ ¬ Strips srv.maxCookies (r.header "Cookie".toList) name := by
  have hcookie : stripIdentityHeaders r.header "Cookie".toList = r.header "Cookie".toList := by
    rw [stripIdentityHeaders_apply, if_neg (by decide)]
  have h := carries_extract_twice srv.maxCookies (stripIdentityHeaders r.header) srv.cookieName
    srv.publicCookieName name hgateway hpublic hname
  rw [hcookie] at h
  unfold Carries at h ⊢
  rw [hcookie] at h
  exact h

theorem headerFor_connection (srv : Server) (r : Request) (ground : Ground) :
    connectionOptions (headerFor srv r ground) = connectionOptions r.header := by
  have hclean : (appHeader srv r) "Connection".toList = r.header "Connection".toList := by
    rw [appHeader_apply srv r _ (by decide), if_neg (by decide)]
  cases ground with
  | gate =>
    unfold connectionOptions
    rw [headerFor, gateHeader, extractCookie_other _ _ _ _ (by decide),
      stripIdentityHeaders_apply, if_neg (by decide)]
  | openRoute => rw [headerFor, connectionOptions, hclean, connectionOptions]
  | grant => rw [headerFor, connectionOptions, hclean, connectionOptions]
  | cached d => exact connectionOptions_decided srv r d
  | allowed d => exact connectionOptions_decided srv r d

theorem headerFor_cookie (srv : Server) (r : Request) (ground : Ground) (hground : ground ≠ .gate) :
    headerFor srv r ground "Cookie".toList = appHeader srv r "Cookie".toList := by
  have hset : ∀ d, setIdentity (appHeader srv r) d "Cookie".toList =
      appHeader srv r "Cookie".toList := by
    intro d
    rw [setIdentity_apply, lookup_eq_none_of_not_mem d _ (by decide)]
    rfl
  cases ground with
  | gate => exact absurd rfl hground
  | openRoute => rfl
  | grant => rfl
  | cached d => exact hset d
  | allowed d => exact hset d

/-- A forwarded request carries neither cookie exactly when the client lists `Cookie` in a
`Connection` header, or each of the two names is absent or is stripped: the cookies
are within the limit and the last one of that name has a value. -/
theorem cookies_stripped_iff (srv : Server) (cp : ControlPlane) (cache : AuthzCache) (now : ℤ)
    (r : Request) (host : List Char) (route : Route) (ground : Ground) (out : Outgoing)
    (hgateway : srv.cookieName ≠ []) (hpublic : srv.publicCookieName ≠ [])
    (hout : (serveApp srv cp cache now r host route).1 = .forward ground out)
    (hupstream : out.upstream ≠ .controlPlane) :
    (¬ Carries out.header srv.cookieName ∧ ¬ Carries out.header srv.publicCookieName) ↔
      "Cookie".toList ∈ (connectionOptions r.header).map canonicalHeaderKey ∨
      ∀ name, name = srv.cookieName ∨ name = srv.publicCookieName →
        ¬ Carries r.header name ∨ Strips srv.maxCookies (r.header "Cookie".toList) name := by
  have hpass := serveApp_passes srv cp cache now r host route ground out hout
  have hground : ground ≠ .gate := fun h => hupstream (hpass.gate.mpr h)
  have hheader := proxyHeader_other _ out.header r.inbound "Cookie".toList hpass.header
    (by decide)
  rw [headerFor_connection, headerFor_cookie srv r ground hground] at hheader
  by_cases hlisted : "Cookie".toList ∈ (connectionOptions r.header).map canonicalHeaderKey
  · rw [if_pos hlisted] at hheader
    have hnone : ∀ name, ¬ Carries out.header name := by
      rintro name ⟨p, hp, -⟩
      rw [hheader] at hp
      cases hp
    exact iff_of_true ⟨hnone _, hnone _⟩ (Or.inl hlisted)
  · rw [if_neg hlisted] at hheader
    have hcarries : ∀ name, name = srv.cookieName ∨ name = srv.publicCookieName →
        (¬ Carries out.header name ↔
          ¬ Carries r.header name ∨ Strips srv.maxCookies (r.header "Cookie".toList) name) := by
      intro name hname
      have h := carries_appHeader srv r name hgateway hpublic hname
      rw [show Carries out.header name ↔ Carries (appHeader srv r) name by
        unfold Carries; rw [hheader], h, not_and_or, not_not]
    rw [hcarries _ (Or.inl rfl), hcarries _ (Or.inr rfl)]
    constructor
    · rintro ⟨h1, h2⟩
      refine Or.inr ?_
      rintro name (rfl | rfl)
      · exact h1
      · exact h2
    · rintro (h | h)
      · exact absurd h hlisted
      · exact ⟨h _ (Or.inl rfl), h _ (Or.inr rfl)⟩

/-- A request with one `Cookie` line, on a route without authentication. -/
def cookieRequest (line : List Char) : Request where
  method := "GET".toList
  host := "app.example.org".toList
  url := ⟨"/".toList, [], [], false, [], []⟩
  header := fun key => if key = "Cookie".toList then [line] else []
  clientIP := "192.0.2.7".toList
  tls := true

def openRoute : Route := ⟨80, some false, false, false, false, false, false⟩

def silent : ControlPlane := ⟨fun _ => none, fun _ => none, fun _ => none⟩

theorem cookieRequest_forwards (line : List Char) :
    ∃ out, (serveApp sampleServer silent [] 0 (cookieRequest line) "app.example.org".toList
        openRoute).1 = .forward .openRoute out ∧
      proxyHeader (appHeader sampleServer (cookieRequest line)) (cookieRequest line).inbound =
        some out.header ∧ out.upstream ≠ .controlPlane := by
  have hconnection : appHeader sampleServer (cookieRequest line) "Connection".toList = [] := by
    rw [appHeader_apply _ _ _ (by decide), if_neg (by decide)]
    have hne : "Connection".toList ≠ "Cookie".toList := by decide
    show (if "Connection".toList = "Cookie".toList then [line] else []) = []
    rw [if_neg hne]
  obtain ⟨header, hheader⟩ := proxyHeader_of_no_upgrade (appHeader sampleServer (cookieRequest line))
    (cookieRequest line).inbound (by rw [hconnection]; rfl)
  obtain ⟨out, hout, rfl, hup⟩ := serveProxy_of_header sampleServer (.app "app.example.org".toList)
    .openRoute (cookieRequest line) _ header hheader
  refine ⟨out, (serveApp_of_open sampleServer silent [] 0 _ _ 80).trans hout, hheader, ?_⟩
  rw [hup]
  simp

/-- The header `gw=secret; theme=dark` leaves without the gateway cookie. -/
theorem cookies_stripped_sample :
    ∃ out, (serveApp sampleServer silent [] 0 (cookieRequest "gw=secret; theme=dark".toList)
        "app.example.org".toList openRoute).1 = .forward .openRoute out ∧
      ¬ Carries out.header "gw".toList ∧ ¬ Carries out.header "pub".toList := by
  obtain ⟨out, hout, -, hup⟩ := cookieRequest_forwards "gw=secret; theme=dark".toList
  refine ⟨out, hout, (cookies_stripped_iff sampleServer silent [] 0 _ _ openRoute _ out
    (by decide) (by decide) hout hup).mpr (Or.inr ?_)⟩
  rintro name (rfl | rfl)
  · exact Or.inr ⟨by decide, by decide⟩
  · refine Or.inl (fun ⟨p, hp, hpn⟩ => ?_)
    have hnames : ∀ p ∈ nameValues ["gw=secret; theme=dark".toList], p.1 ≠ "pub".toList := by
      decide
    exact hnames p hp hpn

/-- The header `gw=secret; gw=` reaches the backend as it is. -/
theorem empty_last_cookie_leaks :
    ∃ out, (serveApp sampleServer silent [] 0 (cookieRequest "gw=secret; gw=".toList)
        "app.example.org".toList openRoute).1 = .forward .openRoute out ∧
      out.upstream ≠ .controlPlane ∧ Carries out.header sampleServer.cookieName := by
  obtain ⟨out, hout, hheader, hup⟩ := cookieRequest_forwards "gw=secret; gw=".toList
  refine ⟨out, hout, hup, ?_⟩
  have hcookie := proxyHeader_other _ out.header _ "Cookie".toList hheader (by decide)
  have hnone : connectionOptions (appHeader sampleServer
      (cookieRequest "gw=secret; gw=".toList)) = [] := by
    have h := headerFor_connection sampleServer (cookieRequest "gw=secret; gw=".toList) .openRoute
    rw [headerFor] at h
    rw [h]
    rfl
  rw [hnone, if_neg (by simp)] at hcookie
  have happ : Carries (appHeader sampleServer (cookieRequest "gw=secret; gw=".toList))
      sampleServer.cookieName := by
    refine (carries_appHeader sampleServer _ _ (by decide) (by decide) (Or.inl rfl)).mpr
      ⟨⟨("gw".toList, "secret".toList), by decide, rfl⟩, fun h => h.2 (by decide)⟩
  unfold Carries at happ ⊢
  rwa [hcookie]

end Hyproxy.CookieStripping

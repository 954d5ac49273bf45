import Hyproxy.DataPlane

/-!
What a backend sees of the identity headers. The handler strips the client's
copies and writes those of the decision; the reverse proxy then removes every
header that the client's own `Connection` header names, and these may be among
them. Nothing else on the way out touches an identity header.
-/
namespace Hyproxy.IdentityHeaders

open HttpHeader Cookies DecisionCache DataPlane

theorem identityHeaders_canonical :
    ∀ name ∈ identityHeaders, canonicalHeaderKey name = name := by decide

theorem identityHeaders_unmanaged :
    ∀ name ∈ identityHeaders, name ∉ managedHeaders ∧ name ≠ "Cookie".toList ∧
      name ≠ "Connection".toList := by decide

theorem pairs_names (d : Identity) :
    (∀ p ∈ d.pairs, p.1 ∈ identityHeaders) ∧ (d.pairs.map Prod.fst).Nodup := by
  obtain ⟨user, id, roles⟩ := d
  cases user <;> cases id <;> cases roles <;>
    simp only [Identity.pairs, Identity.values, identityHeaders, List.zip_cons_cons,
      List.zip_nil_right, List.filterMap_cons, Option.map_none, Option.map_some,
      List.filterMap_nil] <;>
    exact ⟨by simp, by simp; try decide⟩

theorem foldl_set (ps : List (List Char × List Char)) (h : Header) (key : List Char)
    (hcanon : ∀ p ∈ ps, canonicalHeaderKey p.1 = p.1) (hnodup : (ps.map Prod.fst).Nodup) :
    (ps.foldl (fun h p => set h p.1 p.2) h) key = ((ps.lookup key).map ([·])).getD (h key) := by
  induction ps generalizing h with
  | nil => rfl
  | cons p rest ih =>
    obtain ⟨hp, hrest⟩ := List.nodup_cons.mp hnodup
    rw [List.foldl_cons, ih _ (fun q hq => hcanon q (List.mem_cons_of_mem _ hq)) hrest,
      List.lookup_cons]
    by_cases hkey : key = p.1
    · subst hkey
      have hnone : rest.lookup p.1 = none := by
        rw [List.lookup_eq_none_iff]
        intro q hq
        rw [bne_iff_ne]
        intro heq
        exact hp (heq ▸ List.mem_map_of_mem hq)
      have hset : HttpHeader.set h p.1 p.2 p.1 = [p.2] := if_pos (hcanon p (by simp)).symm
      simp [hnone, hset]
    · have hset : HttpHeader.set h p.1 p.2 key = h key :=
        if_neg (by rw [hcanon p (by simp)]; exact hkey)
      have hbeq : (key == p.1) = false := by simpa using hkey
      rw [hset, hbeq]

theorem setIdentity_apply (h : Header) (d : Identity) (key : List Char) :
    setIdentity h d key = ((d.lookup key).map ([·])).getD (h key) :=
  foldl_set d.pairs h key
    (fun p hp => identityHeaders_canonical p.1 ((pairs_names d).1 p hp)) (pairs_names d).2

theorem stripIdentityHeaders_apply (h : Header) (key : List Char) :
    stripIdentityHeaders h key = if key ∈ identityHeaders then [] else h key := by
  rw [stripIdentityHeaders, foldl_del]
  rw [List.map_congr_left identityHeaders_canonical, List.map_id']

theorem appHeader_apply (srv : Server) (r : Request) (key : List Char)
    (hkey : key ≠ "Cookie".toList) :
    appHeader srv r key = if key ∈ identityHeaders then [] else r.header key := by
  rw [appHeader, extractCookie_other _ _ _ _ hkey, gateHeader, extractCookie_other _ _ _ _ hkey,
    stripIdentityHeaders_apply]

theorem lookup_eq_none_of_not_mem (d : Identity) (key : List Char) (hkey : key ∉ identityHeaders) :
    d.lookup key = none := by
  rw [Identity.lookup, List.lookup_eq_none_iff]
  intro p hp
  rw [bne_iff_ne]
  rintro rfl
  exact hkey ((pairs_names d).1 p hp)

/-- The handler leaves the client's `Connection` header to the proxy. -/
theorem decided_connection (srv : Server) (r : Request) (d : Identity) :
    setIdentity (appHeader srv r) d "Connection".toList = r.header "Connection".toList := by
  have hnone := lookup_eq_none_of_not_mem d "Connection".toList (by decide)
  rw [setIdentity_apply, hnone, Option.map_none, Option.getD_none,
    appHeader_apply srv r _ (by decide), if_neg (by decide)]

theorem connectionOptions_decided (srv : Server) (r : Request) (d : Identity) :
    connectionOptions (setIdentity (appHeader srv r) d) = connectionOptions r.header := by
  unfold connectionOptions
  rw [decided_connection]

/-- The backend is given the decision's identity headers and no others, except that a header which
the client's `Connection` names is taken away. -/
def Given (r : Request) (d : Identity) (out : Header) : Prop :=
  ∀ name ∈ identityHeaders,
    (name ∈ (connectionOptions r.header).map canonicalHeaderKey → out name = []) ∧
      (name ∉ (connectionOptions r.header).map canonicalHeaderKey → out name = (d.lookup name).toList)

theorem forwarded_identity (srv : Server) (r : Request) (d : Identity) (out : Header)
    (hout : proxyHeader (setIdentity (appHeader srv r) d) r.inbound = some out) : Given r d out := by
  intro name hname
  obtain ⟨hmanaged, hcookie, -⟩ := identityHeaders_unmanaged name hname
  have hother := proxyHeader_other _ out r.inbound name hout hmanaged
  rw [connectionOptions_decided] at hother
  refine ⟨fun hmem => by rw [hother, if_pos hmem], fun hmem => ?_⟩
  rw [hother, if_neg hmem, setIdentity_apply, appHeader_apply srv r name hcookie, if_pos hname]
  cases d.lookup name <;> rfl

/-- The backend has the decision's identity headers and no others exactly when no
`Connection` option of the client names one that the decision sets. -/
theorem forwarded_identity_iff (srv : Server) (r : Request) (d : Identity) (out : Header)
    (hout : proxyHeader (setIdentity (appHeader srv r) d) r.inbound = some out) :
    (∀ name ∈ identityHeaders, out name = (d.lookup name).toList) ↔
      ∀ opt ∈ connectionOptions r.header, d.lookup (canonicalHeaderKey opt) = none := by
  constructor
  · intro hall opt hopt
    by_cases hmem : canonicalHeaderKey opt ∈ identityHeaders
    · have hvalue := hall _ hmem
      rw [(forwarded_identity srv r d out hout _ hmem).1 (List.mem_map_of_mem hopt)] at hvalue
      cases hd : d.lookup (canonicalHeaderKey opt) with
      | none => rfl
      | some value =>
        rw [hd] at hvalue
        cases hvalue
    · exact lookup_eq_none_of_not_mem d _ hmem
  · intro hopts name hname
    obtain ⟨hremoved, hkept⟩ := forwarded_identity srv r d out hout name hname
    by_cases hmem : name ∈ (connectionOptions r.header).map canonicalHeaderKey
    · rw [hremoved hmem]
      obtain ⟨opt, hopt, rfl⟩ := List.mem_map.mp hmem
      rw [hopts opt hopt]
      rfl
    · exact hkept hmem

/-- In every run, a request that passes on an allow passes on one that the control plane
gave to it or, through the cache, to an earlier request with the same key; and its
backend sees exactly the headers of that allow unless the client lists one of them
in a `Connection` header. -/
theorem identity_integrity_iff (srv : Server) (events : List Event) (c : Call) (d : Identity)
    (out : Outgoing)
    (hout : (c.serve srv (cacheAfter srv events)).1 = .forward (.allowed d) out ∨
      (c.serve srv (cacheAfter srv events)).1 = .forward (.cached d) out) :
    (c.Allowed srv d ∨ ∃ c', Event.call c' ∈ events ∧ c'.key srv = c.key srv ∧
      c'.Allowed srv d) ∧
    ((∀ name ∈ identityHeaders, out.header name = (d.lookup name).toList) ↔
      ∀ opt ∈ connectionOptions c.request.header, d.lookup (canonicalHeaderKey opt) = none) := by
  rcases hout with hout | hout
  · have hpass := serveApp_passes srv c.cp _ c.now c.request c.host c.route _ out hout
    exact ⟨Or.inl (hpass.allowed d rfl),
      forwarded_identity_iff srv c.request d out.header hpass.header⟩
  · have hpass := serveApp_passes srv c.cp _ c.now c.request c.host c.route _ out hout
    refine ⟨Or.inr ?_, forwarded_identity_iff srv c.request d out.header hpass.header⟩
    obtain ⟨e, he, rfl⟩ := mem_of_get _ _ _ _ (hpass.cached d rfl).1
    exact cacheAfter_allowed srv events _ he

def sampleServer : Server :=
  ⟨"gw".toList, "pub".toList, fun _ => true, [], 3000, 10000, id⟩

def sampleIdentity : Identity :=
  ⟨some "ann@example.org".toList, some "u-1".toList, some "users".toList⟩

/-- A signed-in browser's request with the given `Connection` lines, which is allowed. -/
def sampleCall (connection : List (List Char)) : Call where
  cp := ⟨fun _ => some ⟨.allow, sampleIdentity, [], false, 0⟩, fun _ => none, fun _ => none⟩
  now := 0
  request :=
    { method := "GET".toList
      host := "app.example.org".toList
      url := ⟨"/".toList, [], [], false, [], []⟩
      header := fun key =>
        if key = "Connection".toList then connection
        else if key = "Cookie".toList then ["gw=id.secret".toList]
        else []
      clientIP := "192.0.2.7".toList
      tls := true }
  host := "app.example.org".toList
  route := ⟨443, none, false, false, false, false, false⟩

theorem sampleCall_forwards (connection : List (List Char))
    (hup : headerValuesContainsToken connection "Upgrade".toList = false) :
    ∃ out, ((sampleCall connection).serve sampleServer (cacheAfter sampleServer [])).1 =
      .forward (.allowed sampleIdentity) out ∧
      proxyHeader (setIdentity (appHeader sampleServer (sampleCall connection).request)
        sampleIdentity) (sampleCall connection).request.inbound = some out.header := by
  obtain ⟨header, hheader⟩ := proxyHeader_of_no_upgrade
    (setIdentity (appHeader sampleServer (sampleCall connection).request) sampleIdentity)
    (sampleCall connection).request.inbound (by rw [decided_connection]; exact hup)
  have hserve := serveApp_of_allow sampleServer (sampleCall connection).cp [] 0
    (sampleCall connection).request "app.example.org".toList 443
    ⟨.allow, sampleIdentity, [], false, 0⟩ rfl rfl rfl
  obtain ⟨out, hout, rfl, -⟩ := serveProxy_of_header sampleServer (.app "app.example.org".toList)
    (.allowed sampleIdentity) (sampleCall connection).request _ header hheader
  exact ⟨out, hserve.trans hout, hheader⟩

/-- With the header `Connection: close` all three identity headers arrive. -/
theorem identity_integrity_sample :
    ∃ out, (∀ name ∈ identityHeaders, out.header name = (sampleIdentity.lookup name).toList) ∧
      ((sampleCall ["close".toList]).serve sampleServer (cacheAfter sampleServer [])).1 =
        .forward (.allowed sampleIdentity) out := by
  obtain ⟨out, hout, -⟩ := sampleCall_forwards ["close".toList] (by decide)
  refine ⟨out, ?_, hout⟩
  refine (identity_integrity_iff sampleServer [] (sampleCall ["close".toList]) sampleIdentity out
    (Or.inl hout)).2.mpr ?_
  decide

/-- With `Connection: X-Forwarded-User` the backend gets no user at all. -/
theorem connection_drops_identity :
    ∃ out, ((sampleCall ["X-Forwarded-User".toList]).serve sampleServer
        (cacheAfter sampleServer [])).1 = .forward (.allowed sampleIdentity) out ∧
      sampleIdentity.lookup "X-Forwarded-User".toList = some "ann@example.org".toList ∧
      out.header "X-Forwarded-User".toList = [] := by
  obtain ⟨out, hout, hheader⟩ :=
    sampleCall_forwards ["X-Forwarded-User".toList] (by decide)
  refine ⟨out, hout, by decide, ?_⟩
  exact (forwarded_identity sampleServer _ sampleIdentity out.header hheader _ (by decide)).1
    (by decide)

end Hyproxy.IdentityHeaders

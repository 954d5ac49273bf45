import Hyproxy.GateHosts
import Hyproxy.HostScope
import Hyproxy.Mediation
import Hyproxy.MirroredConnections

/-!
Whose route a host has. The control plane makes the routes out of the resources, and decides about
a request by its host; the data plane finds the backend by the host, in routes that may be older
than the decision. The backend is that of the one resource which had the host when the routes were
made, the decision is about the one that has it now, and covers the port that is dialled.
-/
namespace Hyproxy.RouteOwners

open AuthzCheck (decision evaluateAccess hostOf resourceOf)
open Connections
open HostScope (ask checkOf)
open MirroredConnections (Keyed keyed_run mem_setResource patched_ok resource_some run same_id)
open PercentCoding (IsByte)
open PublicHosts (lower normalizePublicHost rstripDots)
open RouteTables (ResourceRow buildRouteSet decodeRoute decodeRoutes exportRoutes httpScheme
  mem_buildRouteSet mem_foldl_insert routeOf routesJson serveHTTP)
open Routing (hostChar)
open SealedBlobs

variable {σ τ Key : Type} {vault : SecretsBackend Key} (A : Aead Key)

/-! ### The hosts of the resources -/

/-- A host as the administration stores it. -/
def Normalized (host : Text) : Prop := ∃ v, normalizePublicHost v = .ok host

/-- Public hosts are normalized, and no two resources share one. -/
structure Owned (db : Db σ τ) : Prop where
  normalized : ∀ r ∈ db.resources, ∀ host, r.publicHost = some host → Normalized host
  apart : ∀ r ∈ db.resources, ∀ r' ∈ db.resources, ∀ host, r.publicHost = some host →
    r'.publicHost = some host → r.id = r'.id

/-- The host that a request gives to a resource is one that no other has. -/
def Free (db : Db σ τ) (except : Option ℕ) (publicHost : Option Text) : Prop :=
  ∀ host, publicHost = some host →
    Normalized host ∧ ∀ r ∈ db.resources, r.publicHost = some host → some r.id = except

theorem free_of_valid (env : Env vault) (db : Db σ τ) (except : Option ℕ)
    (value publicHost : Option Text) (hnormal : normalizeHost value = .ok publicHost)
    (hvalid : validatePublicHost env db publicHost except = .ok ()) : Free db except publicHost := by
  rintro host rfl
  constructor
  · cases value with
    | none => cases hnormal
    | some v =>
      cases hv : normalizePublicHost v with
      | error e =>
        rw [normalizeHost, hv] at hnormal
        cases hnormal
      | ok h =>
        rw [normalizeHost, hv] at hnormal
        exact ⟨v, hv.trans (congrArg Except.ok (Option.some.inj (Except.ok.inj hnormal)))⟩
  · intro r hr hhost
    unfold validatePublicHost at hvalid
    simp only at hvalid
    split_ifs at hvalid with hreserved htaken
    by_contra hother
    exact htaken (List.any_eq_true.mpr ⟨r, hr, by simp [hhost, hother]⟩)

theorem createResource_free (env : Env vault) (db db' : Db σ τ) (body : ResourceCreate)
    (h : createResource A env db body = .ok db') :
    ∃ new, db'.resources = db.resources ++ [new] ∧ Free db none new.publicHost := by
  obtain ⟨publicHost, hnormal, h⟩ := bind_ok h
  obtain ⟨publicPaths, -, h⟩ := bind_ok h
  obtain ⟨-, -, h⟩ := bind_ok h
  obtain ⟨tunnel, -, h⟩ := bind_ok h
  obtain ⟨-, -, h⟩ := bind_ok h
  obtain ⟨-, -, h⟩ := bind_ok h
  obtain ⟨⟨⟩, hvalid, h⟩ := bind_ok h
  obtain ⟨-, -, h⟩ := bind_ok h
  have hfree := free_of_valid env db none _ publicHost hnormal hvalid
  cases tunnel with
  | none =>
    obtain rfl := Except.ok.inj h
    exact ⟨_, rfl, hfree⟩
  | some t =>
    obtain ⟨secret, -, h⟩ := bind_ok h
    obtain ⟨-, -, h⟩ := bind_ok h
    obtain rfl := Except.ok.inj h
    exact ⟨_, rfl, hfree⟩

/-- A PATCH leaves the host as it is, or gives the resource one that is free. -/
theorem patched_free (env : Env vault) (db : Db σ τ) (id : ℕ) (body : ResourcePatch)
    (new : Resource) (h : patched env db id body = .ok new) :
    ∃ row, db.resource id = some row ∧ new.id = row.id ∧
      (new.publicHost = row.publicHost ∨ Free db (some row.id) new.publicHost) := by
  obtain ⟨publicHost, hnormal, h⟩ := bind_ok h
  obtain ⟨publicPaths, -, h⟩ := bind_ok h
  cases hrow : db.resource id with
  | none =>
    simp only [hrow] at h
    cases h
  | some row =>
    simp only [hrow] at h
    obtain ⟨⟨⟩, hhost, h⟩ := bind_ok h
    obtain ⟨-, -, h⟩ := bind_ok h
    cases hmerge : body.merge row publicHost publicPaths with
    | none =>
      simp only [hmerge] at h
      cases h
    | some merged =>
      simp only [hmerge] at h
      obtain ⟨-, -, h⟩ := bind_ok h
      obtain rfl := Except.ok.inj h
      obtain ⟨hid, -, hpublic, -⟩ := MirroredConnections.merge_some body row _ _ _ hmerge
      refine ⟨row, rfl, hid, ?_⟩
      cases publicHost with
      | none => exact Or.inl hpublic
      | some host =>
        obtain ⟨-, -, hvalid⟩ := bind_ok hhost
        right
        rw [hpublic]
        cases hbody : body.publicHost with
        | none =>
          rw [hbody] at hnormal
          cases hnormal
        | some value =>
          rw [hbody] at hnormal
          cases hvalue : normalizeHost value with
          | error e =>
            rw [normalizeField, hvalue] at hnormal
            cases hnormal
          | ok host' =>
            rw [normalizeField, hvalue] at hnormal
            obtain rfl := Option.some.inj (Except.ok.inj hnormal)
            exact free_of_valid env db (some row.id) value host' hvalue hvalid

theorem owned_setResource (db : Db σ τ) (new row : Resource) (h : Owned db)
    (hrow : row ∈ db.resources) (hid : new.id = row.id)
    (hhost : new.publicHost = row.publicHost ∨ Free db (some row.id) new.publicHost) :
    Owned (db.setResource new) := by
  have hnew : ∀ host, new.publicHost = some host →
      Normalized host ∧ ∀ r ∈ db.resources, r.publicHost = some host → r.id = new.id := by
    intro host hsome
    rcases hhost with hsame | hfree
    · rw [hsame] at hsome
      exact ⟨h.normalized row hrow host hsome,
        fun r hr hr' => (h.apart r hr row hrow host hr' hsome).trans hid.symm⟩
    · obtain ⟨hnormal, honly⟩ := hfree host hsome
      exact ⟨hnormal, fun r hr hr' => (Option.some.inj (honly r hr hr')).trans hid.symm⟩
  refine ⟨fun r hr host hsome => ?_, fun r hr r' hr' host hsome hsome' => ?_⟩
  · rcases mem_setResource db new r hr with rfl | ⟨hr, -⟩
    · exact (hnew host hsome).1
    · exact h.normalized r hr host hsome
  · rcases mem_setResource db new r hr with rfl | ⟨hold, -⟩
    · rcases mem_setResource db r r' hr' with rfl | ⟨hold', -⟩
      · rfl
      · exact ((hnew host hsome).2 r' hold' hsome').symm
    · rcases mem_setResource db new r' hr' with rfl | ⟨hold', -⟩
      · exact (hnew host hsome').2 r hold hsome
      · exact h.apart r hold r' hold' host hsome hsome'

theorem owned_sublist (db db' : Db σ τ) (h : Owned db)
    (hsub : ∀ r ∈ db'.resources, r ∈ db.resources) : Owned db' :=
  ⟨fun r hr => h.normalized r (hsub r hr),
    fun r hr r' hr' => h.apart r (hsub r hr) r' (hsub r' hr')⟩

theorem owned_step (db : Db σ τ) (e : Event σ τ vault) (h : Owned db) : Owned (step A db e) := by
  cases e with
  | createResource env body =>
    refine commit_keeps Owned db _ h fun db' hcreate => ?_
    obtain ⟨new, hresources, hfree⟩ := createResource_free A env db db' body hcreate
    have hmem : ∀ r ∈ db'.resources, r ∈ db.resources ∨ r = new := fun r hr => by
      rw [hresources] at hr
      exact (List.mem_append.mp hr).imp_right List.mem_singleton.mp
    have hno : ∀ r ∈ db.resources, ∀ host, new.publicHost = some host →
        r.publicHost ≠ some host := fun r hr host hsome hr' =>
      absurd ((hfree host hsome).2 r hr hr') (Option.some_ne_none _)
    refine ⟨fun r hr host hsome => ?_, fun r hr r' hr' host hsome hsome' => ?_⟩
    · rcases hmem r hr with hr | rfl
      · exact h.normalized r hr host hsome
      · exact (hfree host hsome).1
    · rcases hmem r hr with hr | rfl
      · rcases hmem r' hr' with hr' | rfl
        · exact h.apart r hr r' hr' host hsome hsome'
        · exact absurd hsome (hno r hr host hsome')
      · rcases hmem r' hr' with hr' | rfl
        · exact absurd hsome' (hno r' hr' host hsome)
        · rfl
  | patchResource env id body =>
    refine commit_keeps Owned db _ h fun db' hpatch => ?_
    obtain ⟨new, hpatched, rfl⟩ := patchResource_cases env db db' id body hpatch
    obtain ⟨row, hrow, hid, hhost⟩ := patched_free env db id body new hpatched
    exact owned_setResource db new row h (resource_some db id row hrow).1 hid hhost
  | deleteResource id =>
    refine commit_keeps Owned db _ h fun db' hdelete => ?_
    obtain rfl := deleteResource_cases db db' id hdelete
    exact owned_sublist db _ h fun r hr => (List.mem_filter.mp hr).1
  | putConnection env id body =>
    refine commit_keeps Owned db _ h fun db' hput => ?_
    obtain ⟨r, hr, -, -, -, hresources, -, -⟩ :=
      MirroredConnections.putConnection_ok A env db db' id body hput
    refine owned_sublist _ db' (owned_setResource db
      { r with host := body.hostname, ports := [body.port] } r h (resource_some db id r hr).1 rfl
      (Or.inl rfl)) fun r' hr' => ?_
    rwa [← hresources]
  | deleteConnection id =>
    refine commit_keeps Owned db _ h fun db' hdelete => ?_
    obtain rfl := deleteConnection_cases db db' id hdelete
    exact owned_sublist db _ h fun r hr => hr
  | rotate backend nonces => exact owned_sublist db _ h fun r hr => hr
  | others keys totp => exact owned_sublist db _ h fun r hr => hr

theorem owned_run (events : List (Event σ τ vault)) : Owned (run A events) := by
  have hall : ∀ db : Db σ τ, Owned db → Owned (events.foldl (step A) db) := by
    induction events with
    | nil => exact fun _ h => h
    | cons e rest ih => exact fun db h => ih _ (owned_step A db e h)
  exact hall _ ⟨fun _ h => absurd h List.not_mem_nil, fun _ h => absurd h List.not_mem_nil⟩

/-! ### Normalized hosts -/

theorem lower_normalized (host : Text) (h : Normalized host) : lower host = host := by
  obtain ⟨v, hv⟩ := h
  obtain ⟨-, -, -, hlabels⟩ := PublicHosts.normalizePublicHost_spec v host hv
  have hchar : ∀ c ∈ host, PublicHosts.lowerChar c = [c] := fun c hc => by
    have hsingle : ∀ d, d = '.' ∨ hostChar d = true → PublicHosts.lowerChar d = [d] := fun d hd => by
      simpa [lower] using GateHosts.lower_host [d] fun x hx => by
        obtain rfl := List.mem_singleton.mp hx
        exact hd
    rcases PublicHosts.accepted_chars host hlabels c hc with rfl | rfl | hdigit | hletter
    · exact hsingle '.' (Or.inl rfl)
    · exact hsingle '-' (Or.inr (by decide))
    · exact PublicHosts.lowerChar_digit c hdigit
    · exact hsingle c (Or.inr (by simp [hostChar, hletter.1, hletter.2]))
  exact (List.flatMap_congr hchar).trans (List.flatMap_singleton' host)

theorem strip_normalized (host : Text) (h : Normalized host) : Text.strip host = host := by
  obtain ⟨v, hv⟩ := h
  obtain ⟨-, -, -, hlabels⟩ := PublicHosts.normalizePublicHost_spec v host hv
  refine Text.strip_eq_self host fun c hc => ?_
  rcases PublicHosts.accepted_chars host hlabels c hc with rfl | rfl | hdigit | hletter
  · decide
  · decide
  · exact PublicHosts.isSpace_of_isDigit c hdigit
  · rw [← Bool.not_eq_true]
    intro hspace
    have hlow : 97 ≤ c.toNat := hletter.1
    have hhigh : c.toNat ≤ 122 := hletter.2
    simp only [Text.isSpace, Bool.or_eq_true, Bool.and_eq_true, decide_eq_true_iff, beq_iff_eq]
      at hspace
    omega

theorem rstripDots_normalized (host : Text) (h : Normalized host) : rstripDots host = host := by
  obtain ⟨v, hv⟩ := h
  obtain ⟨hdef, -⟩ := PublicHosts.normalizePublicHost_spec v host hv
  rw [hdef]
  exact List.rdropWhile_idempotent _ _

/-! ### The routes -/

def row (r : Resource) : ResourceRow :=
  ⟨⟨r.id, r.publicHost, r.ports, r.enabled, r.publicAccess, r.publicPaths⟩, r.protocol, r.host⟩

def rows (db : Db σ τ) : List ResourceRow := db.resources.map row

/-- The text of the backend of a resource. -/
def backendText (scheme host : Text) (port : ℤ) : Text :=
  scheme ++ "://".toList ++ host ++ ':' :: (toString port).toList

/-- The one resource that has the host, and that is enabled. -/
structure Holder (db : Db σ τ) (host : Text) (r : Resource) : Prop where
  mem : r ∈ db.resources
  publicHost : r.publicHost = some host
  enabled : r.enabled = true
  sole : ∀ other ∈ db.resources, other.publicHost = some host → other = r

/-- The resource that has the host, and whose backend its route is for. -/
structure Owner (db : Db σ τ) (host : Text) (route : RouteTables.Route) (r : Resource)
    (port : ℤ) : Prop extends Holder db host r where
  ports : r.ports.head? = some port
  backend : ∃ scheme, httpScheme r.protocol = some scheme ∧
    route.backend = AuthzCheck.utf8 (backendText scheme r.host port)
  backendPort : route.backendPort = port
  gate : route.publicGate = r.publicAccess

theorem holder_of_mem (events : List (Event σ τ vault)) (host : Text) (r : Resource)
    (hmem : r ∈ (run A events).resources) (hhost : r.publicHost = some host)
    (henabled : r.enabled = true) : Holder (run A events) host r := by
  refine ⟨hmem, hhost, henabled, fun other hother hsome => ?_⟩
  have hid : other.id = r.id := (owned_run A events).apart other hother r hmem host hsome hhost
  exact same_id _ (keyed_run A events) other r hother hmem hid

theorem mem_decodeRoutes (table : List (Text × RouteTables.RouteOut))
    (done dbRoutes : RouteTables.Routes)
    (h : (table.map fun entry => (entry.1, entry.2.json)).foldlM (fun done entry =>
      (decodeRoute entry.2).map fun route =>
        RouteTables.insert done (AuthzCheck.utf8 entry.1, route)) done = some dbRoutes) :
    ∀ x ∈ dbRoutes, x ∈ done ∨ ∃ entry ∈ table, x.1 = AuthzCheck.utf8 entry.1 ∧
      decodeRoute entry.2.json = some x.2 := by
  induction table generalizing done with
  | nil =>
    obtain rfl := Option.some.inj h
    exact fun x hx => Or.inl hx
  | cons entry rest ih =>
    rw [List.map_cons, List.foldlM_cons] at h
    cases hroute : decodeRoute entry.2.json with
    | none =>
      simp only [hroute] at h
      cases h
    | some route =>
      simp only [hroute] at h
      intro x hx
      rcases ih _ h x hx with hdone | ⟨other, hother, hsame⟩
      · rcases RouteTables.mem_insert done _ x hdone with rfl | ⟨hmem, -⟩
        · exact Or.inr ⟨entry, List.mem_cons_self, rfl, hroute⟩
        · exact Or.inl hmem
      · exact Or.inr ⟨other, List.mem_cons_of_mem _ hother, hsame⟩

/-- What the route of a resource says. -/
theorem routeOf_row (r : Resource) (host : Text) (out : RouteTables.RouteOut)
    (h : routeOf (row r) = some (host, out)) :
    ∃ publicHost scheme port, r.publicHost = some publicHost ∧
      host = rstripDots (lower (Text.strip publicHost)) ∧ r.enabled = true ∧
      httpScheme r.protocol = some scheme ∧ r.ports.head? = some port ∧
      out = { backend := some (backendText scheme r.host port)
              backendPort := port
              publicGate := r.publicAccess } := by
  unfold routeOf at h
  cases hpublic : r.publicHost with
  | none =>
    simp only [row, hpublic] at h
    cases h
  | some publicHost =>
    simp only [row, hpublic] at h
    split_ifs at h with hskip
    cases hscheme : httpScheme r.protocol with
    | none =>
      rw [hscheme] at h
      cases h
    | some scheme =>
      rw [hscheme] at h
      cases hlist : r.ports with
      | nil =>
        rw [hlist] at h
        cases h
      | cons port rest =>
        rw [hlist] at h
        obtain ⟨rfl, rfl⟩ := Prod.mk.inj (Option.some.inj h)
        rw [Bool.or_eq_true, not_or] at hskip
        exact ⟨publicHost, scheme, port, rfl, rfl, by simpa using hskip.1, rfl, rfl, rfl⟩

theorem ascii_of_utf8 (s host : Text) (hhost : ∀ c ∈ host, c = '.' ∨ hostChar c = true)
    (h : host = AuthzCheck.utf8 s) : s = host := by
  have hascii : Utf8.Ascii s := by
    intro c hc
    by_contra hhigh
    exact PublicHosts.utf8_high s c hc hhigh (h ▸ PublicHosts.host_ascii host hhost)
  rw [h, PublicHosts.ascii_utf8 s hascii]

/-- A route that the control plane has sent is the route of the resource with its host. -/
theorem sent_owner (events : List (Event σ τ vault)) (dbRoutes : RouteTables.Routes)
    (hroutes : decodeRoutes (routesJson (exportRoutes (rows (run A events)))) = some dbRoutes)
    (host : Text) (route : RouteTables.Route) (hmem : (host, route) ∈ dbRoutes)
    (hhost : ∀ c ∈ host, c = '.' ∨ hostChar c = true) :
    ∃ r port, Owner (run A events) host route r port := by
  rcases mem_decodeRoutes _ [] dbRoutes hroutes _ hmem with hnil | ⟨entry, hentry, hkey, hroute⟩
  · exact absurd hnil List.not_mem_nil
  rcases mem_foldl_insert _ [] entry hentry with hrow | ⟨hnil, -⟩
  swap
  · exact absurd hnil List.not_mem_nil
  obtain ⟨_, hrows, hof⟩ := List.mem_filterMap.mp hrow
  obtain ⟨r, hr, rfl⟩ := List.mem_map.mp hrows
  obtain ⟨publicHost, scheme, port, hpublic, hname, henabled, hscheme, hhead, hout⟩ :=
    routeOf_row r entry.1 entry.2 hof
  have hnormal := (owned_run A events).normalized r hr publicHost hpublic
  rw [strip_normalized _ hnormal, lower_normalized _ hnormal, rstripDots_normalized _ hnormal]
    at hname
  have hsame : publicHost = host := ascii_of_utf8 publicHost host hhost (hname ▸ hkey)
  rw [hout, RouteTables.decodeRoute_json _ _ rfl] at hroute
  obtain rfl := Option.some.inj hroute
  rw [hsame] at hpublic
  exact ⟨r, port, holder_of_mem A events host r hr hpublic henabled, hhead, ⟨scheme, hscheme, rfl⟩,
    rfl, rfl⟩

/-! ### The decision -/

/-- The decision point sees the resources of the administration. -/
def Shows (db : Db σ τ) (d : AuthzCheck.Db) : Prop :=
  d.resources = db.resources.map fun r => (row r).toResource

/-- What lets a request through to a resource: a session of the resource and one of its public
paths, or an active user whose roles are allowed the port. -/
def Permitted (cfg : AuthzCheck.Config) (d : AuthzCheck.Db) (r : Resource) (port : ℤ)
    (body : AuthzCheck.CheckRequest) (now : ℕ) : Prop :=
  if r.publicAccess = true then
    PathGlob.matchesPath r.publicPaths (AuthzCheck.pathOf body.uri) = true ∧
      ∃ session, AuthzCheck.publicSessionOf cfg d body.publicCookie r.id body.sourceIp now =
        some session
  else
    ∃ gw user, AuthzCheck.gatewayOf cfg d body.gatewayCookie body.sourceIp true = some gw ∧
      d.idp.user gw.user = some user ∧ user.status = .active ∧
        (evaluateAccess d user.id r.id port (AuthzCheck.pathOf body.uri) now).decision.allowed = true

/-- The resource that a decision is about is the one that has the host. -/
theorem holder_of_resourceOf (cfg : AuthzCheck.Config) (hlower : cfg.lower = lower)
    (hcitext : cfg.citext = lower) (events : List (Event σ τ vault)) (d : AuthzCheck.Db)
    (hshows : Shows (run A events) d) (host : Text) (hnormal : Normalized host)
    (found : AuthzCheck.Resource) (h : resourceOf cfg d (hostOf cfg host) = some found) :
    ∃ r, Holder (run A events) host r ∧ found = (row r).toResource := by
  have hname : hostOf cfg host = host := by
    rw [hostOf, hlower, strip_normalized host hnormal, lower_normalized host hnormal]
    exact rstripDots_normalized host hnormal
  rw [hname, resourceOf, hshows, List.find?_map] at h
  obtain ⟨r, hfound, rfl⟩ := Option.map_eq_some_iff.mp h
  have hmem := List.mem_of_find?_eq_some hfound
  have hown := List.find?_some hfound
  simp only [Function.comp_apply, row, Bool.and_eq_true, beq_iff_eq] at hown
  obtain ⟨hcited, henabled⟩ := hown
  obtain ⟨publicHost, hpublic, hsame⟩ := Option.map_eq_some_iff.mp hcited
  have hstored := (owned_run A events).normalized r hmem publicHost hpublic
  rw [hcitext, lower_normalized _ hstored, lower_normalized host hnormal] at hsame
  exact ⟨r, holder_of_mem A events host r hmem (hpublic.trans (congrArg some hsame)) henabled, rfl⟩

theorem checkPublic_permitted (cfg : AuthzCheck.Config) (d : AuthzCheck.Db)
    (body : AuthzCheck.CheckRequest) (resource : AuthzCheck.Resource) (host path : Text) (now : ℕ)
    (h : (AuthzCheck.checkPublic cfg d body resource host path now).1.response.decision = .allow) :
    PathGlob.matchesPath resource.publicPaths path = true ∧
      ∃ session, AuthzCheck.publicSessionOf cfg d body.publicCookie resource.id body.sourceIp now =
        some session := by
  unfold AuthzCheck.checkPublic at h
  split_ifs at h with hpath
  · cases h
  · refine ⟨by simpa using hpath, ?_⟩
    unfold AuthzCheck.resolvePublicSession at h
    cases hsession :
      AuthzCheck.publicSessionOf cfg d body.publicCookie resource.id body.sourceIp now with
    | none =>
      rw [hsession] at h
      cases h
    | some session => exact ⟨session, rfl⟩

theorem checkUser_permitted (cfg : AuthzCheck.Config) (d : AuthzCheck.Db)
    (body : AuthzCheck.CheckRequest) (resource : AuthzCheck.Resource) (host path : Text)
    (gw : AuthzCheck.GatewaySession) (now : ℕ)
    (h : (AuthzCheck.checkUser cfg d body resource host path gw now).response.decision = .allow) :
    ∃ user, d.idp.user gw.user = some user ∧ user.status = .active ∧
      (evaluateAccess d user.id resource.id (AuthzCheck.portOf body.backendPort resource) path
        now).decision.allowed = true := by
  unfold AuthzCheck.checkUser at h
  cases huser : d.idp.user gw.user with
  | none =>
    rw [huser] at h
    cases h
  | some user =>
    simp only [huser] at h
    by_cases hstatus : user.status = .active
    · rw [if_neg (not_not_intro hstatus)] at h
      refine ⟨user, rfl, hstatus, ?_⟩
      by_contra hdenied
      split_ifs at h
      · cases h
      · rw [AuthzCheck.checkAccess] at h
        simp only [if_neg hdenied] at h
        cases h
    · rw [if_pos hstatus] at h
      cases h

theorem decision_resource (cfg : AuthzCheck.Config) (d : AuthzCheck.Db)
    (body : AuthzCheck.CheckRequest) (now : ℕ)
    (h : (decision cfg d body now).1.response.decision = .allow) :
    ∃ found, resourceOf cfg d (hostOf cfg body.host) = some found := by
  unfold decision at h
  cases hfound : resourceOf cfg d (hostOf cfg body.host) with
  | none =>
    simp only [hfound] at h
    cases h
  | some found => exact ⟨found, rfl⟩

/-- What was decided about the resource holds of the tables before the decision. -/
theorem decision_permitted (cfg : AuthzCheck.Config) (d : AuthzCheck.Db) (r : Resource) (port : ℤ)
    (body : AuthzCheck.CheckRequest) (now : ℕ)
    (hresource : resourceOf cfg d (hostOf cfg body.host) = some (row r).toResource)
    (hport : AuthzCheck.portOf body.backendPort (row r).toResource = port)
    (h : (decision cfg d body now).1.response.decision = .allow) :
    Permitted cfg d r port body now := by
  unfold decision at h
  simp only [hresource] at h
  unfold Permitted
  by_cases hpublic : r.publicAccess = true
  · rw [if_pos (show (row r).toResource.publicAccess = true from hpublic)] at h
    rw [if_pos hpublic]
    exact checkPublic_permitted cfg d body (row r).toResource _ _ now h
  · rw [if_neg (show ¬ (row r).toResource.publicAccess = true from hpublic)] at h
    rw [if_neg hpublic]
    have hfixed := HostScope.resolveGatewaySession_fixed cfg d body.gatewayCookie body.sourceIp now true
    rcases hgw : AuthzCheck.resolveGatewaySession cfg d body.gatewayCookie body.sourceIp now true with
      ⟨_ | gw, d'⟩
    · rw [hgw] at h
      cases h
    · rw [hgw] at h hfixed
      obtain ⟨user, huser, hstatus, hallowed⟩ := checkUser_permitted cfg d' body _ _ _ gw now h
      refine ⟨gw, user, HostScope.gatewayOf_of_resolved cfg d d' _ _ now true gw hgw, ?_, hstatus, ?_⟩
      · rw [← huser, Sessions.Db.user, Sessions.Db.user, hfixed.users]
      · rw [hport] at hallowed
        unfold evaluateAccess AuthzCheck.rolesOf AuthzCheck.policiesOf at hallowed ⊢
        rwa [hfixed.roles, hfixed.userRoles, hfixed.policies] at hallowed

/-- The answer of the decision point across the wire. -/
theorem check_allow (cfg : AuthzCheck.Config) (d : AuthzCheck.Db) (now : ℕ)
    (q : DataPlane.CheckRequest) (resp : DataPlane.CheckResponse)
    (hresp : checkOf cfg d now q = some resp) (hallow : resp.decision = .allow) :
    (decision cfg d (ask q) now).1.response.decision = .allow := by
  obtain ⟨answer, hanswer, rfl⟩ := Option.map_eq_some_iff.mp hresp
  unfold AuthzCheck.check at hanswer
  cases hinet : cfg.inet (ask q).sourceIp with
  | none =>
    rw [hinet] at hanswer
    cases hanswer
  | some ip =>
    rw [hinet] at hanswer
    obtain rfl := Option.some.inj hanswer
    cases hdecision : (decision cfg d (ask q) now).1.response.decision with
    | allow => rfl
    | _ =>
      simp only [HostScope.answer, hdecision] at hallow
      cases hallow

/-- The decision is about the port that is dialled; a port that is zero is not sent, and stands for
the first port of the resource. -/
theorem portOf_ask (srv : DataPlane.Server) (req : DataPlane.Request) (host : Text)
    (route : DataPlane.Route) (resource : AuthzCheck.Resource) :
    AuthzCheck.portOf (ask (DataPlane.checkRequest srv req host route)).backendPort resource =
      AuthzCheck.portOf (some route.backendPort) resource := by
  have hask : (ask (DataPlane.checkRequest srv req host route)).backendPort =
      if route.backendPort = 0 then none else some route.backendPort := rfl
  rw [hask]
  by_cases hzero : route.backendPort = 0
  · rw [if_pos hzero, hzero]
    rfl
  · rw [if_neg hzero]

theorem lookup_normalized {α : Type} (t : Routing.Table α) (raw host : Text) (route : α)
    (h : t.lookup raw = .app host route) : Routing.normalizeHost raw = some host := by
  unfold Routing.Table.lookup at h
  cases hname : Routing.normalizeHost raw with
  | none =>
    rw [hname] at h
    cases h
  | some name =>
    rw [hname] at h
    simp only at h
    split_ifs at h
    split at h
    · cases h
    · exact congrArg some (Routing.Kind.app.inj h).1

/-- Routes may be older than a decision. What the data plane forwards after an allow goes to the
backend of the resource that had the host when the routes were made; the allow is about the port that
is dialled, and about the resource that has the host now. If that one has not changed since, it is
the same. -/
theorem forwarded_owner (before later : List (Event σ τ vault)) (d : AuthzCheck.Db)
    (hshows : Shows (run A (before ++ later)) d) (dbRoutes : RouteTables.Routes)
    (hroutes : decodeRoutes (routesJson (exportRoutes (rows (run A before)))) = some dbRoutes)
    (ccfg : AuthzCheck.Config) (hlower : ccfg.lower = lower) (hcitext : ccfg.citext = lower)
    (p : RouteTables.Platform) (cfg : RouteTables.Config) (blocked : DataPlane.Request → Bool)
    (srv : DataPlane.Server) (cp : DataPlane.ControlPlane) (checkedAt : ℕ)
    (hcp : cp.check = checkOf ccfg d checkedAt) (cache : DataPlane.AuthzCache) (now : ℤ)
    (req : DataPlane.Request) (host : Text) (route : RouteTables.Route)
    (hlookup : (buildRouteSet p cfg dbRoutes).table.lookup req.host = .app host route)
    (hstatic : ¬ Mediation.Static cfg host) (headers : DataPlane.Identity) (out : DataPlane.Outgoing)
    (h : (serveHTTP blocked srv (buildRouteSet p cfg dbRoutes) cp cache now req).1 =
      some (.forward (.allowed headers) out)) :
    ∃ r port u holder, Owner (run A before) host route r port ∧ p.parseURL route.backend = some u ∧
      out.upstream = .app host ∧ (buildRouteSet p cfg dbRoutes).proxies.lookup host = some u ∧
        Holder (run A (before ++ later)) host holder ∧
          (holder ∈ (run A before).resources → holder = r) ∧
            Permitted ccfg d holder (AuthzCheck.portOf (some port) (row holder).toResource)
              (ask (DataPlane.checkRequest srv req host route.toRoute)) checkedAt := by
  have hmem := RouteTables.mem_of_table_lookup _ req.host host route hlookup
  obtain ⟨u, hparse, hproxy⟩ := RouteTables.dialled_of_lookup p cfg dbRoutes req.host host route hlookup
  obtain ⟨horigin, -⟩ := mem_buildRouteSet p cfg dbRoutes (host, route) hmem
  have hsent : (host, route) ∈ dbRoutes := by
    rcases horigin with hown | ⟨hsent, -⟩
    · exact absurd ⟨route, hown⟩ hstatic
    · exact hsent
  have hhost := Routing.normalizeHost_chars _ _ (lookup_normalized _ req.host host route hlookup)
  obtain ⟨r, port, howner⟩ := sent_owner A before dbRoutes hroutes host route hsent hhost
  have hserved := Mediation.serveHTTP_app blocked srv _ cp cache now req host route _ hlookup h
  have hpasses := DataPlane.serveApp_passes srv cp cache now req host route.toRoute _ out hserved
  obtain ⟨resp, hresp, hallow, -⟩ := hpasses.allowed headers rfl
  have happ : out.upstream = .app host := by simpa using hpasses.app
  rw [hcp] at hresp
  have hdecided := check_allow ccfg d checkedAt _ resp hresp hallow
  have hbackend : RouteTables.backendOf cfg route = route.backend := by
    obtain ⟨sent, hdecoded, hexported⟩ :=
      RouteTables.decodeRoutes_exported (rows (run A before))
    obtain rfl := Option.some.inj (hdecoded.symm.trans hroutes)
    exact if_neg fun hguac => by
      rw [(hexported _ hsent).guacTunnel] at hguac
      exact Bool.false_ne_true hguac.2
  have hasked : (ask (DataPlane.checkRequest srv req host route.toRoute)).host = host :=
    Utf8.decode_ascii false host (PublicHosts.host_ascii host hhost)
  obtain ⟨found, hfound⟩ := decision_resource ccfg d _ checkedAt hdecided
  have hnormal := (owned_run A before).normalized r howner.mem host howner.publicHost
  obtain ⟨holder, hholder, rfl⟩ := holder_of_resourceOf A ccfg hlower hcitext (before ++ later) d
    hshows host hnormal found (by rw [← hasked]; exact hfound)
  refine ⟨r, port, u, holder, howner, hbackend ▸ hparse, happ, hproxy, hholder,
    fun hold => howner.sole holder hold hholder.publicHost, ?_⟩
  refine decision_permitted ccfg d holder _ _ checkedAt hfound ?_ hdecided
  rw [portOf_ask]
  exact congrArg (fun n => AuthzCheck.portOf (some n) _) howner.backendPort

/-! ### An app behind the data plane -/

def sampleApp : ResourceCreate where
  name := "app".toList
  protocol := .http
  publicHost := some "App.example.org".toList
  host := "10.0.0.5".toList
  ports := [80]
  pathPrefix := none
  description := none
  enabled := true
  publicAccess := false
  publicPaths := none
  connection := none

def sampleEvents : List (Event Unit Unit MirroredConnections.sampleVault) :=
  [.createResource MirroredConnections.sampleEnv sampleApp]

/-- The app moves to another machine before the routes are polled again. -/
def sampleMove : List (Event Unit Unit MirroredConnections.sampleVault) :=
  [.patchResource MirroredConnections.sampleEnv 0 { host := some "10.0.0.6".toList }]

/-- The role of the user is allowed the app on its port. -/
def sampleTables : AuthzCheck.Db :=
  { HostScope.sampleDb with
    resources := [⟨0, some "app.example.org".toList, [80], true, false, none⟩]
    policies := [⟨5, 0, .allow, some [80], none, [], true⟩] }

def samplePlane : DataPlane.ControlPlane :=
  ⟨checkOf { HostScope.sampleConfig with lower := lower, citext := lower } sampleTables 0,
    fun _ => none, fun _ => none⟩

/-- The allow is about the app as it is now; the request goes to the machine that it was on. -/
theorem forwarded_owner_sample :
    ∃ headers out r port holder, (serveHTTP (fun _ => false) IdentityHeaders.sampleServer
        (buildRouteSet Mediation.samplePlatform Mediation.sampleConfig
          [("app.example.org".toList, Mediation.sampleRoute)]) samplePlane [] 0
          HostScope.sampleRequest).1 =
        some (.forward (.allowed headers) out) ∧
      Owner (run plainAead sampleEvents) "app.example.org".toList Mediation.sampleRoute r port ∧
      r.host = "10.0.0.5".toList ∧ out.upstream = .app "app.example.org".toList ∧
      Holder (run plainAead (sampleEvents ++ sampleMove)) "app.example.org".toList holder ∧
      holder.host = "10.0.0.6".toList := by
  obtain ⟨resp, hcheck, hallow⟩ : ∃ resp, samplePlane.check (DataPlane.checkRequest
      IdentityHeaders.sampleServer HostScope.sampleRequest "app.example.org".toList
      Mediation.sampleRoute.toRoute) = some resp ∧ resp.decision = .allow := ⟨_, rfl, rfl⟩
  obtain ⟨header, hheader⟩ := HttpHeader.proxyHeader_of_no_upgrade
    (DataPlane.setIdentity (DataPlane.appHeader IdentityHeaders.sampleServer HostScope.sampleRequest)
      resp.headers)
    HostScope.sampleRequest.inbound (by rw [IdentityHeaders.decided_connection]; decide)
  obtain ⟨out, hout, -⟩ := DataPlane.serveProxy_of_header IdentityHeaders.sampleServer
    (.app "app.example.org".toList) (.allowed resp.headers) HostScope.sampleRequest _ header hheader
  have hserved : (serveHTTP (fun _ => false) IdentityHeaders.sampleServer
      (buildRouteSet Mediation.samplePlatform Mediation.sampleConfig
        [("app.example.org".toList, Mediation.sampleRoute)]) samplePlane [] 0
        HostScope.sampleRequest).1 =
      some (.forward (.allowed resp.headers) out) :=
    congrArg some ((DataPlane.serveApp_of_allow IdentityHeaders.sampleServer samplePlane [] 0
      HostScope.sampleRequest "app.example.org".toList 80 resp rfl hcheck hallow).trans hout)
  obtain ⟨r, port, u, holder, howner, -, happ, -, hholder, -⟩ := forwarded_owner plainAead sampleEvents
    sampleMove sampleTables rfl [("app.example.org".toList, Mediation.sampleRoute)] rfl
    { HostScope.sampleConfig with lower := lower, citext := lower } rfl rfl Mediation.samplePlatform
    Mediation.sampleConfig (fun _ => false) IdentityHeaders.sampleServer samplePlane 0 rfl [] 0
    HostScope.sampleRequest "app.example.org".toList Mediation.sampleRoute rfl
    (by rintro ⟨route, hroute⟩; simp [Mediation.sampleConfig] at hroute) _ out hserved
  have hbefore : ∀ x ∈ (run plainAead sampleEvents).resources, x.host = "10.0.0.5".toList := by
    decide
  have hafter : ∀ x ∈ (run plainAead (sampleEvents ++ sampleMove)).resources,
      x.host = "10.0.0.6".toList := by
    decide
  exact ⟨resp.headers, out, r, port, holder, hserved, howner, hbefore r howner.mem, happ, hholder,
    hafter holder hholder.mem⟩

end Hyproxy.RouteOwners

import Hyproxy.HostScope

/-!
A public resource is apart from every identity. What a visitor is told depends on
the resource and on the public sessions alone, and a visitor is let in with an
unrevoked and unexpired session of this very resource, and nothing else.
-/
namespace Hyproxy.PublicAccess

open AuthzCheck
open PathGlob (matchesPath)

/-- The cookie is the one of a public session of the resource that still holds. -/
structure Grants (cfg : Config) (db : Db) (cookie : Option (List Char)) (resource : ℕ)
    (ip : List Char) (now : ℤ) (row : PublicSession) : Prop where
  stored : (db.publicSessions.find? fun other => other.id == row.id) = some row
  presented : ∃ secret, parseCookie cfg cookie = some (row.id, secret) ∧
    cfg.sha256Hex secret = row.cookieSecretHash
  resource : row.resource = resource
  unrevoked : row.revokedAt = none
  unexpired : now < row.expiresAt
  address : cfg.publicSessionBindIp = true → row.sourceIp = some ip

/-- The two states agree on the resources and on the public sessions. -/
structure PublicEqual (db db' : Db) : Prop where
  resources : db'.resources = db.resources
  publicSessions : db'.publicSessions = db.publicSessions

theorem publicSessionOf_iff (cfg : Config) (db : Db) (cookie : Option (List Char)) (resource : ℕ)
    (ip : List Char) (now : ℤ) (row : PublicSession) :
    publicSessionOf cfg db cookie resource ip now = some row ↔
      Grants cfg db cookie resource ip now row := by
  unfold publicSessionOf
  constructor
  · intro h
    cases hcookie : parseCookie cfg cookie with
    | none =>
      rw [hcookie] at h
      cases h
    | some parsed =>
      obtain ⟨id, secret⟩ := parsed
      rw [hcookie] at h
      simp only at h
      cases hfound : db.publicSessions.find? fun other => other.id == id with
      | none =>
        rw [hfound] at h
        cases h
      | some found =>
        rw [hfound] at h
        simp only at h
        split_ifs at h with hrevoked hresource hsecret hexpired hbound
        obtain rfl := Option.some.inj h
        have hid : found.id = id := by simpa using List.find?_some hfound
        subst hid
        refine ⟨hfound, ⟨secret, hcookie, Classical.not_not.mp hsecret⟩,
          Classical.not_not.mp hresource, by simpa using hrevoked, by omega, fun hbind => ?_⟩
        simpa [hbind] using hbound
  · rintro ⟨hstored, ⟨secret, hcookie, hsecret⟩, hresource, hunrevoked, hunexpired, haddress⟩
    simp only [hcookie, hstored]
    rw [if_neg (by simp [hunrevoked]), if_neg (fun h => h hresource), if_neg (fun h => h hsecret),
      if_neg (by omega), if_neg]
    intro hbound
    obtain ⟨hbind, hother⟩ := Bool.and_eq_true_iff.mp hbound
    rw [haddress hbind] at hother
    simp at hother

theorem checkPublic_equal (cfg : Config) (db db' : Db) (h : PublicEqual db db') (body : CheckRequest)
    (cookie : Option (List Char)) (resource : Resource) (host path : List Char) (now : ℤ) :
    (checkPublic cfg db' { body with gatewayCookie := cookie } resource host path now).1.response =
      (checkPublic cfg db body resource host path now).1.response := by
  have hsession : publicSessionOf cfg db' body.publicCookie resource.id body.sourceIp now =
      publicSessionOf cfg db body.publicCookie resource.id body.sourceIp now := by
    unfold publicSessionOf
    rw [h.publicSessions]
  unfold checkPublic resolvePublicSession
  simp only [hsession]
  by_cases hpath : (!matchesPath resource.publicPaths path) = true
  · rw [if_pos hpath, if_pos hpath]
  · rw [if_neg hpath, if_neg hpath]
    cases publicSessionOf cfg db body.publicCookie resource.id body.sourceIp now <;> rfl

/-- What a public resource answers, in full. -/
theorem checkPublic_allow_iff (cfg : Config) (db : Db) (body : CheckRequest) (resource : Resource)
    (host path : List Char) (now : ℤ) :
    ((checkPublic cfg db body resource host path now).1.response.decision = .allow ↔
      matchesPath resource.publicPaths path = true ∧
        ∃ row, Grants cfg db body.publicCookie resource.id body.sourceIp now row) ∧
    (checkPublic cfg db body resource host path now).1.response.headers = [] ∧
    (checkPublic cfg db body resource host path now).1.response.cacheScopeHost = false := by
  refine ⟨?_, (checkPublic_anonymous cfg db body resource host path now).1,
    HostScope.checkPublic_scope cfg db body resource host path now⟩
  have hgrants : (∃ row, Grants cfg db body.publicCookie resource.id body.sourceIp now row) ↔
      (publicSessionOf cfg db body.publicCookie resource.id body.sourceIp now).isSome = true := by
    rw [Option.isSome_iff_exists]
    exact exists_congr fun row => (publicSessionOf_iff cfg db _ _ _ _ row).symm
  rw [hgrants]
  unfold checkPublic resolvePublicSession
  by_cases hpath : (!matchesPath resource.publicPaths path) = true
  · rw [if_pos hpath]
    have hno : matchesPath resource.publicPaths path = false := by simpa using hpath
    simp [refusal, hno]
  · rw [if_neg hpath]
    have hyes : matchesPath resource.publicPaths path = true := by simpa using hpath
    cases publicSessionOf cfg db body.publicCookie resource.id body.sourceIp now <;>
      simp [refusal, hyes]

theorem check_public (cfg : Config) (db : Db) (body : CheckRequest) (now : ℕ) (resource : Resource)
    (hresource : resourceOf cfg db (hostOf cfg body.host) = some resource)
    (hpublic : resource.publicAccess = true) :
    (check cfg db body now).1 = (cfg.inet body.sourceIp).map fun _ =>
      (checkPublic cfg db body resource (hostOf cfg body.host) (pathOf body.uri) now).1.response := by
  unfold check decision
  simp only [hresource, if_pos hpublic]
  cases cfg.inet body.sourceIp <;> rfl

/-- The answers on a public resource depend on no gateway cookie, and on no table but those of the
resources and the public sessions; they allow by a public session of the resource alone, and without
an identity. -/
theorem public_isolated (cfg : Config) (db : Db) (body : CheckRequest) (now : ℕ) (resource : Resource)
    (hresource : resourceOf cfg db (hostOf cfg body.host) = some resource)
    (hpublic : resource.publicAccess = true) :
    (∀ db' cookie, PublicEqual db db' →
      (check cfg db' { body with gatewayCookie := cookie } now).1 = (check cfg db body now).1) ∧
    ∀ resp, (check cfg db body now).1 = some resp →
      (resp.decision = .allow ↔ matchesPath resource.publicPaths (pathOf body.uri) = true ∧
        ∃ row, Grants cfg db body.publicCookie resource.id body.sourceIp now row) ∧
      (resp.decision = .allow → resp.headers = [] ∧ resp.cacheScopeHost = false) := by
  have hfirst := check_public cfg db body now resource hresource hpublic
  constructor
  · intro db' cookie h
    have hsame : resourceOf cfg db' (hostOf cfg body.host) = some resource := by
      unfold resourceOf
      rw [h.resources]
      exact hresource
    rw [hfirst, check_public cfg db' { body with gatewayCookie := cookie } now resource hsame hpublic]
    simp only [checkPublic_equal cfg db db' h body cookie]
  · intro resp hresp
    rw [hfirst] at hresp
    obtain ⟨ip, -, rfl⟩ := Option.map_eq_some_iff.mp hresp
    obtain ⟨hallow, hheaders, hscope⟩ := checkPublic_allow_iff cfg db body resource
      (hostOf cfg body.host) (pathOf body.uri) now
    exact ⟨hallow, fun _ => ⟨hheaders, hscope⟩⟩

/-- A visitor with a session of the link, and a second state without the user and the policy. -/
def sampleDb : Db :=
  { HostScope.sampleDb with
    resources := [⟨3, some "app.example.org".toList, [443], true, true,
      some ["/docs/*".toList]⟩]
    publicSessions := [⟨1, 3, "secret".toList, some "192.0.2.7".toList, 60, 0, none⟩] }

def sampleBody : CheckRequest where
  host := "app.example.org".toList
  method := "GET".toList
  uri := "/docs/a?b".toList
  sourceIp := "192.0.2.7".toList
  backendPort := some 443
  gatewayCookie := none
  publicCookie := some "id.secret".toList

/-- The visitor is let in without an identity, and just so with the cookie of a user and in the
second state. -/
theorem public_isolated_sample :
    ∃ resp, (check HostScope.sampleConfig sampleDb sampleBody 30).1 = some resp ∧
      resp.decision = .allow ∧ resp.headers = [] ∧ resp.cacheScopeHost = false ∧
      (check HostScope.sampleConfig { sampleDb with policies := [], userRoles := [] }
        { sampleBody with gatewayCookie := some "id.secret".toList } 30).1 = some resp := by
  obtain ⟨hother, hanswers⟩ := public_isolated HostScope.sampleConfig sampleDb sampleBody 30
    ⟨3, some "app.example.org".toList, [443], true, true, some ["/docs/*".toList]⟩ (by decide) rfl
  obtain ⟨resp, hresp⟩ : ∃ resp, (check HostScope.sampleConfig sampleDb sampleBody 30).1 =
      some resp := ⟨_, rfl⟩
  obtain ⟨hiff, hanonymous⟩ := hanswers resp hresp
  have hgrants : Grants HostScope.sampleConfig sampleDb sampleBody.publicCookie 3
      sampleBody.sourceIp 30 ⟨1, 3, "secret".toList, some "192.0.2.7".toList, 60, 0, none⟩ :=
    ⟨rfl, ⟨"secret".toList, by decide, rfl⟩, rfl, rfl, by decide, fun _ => rfl⟩
  have hallow : resp.decision = .allow := hiff.mpr ⟨by decide, _, hgrants⟩
  obtain ⟨hheaders, hscope⟩ := hanonymous hallow
  exact ⟨resp, hresp, hallow, hheaders, hscope, (hother _ _ ⟨rfl, rfl⟩).trans hresp⟩

end Hyproxy.PublicAccess

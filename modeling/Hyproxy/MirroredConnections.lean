import Hyproxy.Connections
import Hyproxy.Runs

/-!
Whether a tunnelled resource says the same as the connection behind it. The request that creates
both sees to it, and so does the one that replaces the connection as far as the host and the port
go; the protocol, and a later change of the resource, are not looked at.
-/
namespace Hyproxy.MirroredConnections

open Connections
open KeyRotation (ResourceConnection)
open RouteTables (Protocol)
open Runs (Along along_iff_takes)
open SealedBlobs

variable {σ τ Key : Type} {vault : SecretsBackend Key} (A : Aead Key)

/-- A resource that says the same as its connection, and is reached through it only. -/
structure Mirrors (r : Resource) (row : ResourceConnection Columns) : Prop where
  protocol : r.protocol = row.other.protocol.protocol
  host : r.host = row.other.hostname
  ports : r.ports = [row.other.port]
  publicHost : r.publicHost = none

def AllMirror (db : Db σ τ) : Prop :=
  ∀ r ∈ db.resources, ∀ row ∈ db.connections, row.other.resource = r.id → Mirrors r row

def run (events : List (Event σ τ vault)) : Db σ τ := events.foldl (step A) (initial σ τ)

def Accepts (env : Env vault) (db : Db σ τ) (id : ℕ) (body : ResourcePatch) : Prop :=
  ∃ new, patched env db id body = .ok new

/-- A connection is put with the protocol of its resource, and no resource with a connection gets
another host or other ports. -/
def Follows (db : Db σ τ) : Event σ τ vault → Prop
  | .putConnection _ id body => checkUpsert body = .ok () →
      storableConnection body.hostname body.params body.secretParams = true →
        ∀ r, db.resource id = some r → r.protocol = body.protocol.protocol
  | .patchResource env id body => Accepts env db id body → (db.connection id).isSome →
      ∀ r, db.resource id = some r →
        (body.host = none ∨ body.host = some (some r.host)) ∧
          (body.ports = none ∨ body.ports = some (some r.ports))
  | _ => True

/-- What holds in every run: identifiers are not used again, and tunnelled resources have no host
of their own. -/
structure Keyed (db : Db σ τ) : Prop where
  nodup : (db.resources.map fun r => r.id).Nodup
  resources : ∀ r ∈ db.resources, r.id < db.next
  connections : ∀ row ∈ db.connections, row.other.resource < db.next
  hidden : ∀ r ∈ db.resources, (tunnelOf r.protocol).isSome → r.publicHost = none

/-! ### Requests -/

theorem tunnelOf_eq (p : Protocol) (t : TunnelProtocol) (h : tunnelOf p = some t) :
    p = t.protocol := by
  cases p <;> cases h <;> rfl

theorem tunnelOf_protocol (t : TunnelProtocol) : tunnelOf t.protocol = some t := by
  cases t <;> rfl

theorem resource_some (db : Db σ τ) (id : ℕ) (r : Resource) (h : db.resource id = some r) :
    r ∈ db.resources ∧ r.id = id :=
  ⟨List.mem_of_find?_eq_some h, by simpa using List.find?_some h⟩

theorem getD_some_eq {α : Type} (field : Update α) (old new : α)
    (h : field.getD (some old) = some new) (hsame : new = old) :
    field = none ∨ field = some (some old) := by
  cases field with
  | none => exact Or.inl rfl
  | some value =>
    rw [Option.getD_some] at h
    rw [h, hsame]
    exact Or.inr rfl

theorem eq_of_getD {α : Type} (field : Update α) (old new : α)
    (h : field.getD (some old) = some new) (hsame : field = none ∨ field = some (some old)) :
    new = old := by
  rcases hsame with rfl | rfl <;> exact (Option.some.inj h).symm

theorem merge_some (body : ResourcePatch) (row new : Resource) (publicHost : Update Text)
    (publicPaths : Update (List Text)) (h : body.merge row publicHost publicPaths = some new) :
    new.id = row.id ∧ new.protocol = row.protocol ∧
      new.publicHost = publicHost.getD row.publicHost ∧
      body.host.getD (some row.host) = some new.host ∧
        body.ports.getD (some row.ports) = some new.ports := by
  simp only [ResourcePatch.merge, Option.bind_eq_bind, Option.bind_eq_some_iff] at h
  obtain ⟨name, -, host, hhost, ports, hports, enabled, -, publicAccess, -, hnew⟩ := h
  obtain rfl := Option.some.inj hnew
  exact ⟨rfl, rfl, rfl, hhost, hports⟩

theorem patched_ok (env : Env vault) (db : Db σ τ) (id : ℕ) (body : ResourcePatch)
    (new : Resource) (h : patched env db id body = .ok new) :
    ∃ row, db.resource id = some row ∧ new.id = row.id ∧ new.protocol = row.protocol ∧
      ((tunnelOf row.protocol).isSome → row.publicHost = none → new.publicHost = none) ∧
        body.host.getD (some row.host) = some new.host ∧
          body.ports.getD (some row.ports) = some new.ports := by
  obtain ⟨publicHost, -, h⟩ := bind_ok h
  obtain ⟨publicPaths, -, h⟩ := bind_ok h
  cases hrow : db.resource id with
  | none =>
    simp only [hrow] at h
    cases h
  | some row =>
    simp only [hrow] at h
    obtain ⟨⟨⟩, hhost, h⟩ := bind_ok h
    obtain ⟨-, -, h⟩ := bind_ok h
    cases hmerge : body.merge row publicHost publicPaths with
    | none =>
      simp only [hmerge] at h
      cases h
    | some merged =>
      simp only [hmerge] at h
      obtain ⟨-, -, h⟩ := bind_ok h
      obtain rfl := Except.ok.inj h
      obtain ⟨hid, hprotocol, hpublic, hfields⟩ := merge_some body row _ _ _ hmerge
      refine ⟨row, rfl, hid, hprotocol, fun htunnel hnone => ?_, hfields⟩
      rw [hpublic]
      cases publicHost with
      | none => exact hnone
      | some host =>
        obtain ⟨⟨⟩, hrequire, -⟩ := bind_ok hhost
        unfold require at hrequire
        split_ifs at hrequire with hcondition
        rw [htunnel, Bool.and_true, Bool.not_eq_true', Option.isSome_eq_false_iff,
          Option.isNone_iff_eq_none] at hcondition
        exact hcondition

theorem mem_setResource (db : Db σ τ) (new r : Resource) (h : r ∈ (db.setResource new).resources) :
    r = new ∨ r ∈ db.resources ∧ r.id ≠ new.id := by
  obtain ⟨other, hother, rfl⟩ := List.mem_map.mp h
  split_ifs with hid
  · exact Or.inl rfl
  · exact Or.inr ⟨hother, hid⟩

theorem setResource_mem (db : Db σ τ) (new r : Resource) (h : r ∈ db.resources)
    (hid : r.id = new.id) : new ∈ (db.setResource new).resources :=
  List.mem_map.mpr ⟨r, h, if_pos hid⟩

theorem setResource_ids (db : Db σ τ) (new : Resource) :
    (db.setResource new).resources.map (fun r => r.id) = db.resources.map fun r => r.id := by
  rw [Db.setResource, List.map_map]
  refine List.map_congr_left fun r _ => ?_
  simp only [Function.comp_apply]
  split_ifs with hid
  · exact hid.symm
  · rfl

/-- What a PUT that succeeds says of the connection. -/
theorem putConnection_ok (env : Env vault) (db db' : Db σ τ) (id : ℕ) (body : Upsert)
    (h : putConnection A env db id body = .ok db') :
    ∃ r, db.resource id = some r ∧ checkUpsert body = .ok () ∧
      storableConnection body.hostname body.params body.secretParams = true ∧
      db'.next = db.next + 1 ∧
      db'.resources =
        (db.setResource { r with host := body.hostname, ports := [body.port] }).resources ∧
      (∀ row ∈ db'.connections, row.other.resource = id ∧ row.other.protocol = body.protocol ∧
          row.other.hostname = body.hostname ∧ row.other.port = body.port ∨
        row ∈ db.connections ∧ row.other.resource ≠ id) ∧
      ∃ row ∈ db'.connections, row.other.resource = id ∧ row.other.protocol = body.protocol := by
  obtain ⟨r, secret, hcheck, hstorable, hresource, -, hnext, hresources, hrows, connectionId,
    hrow⟩ := putConnection_cases A env db db' id body h
  refine ⟨r, hresource, hcheck, hstorable, hnext, hresources, fun row hmem => ?_, _, hrow, rfl, rfl⟩
  rcases hrows row hmem with ⟨_, rfl⟩ | hold
  · exact Or.inl ⟨rfl, rfl, rfl, rfl⟩
  · exact Or.inr hold

theorem protocolShape_ok (body : ResourceCreate) (publicHost : Option Text)
    (tunnel : Option (TunnelProtocol × ConnectionIn))
    (h : protocolShape body publicHost = .ok tunnel) :
    ((tunnelOf body.protocol).isSome → publicHost = none) ∧
      ∀ t ∈ tunnel, body.protocol = t.1.protocol ∧ publicHost = none := by
  unfold protocolShape at h
  split at h
  · rename_i protocol conn hprotocol hconn
    split_ifs at h with hhost hparams
    rw [Option.not_isSome_iff_eq_none] at hhost
    obtain rfl := Except.ok.inj h
    exact ⟨fun _ => hhost, fun t ht => by
      rw [← Option.some.inj ht]
      exact ⟨tunnelOf_eq _ _ hprotocol, hhost⟩⟩
  · split_ifs at h
  · cases h
  · rename_i hprotocol _
    obtain rfl := Except.ok.inj h
    rw [hprotocol]
    exact ⟨fun h => (by cases h), fun t ht => by cases ht⟩

/-- What a POST that succeeds says of the resource and of the connection. -/
theorem createResource_ok (env : Env vault) (db db' : Db σ τ) (body : ResourceCreate)
    (h : createResource A env db body = .ok db') :
    ∃ new : Resource, new.id = db.next ∧ db.next < db'.next ∧
      db'.resources = db.resources ++ [new] ∧
      ((tunnelOf new.protocol).isSome → new.publicHost = none) ∧
      ∀ row ∈ db'.connections, row ∈ db.connections ∨
        row.other.resource = new.id ∧ Mirrors new row := by
  obtain ⟨publicHost, tunnel, new, htunnel, hid, hprotocol, hpublic, hhost, hports, hresources,
    hnext, hrows⟩ := createResource_cases A env db db' body h
  obtain ⟨hhidden, htunnelled⟩ := protocolShape_ok body publicHost tunnel htunnel
  refine ⟨new, hid, by omega, hresources, by rwa [hprotocol, hpublic], fun row hrow => ?_⟩
  rcases hrows with ⟨-, hrows⟩ | ⟨t, secret, rfl, -, hrows⟩
  · rw [hrows] at hrow
    exact Or.inl hrow
  · obtain ⟨hsame, hnone⟩ := htunnelled t rfl
    rw [hrows] at hrow
    rcases List.mem_append.mp hrow with hrow | hrow
    · exact Or.inl hrow
    · obtain rfl := List.mem_singleton.mp hrow
      exact Or.inr ⟨rfl, hprotocol.trans hsame, hhost, hports, hpublic.trans hnone⟩

/-! ### Steps -/

theorem keyed_create (env : Env vault) (db db' : Db σ τ) (body : ResourceCreate) (h : Keyed db)
    (hcreate : createResource A env db body = .ok db') : Keyed db' := by
  obtain ⟨new, hid, hnext, hresources, hhidden, hrows⟩ :=
    createResource_ok A env db db' body hcreate
  have hnew : ∀ r ∈ db'.resources, r ∈ db.resources ∨ r = new := fun r hr => by
    rw [hresources] at hr
    exact (List.mem_append.mp hr).imp_right List.mem_singleton.mp
  refine ⟨?_, fun r hr => ?_, fun row hrow => ?_, fun r hr => ?_⟩
  · rw [hresources, List.map_append, List.nodup_append]
    refine ⟨h.nodup, List.nodup_singleton _, fun a ha b hb heq => ?_⟩
    obtain ⟨r, hr, rfl⟩ := List.mem_map.mp ha
    obtain rfl := List.mem_singleton.mp hb
    have hlt := h.resources r hr
    have heq' : r.id = new.id := heq
    omega
  · rcases hnew r hr with hr | rfl
    · exact Nat.lt_trans (h.resources r hr) hnext
    · omega
  · rcases hrows row hrow with hrow | ⟨hresource, -⟩
    · exact Nat.lt_trans (h.connections row hrow) hnext
    · omega
  · rcases hnew r hr with hr | rfl
    · exact h.hidden r hr
    · exact hhidden

theorem keyed_patch (env : Env vault) (db db' : Db σ τ) (id : ℕ) (body : ResourcePatch)
    (h : Keyed db) (hpatch : patchResource env db id body = .ok db') : Keyed db' := by
  obtain ⟨new, hpatched, rfl⟩ := patchResource_cases env db db' id body hpatch
  obtain ⟨old, hold, hid, hprotocol, hpublic, -⟩ := patched_ok env db id body new hpatched
  have hmem := (resource_some db id old hold).1
  refine ⟨?_, fun r hr => ?_, h.connections, fun r hr => ?_⟩
  · rw [setResource_ids]
    exact h.nodup
  · rcases mem_setResource db new r hr with rfl | hr
    · rw [hid]
      exact h.resources old hmem
    · exact h.resources r hr.1
  · rcases mem_setResource db new r hr with rfl | hr
    · rw [hprotocol]
      exact fun htunnel => hpublic htunnel (h.hidden old hmem htunnel)
    · exact h.hidden r hr.1

theorem keyed_put (env : Env vault) (db db' : Db σ τ) (id : ℕ) (body : Upsert) (h : Keyed db)
    (hput : putConnection A env db id body = .ok db') : Keyed db' := by
  obtain ⟨r, hr, -, -, hnext, hresources, hrows, -⟩ := putConnection_ok A env db db' id body hput
  obtain ⟨hmem, hid⟩ := resource_some db id r hr
  refine ⟨?_, fun r' hr' => ?_, fun row hrow => ?_, fun r' hr' => ?_⟩
  · rw [hresources, setResource_ids]
    exact h.nodup
  · rw [hresources] at hr'
    rw [hnext]
    rcases mem_setResource db _ r' hr' with rfl | hr'
    · exact Nat.lt_succ_of_lt (h.resources r hmem)
    · exact Nat.lt_succ_of_lt (h.resources r' hr'.1)
  · rw [hnext]
    rcases hrows row hrow with ⟨hresource, -⟩ | ⟨hrow, -⟩
    · rw [hresource, ← hid]
      exact Nat.lt_succ_of_lt (h.resources r hmem)
    · exact Nat.lt_succ_of_lt (h.connections row hrow)
  · rw [hresources] at hr'
    rcases mem_setResource db _ r' hr' with rfl | hr'
    · exact h.hidden r hmem
    · exact h.hidden r' hr'.1

theorem keyed_step (db : Db σ τ) (e : Event σ τ vault) (h : Keyed db) : Keyed (step A db e) := by
  cases e with
  | createResource env body =>
    exact commit_keeps Keyed db _ h fun db' hcreate => keyed_create A env db db' body h hcreate
  | patchResource env id body =>
    exact commit_keeps Keyed db _ h fun db' hpatch => keyed_patch env db db' id body h hpatch
  | deleteResource id =>
    refine commit_keeps Keyed db _ h fun db' hdelete => ?_
    obtain rfl := deleteResource_cases db db' id hdelete
    refine ⟨h.nodup.sublist (List.filter_sublist.map _), fun r hr => ?_, fun row hrow => ?_,
      fun r hr => ?_⟩
    · exact h.resources r (List.mem_filter.mp hr).1
    · exact h.connections row (List.mem_filter.mp hrow).1
    · exact h.hidden r (List.mem_filter.mp hr).1
  | putConnection env id body =>
    exact commit_keeps Keyed db _ h fun db' hput => keyed_put A env db db' id body h hput
  | deleteConnection id =>
    refine commit_keeps Keyed db _ h fun db' hdelete => ?_
    obtain rfl := deleteConnection_cases db db' id hdelete
    exact ⟨h.nodup, h.resources, fun row hrow => h.connections row (List.mem_filter.mp hrow).1,
      h.hidden⟩
  | rotate backend nonces =>
    refine ⟨h.nodup, h.resources, fun row hrow => ?_, h.hidden⟩
    obtain ⟨old, hold, rfl | ⟨hrewrapped, -⟩⟩ := rotate_rows A backend nonces db _ rfl row hrow
    · exact h.connections row hold
    · have hother : row.other = old.other := hrewrapped.other
      rw [hother]
      exact h.connections old hold
  | others keys totp => exact ⟨h.nodup, h.resources, h.connections, h.hidden⟩

theorem same_id (db : Db σ τ) (h : Keyed db) (r r' : Resource) (hr : r ∈ db.resources)
    (hr' : r' ∈ db.resources) (hid : r.id = r'.id) : r = r' :=
  List.inj_on_of_nodup_map h.nodup hr hr' hid

theorem mirror_create (env : Env vault) (db db' : Db σ τ) (body : ResourceCreate)
    (hkeyed : Keyed db) (h : AllMirror db) (hcreate : createResource A env db body = .ok db') :
    AllMirror db' := by
  intro r hr row hrow hid
  obtain ⟨new, hnew, -, hresources, -, hrows⟩ := createResource_ok A env db db' body hcreate
  rw [hresources] at hr
  rcases List.mem_append.mp hr with hr | hr
  · have hlt := hkeyed.resources r hr
    rcases hrows row hrow with hrow | ⟨hresource, -⟩
    · exact h r hr row hrow hid
    · omega
  · obtain rfl := List.mem_singleton.mp hr
    rcases hrows row hrow with hrow | ⟨-, hmirrors⟩
    · have hlt := hkeyed.connections row hrow
      omega
    · exact hmirrors

theorem mirror_patch (env : Env vault) (db db' : Db σ τ) (id : ℕ) (body : ResourcePatch)
    (h : AllMirror db) (hfollows : Follows db (.patchResource env id body : Event σ τ vault))
    (hpatch : patchResource env db id body = .ok db') : AllMirror db' := by
  obtain ⟨new, hpatched, rfl⟩ := patchResource_cases env db db' id body hpatch
  obtain ⟨old, hold, hid, hprotocol, hpublic, hhost, hports⟩ :=
    patched_ok env db id body new hpatched
  obtain ⟨hmem, holdid⟩ := resource_some db id old hold
  intro r hr row hrow hrowid
  rcases mem_setResource db new r hr with rfl | hr
  · have hmirrors := h old hmem row hrow (hrowid.trans hid)
    have hsome : (db.connection id).isSome := by
      refine List.find?_isSome.mpr ⟨row, hrow, ?_⟩
      rw [hrowid, hid, holdid, beq_iff_eq]
    obtain ⟨hsamehost, hsameports⟩ := hfollows ⟨r, hpatched⟩ hsome old hold
    have hnewhost := eq_of_getD _ _ _ hhost hsamehost
    have hnewports := eq_of_getD _ _ _ hports hsameports
    have htunnel : (tunnelOf old.protocol).isSome := by
      rw [hmirrors.protocol, tunnelOf_protocol]
      rfl
    exact ⟨hprotocol.trans hmirrors.protocol, hnewhost.trans hmirrors.host,
      hnewports.trans hmirrors.ports, hpublic htunnel hmirrors.publicHost⟩
  · exact h r hr.1 row hrow hrowid

theorem mirror_put (env : Env vault) (db db' : Db σ τ) (id : ℕ) (body : Upsert) (hkeyed : Keyed db)
    (h : AllMirror db) (hfollows : Follows db (.putConnection env id body : Event σ τ vault))
    (hput : putConnection A env db id body = .ok db') : AllMirror db' := by
  intro r' hr' row hrow hrowid
  obtain ⟨r, hr, hcheck, hstorable, -, hresources, hrows, -⟩ :=
    putConnection_ok A env db db' id body hput
  obtain ⟨hmem, hid⟩ := resource_some db id r hr
  have hprotocol : r.protocol = body.protocol.protocol := hfollows hcheck hstorable r hr
  rw [hresources] at hr'
  rcases mem_setResource db _ r' hr' with rfl | ⟨hr', hne⟩
  · rcases hrows row hrow with ⟨-, hsame, hhost, hport⟩ | ⟨-, hother⟩
    · have hhidden : r.publicHost = none := by
        refine hkeyed.hidden r hmem ?_
        rw [hprotocol, tunnelOf_protocol]
        rfl
      exact ⟨by rw [hsame]; exact hprotocol, hhost.symm, by rw [hport], hhidden⟩
    · exact absurd (hrowid.trans hid) hother
  · rcases hrows row hrow with ⟨hresource, -⟩ | ⟨hrow, -⟩
    · exact absurd (hrowid.symm.trans (hresource.trans hid.symm)) hne
    · exact h r' hr' row hrow hrowid

theorem mirror_step (db : Db σ τ) (e : Event σ τ vault) (hkeyed : Keyed db) (h : AllMirror db)
    (hfollows : Follows db e) : AllMirror (step A db e) := by
  cases e with
  | createResource env body =>
    exact commit_keeps AllMirror db _ h fun db' hcreate =>
      mirror_create A env db db' body hkeyed h hcreate
  | patchResource env id body =>
    exact commit_keeps AllMirror db _ h fun db' hpatch =>
      mirror_patch env db db' id body h hfollows hpatch
  | deleteResource id =>
    refine commit_keeps AllMirror db _ h fun db' hdelete r hr row hrow => ?_
    obtain rfl := deleteResource_cases db db' id hdelete
    exact h r (List.mem_filter.mp hr).1 row (List.mem_filter.mp hrow).1
  | putConnection env id body =>
    exact commit_keeps AllMirror db _ h fun db' hput =>
      mirror_put A env db db' id body hkeyed h hfollows hput
  | deleteConnection id =>
    refine commit_keeps AllMirror db _ h fun db' hdelete r hr row hrow => ?_
    obtain rfl := deleteConnection_cases db db' id hdelete
    exact h r hr row (List.mem_filter.mp hrow).1
  | rotate backend nonces =>
    intro r hr row hrow hrowid
    obtain ⟨old, hold, rfl | ⟨hrewrapped, -⟩⟩ := rotate_rows A backend nonces db _ rfl row hrow
    · exact h r hr row hold hrowid
    · have hother : row.other = old.other := hrewrapped.other
      rw [hother] at hrowid
      obtain ⟨hprotocol, hhost, hports, hpublic⟩ := h r hr old hold hrowid
      exact ⟨by rw [hother]; exact hprotocol, by rw [hother]; exact hhost,
        by rw [hother]; exact hports, hpublic⟩
  | others keys totp => exact h

/-! ### Runs -/

theorem keyed_run (events : List (Event σ τ vault)) : Keyed (run A events) := by
  have hall : ∀ db : Db σ τ, Keyed db → Keyed (events.foldl (step A) db) := by
    induction events with
    | nil => exact fun _ h => h
    | cons e rest ih => exact fun db h => ih _ (keyed_step A db e h)
  exact hall _ ⟨List.nodup_nil, fun _ h => absurd h List.not_mem_nil,
    fun _ h => absurd h List.not_mem_nil, fun _ h => absurd h List.not_mem_nil⟩

theorem follows_of_mirror (db : Db σ τ) (e : Event σ τ vault) (h : AllMirror db)
    (hnext : AllMirror (step A db e)) : Follows db e := by
  cases e with
  | putConnection env id body =>
    intro hcheck hstorable r hr
    obtain ⟨db', hput⟩ := putConnection_accepts A env db id body r hcheck hstorable hr
    obtain ⟨r', hr', -, -, -, hresources, -, row, hrow, hresource, hprotocol⟩ :=
      putConnection_ok A env db db' id body hput
    obtain rfl := Option.some.inj (hr.symm.trans hr')
    obtain ⟨hmem, hid⟩ := resource_some db id r hr
    have hnew := setResource_mem db { r with host := body.hostname, ports := [body.port] } r hmem
      rfl
    rw [← hresources] at hnew
    simp only [step, hput, commit] at hnext
    have hmirrors := hnext _ hnew row hrow (hresource.trans hid.symm)
    rw [← hprotocol]
    exact hmirrors.protocol
  | patchResource env id body =>
    rintro ⟨new, hpatched⟩ hsome r hr
    obtain ⟨row, hrow⟩ := Option.isSome_iff_exists.mp hsome
    have hmem := List.mem_of_find?_eq_some hrow
    have hrowid : row.other.resource = id := by simpa using List.find?_some hrow
    obtain ⟨old, hold, hid, -, -, hhost, hports⟩ := patched_ok env db id body new hpatched
    obtain rfl := Option.some.inj (hr.symm.trans hold)
    obtain ⟨hmemr, hrid⟩ := resource_some db id r hr
    have hbefore := h r hmemr row hmem (hrowid.trans hrid.symm)
    simp only [step, patchResource, hpatched, commit, Except.map] at hnext
    have hafter := hnext new (setResource_mem db new r hmemr hid.symm) row hmem
      (hrowid.trans (hrid.symm.trans hid.symm))
    exact ⟨getD_some_eq _ _ _ hhost (hafter.host.trans hbefore.host.symm),
      getD_some_eq _ _ _ hports (hafter.ports.trans hbefore.ports.symm)⟩
  | createResource | deleteResource | deleteConnection | rotate | others => trivial

/-- Every tunnelled resource mirrors its connection in all states of a run exactly if every step
follows what it finds. -/
theorem mirrors_iff (events : List (Event σ τ vault)) :
    (∀ n, AllMirror (run A (events.take n))) ↔ Along (step A) Follows (initial σ τ) events := by
  refine along_iff_takes (fun db => Keyed db ∧ AllMirror db) AllMirror ?_ (fun _ h => h.2) ?_ ?_
  · exact ⟨keyed_run A ([] : List (Event σ τ vault)), fun _ hr => absurd hr List.not_mem_nil⟩
  · intro db e hdb hfollows
    exact ⟨keyed_step A db e hdb.1, mirror_step A db e hdb.1 hdb.2 hfollows⟩
  · exact fun db e hdb hnext => follows_of_mirror A db e hdb.2 hnext

/-! ### A connection of another protocol -/

def sampleVault : SecretsBackend UInt8 := KeyRotation.twoKeys

def sampleEnv : Env sampleVault where
  backend := ⟨sampleVault, fun _ _ h => h⟩
  nonce := KeyRotation.zeroNonce
  passwordHash := []
  now := 0
  authHost := "auth.localhost".toList

def desktop : ResourceCreate where
  name := "desk".toList
  protocol := .vnc
  publicHost := none
  host := "desk.lan".toList
  ports := [5900]
  pathPrefix := none
  description := none
  enabled := true
  publicAccess := false
  publicPaths := none
  connection := some ⟨"desk.lan".toList, 5900, [], none⟩

def shell : Upsert := ⟨.ssh, "desk.lan".toList, 22, [], none⟩

/-- Another protocol for the connection. -/
def otherProtocol : List (Event Unit Unit sampleVault) :=
  [.createResource sampleEnv desktop, .putConnection sampleEnv 0 shell]

/-- Another port for the resource. -/
def otherPort : List (Event Unit Unit sampleVault) :=
  [.createResource sampleEnv desktop,
    .patchResource sampleEnv 0 { ports := some (some [5901]) }]

theorem not_allMirror (db : Db Unit Unit)
    (h : (db.resources.any fun r => db.connections.any fun row => row.other.resource == r.id &&
      (r.protocol != row.other.protocol.protocol || r.ports != [row.other.port])) = true) :
    ¬ AllMirror db := by
  intro hmirror
  obtain ⟨r, hr, hrow⟩ := List.any_eq_true.mp h
  obtain ⟨row, hrow, hdiff⟩ := List.any_eq_true.mp hrow
  rw [Bool.and_eq_true, beq_iff_eq, Bool.or_eq_true, bne_iff_ne, bne_iff_ne] at hdiff
  have hmirrors := hmirror r hr row hrow hdiff.1
  rcases hdiff.2 with hprotocol | hports
  · exact hprotocol hmirrors.protocol
  · exact hports hmirrors.ports

theorem drifts_apart : ¬ AllMirror (run plainAead otherProtocol) ∧
    ¬ AllMirror (run plainAead otherPort) :=
  ⟨not_allMirror _ (by decide), not_allMirror _ (by decide)⟩

end Hyproxy.MirroredConnections

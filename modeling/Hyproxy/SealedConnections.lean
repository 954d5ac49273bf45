import Hyproxy.Connections
import Hyproxy.LostSecrets
import Hyproxy.Runs

/-!
The sealed parameters of connections over whole runs. What a row says about them is true in every
run; that cameras have none is true as long as no connection with sealed parameters is made one
for a camera without a word about its parameters.
-/
namespace Hyproxy.SealedConnections

open Connections
open JsonTexts (Fields dumps encode encode_dumps_inj)
open KeyRotation (ResourceConnection Rewrapped Broken)
open Runs (Along along_iff_takes)
open SealedBlobs
open SecretWrites (Backend)

variable {σ τ Key : Type} (A : Aead Key) (vault : SecretsBackend Key)

/-- The parameters that a row holds sealed. -/
def Holds (s : Secret) (params : Fields) : Prop :=
  opened A vault aad ⟨s.blob, s.keyId⟩ = some (encode (dumps params))

/-- What is promised of a row. -/
structure RowConsistent (row : ResourceConnection Columns) : Prop where
  unsealed : row.secretCiphertext = none ∧ row.keyId = none ↔ row.other.secretKeys = []
  names : row.other.secretKeys ≠ [] →
    ∃! params, Holds A vault (secretOf row) params ∧ row.other.secretKeys = sortedNames params
  rtsp : row.other.protocol = .rtsp → row.secretCiphertext = none ∧ row.keyId = none

def Consistent (db : Db σ τ) : Prop := ∀ row ∈ db.connections, RowConsistent A vault row

def Sound (s : Secret) : Prop :=
  s = noSecret ∨ s.names ≠ [] ∧ ∃ params, Holds A vault s params ∧ s.names = sortedNames params

variable {vault}

def run (events : List (Event σ τ vault)) : Db σ τ := events.foldl (step A) (initial σ τ)

/-- No connection with sealed parameters is made one for a camera with its parameters left out. -/
def Keeps (db : Db σ τ) : Event σ τ vault → Prop
  | .putConnection _ id body => checkUpsert body = .ok () →
      storableConnection body.hostname body.params body.secretParams = true →
      (db.resource id).isSome → body.protocol = .rtsp → body.secretParams = none →
        ∀ row, db.connection id = some row → row.secretCiphertext = none
  | _ => True

/-! ### Single rows -/

theorem sortedNames_eq_nil_iff (params : Fields) : sortedNames params = [] ↔ params = [] := by
  rw [← List.length_eq_zero_iff, sortedNames, List.length_mergeSort, List.length_map,
    List.length_eq_zero_iff]

theorem sealSecretParams_sound (env : Env vault) (params : Fields) (hne : params ≠ []) (s : Secret)
    (h : sealSecretParams A env params = .ok s) : Sound A vault s := by
  obtain ⟨keyId, blob, hsealed, hopens⟩ :=
    LostSecrets.encrypt_opens A env.backend env.nonce (encode (dumps params)) aad
  simp only [sealSecretParams, hsealed] at h
  obtain rfl := Except.ok.inj h
  exact Or.inr ⟨(sortedNames_eq_nil_iff params).not.mpr hne, params, hopens, rfl⟩

theorem upsertSecret_sound (env : Env vault) (row : Option (ResourceConnection Columns))
    (params : Option Fields) (s : Secret) (hrow : ∀ r ∈ row, Sound A vault (secretOf r))
    (h : upsertSecret A env row params = .ok s) : Sound A vault s := by
  rcases params with _ | _ | ⟨param, params⟩
  · obtain rfl := Except.ok.inj h
    cases row with
    | none => exact Or.inl rfl
    | some r => exact hrow r rfl
  · obtain rfl := Except.ok.inj h
    exact Or.inl rfl
  · exact sealSecretParams_sound A env _ (List.cons_ne_nil _ _) s h

theorem rowConsistent_of_sound (row : ResourceConnection Columns)
    (h : Sound A vault (secretOf row))
    (hrtsp : row.other.protocol = .rtsp → row.secretCiphertext = none) :
    RowConsistent A vault row := by
  rcases h with hnone | ⟨hnames, params, hholds, hsorted⟩
  · obtain ⟨hkey, hblob, hkeys⟩ := Secret.mk.inj hnone
    exact ⟨⟨fun _ => hkeys, fun _ => ⟨hblob, hkey⟩⟩, fun h => absurd hkeys h,
      fun _ => ⟨hblob, hkey⟩⟩
  · have hblob : row.secretCiphertext ≠ none := by
      intro hnone
      have hopened : (none : Option Bytes) = some (encode (dumps params)) := by
        rw [← hholds, opened]
        simp only [secretOf, hnone, Option.bind_none]
      cases hopened
    refine ⟨⟨fun h => absurd h.1 hblob, fun h => absurd h hnames⟩, fun _ => ?_,
      fun h => absurd (hrtsp h) hblob⟩
    refine ⟨params, ⟨hholds, hsorted⟩, fun other hother => ?_⟩
    exact encode_dumps_inj _ _ (Option.some.inj (hother.1.symm.trans hholds))

/-! ### Steps -/

theorem opened_current (b : Backend vault) (s : Sealed)
    (h : s.keyId = some b.keys.currentKeyId) : opened A b.keys aad s = opened A vault aad s := by
  obtain ⟨key, hkey⟩ := Option.isSome_iff_exists.mp b.keys.current_known
  have hboth := b.agrees _ key hkey
  unfold opened decryptBlob
  simp only [h, Option.bind_some, hkey, hboth]

/-- The rotation keeps what a row holds. -/
theorem rewrapped_sound (b : Backend vault) (old new : ResourceConnection Columns)
    (h : Rewrapped A b.keys KeyRotation.resourceConnections old new)
    (hbroken : ¬ Broken A b.keys KeyRotation.resourceConnections old)
    (hold : Sound A vault (secretOf old)) : Sound A vault (secretOf new) := by
  rcases hold with hnone | ⟨hnames, params, hholds, hsorted⟩
  · have hblob : old.secretCiphertext = none := (Secret.mk.inj hnone).2.1
    rw [h.unsealed hblob]
    exact Or.inl hnone
  have hother : new.other = old.other := h.other
  have hopened : opened A b.keys aad ⟨new.secretCiphertext, new.keyId⟩ =
      opened A b.keys aad ⟨old.secretCiphertext, old.keyId⟩ := h.opened
  have hsome : opened A b.keys aad ⟨old.secretCiphertext, old.keyId⟩ =
      some (encode (dumps params)) := by
    cases hrow : opened A b.keys aad ⟨old.secretCiphertext, old.keyId⟩ with
    | some plaintext => exact (LostSecrets.opened_agrees A b aad plaintext _ hrow).symm.trans hholds
    | none =>
      have hsealed : old.secretCiphertext.isSome := by
        by_contra hno
        rw [Option.not_isSome_iff_eq_none] at hno
        rw [Holds, opened] at hholds
        simp only [secretOf, hno, Option.bind_none] at hholds
        cases hholds
      have hcurrent : old.keyId = some b.keys.currentKeyId := by
        by_contra hstale
        exact hbroken ⟨⟨hsealed, hstale⟩, hrow⟩
      rw [opened_current A b ⟨old.secretCiphertext, old.keyId⟩ hcurrent] at hrow
      exact absurd (hrow.symm.trans hholds) (by simp)
  refine Or.inr ⟨?_, params, LostSecrets.opened_agrees A b aad _ _ (hopened.trans hsome), ?_⟩
  · rw [secretOf, hother]
    exact hnames
  · rw [secretOf, hother]
    exact hsorted

/-! ### Requests -/

/-- A row that a request has written, with what is sealed in it. -/
def Written (env : Env vault) (old : Option (ResourceConnection Columns))
    (params : Option Fields) (protocol : TunnelProtocol) (row : ResourceConnection Columns) :
    Prop :=
  row.other.protocol = protocol ∧ upsertSecret A env old params = .ok (secretOf row)

theorem createResource_rows (env : Env vault) (db db' : Db σ τ) (body : ResourceCreate)
    (h : createResource A env db body = .ok db') : ∀ row ∈ db'.connections, row ∈ db.connections ∨
      ∃ (protocol : TunnelProtocol) (conn : ConnectionIn),
        (protocol = .rtsp → conn.secretParams.getD [] = []) ∧
          Written A env none conn.secretParams protocol row := by
  obtain ⟨publicHost, tunnel, new, htunnel, -, -, -, -, -, -, -, hrows⟩ :=
    createResource_cases A env db db' body h
  intro row hrow
  rcases hrows with ⟨-, hrows⟩ | ⟨t, secret, rfl, hsecret, hrows⟩
  · rw [hrows] at hrow
    exact Or.inl hrow
  · rw [hrows] at hrow
    rcases List.mem_append.mp hrow with hrow | hrow
    · exact Or.inl hrow
    · obtain rfl := List.mem_singleton.mp hrow
      refine Or.inr ⟨t.1, t.2, fun hrtsp => ?_, rfl, hsecret⟩
      by_contra hne
      unfold protocolShape at htunnel
      split at htunnel
      · split_ifs at htunnel with hhost hparams
        obtain rfl := Option.some.inj (Except.ok.inj htunnel)
        exact hparams ⟨hrtsp, hne⟩
      · split_ifs at htunnel
      · cases htunnel
      · cases htunnel

theorem putConnection_rows (env : Env vault) (db db' : Db σ τ) (id : ℕ) (body : Upsert)
    (h : putConnection A env db id body = .ok db') : checkUpsert body = .ok () ∧
      storableConnection body.hostname body.params body.secretParams = true ∧
      (db.resource id).isSome ∧ (∀ row ∈ db'.connections, row ∈ db.connections ∨
        Written A env (db.connection id) body.secretParams body.protocol row) ∧
      ∀ old, db.connection id = some old → ∃ row ∈ db'.connections,
        Written A env (some old) body.secretParams body.protocol row := by
  obtain ⟨r, secret, hcheck, hstorable, hresource, hsecret, -, -, hrows, connectionId, hrow⟩ :=
    putConnection_cases A env db db' id body h
  refine ⟨hcheck, hstorable, by rw [hresource]; rfl, fun row hmem => ?_, fun old hold => ?_⟩
  · rcases hrows row hmem with ⟨_, rfl⟩ | ⟨hold, -⟩
    · exact Or.inr ⟨rfl, hsecret⟩
    · exact Or.inl hold
  · rw [hold] at hsecret
    exact ⟨_, hrow, rfl, hsecret⟩

theorem sound_noSecret (old : Option (ResourceConnection Columns)) (env : Env vault)
    (params : Option Fields) (row : ResourceConnection Columns) (protocol : TunnelProtocol)
    (h : Written A env old params protocol row) (hempty : params.getD [] = [])
    (hold : ∀ r ∈ old, params = none → r.secretCiphertext = none) :
    row.secretCiphertext = none := by
  have hsecret := h.2
  rcases params with _ | _ | ⟨param, params⟩
  · have heq := Except.ok.inj hsecret
    cases old with
    | none => exact (congrArg Secret.blob heq).symm
    | some r => exact (congrArg Secret.blob heq).symm.trans (hold r rfl rfl)
  · exact (congrArg Secret.blob (Except.ok.inj hsecret)).symm
  · cases hempty

theorem checkUpsert_rtsp (body : Upsert) (h : checkUpsert body = .ok ())
    (hrtsp : body.protocol = .rtsp) : body.secretParams.getD [] = [] := by
  obtain ⟨-, -, h⟩ := bind_ok h
  unfold require at h
  split_ifs at h with hcondition
  simpa [hrtsp] using hcondition

/-! ### Runs -/

variable (vault) in
/-- What a row says of its secret, and that a camera has none. -/
def Fine (row : ResourceConnection Columns) : Prop :=
  Sound A vault (secretOf row) ∧ (row.other.protocol = .rtsp → row.secretCiphertext = none)

theorem step_fine (db : Db σ τ) (e : Event σ τ vault)
    (h : ∀ row ∈ db.connections, Fine A vault row) (hkeeps : Keeps db e) :
    ∀ row ∈ (step A db e).connections, Fine A vault row := by
  cases e with
  | createResource env body =>
    refine commit_keeps (fun db => ∀ row ∈ db.connections, Fine A vault row) _ _ h ?_
    intro db' hcreate row hrow
    rcases createResource_rows A env db db' body hcreate row hrow with
      hold | ⟨protocol, conn, hcamera, hwritten⟩
    · exact h row hold
    · refine ⟨upsertSecret_sound A env none _ _ (by simp) hwritten.2, fun hrtsp => ?_⟩
      exact sound_noSecret A none env _ row _ hwritten (hcamera (hwritten.1.symm.trans hrtsp))
        (by simp)
  | patchResource env id body =>
    refine commit_keeps (fun db => ∀ row ∈ db.connections, Fine A vault row) _ _ h ?_
    intro db' hpatch
    obtain ⟨new, -, rfl⟩ := patchResource_cases env db db' id body hpatch
    exact h
  | deleteResource id =>
    refine commit_keeps (fun db => ∀ row ∈ db.connections, Fine A vault row) _ _ h ?_
    intro db' hdelete row hrow
    obtain rfl := deleteResource_cases db db' id hdelete
    exact h row (List.mem_filter.mp hrow).1
  | putConnection env id body =>
    refine commit_keeps (fun db => ∀ row ∈ db.connections, Fine A vault row) _ _ h ?_
    intro db' hput row hrow
    obtain ⟨hcheck, hstorable, hresource, hrows, -⟩ := putConnection_rows A env db db' id body hput
    rcases hrows row hrow with hold | hwritten
    · exact h row hold
    · have hmem : ∀ r ∈ db.connection id, r ∈ db.connections := fun r hr =>
        List.mem_of_find?_eq_some hr
      refine ⟨upsertSecret_sound A env _ _ _ (fun r hr => (h r (hmem r hr)).1) hwritten.2,
        fun hrtsp => ?_⟩
      have hcamera : body.protocol = .rtsp := hwritten.1.symm.trans hrtsp
      exact sound_noSecret A _ env _ row _ hwritten (checkUpsert_rtsp body hcheck hcamera)
        fun r hr habsent => hkeeps hcheck hstorable hresource hcamera habsent r hr
  | deleteConnection id =>
    refine commit_keeps (fun db => ∀ row ∈ db.connections, Fine A vault row) _ _ h ?_
    intro db' hdelete row hrow
    obtain rfl := deleteConnection_cases db db' id hdelete
    exact h row (List.mem_filter.mp hrow).1
  | rotate backend nonces =>
    intro row hrow
    obtain ⟨old, hold, rfl | ⟨hrewrapped, hsound⟩⟩ := rotate_rows A backend nonces db _ rfl row hrow
    · exact h row hold
    · refine ⟨rewrapped_sound A backend old row hrewrapped hsound (h old hold).1, fun hrtsp => ?_⟩
      have hother : row.other = old.other := hrewrapped.other
      have hblob := (h old hold).2 (by rw [← hother]; exact hrtsp)
      rw [hrewrapped.unsealed hblob]
      exact hblob
  | others keys totp => exact h

theorem keeps_of_consistent (db : Db σ τ) (e : Event σ τ vault)
    (hnext : Consistent A vault (step A db e)) : Keeps db e := by
  cases e with
  | putConnection env id body =>
    intro hcheck hstorable hresource hcamera habsent old hold
    obtain ⟨resource, hresource⟩ := Option.isSome_iff_exists.mp hresource
    obtain ⟨db', hput⟩ := putConnection_accepts A env _ id body resource hcheck hstorable hresource
    obtain ⟨-, -, -, -, hwritten⟩ := putConnection_rows A env _ db' id body hput
    obtain ⟨row, hrow, hprotocol, hsecret⟩ := hwritten old hold
    have hrow' := hnext row (by simpa [step, hput, commit] using hrow)
    have hblob := (hrow'.rtsp (hprotocol.trans hcamera)).1
    rw [habsent] at hsecret
    exact (congrArg Secret.blob (Except.ok.inj hsecret)).trans hblob
  | createResource | patchResource | deleteResource | deleteConnection | rotate | others => trivial

/-- The secrets of connections are consistent in all states of a run exactly if none of its steps
makes a connection with sealed parameters one for a camera that keeps them. -/
theorem consistent_iff (events : List (Event σ τ vault)) :
    (∀ n, Consistent A vault (run A (events.take n))) ↔
      Along (step A) Keeps (initial σ τ) events := by
  refine along_iff_takes (fun db => ∀ row ∈ db.connections, Fine A vault row) (Consistent A vault)
    (fun _ hrow => absurd hrow List.not_mem_nil) ?_ (fun db e => step_fine A db e)
    fun db e _ => keeps_of_consistent A db e
  intro db h row hrow
  obtain ⟨hsound, hrtsp⟩ := h row hrow
  exact rowConsistent_of_sound A row hsound hrtsp

/-! ### A desktop that becomes a camera -/

def sampleEnv : Env LostSecrets.bothKeys where
  backend := LostSecrets.rotating
  nonce := KeyRotation.zeroNonce
  passwordHash := []
  now := 0
  authHost := "auth.localhost".toList

def desktop : ResourceCreate where
  name := "desk".toList
  protocol := .vnc
  publicHost := none
  host := "desk.lan".toList
  ports := [5900]
  pathPrefix := none
  description := none
  enabled := true
  publicAccess := false
  publicPaths := none
  connection := some ⟨"desk.lan".toList, 5900, [], some [("password".toList, "pw".toList)]⟩

def camera : Upsert := ⟨.rtsp, "cam.lan".toList, 554, [], none⟩

def sampleRun : List (Event Unit Unit LostSecrets.bothKeys) :=
  [.createResource sampleEnv desktop, .putConnection sampleEnv 0 camera]

theorem camera_has_password : ¬ Consistent plainAead LostSecrets.bothKeys
    (run plainAead sampleRun) := by
  have hany : (run plainAead sampleRun).connections.any (fun row =>
      row.other.protocol == .rtsp && row.secretCiphertext.isSome) = true := by decide
  obtain ⟨row, hrow, hcamera⟩ := List.any_eq_true.mp hany
  rw [Bool.and_eq_true, beq_iff_eq] at hcamera
  intro h
  have hnone := ((h row hrow).rtsp hcamera.1).1
  rw [hnone] at hcamera
  exact absurd hcamera.2 (by decide)

end Hyproxy.SealedConnections

import Hyproxy.ChangeJournal
import Hyproxy.SealedConnections
import Hyproxy.Tunnels

/-!
What the tunnels of every run carry. The sealed rows of the connections refine a ledger in plain
text of what the administration has entered; a token reads as the ledger's entry of its resource,
for which the policies allowed its user, and a tunnel that the data plane lets through was issued
to the same user at the same address, and its resource is still there.
-/
namespace Hyproxy.TunnelTokens

open Administration (commit handle requireAdmin serve)
open AuthzCheck (evaluateAccess)
open Connections (Columns bind_ok secretOf)
open JsonTexts (dumps encode)
open JsonValues
open KeyRotation (ResourceConnection)
open SealedBlobs
open SealedConnections (Holds)
open SealedTokens (decryptToken decryptToken_mintToken loadCypherKey loads loads_printable mintToken)
open Tunnels

variable {σ τ Key : Type} (cfg : Config) (A : Aead Key) (base : AuthzCheck.Db)
  (vault : SecretsBackend Key)

/-! ### Parameters as JSON -/

theorem writeMoreFields_texts (params : JsonTexts.Fields) :
    writeMoreFields (texts params) =
      params.flatMap (fun next => ',' :: JsonTexts.item next) ++ ['\x7d'] := by
  induction params with
  | nil => rfl
  | cons p params ih =>
    change ',' :: (JsonTexts.quote p.1 ++ ':' :: (JsonTexts.quote p.2 ++
      writeMoreFields (texts params))) = _
    rw [ih, List.flatMap_cons, JsonTexts.item]
    simp only [List.cons_append, List.append_assoc]

/-- Both forms of `json.dumps` write a dictionary of texts alike. -/
theorem dumps_texts (params : JsonTexts.Fields) : dumps params = write (.obj (texts params)) := by
  cases params with
  | nil => rfl
  | cons p params =>
    have hmore := writeMoreFields_texts params
    rw [dumps, JsonTexts.items, JsonTexts.item]
    change _ = '\x7b' :: (JsonTexts.quote p.1 ++ ':' :: (JsonTexts.quote p.2 ++
      writeMoreFields (texts params)))
    rw [hmore]
    simp only [List.cons_append, List.append_assoc]

theorem distinct_texts (params : JsonTexts.Fields) : distinctFields (texts params) = true := by
  rw [distinctFields_iff]
  intro p hp
  obtain ⟨field, -, rfl⟩ := List.mem_map.mp hp
  rfl

theorem loads_dumps (params : JsonTexts.Fields) :
    loads (encode (dumps params)) = some (.obj (dict (texts params))) := by
  rw [dumps_texts, loads_printable _ (write_printable _), read_write_obj _ (distinct_texts params)]

theorem lookup_texts (params : JsonTexts.Fields) (name : Text) :
    (texts params).lookup name = (params.lookup name).map Json.str := by
  induction params with
  | nil => rfl
  | cons p params ih =>
    change ((p.1, Json.str p.2) :: texts params).lookup name = _
    rw [JsonValues.lookup_cons, ih, show p = (p.1, p.2) from rfl, List.lookup_cons]
    by_cases hname : name = p.1
    · rw [beq_iff_eq.mpr hname, if_pos hname, Option.map_some]
    · rw [beq_eq_false_iff_ne.mpr hname, if_neg hname]

/-- The last value of a name is what a dictionary has. -/
theorem lookup_dict_texts (params : JsonTexts.Fields) (name : Text) :
    (dict (texts params)).lookup name = (params.reverse.lookup name).map Json.str := by
  have hreverse : (texts params).reverse = texts params.reverse := by
    rw [texts, texts, List.map_reverse]
  rw [dict, lookup_update, hreverse, lookup_texts]
  exact Option.or_none

theorem dict_keys (fields : Fields) : ((dict fields).map Prod.fst).Nodup :=
  update_keys [] fields List.nodup_nil

/-! ### What a token reads as -/

def field (v : Json) (name : Text) : Option Json :=
  match v with
  | .obj fields => fields.lookup name
  | _ => none

def text : Option Json → Option Text
  | some (.str s) => some s
  | _ => none

/-- The protocol of the connection in a token. -/
def typeOf (payload : Json) : Option Text :=
  text ((field payload "connection".toList).bind fun v => field v "type".toList)

/-- A setting of the connection in a token. -/
def settingOf (payload : Json) (name : Text) : Option Text :=
  text ((field payload "connection".toList).bind fun v =>
    (field v "settings".toList).bind fun v => field v name)

/-- The holder of the key reads the connection as it was entered. -/
def Carries (token : Text) (x : Entered) : Prop :=
  ∃ key payload, loadCypherKey cfg.guacCypherKey = some key ∧
    decryptToken cfg.cipher key token = some payload ∧
      typeOf payload = some (protocolText x.protocol) ∧
        ∀ name, settingOf payload name = x.setting name

theorem distinct_connObj (x : Entered) :
    distinct (connObj x.protocol x.hostname x.port x.params (dict (texts x.secrets))) = true := by
  have hparams : distinctFields (dict (texts x.params)) = true :=
    distinctFields_update [] _ rfl (distinct_texts x.params)
  have hsecrets : distinctFields (dict (texts x.secrets)) = true :=
    distinctFields_update [] _ rfl (distinct_texts x.secrets)
  have hkeys := setField_keys _ "port".toList (.str (intText x.port))
    (setField_keys _ "hostname".toList (.str x.hostname)
      (update_keys _ (dict (texts x.secrets)) (dict_keys (texts x.params))))
  have hvalues := distinctFields_setField _ "port".toList (.str (intText x.port))
    (distinctFields_setField _ "hostname".toList (.str x.hostname)
      (distinctFields_update _ _ hparams hsecrets) rfl) rfl
  have hnames : ["connection".toList].Nodup ∧ ["type".toList, "settings".toList].Nodup := by decide
  simp only [connObj, distinct, distinctFields, List.map_cons, List.map_nil, Bool.and_true,
    Bool.and_eq_true, decide_eq_true_eq]
  exact ⟨hnames.1, hnames.2, trivial, hkeys, hvalues⟩

theorem settingOf_connObj (x : Entered) (name : Text) :
    settingOf (connObj x.protocol x.hostname x.port x.params (dict (texts x.secrets))) name =
      x.setting name := by
  have hread : settingOf (connObj x.protocol x.hostname x.port x.params (dict (texts x.secrets)))
      name = text ((setField (setField (update (dict (texts x.params)) (dict (texts x.secrets)))
        "hostname".toList (.str x.hostname)) "port".toList (.str (intText x.port))).lookup name) :=
    rfl
  rw [hread, lookup_setField, lookup_setField, lookup_update,
    lookup_reverse _ _ (dict_keys (texts x.secrets)), lookup_dict_texts, lookup_dict_texts,
    Entered.setting]
  split_ifs
  · rfl
  · rfl
  · cases x.secrets.reverse.lookup name with
    | some v => rfl
    | none => cases x.params.reverse.lookup name <;> rfl

/-! ### Rows and entries -/

/-- A row holds what was entered, the secrets sealed. -/
structure Shows (row : ResourceConnection Columns) (x : Entered) : Prop where
  protocol : row.other.protocol = x.protocol
  hostname : row.other.hostname = x.hostname
  port : row.other.port = x.port
  params : row.other.params = x.params
  unsealed : x.secrets = [] → row.secretCiphertext = none ∧ row.keyId = none
  sealed : x.secrets ≠ [] → Holds A vault (secretOf row) x.secrets

/-- The rows refine the ledger. -/
def Agrees (db : Connections.Db σ τ) (p : Ledger) : Prop :=
  ∀ id, Option.Rel (Shows A vault) (db.connection id) (p id)

variable {vault}

/-- What the broker opens is what was entered. -/
theorem unsealSecretParams_shows (b : SecretWrites.Backend vault)
    (row : ResourceConnection Columns) (x : Entered) (hshows : Shows A vault row x)
    (secrets : Fields) (h : unsealSecretParams A b.keys row = some secrets) :
    secrets = dict (texts x.secrets) := by
  unfold unsealSecretParams at h
  by_cases hempty : x.secrets = []
  · obtain ⟨hblob, hkey⟩ := hshows.unsealed hempty
    rw [hblob] at h
    rw [hempty]
    exact (Option.some.inj h).symm
  · have hholds := hshows.sealed hempty
    unfold Holds opened at hholds
    cases hblob : row.secretCiphertext with
    | none =>
      rw [secretOf, hblob] at hholds
      cases hholds
    | some blob =>
      cases hkey : row.keyId with
      | none =>
        rw [secretOf, hblob, hkey] at hholds
        cases hholds
      | some keyId =>
        rw [hblob, hkey] at h
        rw [secretOf, hblob, hkey, Option.bind_some] at hholds
        cases hdecrypt : decryptBlob A b.keys (some keyId) blob Connections.aad with
        | error e =>
          simp only [hdecrypt, reduceCtorEq] at h
        | ok raw =>
          have hagrees := LostSecrets.decrypt_agrees A b (some keyId) blob Connections.aad raw hdecrypt
          rw [hagrees] at hholds
          obtain rfl := Option.some.inj hholds
          simp only [hdecrypt, loads_dumps] at h
          exact (Option.some.inj h).symm

/-- A token for a row carries what was entered. -/
theorem tokenFor_carries (c : Call vault) (row : ResourceConnection Columns) (x : Entered)
    (hshows : Shows A vault row x) (token : Text) (h : tokenFor cfg A c row = some token) :
    Carries cfg token x := by
  obtain ⟨secrets, hsecrets, h⟩ := Option.bind_eq_some_iff.mp h
  obtain ⟨key, hkey, h⟩ := Option.bind_eq_some_iff.mp h
  obtain rfl := unsealSecretParams_shows A c.backend row x hshows secrets hsecrets
  rw [hshows.protocol, hshows.hostname, hshows.port, hshows.params] at h
  have hread := decryptToken_mintToken cfg.cipher key c.iv _ token c.length_iv
    (distinct_connObj x) h
  exact ⟨key, _, hkey, hread, rfl, settingOf_connObj x⟩

/-- A secret that is sealed by a request opens to what the request has entered. -/
theorem shows_upsert (env : Connections.Env vault) (old : Option (ResourceConnection Columns))
    (before : Option Entered) (hold : Option.Rel (Shows A vault) old before)
    (secretParams : Option JsonTexts.Fields) (secret : Connections.Secret)
    (h : Connections.upsertSecret A env old secretParams = .ok secret) (connectionId id : ℕ)
    (protocol : Connections.TunnelProtocol) (hostname : Text) (port : ℤ)
    (params : JsonTexts.Fields) :
    Shows A vault (Connections.connectionRow connectionId id protocol hostname port params env.now
      secret) (.by before protocol hostname port params secretParams) := by
  refine ⟨rfl, rfl, rfl, rfl, ?_, ?_⟩
  · intro hempty
    rcases secretParams with _ | _ | ⟨param, more⟩
    · obtain rfl := Except.ok.inj h
      cases hold with
      | none => exact ⟨rfl, rfl⟩
      | some hrow => exact hrow.unsealed hempty
    · obtain rfl := Except.ok.inj h
      exact ⟨rfl, rfl⟩
    · cases hempty
  · intro hne
    rcases secretParams with _ | _ | ⟨param, more⟩
    · obtain rfl := Except.ok.inj h
      cases hold with
      | none => exact absurd rfl hne
      | some hrow => exact hrow.sealed hne
    · exact absurd rfl hne
    · obtain ⟨keyId, blob, hsealed, hopens⟩ := LostSecrets.encrypt_opens A env.backend env.nonce
        (encode (dumps (param :: more))) Connections.aad
      simp only [Connections.upsertSecret, Connections.sealSecretParams, hsealed] at h
      obtain rfl := Except.ok.inj h
      exact hopens

/-! ### Steps of the store -/

theorem connection_some (db : Connections.Db σ τ) (id : ℕ) (row : ResourceConnection Columns)
    (h : db.connection id = some row) : row ∈ db.connections ∧ row.other.resource = id :=
  ⟨List.mem_of_find?_eq_some h, by simpa using List.find?_some h⟩

theorem find_append (rows : List (ResourceConnection Columns)) (new : ResourceConnection Columns)
    (id : ℕ) (hnew : rows.find? (fun row => row.other.resource == new.other.resource) = none) :
    (rows ++ [new]).find? (fun row => row.other.resource == id) =
      if id = new.other.resource then some new
      else rows.find? fun row => row.other.resource == id := by
  rw [List.find?_append]
  split_ifs with hid
  · rw [hid, hnew, Option.none_or]
    exact List.find?_cons_of_pos (beq_self_eq_true _)
  · have hother : [new].find? (fun row => row.other.resource == id) = none :=
      (List.find?_cons_of_neg (by rw [beq_iff_eq]; exact fun heq => hid heq.symm)).trans rfl
    rw [hother, Option.or_none]

theorem protocolShape_tunnel (body : Connections.ResourceCreate) (publicHost : Option Text)
    (tunnel : Option (Connections.TunnelProtocol × Connections.ConnectionIn))
    (h : Connections.protocolShape body publicHost = .ok tunnel) :
    (∃ protocol conn, Connections.tunnelOf body.protocol = some protocol ∧
        body.connection = some conn ∧ tunnel = some (protocol, conn)) ∨
      (Connections.tunnelOf body.protocol = none ∧ body.connection = none ∧ tunnel = none) := by
  unfold Connections.protocolShape at h
  split at h
  · rename_i protocol conn hprotocol hconn
    split_ifs at h
    exact Or.inl ⟨protocol, conn, hprotocol, hconn, (Except.ok.inj h).symm⟩
  · split_ifs at h
  · cases h
  · rename_i hprotocol hconn
    exact Or.inr ⟨hprotocol, hconn, (Except.ok.inj h).symm⟩

theorem agrees_create (env : Connections.Env vault) (db db' : Connections.Db σ τ) (p : Ledger)
    (body : Connections.ResourceCreate) (hkeyed : MirroredConnections.Keyed db)
    (hagrees : Agrees A vault db p) (h : Connections.createResource A env db body = .ok db') :
    Agrees A vault db' (entered db.next p (.createResource env body)) := by
  obtain ⟨publicHost, tunnel, new, htunnel, hid, -, -, -, -, -, -, hrows⟩ :=
    Connections.createResource_cases A env db db' body h
  have hnew : db.connection db.next = none := List.find?_eq_none.mpr fun row hrow => by
    have hlt := hkeyed.connections row hrow
    rw [beq_iff_eq]
    omega
  rcases protocolShape_tunnel body publicHost tunnel htunnel with
    ⟨protocol, conn, hprotocol, hconn, rfl⟩ | ⟨hprotocol, hconn, rfl⟩
  · obtain ⟨hnone, -⟩ | ⟨t, secret, ht, hsecret, hconnections⟩ := hrows
    · cases hnone
    obtain rfl := Option.some.inj ht
    simp only [entered, hprotocol, hconn]
    intro id
    have hfind := find_append db.connections (Connections.connectionRow (db.next + 1) new.id protocol
      conn.hostname conn.port conn.params env.now secret) id (by rw [← hid] at hnew; exact hnew)
    rw [Connections.Db.connection, hconnections, hfind]
    have hresource : (Connections.connectionRow (db.next + 1) new.id protocol conn.hostname
      conn.port conn.params env.now secret).other.resource = db.next := hid
    rw [hresource]
    split_ifs with hsame
    · rw [hsame, Function.update_self]
      exact .some (shows_upsert A env none none .none conn.secretParams secret hsecret _ _ _ _ _ _)
    · rw [Function.update_of_ne hsame]
      exact hagrees id
  · obtain ⟨-, hconnections⟩ | ⟨t, secret, ht, -⟩ := hrows
    · simp only [entered, hprotocol]
      intro id
      rw [Connections.Db.connection, hconnections]
      exact hagrees id
    · cases ht

/-- What a PUT leaves of every connection. -/
theorem putConnection_lookup (env : Connections.Env vault) (db db' : Connections.Db σ τ) (id : ℕ)
    (body : Connections.Upsert) (h : Connections.putConnection A env db id body = .ok db') :
    ∃ connectionId secret,
      Connections.upsertSecret A env (db.connection id) body.secretParams = .ok secret ∧
      ∀ other, db'.connection other = if other = id then some (Connections.connectionRow connectionId
        id body.protocol body.hostname body.port body.params env.now secret)
      else db.connection other := by
  obtain ⟨-, -, h⟩ := bind_ok h
  cases hresource : db.resource id with
  | none =>
    simp only [hresource, reduceCtorEq] at h
  | some r =>
    simp only [hresource] at h
    obtain ⟨secret, hsecret, h⟩ := bind_ok h
    obtain ⟨-, -, h⟩ := bind_ok h
    cases hold : db.connection id with
    | none =>
      simp only [hold] at h
      obtain rfl := Except.ok.inj h
      exact ⟨db.next, secret, hold ▸ hsecret, fun other => find_append db.connections _ other hold⟩
    | some old =>
      simp only [hold] at h
      obtain rfl := Except.ok.inj h
      refine ⟨old.other.id, secret, hold ▸ hsecret, fun other => ?_⟩
      have hid := (connection_some db id old hold).2
      have hresources : ∀ row : ResourceConnection Columns, ((if row.other.resource = id then
          Connections.connectionRow row.other.id id body.protocol body.hostname body.port body.params
            env.now secret else row).other.resource == other) = (row.other.resource == other) := by
        intro row
        split_ifs with hrow
        · rw [hrow]
          rfl
        · rfl
      refine (List.find?_map ..).trans ?_
      simp only [Function.comp_def, hresources]
      change (db.connection other).map _ = _
      split_ifs with hsame
      · rw [hsame, hold, Option.map_some, if_pos hid]
      · cases hother : db.connection other with
        | none => rfl
        | some row =>
          have hrow := (connection_some db other row hother).2
          rw [Option.map_some, if_neg fun heq => hsame (hrow.symm.trans heq)]

theorem agrees_put (env : Connections.Env vault) (db db' : Connections.Db σ τ) (p : Ledger)
    (id : ℕ) (body : Connections.Upsert) (hagrees : Agrees A vault db p)
    (h : Connections.putConnection A env db id body = .ok db') :
    Agrees A vault db' (entered db.next p (.putConnection env id body)) := by
  obtain ⟨connectionId, secret, hsecret, hlookup⟩ := putConnection_lookup A env db db' id body h
  intro other
  rw [hlookup, entered]
  split_ifs with hsame
  · rw [hsame, Function.update_self]
    exact .some (shows_upsert A env _ _ (hagrees id) body.secretParams secret hsecret _ _ _ _ _ _)
  · rw [Function.update_of_ne hsame]
    exact hagrees other

theorem agrees_drop (db : Connections.Db σ τ) (p : Ledger) (id : ℕ) (hagrees : Agrees A vault db p) :
    Agrees A vault (db.setConnections (db.connections.filter fun row => row.other.resource != id))
      (Function.update p id none) := by
  intro other
  have hfind : (db.setConnections
      (db.connections.filter fun row => row.other.resource != id)).connection other =
        if other = id then none else db.connection other := by
    refine (List.find?_filter ..).trans ?_
    split_ifs with hsame
    · refine List.find?_eq_none.mpr fun row _ => ?_
      simp [hsame]
    · refine congrArg (fun f => db.connections.find? f) (funext fun row => ?_)
      by_cases hrow : row.other.resource = other
      · simp [hrow, hsame]
      · simp [hrow]
  rw [hfind]
  split_ifs with hsame
  · rw [hsame, Function.update_self]
    exact .none
  · rw [Function.update_of_ne hsame]
    exact hagrees other

/-- The rotation of the master key keeps what a row holds. -/
theorem rewrapped_holds (b : SecretWrites.Backend vault) (old new : ResourceConnection Columns)
    (h : KeyRotation.Rewrapped A b.keys KeyRotation.resourceConnections old new)
    (hbroken : ¬ KeyRotation.Broken A b.keys KeyRotation.resourceConnections old)
    (params : JsonTexts.Fields) (hholds : Holds A vault (secretOf old) params) :
    Holds A vault (secretOf new) params := by
  have hopened : opened A b.keys Connections.aad ⟨new.secretCiphertext, new.keyId⟩ =
      opened A b.keys Connections.aad ⟨old.secretCiphertext, old.keyId⟩ := h.opened
  cases hrow : opened A b.keys Connections.aad ⟨old.secretCiphertext, old.keyId⟩ with
  | some plaintext =>
    have hsame := (LostSecrets.opened_agrees A b Connections.aad plaintext _ hrow).symm.trans hholds
    exact (LostSecrets.opened_agrees A b Connections.aad plaintext _ (hopened.trans hrow)).trans hsame
  | none =>
    have hsealed : old.secretCiphertext.isSome := by
      by_contra hno
      rw [Option.not_isSome_iff_eq_none] at hno
      rw [Holds, opened, secretOf, hno] at hholds
      cases hholds
    have hcurrent : old.keyId = some b.keys.currentKeyId := by
      by_contra hstale
      exact hbroken ⟨⟨hsealed, hstale⟩, hrow⟩
    rw [SealedConnections.opened_current A b ⟨old.secretCiphertext, old.keyId⟩ hcurrent] at hrow
    exact absurd (hrow.symm.trans hholds) (by simp)

theorem shows_rewrapped (b : SecretWrites.Backend vault) (old new : ResourceConnection Columns)
    (x : Entered) (h : KeyRotation.Rewrapped A b.keys KeyRotation.resourceConnections old new)
    (hbroken : ¬ KeyRotation.Broken A b.keys KeyRotation.resourceConnections old)
    (hshows : Shows A vault old x) : Shows A vault new x := by
  have hother : new.other = old.other := h.other
  refine ⟨?_, ?_, ?_, ?_, fun hempty => ?_, fun hne => ?_⟩
  · rw [hother, hshows.protocol]
  · rw [hother, hshows.hostname]
  · rw [hother, hshows.port]
  · rw [hother, hshows.params]
  · rw [h.unsealed (hshows.unsealed hempty).1]
    exact hshows.unsealed hempty
  · exact rewrapped_holds A b old new h hbroken _ (hshows.sealed hne)

theorem find_forall₂ {R : ResourceConnection Columns → ResourceConnection Columns → Prop}
    (rows rows' : List (ResourceConnection Columns)) (id : ℕ) (h : List.Forall₂ R rows rows')
    (hother : ∀ old new, R old new → new.other = old.other) :
    Option.Rel R (rows.find? fun row => row.other.resource == id)
      (rows'.find? fun row => row.other.resource == id) := by
  induction h with
  | nil => exact .none
  | cons hrow _ ih =>
    rw [List.find?_cons, List.find?_cons, hother _ _ hrow]
    split
    · exact .some hrow
    · exact ih

theorem agrees_rotate (b : SecretWrites.Backend vault) (nonces : ℕ → Nonce)
    (db : Connections.Db σ τ) (p : Ledger) (hagrees : Agrees A vault db p) :
    Agrees A vault (Connections.step A db (.rotate b nonces)) p := by
  intro id
  rcases KeyRotation.rotateToCurrent_cases A b.keys nonces 0 db.tables with
    ⟨new, result, hresult, hrotated, hsound⟩ | ⟨new, e, he, -⟩
  · have hrows : (Connections.step A db (.rotate b nonces)).connections =
        new.resourceConnections := by
      simp only [Connections.step, Connections.Db.connections, KeyRotation.rotate,
        KeyRotation.dbSession, hresult]
    have hrel := find_forall₂ _ _ id hrotated.resourceConnections fun _ _ h => h.other
    have hlookup := hagrees id
    rw [Connections.Db.connection, hrows]
    rw [Connections.Db.connection, Connections.Db.connections] at hlookup
    generalize new.resourceConnections.find? (fun row => row.other.resource == id) = found at *
    generalize p id = entry at *
    cases hold : db.tables.resourceConnections.find? fun row => row.other.resource == id with
    | none =>
      rw [hold] at hlookup hrel
      cases hrel
      exact hlookup
    | some old =>
      rw [hold] at hlookup hrel
      cases hrel with
      | some hrewrapped =>
        cases hlookup with
        | some hshows =>
          refine .some (shows_rewrapped A b old _ _ hrewrapped (fun hbroken => ?_) hshows)
          exact hsound (Or.inr (Or.inr ⟨old, List.mem_of_find?_eq_some hold, hbroken⟩))
  · have hrows : (Connections.step A db (.rotate b nonces)).connections = db.connections := by
      simp only [Connections.step, Connections.Db.connections, KeyRotation.rotate,
        KeyRotation.dbSession, he]
    rw [Connections.Db.connection, hrows]
    exact hagrees id

/-! ### Steps of the administration -/

/-- What a request changes of the store, if it is none that enters a connection. -/
theorem agrees_frame (db db' : Connections.Db σ τ) (p : Ledger)
    (hframe : db'.connections = db.connections) (hagrees : Agrees A vault db p) :
    Agrees A vault db' p := fun id => by
  rw [Connections.Db.connection, hframe]
  exact hagrees id

variable (acfg : Administration.Config)

theorem handle_agrees (actor : ℕ) (db db' : Administration.Db σ τ) (p : Ledger)
    (r : Administration.Request vault) (hkeyed : ChangeJournal.Keyed db)
    (hagrees : Agrees A vault db.store p) (h : handle acfg A actor db r = .ok db') :
    Agrees A vault db'.store (entered db.store.next p r) := by
  cases r with
  | createUser m body =>
    obtain ⟨_, -, h⟩ := bind_ok h
    obtain ⟨_, -, h⟩ := bind_ok h
    obtain ⟨_, -, h⟩ := bind_ok h
    obtain rfl := Except.ok.inj h
    exact hagrees
  | patchUser m id body =>
    obtain ⟨_, -, h⟩ := bind_ok h
    obtain ⟨_, -, h⟩ := bind_ok h
    obtain ⟨_, -, h⟩ := bind_ok h
    obtain rfl := Except.ok.inj h
    exact hagrees
  | deleteUser id =>
    obtain ⟨_, -, h⟩ := bind_ok h
    obtain ⟨_, -, h⟩ := bind_ok h
    obtain ⟨_, -, h⟩ := bind_ok h
    obtain ⟨_, -, h⟩ := bind_ok h
    obtain rfl := Except.ok.inj h
    exact hagrees
  | deleteCredential id credential =>
    obtain ⟨_, -, h⟩ := bind_ok h
    obtain rfl := Except.ok.inj h
    exact hagrees
  | revokeSessions m id =>
    obtain ⟨_, -, h⟩ := bind_ok h
    obtain rfl := Except.ok.inj h
    exact hagrees
  | resetTotp m id =>
    obtain ⟨_, -, h⟩ := bind_ok h
    obtain rfl := Except.ok.inj h
    exact hagrees
  | resetPassword m id tempPassword =>
    obtain ⟨_, -, h⟩ := bind_ok h
    obtain ⟨_, -, h⟩ := bind_ok h
    obtain rfl := Except.ok.inj h
    exact hagrees
  | createRole name description =>
    obtain ⟨_, -, h⟩ := bind_ok h
    obtain ⟨_, -, h⟩ := bind_ok h
    obtain rfl := Except.ok.inj h
    exact hagrees
  | deleteRole id =>
    simp only [handle, Administration.deleteRole] at h
    split at h
    · cases h
    · obtain rfl := Except.ok.inj h
      exact hagrees
  | attachRole user role =>
    obtain ⟨_, -, h⟩ := bind_ok h
    split_ifs at h <;> obtain rfl := Except.ok.inj h <;> exact hagrees
  | detachRole user role =>
    obtain ⟨_, -, h⟩ := bind_ok h
    obtain rfl := Except.ok.inj h
    exact hagrees
  | createPolicy body =>
    obtain ⟨_, -, h⟩ := bind_ok h
    obtain ⟨_, -, h⟩ := bind_ok h
    obtain ⟨_, -, h⟩ := bind_ok h
    obtain rfl := Except.ok.inj h
    exact hagrees
  | patchPolicy id body =>
    obtain ⟨_, -, h⟩ := bind_ok h
    obtain ⟨_, -, h⟩ := bind_ok h
    obtain ⟨_, -, h⟩ := bind_ok h
    obtain rfl := Except.ok.inj h
    exact hagrees
  | deletePolicy id =>
    obtain ⟨_, -, h⟩ := bind_ok h
    obtain rfl := Except.ok.inj h
    exact hagrees
  | createResource env body =>
    obtain ⟨store, hcreate, h⟩ := bind_ok h
    obtain rfl := Except.ok.inj h
    have hstore := agrees_create A env db.store store p body hkeyed.store hagrees hcreate
    unfold Administration.Db.recordConnection
    split
    · exact hstore
    · exact hstore
  | patchResource env id body =>
    obtain ⟨store, hpatch, h⟩ := bind_ok h
    obtain rfl := Except.ok.inj h
    obtain ⟨new, -, rfl⟩ := Connections.patchResource_cases env _ _ id body hpatch
    exact agrees_frame A db.store _ p rfl hagrees
  | rotatePublicPassword env id =>
    obtain ⟨_, -, h⟩ := bind_ok h
    obtain ⟨_, -, h⟩ := bind_ok h
    obtain rfl := Except.ok.inj h
    exact agrees_frame A db.store _ p rfl hagrees
  | deleteResource id =>
    obtain ⟨store, hdelete, h⟩ := bind_ok h
    obtain rfl := Except.ok.inj h
    obtain rfl := Connections.deleteResource_cases _ _ id hdelete
    exact agrees_drop A _ p id hagrees
  | putConnection env id body =>
    obtain ⟨store, hput, h⟩ := bind_ok h
    obtain rfl := Except.ok.inj h
    exact agrees_put A env db.store store p id body hagrees hput
  | deleteConnection id =>
    obtain ⟨store, hdelete, h⟩ := bind_ok h
    obtain rfl := Except.ok.inj h
    obtain rfl := Connections.deleteConnection_cases _ _ id hdelete
    exact agrees_drop A db.store p id hagrees

/-- The rows refine the ledger after every step of the administration. -/
theorem enter_agrees (db : Administration.Db σ τ) (p : Ledger) (e : Administration.Event vault)
    (hkeyed : ChangeJournal.Keyed db) (hagrees : Agrees A vault db.store p) :
    Agrees A vault (Administration.step cfg.administration A db e).store (enter cfg A db p e) := by
  cases e with
  | request actor r =>
    simp only [enter, Administration.step]
    cases hserve : serve cfg.administration A actor db r with
    | error e => exact hagrees
    | ok db' =>
      obtain ⟨-, -, hhandle⟩ := bind_ok hserve
      exact handle_agrees A cfg.administration actor db db' p r hkeyed hagrees hhandle
  | portal actor r =>
    simp only [enter, Administration.step]
    split_ifs <;> exact hagrees
  | signIn e => exact hagrees
  | rotateMasterKey b nonces => exact agrees_rotate A b nonces db.store p hagrees

/-! ### Runs -/

/-- The state and the ledger after a step. -/
def track (sp : State σ τ × Ledger) (e : Event vault) : State σ τ × Ledger :=
  (step cfg A base sp.1 e,
    match e with
    | .administration e => enter cfg A sp.1.db sp.2 e
    | _ => sp.2)

variable (vault) in
/-- What holds in every state: the rows refine the ledger, and grants are for users and resources
that are there. -/
structure Sound (sp : State σ τ × Ledger) : Prop where
  keyed : ChangeJournal.Keyed sp.1.db
  agrees : Agrees A vault sp.1.db.store sp.2
  kept : ∀ g ∈ sp.1.grants, Kept sp.1.db g = true

/-- What a token was issued upon: the policies allow the connection of a resource that is enabled,
and the token carries it as it was entered. -/
structure Issued (s : State σ τ) (p : Ledger) (c : Call vault) (token : Text) (expiresAt : ℤ)
    (x : Entered) : Prop where
  entry : p c.resource = some x
  enabled : ∃ r, s.db.store.resource c.resource = some r ∧ r.enabled = true
  allowed : (evaluateAccess (Administration.served base s.db) c.user c.resource x.port.toNat
    "/".toList c.now).decision.allowed = true
  expires : expiresAt = c.now + cfg.guacGrantTtl
  carries : Carries cfg token x

/-- The case of a token that is issued. -/
theorem issueTunnel_cases (s : State σ τ) (c : Call vault) :
    (issueTunnel cfg A base s c).2.db = s.db ∧
      ((issueTunnel cfg A base s c).2.grants = s.grants ∨
        ∃ ip r row token, cfg.inet c.sourceIp = some ip ∧
          s.db.store.resource c.resource = some r ∧ r.enabled = true ∧
          s.db.store.connection c.resource = some row ∧ (access base s c row).allowed = true ∧
          tokenFor cfg A c row = some token ∧ (s.db.accounts.user c.user).isSome ∧
          (issueTunnel cfg A base s c).1 =
            .issued token row.other.protocol (c.now + cfg.guacGrantTtl) ∧
          (issueTunnel cfg A base s c).2.grants = s.grants ++ [grantOf cfg c row token ip]) := by
  unfold issueTunnel
  split_ifs with hoff
  · exact ⟨rfl, Or.inl rfl⟩
  cases hip : cfg.inet c.sourceIp with
  | none => exact ⟨rfl, Or.inl rfl⟩
  | some ip =>
    cases hresource : (s.db.store.resource c.resource).filter fun r => r.enabled with
    | none => exact ⟨rfl, Or.inl rfl⟩
    | some r =>
      obtain ⟨hr, henabled⟩ := Option.filter_eq_some_iff.mp hresource
      cases hrow : s.db.store.connection c.resource with
      | none => exact ⟨rfl, Or.inl rfl⟩
      | some row =>
        simp only
        split_ifs with hdenied
        · exact ⟨rfl, Or.inl rfl⟩
        · cases htoken : tokenFor cfg A c row with
          | none => exact ⟨rfl, Or.inl rfl⟩
          | some token =>
            simp only
            split_ifs with hrefused
            · exact ⟨rfl, Or.inl rfl⟩
            · rw [Bool.or_eq_true, not_or] at hrefused
              refine ⟨rfl, Or.inr ⟨ip, r, row, token, rfl, hr, henabled, rfl, ?_, htoken, ?_, rfl,
                rfl⟩⟩
              · simpa using hdenied
              · exact Option.isSome_iff_ne_none.mpr (by simpa using hrefused.2)

/-- What of a grant stays as it was issued. -/
def stamp (g : GuacGrant) : Text × ℕ × ℕ × Text × ℤ :=
  (g.tokenHash, g.user, g.resource, g.sourceIp, g.expiresAt)

theorem consumeGrant_stamps (s : State σ τ) (k : Connect) :
    (consumeGrant cfg s k).2.db = s.db ∧ (consumeGrant cfg s k).2.grants.map stamp =
      s.grants.map stamp := by
  unfold consumeGrant
  cases cfg.inet k.sourceIp with
  | none => exact ⟨rfl, rfl⟩
  | some ip =>
    refine ⟨rfl, ?_⟩
    rw [List.map_map]
    refine List.map_congr_left fun g _ => ?_
    rw [Function.comp_apply]
    split_ifs <;> rfl

/-- The case of a token that is issued, with what the ledger has of its resource. -/
theorem issued_grant (sp : State σ τ × Ledger) (c : Call vault) (hsound : Sound A vault sp)
    (g : GuacGrant) (hg : g ∈ (issueTunnel cfg A base sp.1 c).2.grants) (hnew : g ∉ sp.1.grants) :
    ∃ token protocol x, Issued cfg base sp.1 sp.2 c token g.expiresAt x ∧
      (issueTunnel cfg A base sp.1 c).1 = .issued token protocol g.expiresAt ∧
      g.tokenHash = cfg.sha256Hex token ∧ g.user = c.user ∧ g.resource = c.resource ∧
      cfg.inet c.sourceIp = some g.sourceIp ∧ Kept sp.1.db g = true := by
  obtain ⟨-, hsame | ⟨ip, r, row, token, hip, hr, henabled, hrow, hallowed, htoken, huser, hanswer,
    hgrants⟩⟩ := issueTunnel_cases cfg A base sp.1 c
  · exact absurd (hsame ▸ hg) hnew
  rw [hgrants] at hg
  obtain rfl := List.mem_singleton.mp ((List.mem_append.mp hg).resolve_left hnew)
  have hlookup := hsound.agrees c.resource
  rw [hrow] at hlookup
  generalize hentry : sp.2 c.resource = entry at hlookup
  cases hlookup with
  | @some _ x hshows =>
    refine ⟨token, _, x, ⟨hentry, ⟨r, hr, henabled⟩, ?_, rfl,
      tokenFor_carries cfg A c row x hshows token htoken⟩, hanswer, rfl, rfl, rfl, hip, ?_⟩
    · rw [← hshows.port]
      exact hallowed
    · rw [Kept, Bool.and_eq_true]
      refine ⟨huser, ?_⟩
      change (sp.1.db.store.resource c.resource).isSome = true
      rw [hr]
      rfl

theorem sound_step (sp : State σ τ × Ledger) (e : Event vault) (hsound : Sound A vault sp) :
    Sound A vault (track cfg A base sp e) := by
  cases e with
  | administration e =>
    exact ⟨(ChangeJournal.step_result cfg.administration A sp.1.db e hsound.keyed).2,
      enter_agrees cfg A sp.1.db sp.2 e hsound.keyed hsound.agrees,
      fun g hg => (List.mem_filter.mp hg).2⟩
  | token c =>
    have hdb := (issueTunnel_cases cfg A base sp.1 c).1
    refine ⟨?_, ?_, fun g hg => ?_⟩
    · change ChangeJournal.Keyed (issueTunnel cfg A base sp.1 c).2.db
      rw [hdb]
      exact hsound.keyed
    · change Agrees A vault (issueTunnel cfg A base sp.1 c).2.db.store sp.2
      rw [hdb]
      exact hsound.agrees
    · change Kept (issueTunnel cfg A base sp.1 c).2.db g = true
      rw [hdb]
      by_cases hold : g ∈ sp.1.grants
      · exact hsound.kept g hold
      · obtain ⟨_, _, _, -, -, -, -, -, -, hkept⟩ := issued_grant cfg A base sp c hsound g hg hold
        exact hkept
  | consume k =>
    obtain ⟨hdb, hstamps⟩ := consumeGrant_stamps cfg sp.1 k
    refine ⟨?_, ?_, fun g hg => ?_⟩
    · change ChangeJournal.Keyed (consumeGrant cfg sp.1 k).2.db
      rw [hdb]
      exact hsound.keyed
    · change Agrees A vault (consumeGrant cfg sp.1 k).2.db.store sp.2
      rw [hdb]
      exact hsound.agrees
    · have hmem : stamp g ∈ sp.1.grants.map stamp := hstamps ▸ List.mem_map_of_mem hg
      obtain ⟨old, hold, heq⟩ := List.mem_map.mp hmem
      obtain ⟨-, huser, hresource, -⟩ := (by simpa [stamp] using heq :
        old.tokenHash = g.tokenHash ∧ old.user = g.user ∧ old.resource = g.resource ∧ _)
      change Kept (consumeGrant cfg sp.1 k).2.db g = true
      rw [hdb, Kept, ← huser, ← hresource]
      exact hsound.kept old hold
  | gc now =>
    exact ⟨hsound.keyed, hsound.agrees, fun g hg => hsound.kept g (List.mem_of_mem_filter hg)⟩

/-- The issue that a grant goes back to. -/
def Issues (sp : State σ τ × Ledger) (e : Event vault) (a : Text × ℕ × ℕ × Text × ℤ) : Prop :=
  ∃ c token protocol x, e = .token c ∧
    Issued cfg base sp.1 sp.2 c token a.2.2.2.2 x ∧
    (issueTunnel cfg A base sp.1 c).1 = .issued token protocol a.2.2.2.2 ∧
    a.1 = cfg.sha256Hex token ∧ a.2.1 = c.user ∧ a.2.2.1 = c.resource ∧
    cfg.inet c.sourceIp = some a.2.2.2.1

theorem stamp_origin (sp : State σ τ × Ledger) (e : Event vault) (a : Text × ℕ × ℕ × Text × ℤ)
    (hsound : Sound A vault sp) (h : a ∈ (track cfg A base sp e).1.grants.map stamp) :
    a ∈ sp.1.grants.map stamp ∨ Issues cfg A base sp e a := by
  cases e with
  | administration e => exact Or.inl ((List.filter_sublist.map stamp).subset h)
  | token c =>
    obtain ⟨g, hg, rfl⟩ := List.mem_map.mp h
    by_cases hold : g ∈ sp.1.grants
    · exact Or.inl (List.mem_map_of_mem hold)
    · obtain ⟨token, protocol, x, hissued, hanswer, hhash, huser, hresource, hip, -⟩ :=
        issued_grant cfg A base sp c hsound g hg hold
      exact Or.inr ⟨c, token, protocol, x, rfl, hissued, hanswer, hhash, huser, hresource, hip⟩
  | consume k => exact Or.inl ((consumeGrant_stamps cfg sp.1 k).2 ▸ h)
  | gc now => exact Or.inl ((List.filter_sublist.map stamp).subset h)

/-- A tunnel that the data plane lets through was asked for by the same user at the same address,
not too long ago; the policies allowed it then, the token carries the connection as it was entered
last, and neither the user nor the resource has been deleted since. -/
theorem tunnels_opened (sp : State σ τ × Ledger) (events : List (Event vault)) (k : Connect)
    (hsound : Sound A vault sp) (hnone : sp.1.grants = [])
    (hopened : (consumeGrant cfg (events.foldl (track cfg A base) sp).1 k).1 = some true) :
    ∃ past c rest token protocol expiresAt x, events = past ++ .token c :: rest ∧
      (issueTunnel cfg A base (past.foldl (track cfg A base) sp).1 c).1 =
        .issued token protocol expiresAt ∧
      Issued cfg base (past.foldl (track cfg A base) sp).1 (past.foldl (track cfg A base) sp).2 c
        token expiresAt x ∧
      cfg.sha256Hex token = cfg.sha256Hex k.token ∧ c.user = k.user ∧
      cfg.inet c.sourceIp = cfg.inet k.sourceIp ∧ k.now < expiresAt ∧
      ((events.foldl (track cfg A base) sp).1.db.accounts.user c.user).isSome ∧
      ((events.foldl (track cfg A base) sp).1.db.store.resource c.resource).isSome := by
  have hend : Sound A vault (events.foldl (track cfg A base) sp) := by
    have hrun : Runs.Along (track cfg A base) (fun _ _ => True) sp events :=
      Runs.along_of_forall sp events fun _ _ _ => trivial
    exact hrun.invariant (Sound A vault) hsound fun sp e h _ => sound_step cfg A base sp e h
  unfold consumeGrant at hopened
  cases hip : cfg.inet k.sourceIp with
  | none =>
    rw [hip] at hopened
    cases hopened
  | some ip =>
    rw [hip] at hopened
    have hone := beq_iff_eq.mp (Option.some.inj hopened)
    obtain ⟨g, hfilter⟩ := List.length_eq_one_iff.mp hone
    have hg : g ∈ (events.foldl (track cfg A base) sp).1.grants.filter (Consumable cfg k ip) := by
      rw [hfilter]
      exact List.mem_singleton_self g
    obtain ⟨hmem, hconsumable⟩ := List.mem_filter.mp hg
    obtain ⟨hhash, -, hexpires, haddress, huser⟩ := of_decide_eq_true hconsumable
    have hkept := hend.kept g hmem
    rw [Kept, Bool.and_eq_true] at hkept
    rcases Runs.origin_or (track cfg A base) (Sound A vault)
      (fun sp a => a ∈ sp.1.grants.map stamp) (Issues cfg A base)
      (fun sp e h => sound_step cfg A base sp e h)
      (fun sp e a hsound h => stamp_origin cfg A base sp e a hsound h) sp events (stamp g) hsound
      (List.mem_map_of_mem hmem) with
      hstart | ⟨past, e, rest, hevents, c, token, protocol, x, rfl, hissued, hanswer, hhash', huser',
        hresource, haddress'⟩
    · rw [hnone] at hstart
      exact absurd hstart List.not_mem_nil
    · refine ⟨past, c, rest, token, protocol, g.expiresAt, x, hevents, hanswer, hissued,
        hhash'.symm.trans hhash, huser'.symm.trans huser, ?_, hexpires, ?_, ?_⟩
      · rw [haddress']
        exact congrArg some haddress
      · have hsame : g.user = c.user := huser'
        exact hsame ▸ hkept.1
      · have hsame : g.resource = c.resource := hresource
        exact hsame ▸ hkept.2

/-! ### A desktop -/

def deskKey : Bytes := List.replicate 32 107

def deskVector : Bytes := List.replicate 16 7

def deskConnection : Json :=
  connObj .vnc "desk.lan".toList 5900 [] [("password".toList, .str "pw".toList)]

/-- What AES makes of the connection. -/
def deskCipher : Bytes :=
  [114, 251, 103, 211, 207, 179, 121, 232, 108, 80, 241, 255, 125, 8, 131, 63, 242, 247, 93, 238,
   11, 186, 176, 26, 91, 128, 213, 69, 119, 218, 148, 181, 137, 73, 86, 170, 151, 129, 55, 116,
   62, 243, 150, 2, 164, 81, 118, 221, 67, 32, 186, 92, 129, 160, 208, 216, 165, 77, 11, 233,
   185, 135, 0, 90, 230, 202, 14, 65, 67, 36, 83, 76, 112, 25, 133, 8, 85, 33, 48, 225, 120, 223,
   15, 137, 127, 99, 228, 17, 53, 214, 183, 145, 85, 244, 53, 249]

def deskToken : Text :=
  RtspGrants.mintToken (SealedTokens.chars deskVector) (SealedTokens.chars deskCipher)

def officeTunnels : Config where
  administration := ChangeJournal.officeConfig
  guacCypherKey := RtspGrants.b64encode (SealedTokens.chars deskKey)
  guacGrantTtl := 60
  sha256Hex := fun t =>
    if t = deskToken then
      "e5ac278dfe3627112d6fa903df17ad888c11e5f357ba0d32093f8215e3805915".toList
    else []
  inet := some
  cipher := BlockModes.tableCipher deskKey
    (BlockModes.chained deskVector
      (BlockModes.chunks (BlockModes.pad (encode (write deskConnection))))
      (BlockModes.chunks deskCipher))
    (List.all_iff_forall_prop.mp (by decide +kernel))

def noTables : AuthzCheck.Db := ⟨⟨[], [], [], []⟩, [], [], [], [], [], [], [], []⟩

def freshOffice : State Unit Unit × Ledger := (⟨ChangeJournal.bootstrapped, [], []⟩, fun _ => none)

/-- The administrator sets up a desktop and lets a role reach it. -/
def deskSetUp : List (Event MirroredConnections.sampleVault) :=
  [.administration (.request 0 (.createRole "family".toList none)),
    .administration (.request 0 (.attachRole 0 0)),
    .administration (.request 0 (.createResource MirroredConnections.sampleEnv
      SealedConnections.desktop)),
    .administration (.request 0 (.createPolicy ⟨0, 0, .allow, none, none, [], true⟩))]

def deskCall : Call MirroredConnections.sampleVault where
  user := 0
  resource := 0
  sourceIp := "10.0.0.9".toList
  now := 100
  backend := ⟨MirroredConnections.sampleVault, fun _ _ h => h⟩
  iv := deskVector
  length_iv := List.length_replicate

theorem freshOffice_sound : Sound plainAead MirroredConnections.sampleVault freshOffice :=
  ⟨ChangeJournal.bootstrapped_keyed, fun _ => .none, fun _ hg => absurd hg List.not_mem_nil⟩

def deskRun : List (Event MirroredConnections.sampleVault) := deskSetUp ++ [.token deskCall]

theorem tunnels_opened_desk : ∃ past c rest, deskRun = past ++ .token c :: rest ∧
    c.user = 0 ∧ ((deskRun.foldl (track officeTunnels plainAead noTables)
      freshOffice).1.db.store.resource c.resource).isSome :=
  let ⟨past, c, rest, _, _, _, _, hevents, _, _, _, huser, _, _, _, hthere⟩ :=
    tunnels_opened officeTunnels plainAead noTables freshOffice deskRun
      ⟨0, deskToken, "10.0.0.9".toList, 110⟩ freshOffice_sound rfl (by decide +kernel)
  ⟨past, c, rest, hevents, huser, hthere⟩

end Hyproxy.TunnelTokens

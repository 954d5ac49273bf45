import Hyproxy.SealedTokens
import Hyproxy.Sessions
import Mathlib.Data.List.Nodup
import Mathlib.Logic.Denumerable
import Mathlib.Logic.Equiv.List

/-!
The signing keys of the identity provider. A key is published before it signs,
signs while it is active, verifies what it signed while it is retiring, and is
gone once it is retired. The rows are changed by the management commands only.
-/

namespace Hyproxy.SigningKeys

open Dpop (Fields)
open RtspGrants (b64Char b64encode)
open SealedTokens (b64decode)
open Sessions (AccessClaims Jwt verifyAccessToken)
open Text (cut)

variable {Priv Pub : Type}

def es256 : List Char := "ES256".toList

def atJwt : List Char := "at+jwt".toList

/-- `_header_of` -/
def headerOf (cfg : Dpop.Config) (token : List Char) : Except String Fields :=
  match cfg.b64Decode (cut '.' token).1 with
  | none => .error "malformed token"
  | some bytes =>
    match cfg.jsonLoads bytes with
    | none => .error "malformed token"
    | some parsed =>
      match Dpop.Json.fields (some parsed) with
      | none => .error "malformed token header"
      | some header => .ok header

/-- The `kid` of a header, if it is a string. -/
def kidOf (header : Fields) : Option (List Char) := Dpop.Json.text (header.lookup "kid".toList)

/-- The header of an access token. -/
def accessHeader (kid : List Char) : Fields :=
  [("alg".toList, .str es256), ("kid".toList, .str kid), ("typ".toList, .str atJwt)]

/-- The library that makes and reads signed tokens. -/
structure Jose (Priv Pub : Type) where
  publicKey : Priv → Pub
  encode : Fields → Jwt → Priv → List Char
  decode : List Char → Pub → Option Jwt

/-- A token starts with the header it was made with, in whatever order, and verifies under the key
that goes with its own. -/
structure Jose.Lawful (cfg : Dpop.Config) (jose : Jose Priv Pub) : Prop where
  headerOf_encode : ∀ kid claims key, ∃ header,
    headerOf cfg (jose.encode (accessHeader kid) claims key) = .ok header ∧
      ∀ name, header.lookup name = (accessHeader kid).lookup name
  decode_encode : ∀ header claims key,
    jose.decode (jose.encode header claims key) (jose.publicKey key) = some claims

inductive KeyState
  | pending
  | active
  | retiring
  | retired
  deriving Repr, DecidableEq

structure PublicJwk (Pub : Type) where
  key : Pub
  kid : List Char
  use : List Char
  alg : List Char
  deriving Repr, DecidableEq

/-- A row of `signing_keys`; `privateKey` is what the ciphertext of the row decrypts to. -/
structure SigningKey (Priv Pub : Type) where
  kid : List Char
  state : KeyState
  publicJwk : PublicJwk Pub
  privateKey : Priv
  createdAt : ℤ
  activatedAt : Option ℕ
  retiringAt : Option ℕ
  retiredAt : Option ℕ
  deriving Repr, DecidableEq

def sig : List Char := "sig".toList

/-- Fifteen minutes, in microseconds. -/
def retireBuffer : ℤ := 15 * 60 * 1000000

def publishedStates : List KeyState := [.pending, .active, .retiring]

def verifyingStates : List KeyState := [.active, .retiring]

/-- What a new row is made of. -/
structure Generated (Priv : Type) where
  kid : List Char
  key : Priv
  createdAt : ℤ
  deriving Repr, DecidableEq

def publicJwk (jose : Jose Priv Pub) (kid : List Char) (key : Priv) : PublicJwk Pub :=
  ⟨jose.publicKey key, kid, sig, es256⟩

def generate (jose : Jose Priv Pub) (new : Generated Priv) : SigningKey Priv Pub :=
  { kid := new.kid
    state := .pending
    publicJwk := publicJwk jose new.kid new.key
    privateKey := new.key
    createdAt := new.createdAt
    activatedAt := none
    retiringAt := none
    retiredAt := none }

/-- None when the identifier is taken. -/
def createPending (jose : Jose Priv Pub) (rows : List (SigningKey Priv Pub)) (new : Generated Priv) :
    Option (List (SigningKey Priv Pub)) :=
  if rows.any fun k => k.kid == new.kid then none else some (rows ++ [generate jose new])

/-- The pending keys that no other pending key is newer than. -/
def newestPending (rows : List (SigningKey Priv Pub)) : List (SigningKey Priv Pub) :=
  (rows.filter fun k => k.state == .pending).filter fun k =>
    rows.all fun other => other.state != .pending || decide (other.createdAt ≤ k.createdAt)

def demote (now : ℕ) (k : SigningKey Priv Pub) : SigningKey Priv Pub :=
  if k.state = .active then { k with state := .retiring, retiringAt := some now } else k

def promote (kid : List Char) (now : ℕ) (k : SigningKey Priv Pub) : SigningKey Priv Pub :=
  if k.kid = kid then { k with state := .active, activatedAt := some now } else k

/-- The database picks among keys created at the same time; none when no key is pending. -/
def activatePending (rows : List (SigningKey Priv Pub)) (pick now : ℕ) :
    Option (List (SigningKey Priv Pub)) :=
  match (newestPending rows)[pick % (newestPending rows).length]? with
  | none => none
  | some pending => some ((rows.map (demote now)).map (promote pending.kid now))

def bootstrapIfEmpty (jose : Jose Priv Pub) (rows : List (SigningKey Priv Pub))
    (new : Generated Priv) (now : ℕ) : Option (List (SigningKey Priv Pub)) :=
  if rows.isEmpty then
    match createPending jose rows new with
    | none => none
    | some rows => activatePending rows 0 now
  else some rows

def elapsed (k : SigningKey Priv Pub) (now : ℕ) : Bool :=
  k.state == .retiring && k.retiringAt.any fun t : ℕ => decide ((t : ℤ) ≤ now - retireBuffer)

def gcRetired (rows : List (SigningKey Priv Pub)) (now : ℕ) : List (SigningKey Priv Pub) :=
  rows.map fun k =>
    if elapsed k now then { k with state := .retired, retiredAt := some now } else k

def getActiveSigningKey (rows : List (SigningKey Priv Pub)) : Option (List Char × Priv) :=
  (rows.find? fun k => k.state == .active).map fun k => (k.kid, k.privateKey)

def getVerificationJwks (rows : List (SigningKey Priv Pub)) : List (PublicJwk Pub) :=
  ((rows.filter fun k => publishedStates.contains k.state).mergeSort fun k k' =>
    k.createdAt ≤ k'.createdAt).map fun k => k.publicJwk

/-- The row that `verify_access_token` selects. -/
def verificationKey (rows : List (SigningKey Priv Pub)) (kid : List Char) :
    Option (SigningKey Priv Pub) :=
  rows.find? fun k => k.kid == kid && verifyingStates.contains k.state

def decodeJwt (cfg : Dpop.Config) (jose : Jose Priv Pub) (rows : List (SigningKey Priv Pub))
    (token : List Char) : Except String Jwt :=
  match headerOf cfg token with
  | .error detail => .error detail
  | .ok header =>
    if Dpop.Json.text (header.lookup "alg".toList) ≠ some es256 then .error "bad alg"
    else
      match kidOf header with
      | none => .error "missing kid"
      | some kid =>
        match verificationKey rows kid with
        | none => .error "unknown or retired signing key"
        | some row =>
          match jose.decode token row.publicJwk.key with
          | none => .error "signature verification failed"
          | some claims => .ok claims

/-- The settings of the token checks with the keys that are in the table. -/
def withKeys (cfg : Sessions.Config) (jose : Jose Priv Pub) (rows : List (SigningKey Priv Pub)) :
    Sessions.Config :=
  { cfg with decodeJwt := decodeJwt cfg.dpop jose rows }

/-- `int((now + timedelta(seconds=access_ttl)).timestamp())` -/
def expiry (accessTtl : ℤ) (now : ℕ) : ℤ := ((now : ℤ) + accessTtl * 1000000).tdiv 1000000

structure Subject where
  session : ℕ
  scope : List Char
  jkt : List Char
  deriving Repr, DecidableEq

def accessJwt (cfg : Sessions.Config) (accessTtl : ℤ) (subject : Subject) (now : ℕ) : Jwt :=
  ⟨cfg.issuer, some (expiry accessTtl now), some subject.session, some subject.jkt, subject.scope⟩

def mintAccessToken (cfg : Sessions.Config) (jose : Jose Priv Pub) (accessTtl : ℤ)
    (rows : List (SigningKey Priv Pub)) (subject : Subject) (now : ℕ) : Option (List Char) :=
  (getActiveSigningKey rows).map fun found =>
    jose.encode (accessHeader found.1) (accessJwt cfg accessTtl subject now) found.2

inductive Operation (Priv : Type)
  | bootstrapIfEmpty (new : Generated Priv)
  | createPending (new : Generated Priv)
  | activatePending (pick : ℕ)
  | gcRetired
  deriving Repr, DecidableEq

/-- An operation, so many microseconds after the one before it. -/
structure Event (Priv : Type) where
  wait : ℕ
  operation : Operation Priv
  deriving Repr, DecidableEq

structure Store (Priv Pub : Type) where
  rows : List (SigningKey Priv Pub)
  clock : ℕ
  deriving Repr, DecidableEq

def operate (jose : Jose Priv Pub) (rows : List (SigningKey Priv Pub)) (now : ℕ) :
    Operation Priv → Option (List (SigningKey Priv Pub))
  | .bootstrapIfEmpty new => bootstrapIfEmpty jose rows new now
  | .createPending new => createPending jose rows new
  | .activatePending pick => activatePending rows pick now
  | .gcRetired => some (gcRetired rows now)

/-- An operation that raises is rolled back. -/
def step (jose : Jose Priv Pub) (s : Store Priv Pub) (e : Event Priv) : Store Priv Pub :=
  ⟨(operate jose s.rows (s.clock + e.wait) e.operation).getD s.rows, s.clock + e.wait⟩

def bootstrapped (jose : Jose Priv Pub) (first : Generated Priv) (start : ℕ) : Store Priv Pub :=
  step jose ⟨[], start⟩ ⟨0, .bootstrapIfEmpty first⟩

def run (jose : Jose Priv Pub) (s : Store Priv Pub) (events : List (Event Priv)) : Store Priv Pub :=
  events.foldl (step jose) s

/-- Nothing happens for a while. -/
def Store.later (s : Store Priv Pub) (wait : ℕ) : Store Priv Pub := ⟨s.rows, s.clock + wait⟩

def activeKeys (rows : List (SigningKey Priv Pub)) : ℕ := rows.countP fun k => k.state == .active

structure Valid (jose : Jose Priv Pub) (rows : List (SigningKey Priv Pub)) : Prop where
  kids : (rows.map fun k => k.kid).Nodup
  one : activeKeys rows = 1
  paired : ∀ k ∈ rows, k.publicJwk = publicJwk jose k.kid k.privateKey

@[simp] theorem demote_kid (now : ℕ) (k : SigningKey Priv Pub) : (demote now k).kid = k.kid := by
  unfold demote
  split <;> rfl

@[simp] theorem promote_kid (kid : List Char) (now : ℕ) (k : SigningKey Priv Pub) :
    (promote kid now k).kid = k.kid := by
  unfold promote
  split <;> rfl

theorem demote_pair (now : ℕ) (k : SigningKey Priv Pub) :
    (demote now k).publicJwk = k.publicJwk ∧ (demote now k).privateKey = k.privateKey := by
  unfold demote
  split <;> exact ⟨rfl, rfl⟩

theorem promote_pair (kid : List Char) (now : ℕ) (k : SigningKey Priv Pub) :
    (promote kid now k).publicJwk = k.publicJwk ∧
      (promote kid now k).privateKey = k.privateKey := by
  unfold promote
  split <;> exact ⟨rfl, rfl⟩

/-- After a demotion only the promoted key is active. -/
theorem promoted_active (kid : List Char) (now : ℕ) (k : SigningKey Priv Pub) :
    (promote kid now (demote now k)).state = .active ↔ k.kid = kid := by
  unfold promote
  rw [demote_kid]
  split_ifs with hkid
  · exact iff_of_true rfl hkid
  · refine iff_of_false ?_ hkid
    unfold demote
    split_ifs with hactive
    · simp
    · exact hactive

theorem activatePending_some (rows rows' : List (SigningKey Priv Pub)) (pick now : ℕ)
    (h : activatePending rows pick now = some rows') :
    ∃ pending ∈ rows, rows' = (rows.map (demote now)).map (promote pending.kid now) := by
  unfold activatePending at h
  cases hfound : (newestPending rows)[pick % (newestPending rows).length]? with
  | none =>
    rw [hfound] at h
    cases h
  | some pending =>
    rw [hfound] at h
    have hmem := List.mem_of_getElem? hfound
    simp only [newestPending, List.mem_filter] at hmem
    exact ⟨pending, hmem.1.1, (Option.some.inj h).symm⟩

theorem countP_kid (rows : List (SigningKey Priv Pub)) (k : SigningKey Priv Pub)
    (hkids : (rows.map fun k => k.kid).Nodup) (hmem : k ∈ rows) :
    rows.countP (fun other => other.kid == k.kid) = 1 := by
  have hcount := List.count_eq_one_of_mem hkids (List.mem_map_of_mem (f := fun k => k.kid) hmem)
  rw [List.count_eq_countP, List.countP_map] at hcount
  exact hcount

theorem activatePending_valid (jose : Jose Priv Pub) (rows rows' : List (SigningKey Priv Pub))
    (pick now : ℕ) (hkids : (rows.map fun k => k.kid).Nodup)
    (hpaired : ∀ k ∈ rows, k.publicJwk = publicJwk jose k.kid k.privateKey)
    (h : activatePending rows pick now = some rows') : Valid jose rows' := by
  obtain ⟨pending, hmem, rfl⟩ := activatePending_some rows rows' pick now h
  refine ⟨?_, ?_, fun k hk => ?_⟩
  · simp only [List.map_map, Function.comp_def, promote_kid, demote_kid]
    exact hkids
  · rw [activeKeys, List.countP_map, List.countP_map, ← countP_kid rows pending hkids hmem]
    refine List.countP_congr fun k _ => ?_
    simp only [Function.comp_apply, beq_iff_eq]
    exact promoted_active pending.kid now k
  · simp only [List.mem_map] at hk
    obtain ⟨_, ⟨k, hk, rfl⟩, rfl⟩ := hk
    rw [(promote_pair _ _ _).1, (promote_pair _ _ _).2, (demote_pair _ _).1, (demote_pair _ _).2,
      promote_kid, demote_kid]
    exact hpaired k hk

theorem createPending_some (jose : Jose Priv Pub) (rows rows' : List (SigningKey Priv Pub))
    (new : Generated Priv) (h : createPending jose rows new = some rows') :
    (∀ k ∈ rows, k.kid ≠ new.kid) ∧ rows' = rows ++ [generate jose new] := by
  unfold createPending at h
  split_ifs at h with htaken
  refine ⟨?_, (Option.some.inj h).symm⟩
  simpa using htaken

theorem createPending_paired (jose : Jose Priv Pub) (rows rows' : List (SigningKey Priv Pub))
    (new : Generated Priv) (hkids : (rows.map fun k => k.kid).Nodup)
    (hpaired : ∀ k ∈ rows, k.publicJwk = publicJwk jose k.kid k.privateKey)
    (h : createPending jose rows new = some rows') :
    (rows'.map fun k => k.kid).Nodup ∧
      ∀ k ∈ rows', k.publicJwk = publicJwk jose k.kid k.privateKey := by
  obtain ⟨hfresh, rfl⟩ := createPending_some jose rows rows' new h
  constructor
  · rw [List.map_append, List.map_singleton, List.nodup_append]
    refine ⟨hkids, List.nodup_singleton _, ?_⟩
    intro kid hkid other hother
    obtain ⟨k, hk, rfl⟩ := List.mem_map.mp hkid
    rw [List.mem_singleton.mp hother]
    exact hfresh k hk
  · intro k hk
    rcases List.mem_append.mp hk with hk | hk
    · exact hpaired k hk
    · rw [List.mem_singleton.mp hk]
      rfl

theorem gcRetired_valid (jose : Jose Priv Pub) (rows : List (SigningKey Priv Pub)) (now : ℕ)
    (h : Valid jose rows) : Valid jose (gcRetired rows now) := by
  have hrow : ∀ k : SigningKey Priv Pub,
      (if elapsed k now then { k with state := .retired, retiredAt := some now } else k).kid =
        k.kid := by
    intro k
    split <;> rfl
  refine ⟨?_, ?_, fun k hk => ?_⟩
  · simp only [gcRetired, List.map_map, Function.comp_def, hrow]
    exact h.kids
  · rw [activeKeys, gcRetired, List.countP_map, ← h.one, activeKeys]
    refine List.countP_congr fun k _ => ?_
    simp only [Function.comp_apply, beq_iff_eq]
    split_ifs with helapsed
    · simp only [elapsed, Bool.and_eq_true, beq_iff_eq] at helapsed
      simp [helapsed.1]
    · exact Iff.rfl
  · obtain ⟨old, hold, rfl⟩ := List.mem_map.mp hk
    split_ifs
    · exact h.paired old hold
    · exact h.paired old hold

theorem bootstrapIfEmpty_valid (jose : Jose Priv Pub) (new : Generated Priv) (now : ℕ) :
    ∃ rows, bootstrapIfEmpty jose [] new now = some rows ∧ Valid jose rows := by
  have hnew := createPending_paired jose [] [generate jose new] new List.nodup_nil
    (fun k hk => absurd hk List.not_mem_nil) rfl
  have hactivated : activatePending [generate jose new] 0 now =
      some ([generate jose new].map (demote now) |>.map (promote new.kid now)) := by
    simp [activatePending, newestPending, generate]
  exact ⟨_, hactivated, activatePending_valid jose _ _ 0 now hnew.1 hnew.2 hactivated⟩

theorem operate_valid (jose : Jose Priv Pub) (rows rows' : List (SigningKey Priv Pub)) (now : ℕ)
    (op : Operation Priv) (hvalid : Valid jose rows)
    (h : operate jose rows now op = some rows') : Valid jose rows' := by
  cases op with
  | bootstrapIfEmpty new =>
    cases rows with
    | nil =>
      obtain ⟨rows, hrows, hvalid⟩ := bootstrapIfEmpty_valid jose new now
      obtain rfl := Option.some.inj (hrows.symm.trans h)
      exact hvalid
    | cons k rest =>
      obtain rfl := Option.some.inj h
      exact hvalid
  | createPending new =>
    have hnew := createPending_paired jose rows rows' new hvalid.kids hvalid.paired h
    obtain ⟨-, rfl⟩ := createPending_some jose rows rows' new h
    refine ⟨hnew.1, ?_, hnew.2⟩
    rw [activeKeys, List.countP_append]
    exact hvalid.one
  | activatePending pick =>
    exact activatePending_valid jose rows rows' pick now hvalid.kids hvalid.paired h
  | gcRetired =>
    obtain rfl := Option.some.inj h
    exact gcRetired_valid jose rows now hvalid

theorem step_valid (jose : Jose Priv Pub) (s : Store Priv Pub) (e : Event Priv)
    (h : Valid jose s.rows) : Valid jose (step jose s e).rows := by
  unfold step
  cases hrows : operate jose s.rows (s.clock + e.wait) e.operation with
  | none => exact h
  | some rows => exact operate_valid jose s.rows rows _ e.operation h hrows

theorem run_valid (jose : Jose Priv Pub) (s : Store Priv Pub) (events : List (Event Priv))
    (h : Valid jose s.rows) : Valid jose (run jose s events).rows := by
  induction events generalizing s with
  | nil => exact h
  | cons e rest ih => exact ih (step jose s e) (step_valid jose s e h)

theorem bootstrapped_valid (jose : Jose Priv Pub) (first : Generated Priv) (start : ℕ) :
    Valid jose (bootstrapped jose first start).rows := by
  obtain ⟨rows, hrows, hvalid⟩ := bootstrapIfEmpty_valid jose first start
  simp only [bootstrapped, step, operate, Nat.add_zero, hrows]
  exact hvalid

/-- The key that was active at some time verifies, or has had the time it needs to. -/
def Overlaps (kid : List Char) (jwk : PublicJwk Pub) (minted : ℕ) (s : Store Priv Pub) : Prop :=
  (∃ k ∈ s.rows, k.kid = kid ∧ k.publicJwk = jwk ∧
    (k.state = .active ∨ (k.state = .retiring ∧ ∃ t, k.retiringAt = some t ∧ minted ≤ t))) ∨
  (minted : ℤ) + retireBuffer ≤ s.clock

theorem operate_overlaps (jose : Jose Priv Pub) (rows rows' : List (SigningKey Priv Pub))
    (now minted : ℕ) (op : Operation Priv) (k : SigningKey Priv Pub) (hk : k ∈ rows)
    (hsigns : k.state = .active ∨ (k.state = .retiring ∧ ∃ t, k.retiringAt = some t ∧ minted ≤ t))
    (hclock : minted ≤ now) (h : operate jose rows now op = some rows') :
    Overlaps k.kid k.publicJwk minted ⟨rows', now⟩ := by
  cases op with
  | bootstrapIfEmpty new =>
    cases rows with
    | nil => exact absurd hk List.not_mem_nil
    | cons first rest =>
      obtain rfl := Option.some.inj h
      exact Or.inl ⟨k, hk, rfl, rfl, hsigns⟩
  | createPending new =>
    obtain ⟨-, rfl⟩ := createPending_some jose rows rows' new h
    exact Or.inl ⟨k, List.mem_append_left _ hk, rfl, rfl, hsigns⟩
  | activatePending pick =>
    obtain ⟨pending, -, rfl⟩ := activatePending_some rows rows' pick now h
    refine Or.inl ⟨promote pending.kid now (demote now k), List.mem_map_of_mem (List.mem_map_of_mem hk),
      by simp, (promote_pair _ _ _).1.trans (demote_pair _ _).1, ?_⟩
    by_cases hkid : k.kid = pending.kid
    · exact Or.inl ((promoted_active pending.kid now k).mpr hkid)
    · right
      rw [promote, if_neg (by rwa [demote_kid]), demote]
      rcases hsigns with hactive | hretiring
      · rw [if_pos hactive]
        exact ⟨rfl, now, rfl, hclock⟩
      · rw [if_neg (by simp [hretiring.1])]
        exact hretiring
  | gcRetired =>
    obtain rfl := Option.some.inj h
    by_cases helapsed : elapsed k now = true
    · right
      simp only [elapsed, Bool.and_eq_true, beq_iff_eq, Option.any_eq_true,
        decide_eq_true_eq] at helapsed
      obtain ⟨hstate, t, ht, hpast⟩ := helapsed
      rcases hsigns with hactive | ⟨-, t', ht', hminted⟩
      · rw [hactive] at hstate
        cases hstate
      · obtain rfl := Option.some.inj (ht.symm.trans ht')
        change (minted : ℤ) + retireBuffer ≤ (now : ℤ)
        omega
    · refine Or.inl ⟨k, List.mem_map.mpr ⟨k, hk, ?_⟩, rfl, rfl, hsigns⟩
      rw [if_neg helapsed]

theorem step_overlaps (jose : Jose Priv Pub) (s : Store Priv Pub) (e : Event Priv)
    (kid : List Char) (jwk : PublicJwk Pub) (minted : ℕ) (hclock : minted ≤ s.clock)
    (h : Overlaps kid jwk minted s) : Overlaps kid jwk minted (step jose s e) := by
  rcases h with ⟨k, hk, rfl, rfl, hsigns⟩ | hlate
  · unfold step
    cases hrows : operate jose s.rows (s.clock + e.wait) e.operation with
    | none => exact Or.inl ⟨k, hk, rfl, rfl, hsigns⟩
    | some rows =>
      exact operate_overlaps jose s.rows rows _ minted e.operation k hk hsigns (by omega) hrows
  · right
    simp only [step]
    omega

theorem run_overlaps (jose : Jose Priv Pub) (s : Store Priv Pub) (events : List (Event Priv))
    (kid : List Char) (jwk : PublicJwk Pub) (minted : ℕ) (hclock : minted ≤ s.clock)
    (h : Overlaps kid jwk minted s) : Overlaps kid jwk minted (run jose s events) := by
  induction events generalizing s with
  | nil => exact h
  | cons e rest ih =>
    exact ih (step jose s e) (Nat.le_trans hclock (Nat.le_add_right _ _))
      (step_overlaps jose s e kid jwk minted hclock h)

theorem exists_active (rows : List (SigningKey Priv Pub)) (h : activeKeys rows = 1) :
    ∃ k ∈ rows, k.state = .active ∧ getActiveSigningKey rows = some (k.kid, k.privateKey) := by
  unfold getActiveSigningKey
  cases hfound : rows.find? fun k => k.state == .active with
  | none =>
    have hnone := List.countP_eq_zero.mpr fun k hk => List.find?_eq_none.mp hfound k hk
    rw [activeKeys, hnone] at h
    cases h
  | some k =>
    exact ⟨k, List.mem_of_find?_eq_some hfound, by simpa using List.find?_some hfound, rfl⟩

theorem kid_unique (rows : List (SigningKey Priv Pub)) (k k' : SigningKey Priv Pub)
    (hkids : (rows.map fun k => k.kid).Nodup) (hk : k ∈ rows) (hk' : k' ∈ rows)
    (h : k.kid = k'.kid) : k = k' := by
  exact List.inj_on_of_nodup_map hkids hk hk' h

theorem verificationKey_of_mem (rows : List (SigningKey Priv Pub)) (k : SigningKey Priv Pub)
    (hkids : (rows.map fun k => k.kid).Nodup) (hk : k ∈ rows)
    (hstate : k.state = .active ∨ k.state = .retiring) : verificationKey rows k.kid = some k := by
  unfold verificationKey
  cases hfound : rows.find? fun other =>
      other.kid == k.kid && verifyingStates.contains other.state with
  | none =>
    have hnone := List.find?_eq_none.mp hfound k hk
    rcases hstate with hstate | hstate <;> simp [verifyingStates, hstate] at hnone
  | some other =>
    have hother := List.find?_some hfound
    simp only [Bool.and_eq_true, beq_iff_eq] at hother
    rw [kid_unique rows other k hkids (List.mem_of_find?_eq_some hfound) hk hother.1]

/-- What verifies is published. -/
theorem verificationKey_published (rows : List (SigningKey Priv Pub)) (kid : List Char)
    (k : SigningKey Priv Pub) (h : verificationKey rows kid = some k) :
    k ∈ rows ∧ k.kid = kid ∧ k.publicJwk ∈ getVerificationJwks rows := by
  have hk := List.find?_some h
  simp only [Bool.and_eq_true, beq_iff_eq] at hk
  refine ⟨List.mem_of_find?_eq_some h, hk.1, List.mem_map_of_mem ?_⟩
  rw [List.mem_mergeSort, List.mem_filter]
  refine ⟨List.mem_of_find?_eq_some h, ?_⟩
  simp only [verifyingStates, List.contains_cons, List.contains_nil, Bool.or_eq_true,
    beq_iff_eq] at hk
  rcases hk.2 with hstate | hstate | hstate
  · rw [hstate]
    rfl
  · rw [hstate]
    rfl
  · cases hstate

theorem expiry_le (accessTtl : ℤ) (now : ℕ) :
    expiry accessTtl now * 1000000 ≤ now + accessTtl * 1000000 ∨ expiry accessTtl now ≤ 0 := by
  unfold expiry
  by_cases hsign : (0 : ℤ) ≤ now + accessTtl * 1000000
  · left
    rw [Int.tdiv_eq_ediv_of_nonneg hsign]
    omega
  · right
    have hneg := Int.tdiv_nonneg (a := -((now : ℤ) + accessTtl * 1000000)) (b := 1000000)
      (by omega) (by omega)
    rw [Int.neg_tdiv] at hneg
    omega

theorem decodeJwt_ok (cfg : Dpop.Config) (jose : Jose Priv Pub)
    (rows : List (SigningKey Priv Pub)) (token : List Char) (claims : Jwt)
    (h : decodeJwt cfg jose rows token = .ok claims) :
    ∃ header kid k, headerOf cfg token = .ok header ∧ kidOf header = some kid ∧
      verificationKey rows kid = some k ∧ jose.decode token k.publicJwk.key = some claims := by
  unfold decodeJwt at h
  cases hheader : headerOf cfg token with
  | error detail =>
    rw [hheader] at h
    cases h
  | ok header =>
    simp only [hheader] at h
    split_ifs at h
    cases hkid : kidOf header with
    | none =>
      rw [hkid] at h
      cases h
    | some kid =>
      simp only [hkid] at h
      cases hrow : verificationKey rows kid with
      | none =>
        rw [hrow] at h
        cases h
      | some k =>
        simp only [hrow] at h
        cases hdecoded : jose.decode token k.publicJwk.key with
        | none =>
          rw [hdecoded] at h
          cases h
        | some claims' =>
          rw [hdecoded] at h
          obtain rfl := Except.ok.inj h
          exact ⟨header, kid, k, rfl, hkid, hrow, hdecoded⟩

theorem decodeJwt_encode (cfg : Dpop.Config) (jose : Jose Priv Pub) (hjose : jose.Lawful cfg)
    (rows : List (SigningKey Priv Pub)) (k : SigningKey Priv Pub) (key : Priv) (claims : Jwt)
    (hkey : verificationKey rows k.kid = some k) (hpair : k.publicJwk.key = jose.publicKey key) :
    decodeJwt cfg jose rows (jose.encode (accessHeader k.kid) claims key) = .ok claims := by
  obtain ⟨header, hheader, hlookup⟩ := hjose.headerOf_encode k.kid claims key
  have halg : Dpop.Json.text (header.lookup "alg".toList) = some es256 := by
    rw [hlookup]
    rfl
  have hkid : kidOf header = some k.kid := by
    rw [kidOf, hlookup]
    rfl
  simp only [decodeJwt, hheader, halg, ne_eq, not_true_eq_false, if_false, hkid, hkey, hpair,
    hjose.decode_encode]

/-- A token is accepted under a key that is published. -/
theorem verifyAccessToken_published (cfg : Sessions.Config) (jose : Jose Priv Pub)
    (rows : List (SigningKey Priv Pub)) (token : List Char) (now : ℤ) (claims : AccessClaims)
    (h : verifyAccessToken (withKeys cfg jose rows) token now = .ok claims) :
    ∃ k ∈ rows, (headerOf cfg.dpop token).toOption.bind kidOf = some k.kid ∧
      (jose.decode token k.publicJwk.key).isSome ∧ k.publicJwk ∈ getVerificationJwks rows := by
  unfold verifyAccessToken at h
  cases hdecoded : decodeJwt cfg.dpop jose rows token with
  | error detail =>
    simp only [withKeys, hdecoded] at h
    cases h
  | ok jwt =>
    obtain ⟨header, kid, k, hheader, hkid, hrow, hdecode⟩ :=
      decodeJwt_ok cfg.dpop jose rows token jwt hdecoded
    obtain ⟨hmem, rfl, hpublished⟩ := verificationKey_published rows kid k hrow
    refine ⟨k, hmem, ?_, ?_, hpublished⟩
    · rw [hheader]
      exact hkid
    · rw [hdecode]
      rfl

theorem verifyAccessToken_minted (cfg : Sessions.Config) (jose : Jose Priv Pub) (accessTtl now : ℤ)
    (rows : List (SigningKey Priv Pub)) (token : List Char) (subject : Subject) (minted : ℕ)
    (hdecoded : decodeJwt cfg.dpop jose rows token = .ok (accessJwt cfg accessTtl subject minted))
    (hexp : now < expiry accessTtl minted * 1000000) :
    verifyAccessToken (withKeys cfg jose rows) token now =
      .ok ⟨subject.session, subject.scope, subject.jkt, expiry accessTtl minted * 1000000⟩ := by
  simp only [verifyAccessToken, withKeys, hdecoded, accessJwt, ne_eq, not_true_eq_false, if_false,
    if_neg (Int.not_le.mpr hexp)]

/-- A token that is minted now verifies until it expires. -/
theorem token_overlap (cfg : Sessions.Config) (jose : Jose Priv Pub)
    (hjose : jose.Lawful cfg.dpop) (accessTtl : ℤ) (s : Store Priv Pub) (hvalid : Valid jose s.rows)
    (httl : accessTtl * 1000000 ≤ retireBuffer) (subject : Subject) :
    ∃ token, mintAccessToken cfg jose accessTtl s.rows subject s.clock = some token ∧
      ∀ (future : List (Event Priv)) (now : ℕ), (run jose s future).clock ≤ now →
        (now : ℤ) < expiry accessTtl s.clock * 1000000 →
        verifyAccessToken (withKeys cfg jose (run jose s future).rows) token now =
          .ok ⟨subject.session, subject.scope, subject.jkt,
            expiry accessTtl s.clock * 1000000⟩ := by
  obtain ⟨k, hk, hactive, hsigning⟩ := exists_active s.rows hvalid.one
  refine ⟨_, by rw [mintAccessToken, hsigning, Option.map_some], fun future now hnow hexp => ?_⟩
  have hfuture := run_valid jose s future hvalid
  rcases run_overlaps jose s future k.kid k.publicJwk s.clock (Nat.le_refl _)
    (Or.inl ⟨k, hk, rfl, rfl, Or.inl hactive⟩) with ⟨k', hk', hkid, hjwk, hsigns⟩ | hlate
  · have hkey := verificationKey_of_mem _ k' hfuture.kids hk' (hsigns.imp_right And.left)
    have hpair : k'.publicJwk.key = jose.publicKey k.privateKey := by
      rw [hjwk, hvalid.paired k hk]
      rfl
    have hdecoded := decodeJwt_encode cfg.dpop jose hjose _ k' k.privateKey
      (accessJwt cfg accessTtl subject s.clock) hkey hpair
    rw [hkid] at hdecoded
    exact verifyAccessToken_minted cfg jose accessTtl now _ _ subject s.clock hdecoded hexp
  · rcases expiry_le accessTtl s.clock with hle | hle <;> omega

/-- One key signs at any time, what verifies is published, and a token verifies until it expires
whatever becomes of the keys meanwhile. -/
theorem signing_key_lifecycle (cfg : Sessions.Config) (jose : Jose Priv Pub)
    (hjose : jose.Lawful cfg.dpop) (accessTtl : ℤ) (first : Generated Priv) (start : ℕ)
    (past : List (Event Priv)) (wait : ℕ) (s : Store Priv Pub)
    (hs : s = (run jose (bootstrapped jose first start) past).later wait) :
    activeKeys s.rows = 1 ∧
    (∀ (token : List Char) (now : ℤ) (claims : AccessClaims),
      verifyAccessToken (withKeys cfg jose s.rows) token now = .ok claims →
      ∃ k ∈ s.rows, (headerOf cfg.dpop token).toOption.bind kidOf = some k.kid ∧
        (jose.decode token k.publicJwk.key).isSome ∧ k.publicJwk ∈ getVerificationJwks s.rows) ∧
    (accessTtl * 1000000 ≤ retireBuffer → ∀ subject : Subject,
      ∃ token, mintAccessToken cfg jose accessTtl s.rows subject s.clock = some token ∧
        ∀ (future : List (Event Priv)) (now : ℕ), (run jose s future).clock ≤ now →
          (now : ℤ) < expiry accessTtl s.clock * 1000000 →
          verifyAccessToken (withKeys cfg jose (run jose s future).rows) token now =
            .ok ⟨subject.session, subject.scope, subject.jkt,
              expiry accessTtl s.clock * 1000000⟩) := by
  have hvalid : Valid jose s.rows := by
    rw [hs]
    exact run_valid jose _ past (bootstrapped_valid jose first start)
  refine ⟨hvalid.one, fun token now claims h => ?_, fun httl subject => ?_⟩
  · exact verifyAccessToken_published cfg jose s.rows token now claims h
  · exact token_overlap cfg jose hjose accessTtl s hvalid httl subject

/-! ### A library for the samples -/

def urlsafe (c : Char) : Char := if c = '+' then '-' else if c = '/' then '_' else c

def standard (c : Char) : Char := if c = '-' then '+' else if c = '_' then '/' else c

/-- `urlsafe_b64decode` of a segment with its padding -/
def b64uDecode (segment : List Char) : Option (List UInt8) :=
  b64decode ((segment ++ List.replicate ((4 - segment.length % 4) % 4) '=').map standard)

def b64uEncode (s : List Char) : List Char := ((b64encode s).filter (· ≠ '=')).map urlsafe

theorem b64Char_urlsafe (n : ℕ) (hn : n < 64) :
    b64Char n ≠ '=' ∧ standard (urlsafe (b64Char n)) = b64Char n := by
  have hall : ∀ n < 64, b64Char n ≠ '=' ∧ standard (urlsafe (b64Char n)) = b64Char n := by
    decide +kernel
  exact hall n hn

theorem b64Char_undotted (n : ℕ) : b64Char n ≠ '.' := by
  by_cases hn : n < 64
  · have hall : ∀ n < 64, b64Char n ≠ '.' := by decide +kernel
    exact hall n hn
  · rw [b64Char, List.getD_eq_getElem?_getD, List.getElem?_eq_none (by simpa using hn)]
    decide

theorem b64encode_undotted (s : List Char) : '.' ∉ b64encode s := by
  have hchar : ∀ n, '.' ≠ b64Char n := fun n => (b64Char_undotted n).symm
  fun_induction b64encode s with
  | case1 a b c rest ih => simp only [List.mem_cons, hchar, ih, or_self, not_false_eq_true]
  | case2 a b => simp [hchar]
  | case3 a => simp [hchar]
  | case4 => exact List.not_mem_nil

theorem b64uEncode_undotted (s : List Char) : '.' ∉ b64uEncode s := by
  intro h
  obtain ⟨c, hc, hdot⟩ := List.mem_map.mp h
  have hsame : c = '.' := by
    unfold urlsafe at hdot
    split_ifs at hdot
    · exact absurd hdot (by decide)
    · exact absurd hdot (by decide)
    · exact hdot
  exact b64encode_undotted s (hsame ▸ (List.mem_filter.mp hc).1)

/-- The padding that a segment lacks is found again. -/
theorem b64uEncode_padded (s : List Char) (h : ∀ c ∈ s, PercentCoding.IsByte c) :
    ((b64uEncode s) ++ List.replicate ((4 - (b64uEncode s).length % 4) % 4) '=').map standard =
      b64encode s := by
  have hpad : standard '=' = '=' := rfl
  fun_induction b64encode s with
  | case1 a b c rest ih =>
    have ha : a.toNat < 256 := h a (by simp)
    have hb : b.toNat < 256 := h b (by simp)
    have hc : c.toNat < 256 := h c (by simp)
    obtain ⟨hone, hone'⟩ := b64Char_urlsafe (a.toNat / 4) (by omega)
    obtain ⟨htwo, htwo'⟩ := b64Char_urlsafe (a.toNat % 4 * 16 + b.toNat / 16) (by omega)
    obtain ⟨hthree, hthree'⟩ := b64Char_urlsafe (b.toNat % 16 * 4 + c.toNat / 64) (by omega)
    obtain ⟨hfour, hfour'⟩ := b64Char_urlsafe (c.toNat % 64) (by omega)
    have hrest := ih fun d hd => h d (by simp [hd])
    have hcons : b64uEncode (a :: b :: c :: rest) = urlsafe (b64Char (a.toNat / 4)) ::
        urlsafe (b64Char (a.toNat % 4 * 16 + b.toNat / 16)) ::
        urlsafe (b64Char (b.toNat % 16 * 4 + c.toNat / 64)) ::
        urlsafe (b64Char (c.toNat % 64)) :: b64uEncode rest := by
      simp only [b64uEncode, b64encode, List.filter_cons, hone, htwo, hthree, hfour, ne_eq,
        not_false_eq_true, decide_true, if_true, List.map_cons]
    have hlength : (b64uEncode rest).length + 1 + 1 + 1 + 1 = (b64uEncode rest).length + 4 := rfl
    rw [hcons]
    simp only [List.length_cons, hlength, Nat.add_mod_right, List.cons_append, List.map_cons, hone',
      htwo', hthree', hfour', hrest]
  | case2 a b =>
    have ha : a.toNat < 256 := h a (by simp)
    have hb : b.toNat < 256 := h b (by simp)
    obtain ⟨hone, hone'⟩ := b64Char_urlsafe (a.toNat / 4) (by omega)
    obtain ⟨htwo, htwo'⟩ := b64Char_urlsafe (a.toNat % 4 * 16 + b.toNat / 16) (by omega)
    obtain ⟨hthree, hthree'⟩ := b64Char_urlsafe (b.toNat % 16 * 4) (by omega)
    simp [b64uEncode, b64encode, hone, htwo, hthree, hone', htwo', hthree', hpad]
  | case3 a =>
    have ha : a.toNat < 256 := h a (by simp)
    obtain ⟨hone, hone'⟩ := b64Char_urlsafe (a.toNat / 4) (by omega)
    obtain ⟨htwo, htwo'⟩ := b64Char_urlsafe (a.toNat % 4 * 16) (by omega)
    simp [b64uEncode, b64encode, hone, htwo, hone', htwo', hpad]
  | case4 => rfl

theorem b64uDecode_encode (v : JsonValues.Json) :
    b64uDecode (b64uEncode (JsonValues.write v)) = some (JsonTexts.encode (JsonValues.write v)) := by
  have hbyte : ∀ c ∈ JsonValues.write v, PercentCoding.IsByte c := fun c hc =>
    Nat.lt_of_le_of_lt (show c.toNat ≤ 126 from (JsonValues.write_printable v c hc).2) (by decide)
  rw [b64uDecode, b64uEncode_padded _ hbyte, SealedTokens.b64decode_write]

mutual

/-- What `json.loads` makes of a text without fractions. -/
def parsedJson : JsonValues.Json → Dpop.Json
  | .null => .null
  | .bool b => .bool b
  | .int n => .int n
  | .str s => .str s
  | .arr items => .arr (parsedItems items)
  | .obj fields => .obj (parsedFields fields)

def parsedItems : List JsonValues.Json → List Dpop.Json
  | [] => []
  | v :: rest => parsedJson v :: parsedItems rest

def parsedFields : List (List Char × JsonValues.Json) → Fields
  | [] => []
  | (key, v) :: rest => (key, parsedJson v) :: parsedFields rest

end

def sampleCodec : Dpop.Config :=
  { Dpop.sampleConfig with
    b64Decode := b64uDecode
    jsonLoads := fun bytes => (SealedTokens.loads bytes).map parsedJson }

/-- The texts of a header, behind the default for its type. -/
def headerTexts (header : Fields) : JsonValues.Fields :=
  JsonValues.update [("typ".toList, .str "JWT".toList)] (header.map fun field =>
    (field.1, .str ((Dpop.Json.text (some field.2)).getD [])))

abbrev SampleClaims : Type :=
  (List ℕ × Option ℤ × Option ℕ × Option (List ℕ) × List ℕ) × ℕ

def codes (text : List Char) : List ℕ := text.map Char.toNat

def chars (text : List ℕ) : List Char := text.map Char.ofNat

theorem chars_codes (text : List Char) : chars (codes text) = text := by
  induction text with
  | nil => rfl
  | cons c text ih => exact congrArg₂ List.cons (Char.ofNat_toNat c) ih

def sealClaims (claims : Jwt) (key : ℕ) : List Char :=
  List.replicate (Encodable.encode (α := SampleClaims)
    ((codes claims.iss, claims.exp, claims.sid, claims.jkt.map codes, codes claims.scope), key)) '.'

def openClaims (sealed : List Char) : Option (Jwt × ℕ) :=
  (Encodable.decode (α := SampleClaims) sealed.length).map fun t =>
    (⟨chars t.1.1, t.1.2.1, t.1.2.2.1, t.1.2.2.2.1.map chars, chars t.1.2.2.2.2⟩, t.2)

theorem openClaims_seal (claims : Jwt) (key : ℕ) :
    openClaims (sealClaims claims key) = some (claims, key) := by
  have hmap : (claims.jkt.map codes).map chars = claims.jkt := by
    cases claims.jkt with
    | none => rfl
    | some text => rw [Option.map_some, Option.map_some, chars_codes]
  simp only [openClaims, sealClaims, List.length_replicate, Encodable.encodek, Option.map_some, hmap,
    chars_codes]

/-- Behind the header a token names its claims and the key that signed them, which is public. -/
def sampleJose : Jose ℕ ℕ where
  publicKey := id
  encode header claims key :=
    b64uEncode (JsonValues.write (.obj (headerTexts header))) ++ '.' :: sealClaims claims key
  decode token key := (openClaims (cut '.' token).2).bind fun found =>
    if found.2 = key then some found.1 else none

theorem cut_encode (header : Fields) (claims : Jwt) (key : ℕ) :
    cut '.' (sampleJose.encode header claims key) =
      (b64uEncode (JsonValues.write (.obj (headerTexts header))), sealClaims claims key) :=
  Text.cut_append '.' _ _ (b64uEncode_undotted _)

theorem headerOf_sample (kid : List Char) (claims : Jwt) (key : ℕ) :
    headerOf sampleCodec (sampleJose.encode (accessHeader kid) claims key) =
      .ok [("typ".toList, .str atJwt), ("alg".toList, .str es256), ("kid".toList, .str kid)] := by
  have htexts : headerTexts (accessHeader kid) =
      [("typ".toList, .str atJwt), ("alg".toList, .str es256), ("kid".toList, .str kid)] := rfl
  have hdistinct : JsonValues.distinct (.obj (headerTexts (accessHeader kid))) = true := by
    have hkeys : ["typ".toList, "alg".toList, "kid".toList].Nodup := by decide
    rw [htexts]
    simp only [JsonValues.distinct, JsonValues.distinctFields, List.map_cons, List.map_nil,
      Bool.and_true, decide_eq_true_eq]
    exact hkeys
  have hloads := SealedTokens.loads_write _ hdistinct
  rw [headerOf, cut_encode]
  simp only [sampleCodec, b64uDecode_encode, hloads, Option.map_some]
  rw [htexts]
  rfl

theorem sampleJose_lawful : sampleJose.Lawful sampleCodec where
  headerOf_encode := fun kid claims key => by
    refine ⟨_, headerOf_sample kid claims key, fun name => ?_⟩
    simp only [accessHeader, List.lookup_cons]
    by_cases htyp : name = "typ".toList
    · rw [htyp]
      rfl
    · have hother : (name == "typ".toList) = false := beq_false_of_ne htyp
      simp only [hother]
  decode_encode := fun header claims key => by
    have hcut := congrArg Prod.snd (cut_encode header claims key)
    simp only [sampleJose] at hcut ⊢
    rw [hcut, openClaims_seal, Option.bind_some, id_eq, if_pos rfl]

def sampleKey (name : Char) (n : ℕ) : Generated ℕ := ⟨[name], n, n⟩

/-- A rotation, and the collection that may follow it. -/
def sampleRotation : List (Event ℕ) :=
  [⟨0, .createPending (sampleKey 'b' 2)⟩, ⟨0, .activatePending 0⟩, ⟨599000000, .gcRetired⟩]

def sampleSettings : Sessions.Config :=
  ⟨0, 0, "https://idp.example.org".toList, sampleCodec, fun _ => .error ""⟩

theorem signing_key_lifecycle_sample :
    ∃ token, mintAccessToken sampleSettings sampleJose 600
        (bootstrapped sampleJose (sampleKey 'a' 1) 0).rows ⟨7, [], []⟩ 0 = some token ∧
      verifyAccessToken (withKeys sampleSettings sampleJose
        (run sampleJose (bootstrapped sampleJose (sampleKey 'a' 1) 0) sampleRotation).rows)
          token 599999999 = .ok ⟨7, [], [], 600000000⟩ := by
  obtain ⟨-, -, htokens⟩ := signing_key_lifecycle sampleSettings sampleJose sampleJose_lawful 600
    (sampleKey 'a' 1) 0 [] 0 (bootstrapped sampleJose (sampleKey 'a' 1) 0) rfl
  obtain ⟨token, hminted, hverifies⟩ := htokens (by decide) ⟨7, [], []⟩
  exact ⟨token, hminted, hverifies sampleRotation 599999999 (by decide) (by decide)⟩

example : ((run sampleJose (bootstrapped sampleJose (sampleKey 'a' 1) 0)
    (sampleRotation ++ [⟨301000000, .gcRetired⟩])).rows.map fun k => k.state) =
      [.retired, .active] := by decide

end Hyproxy.SigningKeys

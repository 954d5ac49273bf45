import Hyproxy.Sessions

/-!
The end of a session. A session is over when it is revoked, stale or past its
absolute bound. Nothing that is done to a session takes back the first two or
moves the third, so a session that is over stays so; and a liveness check does
not pass on it.
-/
namespace Hyproxy.SessionLife

open Accounts (Session)
open Sessions

def Over (x : Session) (now : ℤ) : Prop :=
  x.revokedAt.isSome = true ∨ x.stale = true ∨ x.absoluteExpiresAt ≤ now

instance (x : Session) (now : ℤ) : Decidable (Over x now) := by
  unfold Over
  infer_instance

/-- What can become of a session. -/
structure Older (x x' : Session) : Prop where
  revoked : x.revokedAt.isSome = true → x'.revokedAt.isSome = true
  stale : x.stale = true → x'.stale = true
  bound : x'.absoluteExpiresAt = x.absoluteExpiresAt

theorem Older.refl (x : Session) : Older x x := ⟨id, id, rfl⟩

theorem Older.trans {x y z : Session} (hxy : Older x y) (hyz : Older y z) : Older x z :=
  ⟨hyz.revoked ∘ hxy.revoked, hyz.stale ∘ hxy.stale, hyz.bound.trans hxy.bound⟩

theorem Older.over {x x' : Session} (h : Older x x') {now later : ℤ} (hle : now ≤ later)
    (hover : Over x now) : Over x' later := by
  rcases hover with hrevoked | hstale | hbound
  · exact Or.inl (h.revoked hrevoked)
  · exact Or.inr (Or.inl (h.stale hstale))
  · refine Or.inr (Or.inr ?_)
    rw [h.bound]
    omega

theorem older_touched (x : Session) (now : ℤ) : Older x { x with lastSeenAt := now } :=
  ⟨id, id, rfl⟩

theorem older_stale (x : Session) : Older x { x with stale := true } := ⟨id, fun _ => rfl, rfl⟩

theorem older_revoked (x : Session) (now : ℤ) : Older x { x with revokedAt := some now } :=
  ⟨fun _ => rfl, id, rfl⟩

theorem older_reissued (x : Session) (hash : List Char) :
    Older x { x with cookieSecretHash := hash } := ⟨id, id, rfl⟩

/-- Every session of the new table is an older one of the old table, under the same key. -/
structure Ages (old new : List (ℕ × Session)) : Prop where
  keys : (new.map Prod.fst).Sublist (old.map Prod.fst)
  older : ∀ id x', (id, x') ∈ new → ∃ x, (id, x) ∈ old ∧ Older x x'

theorem Ages.refl (sessions : List (ℕ × Session)) : Ages sessions sessions :=
  ⟨List.Sublist.refl _, fun _ x' hmem => ⟨x', hmem, Older.refl x'⟩⟩

theorem Ages.trans {a b c : List (ℕ × Session)} (hab : Ages a b) (hbc : Ages b c) : Ages a c := by
  refine ⟨hbc.keys.trans hab.keys, fun id z hz => ?_⟩
  obtain ⟨y, hy, hyz⟩ := hbc.older id z hz
  obtain ⟨x, hx, hxy⟩ := hab.older id y hy
  exact ⟨x, hx, hxy.trans hyz⟩

theorem ages_map (sessions : List (ℕ × Session)) (id : ℕ) (f : Session → Session)
    (hf : ∀ x, Older x (f x)) :
    Ages sessions
      (sessions.map fun entry => (entry.1, if entry.1 = id then f entry.2 else entry.2)) := by
  constructor
  · rw [List.map_map]
    exact List.Sublist.refl _
  · intro other x' hmem
    obtain ⟨⟨key, x⟩, hx, heq⟩ := List.mem_map.mp hmem
    obtain ⟨rfl, rfl⟩ := Prod.mk.inj heq
    refine ⟨x, hx, ?_⟩
    split_ifs
    · exact hf x
    · exact Older.refl x

theorem ages_filter (sessions : List (ℕ × Session)) (keep : ℕ × Session → Bool) :
    Ages sessions (sessions.filter keep) :=
  ⟨List.filter_sublist.map _, fun _ x' hmem => ⟨x', List.mem_of_mem_filter hmem, Older.refl x'⟩⟩

theorem ages_revoke (db : Db) (id : ℕ) (x : Session) (type : Accounts.AuthEventType)
    (ip : List Char) (now : ℤ) : Ages db.sessions (revoke db id x type ip now).sessions := by
  unfold revoke
  split_ifs
  · exact Ages.refl _
  · exact ages_map db.sessions id _ fun x => older_revoked x now

theorem ages_checkLiveness (cfg : Config) (db : Db) (id : ℕ) (x : Session) (ip : List Char)
    (now : ℤ) (enforceIp : Bool) :
    Ages db.sessions (checkLiveness cfg db id x ip now enforceIp).2.sessions := by
  unfold checkLiveness
  cases verdict cfg.idleTtl cfg.sessionTouchInterval x ip now enforceIp with
  | dead => exact Ages.refl _
  | idle => exact ages_revoke db id x _ ip now
  | moved => exact ages_map db.sessions id _ older_stale
  | touch => exact ages_map db.sessions id _ fun x => older_touched x now
  | live => exact Ages.refl _

/-- The session is there and not over. -/
def LiveIn (sessions : List (ℕ × Session)) (id : ℕ) (now : ℤ) : Prop :=
  ∃ x, (id, x) ∈ sessions ∧ ¬Over x now

/-- A liveness check does not pass on a session that is over. -/
theorem not_over_of_passes (cfg : Config) (db : Db) (id : ℕ) (x : Session) (ip : List Char)
    (now : ℤ) (enforceIp : Bool) (h : (checkLiveness cfg db id x ip now enforceIp).1 = true) :
    ¬Over x now := by
  rw [checkLiveness_passes] at h
  intro hover
  unfold verdict at h
  split_ifs at h with hdead hexpired hidle hmoved htouch <;> try cases h
  all_goals
    simp only [Bool.or_eq_true, not_or, Bool.not_eq_true] at hdead
    rcases hover with hrevoked | hstale | hbound
    · rw [hdead.1] at hrevoked
      cases hrevoked
    · rw [hdead.2] at hstale
      cases hstale
    · exact hexpired hbound

theorem ages_checkSession (cfg : Config) (db : Db) (claims : AccessClaims) (ip : List Char)
    (now : ℤ) : Ages db.sessions (checkSession cfg db claims ip now).2.sessions := by
  cases hx : db.sessions.lookup claims.sid with
  | none =>
    simp only [checkSession, hx]
    exact Ages.refl _
  | some x =>
    have hages := ages_checkLiveness cfg db claims.sid x ip now true
    rcases hcheck : checkLiveness cfg db claims.sid x ip now true with ⟨passed, db'⟩
    rw [hcheck] at hages
    simp only [checkSession, hx, hcheck]
    cases passed with
    | false => exact hages
    | true =>
      simp only
      cases db'.user x.user with
      | none => exact hages
      | some u =>
        simp only
        split_ifs <;> exact hages

theorem ages_checkRequest (cfg : Config) (db : Db) (r : AuthRequest) (now : ℤ) :
    Ages db.sessions (checkRequest cfg db r now).2.sessions := by
  unfold checkRequest
  cases accessClaims cfg r now with
  | error e => exact Ages.refl _
  | ok access =>
    obtain ⟨token, claims⟩ := access
    simp only
    rcases Dpop.verifyProof cfg.dpop db.seen (proofRequest r token claims) now with ⟨outcome, seen⟩
    cases outcome with
    | ok p => exact ages_checkSession cfg { db with seen := seen } claims r.sourceIp now
    | error e => cases e <;> exact Ages.refl _

theorem checkSession_live (cfg : Config) (db : Db) (claims : AccessClaims) (ip : List Char)
    (now : ℤ) (authed : AuthedRequest)
    (h : (checkSession cfg db claims ip now).1 = .ok authed) :
    LiveIn db.sessions claims.sid now := by
  unfold checkSession at h
  cases hx : db.sessions.lookup claims.sid with
  | none =>
    rw [hx] at h
    cases h
  | some x =>
    rw [hx] at h
    simp only at h
    refine ⟨x, mem_of_lookup _ _ _ hx, ?_⟩
    rcases hcheck : checkLiveness cfg db claims.sid x ip now true with ⟨passed, db'⟩
    cases passed with
    | true => exact not_over_of_passes cfg db claims.sid x ip now true (by rw [hcheck])
    | false =>
      rw [hcheck] at h
      cases h

/-- A request that passes has the access token of a session that is not over. -/
theorem checkRequest_live (cfg : Config) (db : Db) (r : AuthRequest) (now : ℤ)
    (authed : AuthedRequest) (h : (checkRequest cfg db r now).1 = .ok authed) :
    ∃ token claims, accessClaims cfg r now = .ok (token, claims) ∧
      LiveIn db.sessions claims.sid now := by
  unfold checkRequest at h
  cases haccess : accessClaims cfg r now with
  | error e =>
    rw [haccess] at h
    cases h
  | ok access =>
    obtain ⟨token, claims⟩ := access
    rw [haccess] at h
    simp only at h
    rcases hproof : Dpop.verifyProof cfg.dpop db.seen (proofRequest r token claims) now
      with ⟨outcome, seen⟩
    rw [hproof] at h
    cases outcome with
    | error e => cases e <;> cases h
    | ok p =>
      exact ⟨token, claims, rfl,
        checkSession_live cfg { db with seen := seen } claims r.sourceIp now authed h⟩

end Hyproxy.SessionLife

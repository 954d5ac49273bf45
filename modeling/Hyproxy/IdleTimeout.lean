import Hyproxy.SessionLife

/-!
The idle bound of a session under throttled touches. A liveness check that passes
writes the time of the last activity once per interval only, so what is stored lags
behind. The lag is less than the interval, and with it a session is revoked after
the idle time without a check that passes, and not before the idle time less one
interval.
-/
namespace Hyproxy.IdleTimeout

open Accounts (Session)
open Sessions

structure Call where
  now : ℤ
  enforceIp : Bool
  deriving Repr, DecidableEq

/-- `check_liveness` on the row of a session. -/
def attempt (cfg : Config) (id : ℕ) (ip : List Char) (db : Db) (c : Call) : Bool × Db :=
  match db.sessions.lookup id with
  | none => (false, db)
  | some x => checkLiveness cfg db id x ip c.now c.enforceIp

/-- The tables, and the time of the last call that passed. -/
structure Watch where
  db : Db
  lastPass : Option ℤ

def watch (cfg : Config) (id : ℕ) (ip : List Char) (w : Watch) (c : Call) : Watch :=
  match attempt cfg id ip w.db c with
  | (true, db) => ⟨db, some c.now⟩
  | (false, db) => ⟨db, w.lastPass⟩

def after (cfg : Config) (db : Db) (id : ℕ) (ip : List Char) (calls : List Call) : Watch :=
  calls.foldl (watch cfg id ip) ⟨db, none⟩

/-- The call passes after the calls before it. -/
def passes (cfg : Config) (db : Db) (id : ℕ) (ip : List Char) (past : List Call)
    (c : Call) : Bool :=
  (attempt cfg id ip (after cfg db id ip past).db c).1

def rowAfter (cfg : Config) (db : Db) (id : ℕ) (ip : List Char) (calls : List Call) :
    Option Session :=
  (after cfg db id ip calls).db.sessions.lookup id

/-- What a call from the address of the session does to its row before the absolute bound. -/
def checkRow (cfg : Config) (x : Session) (now : ℤ) : Bool × Session :=
  if x.revokedAt.isSome then (false, x)
  else if cfg.idleTtl < now - x.lastSeenAt then (false, { x with revokedAt := some now })
  else if cfg.sessionTouchInterval ≤ now - x.lastSeenAt then (true, { x with lastSeenAt := now })
  else (true, x)

/-- The stored time of the last activity against the time `p` of the last call that passed. -/
structure Lags (cfg : Config) (x : Session) (p : ℤ) : Prop where
  seen_le : x.lastSeenAt ≤ p
  lag : p = x.lastSeenAt ∨ p < x.lastSeenAt + cfg.sessionTouchInterval

/-- A session that no call has found stale, from a moment on. -/
structure Kept (cfg : Config) (x₀ : Session) (ip : List Char) (w : Watch) (now : ℤ) (x : Session) :
    Prop where
  fresh : x.stale = false
  address : x.sourceIP = ip
  bound : x.absoluteExpiresAt = x₀.absoluteExpiresAt
  seen_le : x.lastSeenAt ≤ now
  lags : ∀ p, w.lastPass = some p → p ≤ now ∧ Lags cfg x p
  late : x.revokedAt.isSome = true → ∀ p, w.lastPass = some p →
    cfg.idleTtl - cfg.sessionTouchInterval < now - p

/-- What a call can do. -/
theorem checkRow_cases (cfg : Config) (x : Session) (now : ℤ) :
    (x.revokedAt.isSome = true ∧ checkRow cfg x now = (false, x)) ∨
      (x.revokedAt.isSome = false ∧ cfg.idleTtl < now - x.lastSeenAt ∧
        checkRow cfg x now = (false, { x with revokedAt := some now })) ∨
      (x.revokedAt.isSome = false ∧ now - x.lastSeenAt ≤ cfg.idleTtl ∧
        cfg.sessionTouchInterval ≤ now - x.lastSeenAt ∧
        checkRow cfg x now = (true, { x with lastSeenAt := now })) ∨
      (x.revokedAt.isSome = false ∧ now - x.lastSeenAt ≤ cfg.idleTtl ∧
        now - x.lastSeenAt < cfg.sessionTouchInterval ∧ checkRow cfg x now = (true, x)) := by
  unfold checkRow
  split_ifs with hrevoked hidle htouch
  · exact Or.inl ⟨hrevoked, rfl⟩
  · exact Or.inr (Or.inl ⟨by simpa using hrevoked, hidle, rfl⟩)
  · exact Or.inr (Or.inr (Or.inl ⟨by simpa using hrevoked, by omega, htouch, rfl⟩))
  · exact Or.inr (Or.inr (Or.inr ⟨by simpa using hrevoked, by omega, by omega, rfl⟩))

theorem attempt_row (cfg : Config) (id : ℕ) (ip : List Char) (db : Db) (c : Call) (x : Session)
    (hrow : db.sessions.lookup id = some x) (hfresh : x.stale = false) (hip : x.sourceIP = ip)
    (hbound : c.now < x.absoluteExpiresAt) :
    (attempt cfg id ip db c).1 = (checkRow cfg x c.now).1 ∧
      (attempt cfg id ip db c).2.sessions.lookup id = some (checkRow cfg x c.now).2 := by
  have hset : ∀ f : Session → Session,
      (db.setSession id f).sessions.lookup id = some (f x) := fun f => by
    rw [lookup_setSession, hrow, Option.map_some, if_pos rfl]
  have hdead : (x.revokedAt.isSome || x.stale) = x.revokedAt.isSome := by rw [hfresh, Bool.or_false]
  have hmoved : ¬ (c.enforceIp && x.sourceIP != ip) = true := by simp [hip]
  simp only [attempt, hrow, checkLiveness, verdict, checkRow, hdead,
    if_neg (Int.not_le.mpr hbound), if_neg hmoved]
  by_cases hrevoked : x.revokedAt.isSome = true
  · simp only [if_pos hrevoked]
    exact ⟨trivial, hrow⟩
  · simp only [if_neg hrevoked]
    by_cases hidle : cfg.idleTtl < c.now - x.lastSeenAt
    · simp only [if_pos hidle, revoke, if_neg hrevoked]
      exact ⟨trivial, hset fun x => { x with revokedAt := some c.now }⟩
    · simp only [if_neg hidle]
      by_cases htouch : cfg.sessionTouchInterval ≤ c.now - x.lastSeenAt
      · simp only [if_pos htouch]
        exact ⟨trivial, hset fun x => { x with lastSeenAt := c.now }⟩
      · simp only [if_neg htouch]
        exact ⟨trivial, hrow⟩

theorem watch_db (cfg : Config) (id : ℕ) (ip : List Char) (w : Watch) (c : Call) :
    (watch cfg id ip w c).db = (attempt cfg id ip w.db c).2 ∧
      (watch cfg id ip w c).lastPass =
        if (attempt cfg id ip w.db c).1 then some c.now else w.lastPass := by
  unfold watch
  rcases attempt cfg id ip w.db c with ⟨_ | _, db⟩ <;> exact ⟨rfl, rfl⟩

/-- What a call keeps. -/
theorem kept_watch (cfg : Config) (id : ℕ) (x₀ x : Session) (ip : List Char) (w : Watch) (now : ℤ)
    (c : Call) (hinterval : 0 ≤ cfg.sessionTouchInterval)
    (hrow : w.db.sessions.lookup id = some x) (h : Kept cfg x₀ ip w now x)
    (hle : now ≤ c.now) (hbound : c.now < x₀.absoluteExpiresAt) :
    (watch cfg id ip w c).db.sessions.lookup id = some (checkRow cfg x c.now).2 ∧
      Kept cfg x₀ ip (watch cfg id ip w c) c.now (checkRow cfg x c.now).2 := by
  obtain ⟨hpass, hnew⟩ := attempt_row cfg id ip w.db c x hrow h.fresh h.address
    (h.bound ▸ hbound)
  obtain ⟨hdb, hlast⟩ := watch_db cfg id ip w c
  rw [hdb]
  refine ⟨hnew, ?_⟩
  rw [hpass] at hlast
  have hseen : x.lastSeenAt ≤ c.now := by
    have := h.seen_le
    omega
  have hpassed : ∀ y : Session, y.lastSeenAt ≤ c.now →
      (c.now = y.lastSeenAt ∨ c.now < y.lastSeenAt + cfg.sessionTouchInterval) →
      ∀ p, some c.now = some p → p ≤ c.now ∧ Lags cfg y p := by
    intro y hle hlag p hp
    obtain rfl := Option.some.inj hp
    exact ⟨Int.le_refl _, hle, hlag⟩
  have hkeep : ∀ p, w.lastPass = some p → p ≤ c.now ∧ Lags cfg x p := fun p hp =>
    ⟨Int.le_trans (h.lags p hp).1 hle, (h.lags p hp).2⟩
  rcases checkRow_cases cfg x c.now with ⟨hrevoked, heq⟩ | ⟨-, hidle, heq⟩ |
    ⟨hlive, -, -, heq⟩ | ⟨hlive, -, htouch, heq⟩
  · rw [heq] at hlast ⊢
    refine ⟨h.fresh, h.address, h.bound, hseen, by rw [hlast]; exact hkeep, fun _ p hp => ?_⟩
    rw [hlast] at hp
    have hlate := h.late hrevoked p hp
    omega
  · rw [heq] at hlast ⊢
    refine ⟨h.fresh, h.address, h.bound, hseen, ?_, fun _ p hp => ?_⟩
    · rw [hlast]
      exact fun p hp => ⟨(hkeep p hp).1, (hkeep p hp).2.seen_le, (hkeep p hp).2.lag⟩
    · rw [hlast] at hp
      have hlag := (hkeep p hp).2.lag
      omega
  · rw [heq] at hlast ⊢
    refine ⟨h.fresh, h.address, h.bound, Int.le_refl _, ?_, fun hrevoked => ?_⟩
    · rw [hlast]
      exact hpassed _ (Int.le_refl _) (Or.inl rfl)
    · exact absurd hrevoked (by simp [hlive])
  · rw [heq] at hlast ⊢
    refine ⟨h.fresh, h.address, h.bound, hseen, ?_, fun hrevoked => ?_⟩
    · rw [hlast]
      exact hpassed x hseen (Or.inr (by omega))
    · exact absurd hrevoked (by simp [hlive])

/-- A run of calls in order on a live session, from its address and within its absolute bound. -/
structure InOrder (db : Db) (id : ℕ) (ip : List Char) (x₀ : Session)
    (calls : List Call) : Prop where
  row : db.sessions.lookup id = some x₀
  unrevoked : x₀.revokedAt = none
  fresh : x₀.stale = false
  address : x₀.sourceIP = ip
  sorted : calls.Pairwise fun a b => a.now ≤ b.now
  seen_le : ∀ c ∈ calls, x₀.lastSeenAt ≤ c.now
  bound : ∀ c ∈ calls, c.now < x₀.absoluteExpiresAt

theorem InOrder.take {db : Db} {id : ℕ} {ip : List Char} {x₀ : Session} {left right : List Call}
    (h : InOrder db id ip x₀ (left ++ right)) : InOrder db id ip x₀ left where
  row := h.row
  unrevoked := h.unrevoked
  fresh := h.fresh
  address := h.address
  sorted := (List.pairwise_append.mp h.sorted).1
  seen_le c hc := h.seen_le c (List.mem_append_left _ hc)
  bound c hc := h.bound c (List.mem_append_left _ hc)

theorem after_snoc (cfg : Config) (db : Db) (id : ℕ) (ip : List Char) (past : List Call)
    (c : Call) :
    after cfg db id ip (past ++ [c]) = watch cfg id ip (after cfg db id ip past) c := by
  simp [after, List.foldl_append]

/-- At every call the row is kept, from some moment that is not after the call. -/
theorem kept_after (cfg : Config) (db : Db) (id : ℕ) (ip : List Char) (x₀ : Session)
    (past : List Call) (hinterval : 0 ≤ cfg.sessionTouchInterval) (h : InOrder db id ip x₀ past) :
    ∃ x now, rowAfter cfg db id ip past = some x ∧
      Kept cfg x₀ ip (after cfg db id ip past) now x ∧
      (now = x₀.lastSeenAt ∨ ∃ c ∈ past, now = c.now) := by
  induction past using List.reverseRecOn with
  | nil =>
    refine ⟨x₀, x₀.lastSeenAt, h.row, ⟨h.fresh, h.address, rfl, Int.le_refl _, ?_, ?_⟩, Or.inl rfl⟩
    · intro p hp
      cases hp
    · intro hrevoked
      exact absurd hrevoked (by simp [h.unrevoked])
  | append_singleton past c ih =>
    obtain ⟨x, now, hrow, hkept, hnow⟩ := ih h.take
    have hc : c ∈ past ++ [c] := by simp
    have hle : now ≤ c.now := by
      rcases hnow with rfl | ⟨d, hd, rfl⟩
      · exact h.seen_le c hc
      · exact (List.pairwise_append.mp h.sorted).2.2 d hd c (by simp)
    obtain ⟨hrow', hkept'⟩ := kept_watch cfg id x₀ x ip _ now c hinterval hrow hkept hle
      (h.bound c hc)
    rw [← after_snoc] at hrow' hkept'
    exact ⟨_, c.now, hrow', hkept', Or.inr ⟨c, hc, rfl⟩⟩

/-- A revoked row stays revoked, and no call passes on it. -/
theorem revoked_after (cfg : Config) (id : ℕ) (ip : List Char) (w : Watch) (rest : List Call)
    (h : ∃ x, w.db.sessions.lookup id = some x ∧ x.revokedAt.isSome = true) :
    ∃ x, (rest.foldl (watch cfg id ip) w).db.sessions.lookup id = some x ∧
      x.revokedAt.isSome = true := by
  induction rest generalizing w with
  | nil => exact h
  | cons c rest ih =>
    refine ih _ ?_
    obtain ⟨x, hrow, hrevoked⟩ := h
    refine ⟨x, ?_, hrevoked⟩
    rw [(watch_db cfg id ip w c).1]
    simp [attempt, hrow, checkLiveness, verdict, hrevoked]

theorem not_passes_of_revoked (cfg : Config) (id : ℕ) (ip : List Char) (db : Db) (c : Call)
    (h : ∃ x, db.sessions.lookup id = some x ∧ x.revokedAt.isSome = true) :
    (attempt cfg id ip db c).1 = false := by
  obtain ⟨x, hrow, hrevoked⟩ := h
  simp [attempt, hrow, checkLiveness, verdict, hrevoked]

/-- Before a call, the row is kept from a moment that is not after the call. -/
theorem kept_before (cfg : Config) (db : Db) (id : ℕ) (ip : List Char) (x₀ : Session)
    (past rest : List Call) (c : Call) (hinterval : 0 ≤ cfg.sessionTouchInterval)
    (h : InOrder db id ip x₀ (past ++ c :: rest)) :
    ∃ x now, rowAfter cfg db id ip past = some x ∧
      Kept cfg x₀ ip (after cfg db id ip past) now x ∧ now ≤ c.now := by
  obtain ⟨x, now, hrow, hkept, hnow⟩ := kept_after cfg db id ip x₀ past hinterval h.take
  refine ⟨x, now, hrow, hkept, ?_⟩
  rcases hnow with rfl | ⟨d, hd, rfl⟩
  · exact h.seen_le c (by simp)
  · exact (List.pairwise_append.mp h.sorted).2.2 d hd c (by simp)

/-- In every run of calls on a live session, once a call has passed: what is stored lags at most one
interval behind it; a call after more than the idle time is rejected, and the session is revoked
from then on; a call within the idle time less one interval passes. -/
theorem idle_bound (cfg : Config) (db : Db) (id : ℕ) (ip : List Char) (x₀ : Session)
    (past rest : List Call) (c : Call) (p : ℤ) (hinterval : 0 ≤ cfg.sessionTouchInterval)
    (h : InOrder db id ip x₀ (past ++ c :: rest))
    (hpass : (after cfg db id ip past).lastPass = some p) :
    (∃ x, rowAfter cfg db id ip past = some x ∧ x.lastSeenAt ≤ p ∧
        p - x.lastSeenAt ≤ cfg.sessionTouchInterval) ∧
      (cfg.idleTtl < c.now - p →
        passes cfg db id ip past c = false ∧
          ∀ more, (∃ x, rowAfter cfg db id ip (past ++ c :: more) = some x ∧
              x.revokedAt.isSome = true) ∧
            ∀ d, passes cfg db id ip (past ++ c :: more) d = false) ∧
      (c.now - p ≤ cfg.idleTtl - cfg.sessionTouchInterval → passes cfg db id ip past c = true) := by
  obtain ⟨x, now, hrow, hkept, hnow⟩ := kept_before cfg db id ip x₀ past rest c hinterval h
  obtain ⟨hp, hlags⟩ := hkept.lags p hpass
  have hseen := hlags.seen_le
  have hlag := hlags.lag
  have hbound : c.now < x.absoluteExpiresAt := hkept.bound ▸ h.bound c (by simp)
  obtain ⟨hpasses, hnew⟩ := attempt_row cfg id ip _ c x hrow hkept.fresh hkept.address hbound
  refine ⟨⟨x, hrow, hseen, by omega⟩, fun hlong => ?_, fun hshort => ?_⟩
  · have hrejected : (checkRow cfg x c.now).1 = false ∧
        (checkRow cfg x c.now).2.revokedAt.isSome = true := by
      rcases checkRow_cases cfg x c.now with ⟨hrevoked, heq⟩ | ⟨-, -, heq⟩ | ⟨-, hwithin, -⟩ |
        ⟨-, hwithin, -⟩
      · rw [heq]
        exact ⟨rfl, hrevoked⟩
      · rw [heq]
        exact ⟨rfl, rfl⟩
      · omega
      · omega
    refine ⟨hpasses.trans hrejected.1, fun more => ?_⟩
    have hmore : ∃ y, rowAfter cfg db id ip (past ++ c :: more) = some y ∧
        y.revokedAt.isSome = true := by
      unfold rowAfter after
      rw [List.foldl_append, List.foldl_cons]
      refine revoked_after cfg id ip _ more ⟨_, ?_, hrejected.2⟩
      rw [(watch_db cfg id ip _ c).1]
      exact hnew
    exact ⟨hmore, fun d => not_passes_of_revoked cfg id ip _ d hmore⟩
  · refine hpasses.trans ?_
    rcases checkRow_cases cfg x c.now with ⟨hrevoked, -⟩ | ⟨-, hover, -⟩ | ⟨-, -, -, heq⟩ |
      ⟨-, -, -, heq⟩
    · have hlate := hkept.late hrevoked p hpass
      omega
    · omega
    · rw [heq]
    · rw [heq]

def sampleConfig : Config where
  idleTtl := 1800000000
  sessionTouchInterval := 60000000
  issuer := []
  dpop := Dpop.sampleConfig
  decodeJwt _ := .error "bad token"

def sampleSession : Session where
  user := 1
  cookieSecretHash := []
  sourceIP := "10.0.0.7".toList
  tier := .standard
  amr := []
  lastSeenAt := 0
  absoluteExpiresAt := 21600000000
  stale := false
  revokedAt := none
  flow := 0

def sampleDb : Db := ⟨[], [(7, sampleSession)], [], []⟩

/-- Two calls in one interval, and calls that come after thirty minutes and later. -/
def samplePast : List Call := [⟨100000000, true⟩, ⟨159000000, true⟩]

theorem inOrder_sample :
    InOrder sampleDb 7 "10.0.0.7".toList sampleSession (samplePast ++ ⟨1960000000, false⟩ :: []) where
  row := rfl
  unrevoked := rfl
  fresh := rfl
  address := rfl
  sorted := by decide
  seen_le := by decide
  bound := by decide

theorem idle_bound_sample :
    passes sampleConfig sampleDb 7 "10.0.0.7".toList samplePast ⟨1960000000, false⟩ = false ∧
      ∀ d, passes sampleConfig sampleDb 7 "10.0.0.7".toList
        (samplePast ++ ⟨1960000000, false⟩ :: []) d = false := by
  have h := (idle_bound sampleConfig sampleDb 7 "10.0.0.7".toList sampleSession samplePast []
    ⟨1960000000, false⟩ 159000000 (by decide) inOrder_sample (by decide)).2.1 (by decide)
  exact ⟨h.1, (h.2 []).2⟩

end Hyproxy.IdleTimeout

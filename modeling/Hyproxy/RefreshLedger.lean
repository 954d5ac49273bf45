import Hyproxy.RefreshTokens
import Hyproxy.TokenFamilies
import Mathlib.Tactic.SplitIfs

/-!
How the writes of the token endpoint change the ledger of token families and the
sessions. Only the two writes of a grant change the ledger. No write brings a
revoked session back, and none removes a session.
-/

namespace Hyproxy.RefreshLedger

open RefreshTokens TokenFamilies
open Accounts (Session)

def entry (row : RefreshToken) : Entry :=
  ⟨row.id, row.family, row.session, row.parent, row.usedAt.isSome⟩

def ledger (db : Db) : List Entry := db.tokens.map entry

/-- A write that neither adds a token nor marks one used. -/
def Quiet : Write → Prop
  | .addToken _ => False
  | .useToken _ _ => False
  | _ => True

def Revoked (db : Db) (session : ℕ) : Prop :=
  ∃ x, db.sessions.lookup session = some x ∧ x.revokedAt.isSome

def Known (db : Db) (session : ℕ) : Prop := (db.sessions.lookup session).isSome

theorem ledger_other (db : Db) (w : OtherWrite) : ledger (applyOther db w) = ledger db := by
  cases w with
  | addSession id x =>
    simp only [applyOther]
    split_ifs <;> rfl
  | _ => rfl

theorem ledger_quiet (db : Db) (w : Write) (h : Quiet w) : ledger (apply db w) = ledger db := by
  cases w with
  | consumeCode hash now => rfl
  | addToken row => exact h.elim
  | useToken id now => exact h.elim
  | revokeToken id now =>
    simp only [ledger, apply, Db.setToken, List.map_map]
    refine List.map_congr_left fun row _ => ?_
    simp only [Function.comp_apply]
    split_ifs <;> rfl
  | other w => exact ledger_other db w

theorem ledger_quiet_all (writes : List Write) (db : Db) (h : ∀ w ∈ writes, Quiet w) :
    ledger (writes.foldl apply db) = ledger db := by
  induction writes generalizing db with
  | nil => rfl
  | cons w writes ih =>
    rw [List.foldl_cons, ih _ fun w' hw' => h w' (List.mem_cons_of_mem _ hw')]
    exact ledger_quiet db w (h w (List.mem_cons_self ..))

theorem ledger_use (db : Db) (id : ℕ) (now : ℤ) :
    ledger (apply db (.useToken id now)) = (ledger db).map (spend id) := by
  simp only [ledger, apply, Db.setToken, List.map_map]
  refine List.map_congr_left fun row _ => ?_
  by_cases hid : row.id = id
  · simp [spend, entry, hid]
  · simp [spend, entry, hid]

theorem ledger_add (db : Db) (row : RefreshToken) :
    ledger (apply db (.addToken row)) = ledger db ++ [entry row] := by
  simp [ledger, apply]

theorem lookup_map (sessions : List (ℕ × Session)) (id session : ℕ) (f : Session → Session) :
    (sessions.map fun e => (e.1, if e.1 = id then f e.2 else e.2)).lookup session =
      (sessions.lookup session).map fun x => if session = id then f x else x := by
  induction sessions with
  | nil => rfl
  | cons e sessions ih =>
    obtain ⟨key, x⟩ := e
    rw [List.map_cons, List.lookup_cons, List.lookup_cons]
    by_cases hkey : session = key
    · subst hkey
      simp
    · have hne : (session == key) = false := beq_eq_false_iff_ne.mpr hkey
      simp only [hne]
      exact ih

theorem lookup_setSession (db : Db) (id session : ℕ) (f : Session → Session) :
    (db.setSession id f).sessions.lookup session =
      (db.sessions.lookup session).map fun x => if session = id then f x else x :=
  lookup_map db.sessions id session f

theorem known_setSession (db : Db) (id session : ℕ) (f : Session → Session) :
    Known (db.setSession id f) session ↔ Known db session := by
  rw [Known, lookup_setSession, Option.isSome_map, Known]

theorem known_addSession (db : Db) (id session : ℕ) (x : Session) :
    Known (applyOther db (.addSession id x)) session ↔ Known db session ∨ session = id := by
  simp only [applyOther]
  split_ifs with hid
  · refine ⟨Or.inl, fun h => h.elim (fun h => h) fun heq => ?_⟩
    rw [Known, heq]
    exact hid
  · rw [Known, List.lookup_append, Known]
    by_cases heq : session = id
    · simp [heq]
    · have hne : (session == id) = false := beq_eq_false_iff_ne.mpr heq
      simp [List.lookup_cons, hne, heq]

theorem revoked_setSession (db : Db) (id session : ℕ) (f : Session → Session)
    (hf : ∀ x, (f x).revokedAt = x.revokedAt) :
    Revoked (db.setSession id f) session ↔ Revoked db session := by
  simp only [Revoked, lookup_setSession, Option.map_eq_some_iff]
  constructor
  · rintro ⟨_, ⟨x, hx, rfl⟩, hrevoked⟩
    refine ⟨x, hx, ?_⟩
    split_ifs at hrevoked
    · rwa [hf] at hrevoked
    · exact hrevoked
  · rintro ⟨x, hx, hrevoked⟩
    refine ⟨_, ⟨x, hx, rfl⟩, ?_⟩
    split_ifs
    · rwa [hf]
    · exact hrevoked

theorem revoked_touch (db : Db) (id session : ℕ) (now : ℤ) :
    Revoked (applyOther db (.touch id now)) session ↔ Revoked db session :=
  revoked_setSession db id session (fun x => { x with lastSeenAt := now }) fun _ => rfl

theorem revoked_stale (db : Db) (id session : ℕ) :
    Revoked (applyOther db (.stale id)) session ↔ Revoked db session :=
  revoked_setSession db id session (fun x => { x with stale := true }) fun _ => rfl

theorem revoked_revoke (db : Db) (id session : ℕ) (now : ℤ) :
    Revoked (applyOther db (.revoke id now)) session ↔
      (session = id ∧ Known db session) ∨ Revoked db session := by
  simp only [Revoked, Known, applyOther, lookup_setSession, Option.map_eq_some_iff,
    Option.isSome_iff_exists]
  constructor
  · rintro ⟨_, ⟨x, hx, rfl⟩, hrevoked⟩
    split_ifs at hrevoked with hid
    · exact Or.inl ⟨hid, x, hx⟩
    · exact Or.inr ⟨x, hx, hrevoked⟩
  · rintro (⟨hid, x, hx⟩ | ⟨x, hx, hrevoked⟩)
    · exact ⟨_, ⟨x, hx, rfl⟩, now, by rw [if_pos hid]⟩
    · refine ⟨_, ⟨x, hx, rfl⟩, ?_⟩
      split_ifs
      · exact ⟨now, rfl⟩
      · exact hrevoked

theorem revoked_addSession (db : Db) (id session : ℕ) (x : Session) :
    Revoked (applyOther db (.addSession id x)) session ↔ Revoked db session := by
  simp only [applyOther]
  split_ifs with hid
  · rfl
  · simp only [Revoked, List.lookup_append, Option.or_eq_some_iff]
    constructor
    · rintro ⟨y, hy | ⟨_, hy⟩, hrevoked⟩
      · exact ⟨y, hy, hrevoked⟩
      · rw [List.lookup_cons] at hy
        split at hy
        · rw [Option.some.injEq] at hy
          rw [← hy] at hrevoked
          cases hrevoked
        · cases hy
    · rintro ⟨y, hy, hrevoked⟩
      exact ⟨y, Or.inl hy, hrevoked⟩

theorem revoked_keeps (db : Db) (w : Write) (session : ℕ) (h : Revoked db session) :
    Revoked (apply db w) session := by
  cases w with
  | other w =>
    cases w with
    | addSession id x => exact (revoked_addSession db id session x).mpr h
    | touch id now => exact (revoked_touch db id session now).mpr h
    | stale id => exact (revoked_stale db id session).mpr h
    | revoke id now => exact (revoked_revoke db id session now).mpr (Or.inr h)
    | _ => exact h
  | _ => exact h

theorem revoked_keeps_all (writes : List Write) (db : Db) (session : ℕ) (h : Revoked db session) :
    Revoked (writes.foldl apply db) session := by
  induction writes generalizing db with
  | nil => exact h
  | cons w writes ih => exact ih _ (revoked_keeps db w session h)

/-- `db'` knows the sessions of `db`, and those revoked there are revoked. -/
structure Below (db db' : Db) : Prop where
  known : ∀ id, Known db id → Known db' id
  revoked : ∀ id, Revoked db id → Revoked db' id

/-- Whether a session is known after a write depends on what was known before. -/
theorem known_apply (db db' : Db) (w : Write) (hmono : ∀ id, Known db id → Known db' id)
    (session : ℕ) (h : Known (apply db w) session) : Known (apply db' w) session := by
  cases w with
  | other w =>
    cases w with
    | addSession id x =>
      exact (known_addSession db' id session x).mpr
        (((known_addSession db id session x).mp h).imp_left (hmono session))
    | touch id now =>
      exact (known_setSession db' id session _).mpr
        (hmono session ((known_setSession db id session _).mp h))
    | stale id =>
      exact (known_setSession db' id session _).mpr
        (hmono session ((known_setSession db id session _).mp h))
    | revoke id now =>
      exact (known_setSession db' id session _).mpr
        (hmono session ((known_setSession db id session _).mp h))
    | _ => exact hmono session h
  | _ => exact hmono session h

theorem known_keeps (db : Db) (w : Write) (session : ℕ) (h : Known db session) :
    Known (apply db w) session := by
  cases w with
  | other w =>
    cases w with
    | addSession id x => exact (known_addSession db id session x).mpr (Or.inl h)
    | touch id now => exact (known_setSession db id session _).mpr h
    | stale id => exact (known_setSession db id session _).mpr h
    | revoke id now => exact (known_setSession db id session _).mpr h
    | _ => exact h
  | _ => exact h

theorem known_keeps_all (writes : List Write) (db : Db) (session : ℕ) (h : Known db session) :
    Known (writes.foldl apply db) session := by
  induction writes generalizing db with
  | nil => exact h
  | cons w writes ih => exact ih _ (known_keeps db w session h)

theorem below_apply (db db' : Db) (w : Write) (h : Below db db') :
    Below (apply db w) (apply db' w) := by
  refine ⟨known_apply db db' w h.known, fun session hrevoked => ?_⟩
  cases w with
  | other w =>
    cases w with
    | addSession id x =>
      exact (revoked_addSession db' id session x).mpr
        (h.revoked session ((revoked_addSession db id session x).mp hrevoked))
    | touch id now =>
      exact (revoked_touch db' id session now).mpr
        (h.revoked session ((revoked_touch db id session now).mp hrevoked))
    | stale id =>
      exact (revoked_stale db' id session).mpr
        (h.revoked session ((revoked_stale db id session).mp hrevoked))
    | revoke id now =>
      refine (revoked_revoke db' id session now).mpr ?_
      rcases (revoked_revoke db id session now).mp hrevoked with ⟨hid, hknown⟩ | hrevoked
      · exact Or.inl ⟨hid, h.known session hknown⟩
      · exact Or.inr (h.revoked session hrevoked)
    | _ => exact h.revoked session hrevoked
  | _ => exact h.revoked session hrevoked

theorem below_foldl (writes : List Write) (db db' : Db) (h : Below db db') :
    Below (writes.foldl apply db) (writes.foldl apply db') := by
  induction writes generalizing db db' with
  | nil => exact h
  | cons w writes ih => exact ih _ _ (below_apply db db' w h)

theorem below_self_foldl (writes : List Write) (db : Db) : Below db (writes.foldl apply db) :=
  ⟨known_keeps_all writes db, revoked_keeps_all writes db⟩

end Hyproxy.RefreshLedger

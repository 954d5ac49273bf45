import Hyproxy.RejectedRequests
import Hyproxy.Runs

/-!
What a rejection records persists when the endpoint returns its errors. The
session is marked and the event written in the transaction that commits with the
response, and the proof is kept until it no longer passes.
-/

namespace Hyproxy.RejectionRecords

open Accounts (AuthEventType Session)
open Dpop (DpopProof ProofRequest Seen verifyProof verifyProofOffline)
open RejectedRequests
open ReplayCache (Kept checkAndStore)
open Runs Sessions

/-- The session and the user fit the guard, and the endpoint returns a response. -/
def Admitted (cfg : Config) (db : Db) (g : Guarded) (claims : AccessClaims) (now : ℤ) : Prop :=
  ∃ x u status, db.sessions.lookup claims.sid = some x ∧
    (verdict cfg.idleTtl cfg.sessionTouchInterval x g.request.sourceIp now true).passes = true ∧
    db.user x.user = some u ∧ u.status = .active ∧
    (g.guard = .requireUser ∨ x.tier = .admin ∧ u.tier = .admin) ∧ g.ending = .returns status

/-- A request that records its proof was issued it before, and is not answered by raising. -/
def Returned (cfg : Config) (s : State) : Event → Prop
  | .guarded g now => g.checked = true → ∀ recorded ∈ recordedBy cfg s.db g.request now,
    recorded.1.iat < now ∧ (g.guard = .userinfo ∨ Admitted cfg s.db g recorded.2.2 now)
  | .proof req ending now => ∀ p ∈ (verifyProof cfg.dpop s.db.seen req now).1.toOption,
    p.iat < now ∧ ∃ status, ending = .returns status
  | _ => True

/-- A request reads a time that is not before those read earlier. -/
def Timely (s : State) : Event → Prop
  | .guarded _ now => s.clock ≤ now
  | .proof _ _ now => s.clock ≤ now
  | _ => True

/-- What a rejection has recorded is in the database. -/
def Settled (db : Db) (r : Rejection) : Prop :=
  (∀ x, (r.session, x) ∈ db.sessions → x.stale = true ∨ x.revokedAt.isSome = true) ∧
    ∃ e ∈ db.events, e.type = r.type ∧ e.session = r.session

/-- Every rejection is recorded, and no proof of a failed request was accepted again. -/
structure Persisted (s : State) : Prop where
  settled : ∀ r ∈ s.rejections, Settled s.db r
  refused : s.reaccepted = []

structure Inv (cfg : Config) (s : State) : Prop where
  persisted : Persisted s
  below : ∀ r ∈ s.rejections, r.session < s.nextSession
  stored : ∀ entry ∈ s.db.sessions, entry.1 < s.nextSession
  kept : ∀ p ∈ s.failed, Kept s.db.seen s.clock (p.jkt, p.jti) (p.iat + cfg.dpop.iatWindow)

theorem inv_initial (cfg : Config) (start : ℤ) : Inv cfg (initial start) where
  persisted := ⟨by simp [initial], rfl⟩
  below := by simp [initial]
  stored := by simp [initial]
  kept := by simp [initial]

theorem settled_setSession (db : Db) (r : Rejection) (id : ℕ) (f : Session → Session)
    (hf : ∀ x, x.stale = true ∨ x.revokedAt.isSome = true →
      (f x).stale = true ∨ (f x).revokedAt.isSome = true)
    (h : Settled db r) : Settled (db.setSession id f) r := by
  refine ⟨fun x hx => ?_, h.2⟩
  obtain ⟨⟨k, y⟩, hy, heq⟩ := List.mem_map.mp hx
  obtain ⟨rfl, rfl⟩ := Prod.mk.injEq .. ▸ heq
  split_ifs
  · exact hf y (h.1 y hy)
  · exact h.1 y hy

theorem settled_emit (db : Db) (r : Rejection) (type : AuthEventType) (success : Bool) (id : ℕ)
    (x : Session) (ip : List Char) (h : Settled db r) :
    Settled (db.emit type success id x ip) r := by
  obtain ⟨e, he, hevent⟩ := h.2
  exact ⟨h.1, e, List.mem_cons_of_mem _ he, hevent⟩

theorem settled_revoke (db : Db) (r : Rejection) (id : ℕ) (x : Session) (type : AuthEventType)
    (ip : List Char) (now : ℤ) (h : Settled db r) : Settled (revoke db id x type ip now) r := by
  unfold revoke
  split_ifs
  · exact h
  · exact settled_emit _ r type true id x ip
      (settled_setSession db r id _ (fun _ _ => Or.inr rfl) h)

theorem settled_checkLiveness (cfg : Config) (db : Db) (r : Rejection) (id : ℕ) (x : Session)
    (ip : List Char) (now : ℤ) (enforceIp : Bool) (h : Settled db r) :
    Settled (checkLiveness cfg db id x ip now enforceIp).2 r := by
  unfold checkLiveness
  split
  · exact h
  · exact settled_revoke db r id x .sessionIdleTimeout ip now h
  · exact settled_emit _ r .sessionStaleIP false id x ip
      (settled_setSession db r id _ (fun _ _ => Or.inl rfl) h)
  · exact settled_setSession db r id _ (fun _ hx => hx) h
  · exact h

/-- A session that is not dead has not been revoked. -/
theorem verdict_unrevoked (cfg : Config) (x : Session) (ip : List Char) (now : ℤ)
    (enforceIp : Bool)
    (h : verdict cfg.idleTtl cfg.sessionTouchInterval x ip now enforceIp ≠ .dead) :
    x.revokedAt.isSome = false := by
  unfold verdict at h
  split_ifs at h with hdead <;> simp_all

theorem settled_rejection (cfg : Config) (db : Db) (r : Rejection) (id : ℕ) (x : Session)
    (ip : List Char) (now : ℤ) (h : rejectionOf cfg id x ip now = some r) :
    Settled (checkLiveness cfg db id x ip now true).2 r ∧ r.session = id := by
  unfold rejectionOf at h
  unfold checkLiveness
  split at h
  · rename_i hidle
    cases h
    have hunrevoked := verdict_unrevoked cfg x ip now true (by rw [hidle]; decide)
    simp only [hidle, revoke, hunrevoked]
    refine ⟨⟨fun y hy => ?_, ⟨_, List.mem_cons_self .., rfl, rfl⟩⟩, trivial⟩
    obtain ⟨⟨k, z⟩, _, heq⟩ := List.mem_map.mp hy
    obtain ⟨rfl, rfl⟩ := Prod.mk.injEq .. ▸ heq
    exact Or.inr (by simp)
  · rename_i hmoved
    cases h
    simp only [hmoved]
    refine ⟨⟨fun y hy => ?_, ⟨_, List.mem_cons_self .., rfl, rfl⟩⟩, trivial⟩
    obtain ⟨⟨k, z⟩, _, heq⟩ := List.mem_map.mp hy
    obtain ⟨rfl, rfl⟩ := Prod.mk.injEq .. ▸ heq
    exact Or.inl (by simp)
  · cases h

theorem verifyProof_ok (cfg : Dpop.Config) (seen seen' : Seen) (req : ProofRequest) (now : ℤ)
    (p : DpopProof) (h : verifyProof cfg seen req now = (.ok p, seen')) :
    verifyProofOffline cfg req now = .ok p ∧ (p.jkt, p.jti) ∉ seen.map Prod.fst ∧
      seen' = ((p.jkt, p.jti), now + cfg.iatWindow) :: seen := by
  unfold verifyProof at h
  cases hoffline : verifyProofOffline cfg req now with
  | error failure =>
    rw [hoffline] at h
    cases h
  | ok result =>
    by_cases hseen : (result.jkt, result.jti) ∈ seen.map Prod.fst
    · simp [hoffline, checkAndStore, hseen] at h
    · simp only [hoffline, checkAndStore, if_neg hseen] at h
      cases h
      exact ⟨rfl, hseen, rfl⟩

theorem verifyProof_error (cfg : Dpop.Config) (seen seen' : Seen) (req : ProofRequest) (now : ℤ)
    (e : Dpop.Failure) (h : verifyProof cfg seen req now = (.error e, seen')) : seen' = seen := by
  unfold verifyProof at h
  cases hoffline : verifyProofOffline cfg req now with
  | error failure =>
    rw [hoffline] at h
    cases h
    rfl
  | ok result =>
    by_cases hseen : (result.jkt, result.jti) ∈ seen.map Prod.fst
    · simp only [hoffline, checkAndStore, if_pos hseen] at h
      cases h
      rfl
    · simp [hoffline, checkAndStore, hseen] at h

theorem checkRequest_none (cfg : Config) (db : Db) (r : AuthRequest) (now : ℤ)
    (h : recordedBy cfg db r now = none) : ∃ e, checkRequest cfg db r now = (.error e, db) := by
  unfold recordedBy at h
  unfold checkRequest
  cases hclaims : accessClaims cfg r now with
  | error e => exact ⟨e, rfl⟩
  | ok pair =>
    obtain ⟨token, claims⟩ := pair
    simp only [hclaims] at h
    rcases hproof : verifyProof cfg.dpop db.seen (proofRequest r token claims) now
      with ⟨result, seen⟩
    rw [hproof] at h
    cases result with
    | ok p => cases h
    | error e =>
      obtain rfl := verifyProof_error _ _ _ _ _ _ hproof
      simp only [hproof]
      cases e with
      | dpop detail => exact ⟨_, rfl⟩
      | raised => exact ⟨_, rfl⟩

theorem checkRequest_some (cfg : Config) (db : Db) (r : AuthRequest) (now : ℤ) (p : DpopProof)
    (seen : Seen) (claims : AccessClaims) (h : recordedBy cfg db r now = some (p, seen, claims)) :
    checkRequest cfg db r now = checkSession cfg { db with seen := seen } claims r.sourceIp now ∧
      ∃ req, verifyProof cfg.dpop db.seen req now = (.ok p, seen) := by
  unfold recordedBy at h
  unfold checkRequest
  cases hclaims : accessClaims cfg r now with
  | error e =>
    rw [hclaims] at h
    cases h
  | ok pair =>
    obtain ⟨token, claims'⟩ := pair
    simp only [hclaims] at h
    rcases hproof : verifyProof cfg.dpop db.seen (proofRequest r token claims') now
      with ⟨result, seen'⟩
    rw [hproof] at h
    cases result with
    | error e => cases h
    | ok q =>
      cases h
      exact ⟨by simp only [hproof], _, hproof⟩

/-- What the session check leaves in the database. -/
theorem checkSession_db (cfg : Config) (db : Db) (claims : AccessClaims) (ip : List Char)
    (now : ℤ) : (checkSession cfg db claims ip now).2 =
      match db.sessions.lookup claims.sid with
      | none => db
      | some x => (checkLiveness cfg db claims.sid x ip now true).2 := by
  cases hx : db.sessions.lookup claims.sid with
  | none => simp only [checkSession, hx]
  | some x =>
    simp only [checkSession, hx]
    rcases hcheck : checkLiveness cfg db claims.sid x ip now true with ⟨passed, db'⟩
    cases passed with
    | false => rfl
    | true =>
      simp only
      cases db'.user x.user with
      | none => rfl
      | some u =>
        simp only
        split_ifs <;> rfl

theorem checkSession_admitted (cfg : Config) (db : Db) (seen : Seen) (g : Guarded)
    (claims : AccessClaims) (now : ℤ) (h : Admitted cfg db g claims now) :
    ∃ authed, (checkSession cfg { db with seen := seen } claims g.request.sourceIp now).1 =
        .ok authed ∧
      (g.guard = .requireUser ∨ authed.row.tier = .admin ∧ authed.user.tier = .admin) := by
  obtain ⟨x, u, status, hx, hpasses, huser, hactive, htier, _⟩ := h
  have hlive := checkLiveness_passes cfg { db with seen := seen } claims.sid x g.request.sourceIp
    now true
  have husers : ∀ db' : Db, (checkLiveness cfg db' claims.sid x g.request.sourceIp now true).1 = true →
      (checkLiveness cfg db' claims.sid x g.request.sourceIp now true).2.users = db'.users := by
    intro db' _
    unfold checkLiveness revoke
    split <;> first | rfl | (simp only; split_ifs <;> rfl)
  rw [hpasses] at hlive
  have huser' := husers _ hlive
  rcases hcheck : checkLiveness cfg { db with seen := seen } claims.sid x g.request.sourceIp now true
    with ⟨live, db'⟩
  rw [hcheck] at hlive huser'
  obtain rfl : live = true := hlive
  have hfound : db'.user x.user = some u := by
    rw [Db.user, show db'.users = db.users from huser']
    exact huser
  refine ⟨⟨claims.sid, x, u, claims⟩, ?_, htier⟩
  unfold checkSession
  simp only [hx, hcheck, hfound, if_pos hactive]

theorem checkSession_error (cfg : Config) (db : Db) (claims : AccessClaims) (ip : List Char)
    (now : ℤ) (e : CheckError) (h : (checkSession cfg db claims ip now).1 = .error e) :
    ∃ detail, e = .auth "invalid_token" detail := by
  unfold checkSession at h
  split at h
  · cases h
    exact ⟨_, rfl⟩
  · split at h
    · cases h
      exact ⟨_, rfl⟩
    · split at h
      · cases h
        exact ⟨_, rfl⟩
      · split_ifs at h
        cases h
        exact ⟨_, rfl⟩

theorem handle_unrecorded (cfg : Config) (db : Db) (g : Guarded) (now : ℤ)
    (h : recordedBy cfg db g.request now = none) : settle db (handle cfg db g now) = db := by
  obtain ⟨e, hcheck⟩ := checkRequest_none cfg db g.request now h
  unfold handle userinfo checkToken
  simp only [hcheck]
  split
  · cases e <;> rfl
  · split_ifs
    · cases e <;> rfl
    · rfl
  · cases e <;> rfl
  · cases e <;> rfl

theorem handle_recorded (cfg : Config) (db : Db) (g : Guarded) (now : ℤ) (p : DpopProof)
    (seen : Seen) (claims : AccessClaims) (hchecked : g.checked = true)
    (h : recordedBy cfg db g.request now = some (p, seen, claims))
    (hreturned : g.guard = .userinfo ∨ Admitted cfg db g claims now) :
    settle db (handle cfg db g now) =
      (checkSession cfg { db with seen := seen } claims g.request.sourceIp now).2 := by
  obtain ⟨hcheck, _⟩ := checkRequest_some cfg db g.request now p seen claims h
  rcases hsession : checkSession cfg { db with seen := seen } claims g.request.sourceIp now
    with ⟨result, db'⟩
  rw [hsession] at hcheck
  rcases hreturned with hguard | hadmitted
  · simp only [handle, hguard, userinfo, hcheck]
    cases result with
    | ok authed => rfl
    | error e =>
      obtain ⟨detail, rfl⟩ := checkSession_error cfg _ claims _ now e (by rw [hsession])
      rfl
  · obtain ⟨authed, hok, htier⟩ := checkSession_admitted cfg db seen g claims now hadmitted
    obtain ⟨_, _, status, _, _, _, _, _, hending⟩ := hadmitted
    rw [hsession] at hok
    obtain rfl : result = .ok authed := hok
    have htoken : checkToken cfg db g now = (.response status, db') := by
      have hnot : ¬ (g.guard ≠ .requireUser ∧
          (authed.row.tier ≠ .admin ∨ authed.user.tier ≠ .admin)) := by
        rcases htier with hguard | ⟨hrow, huser⟩
        · exact fun hbad => hbad.1 hguard
        · exact fun hbad => hbad.2.elim (fun hne => hne hrow) fun hne => hne huser
      simp only [checkToken, hcheck, if_neg hnot, hending, Ending.answer]
    cases hguard : g.guard with
    | userinfo =>
      simp only [handle, hguard, userinfo, hcheck]
      rfl
    | requireAdmin =>
      have hlan : g.lanClient = true := by simpa [Guarded.checked, hguard] using hchecked
      simp only [handle, hguard, hlan, htoken, if_true]
      rfl
    | requireUser =>
      simp only [handle, hguard, htoken]
      rfl
    | requirePortalAdmin =>
      simp only [handle, hguard, htoken]
      rfl

theorem settled_checkSession (cfg : Config) (db : Db) (r : Rejection) (claims : AccessClaims)
    (ip : List Char) (now : ℤ) (h : Settled db r) :
    Settled (checkSession cfg db claims ip now).2 r := by
  rw [checkSession_db]
  split
  · exact h
  · exact settled_checkLiveness cfg db r _ _ ip now true h

theorem stored_checkLiveness (cfg : Config) (db : Db) (id : ℕ) (x : Session) (ip : List Char)
    (now : ℤ) (enforceIp : Bool) :
    (checkLiveness cfg db id x ip now enforceIp).2.sessions.map Prod.fst =
      db.sessions.map Prod.fst := by
  unfold checkLiveness revoke
  split
  · rfl
  · simp only
    split_ifs
    · rfl
    · simp [Db.emit, Db.setSession, Function.comp_def]
  · simp [Db.emit, Db.setSession, Function.comp_def]
  · simp [Db.setSession, Function.comp_def]
  · rfl

/-- The sessions are those that were there. -/
theorem stored_of_map (s : State) (db : Db) (cfg : Config) (h : Inv cfg s)
    (hmap : db.sessions.map Prod.fst = s.db.sessions.map Prod.fst) :
    ∀ entry ∈ db.sessions, entry.1 < s.nextSession := by
  intro entry hentry
  have hmem := List.mem_map_of_mem (f := Prod.fst) hentry
  rw [hmap] at hmem
  obtain ⟨old, hold, heq⟩ := List.mem_map.mp hmem
  exact heq ▸ h.stored old hold

theorem kept_recorded (cfg : Config) (s : State) (seen : Seen) (req : ProofRequest) (now : ℤ)
    (p q : DpopProof) (h : Inv cfg s) (hclock : s.clock ≤ now)
    (hproof : verifyProof cfg.dpop s.db.seen req now = (.ok p, seen)) (hbefore : p.iat < now)
    (hq : q = p ∨ q ∈ s.failed) :
    Kept seen now (q.jkt, q.jti) (q.iat + cfg.dpop.iatWindow) := by
  obtain ⟨_, _, rfl⟩ := verifyProof_ok cfg.dpop s.db.seen seen req now p hproof
  rcases hq with rfl | hq
  · exact Or.inl ⟨_, List.mem_cons_self .., rfl, by simp only; omega⟩
  · exact ReplayCache.kept_mono s.db.seen _ s.clock now _ _ (h.kept q hq)
      (fun _ hrow => List.mem_cons_of_mem _ hrow) hclock

/-- A proof that was recorded by a failed request is not accepted again. -/
theorem not_failed (cfg : Config) (s : State) (seen : Seen) (req : ProofRequest) (now : ℤ)
    (p : DpopProof) (h : Inv cfg s) (hclock : s.clock ≤ now)
    (hproof : verifyProof cfg.dpop s.db.seen req now = (.ok p, seen)) : p ∉ s.failed := by
  obtain ⟨hoffline, hnew, _⟩ := verifyProof_ok cfg.dpop s.db.seen seen req now p hproof
  intro hfailed
  have hwindow := (Dpop.passes_of_ok cfg.dpop req now p hoffline).window
  exact hnew (ReplayCache.mem_of_kept s.db.seen s.clock now _ _ (h.kept p hfailed) hclock
    (by omega))

theorem note_fields (s : State) (p : DpopProof) (answer : Answer) (hp : p ∉ s.failed) :
    (s.note (some p) answer).reaccepted = s.reaccepted ∧
      (s.note (some p) answer).rejections = s.rejections ∧
      (s.note (some p) answer).nextSession = s.nextSession ∧
      ∀ q ∈ (s.note (some p) answer).failed, q = p ∨ q ∈ s.failed := by
  refine ⟨by simp [State.note, hp], rfl, rfl, fun q hq => ?_⟩
  simp only [State.note] at hq
  split_ifs at hq
  · exact List.mem_cons.mp hq
  · exact Or.inr hq

theorem inv_unrecorded (cfg : Config) (s : State) (now : ℤ) (h : Inv cfg s)
    (hclock : s.clock ≤ now) : Inv cfg { s with clock := now } where
  persisted := ⟨h.persisted.settled, h.persisted.refused⟩
  below := h.below
  stored := h.stored
  kept p hp := ReplayCache.kept_mono s.db.seen _ s.clock now _ _ (h.kept p hp)
    (fun _ hrow => hrow) hclock

theorem inv_guarded (cfg : Config) (s : State) (g : Guarded) (now : ℤ) (h : Inv cfg s)
    (hclock : s.clock ≤ now) (hreturned : Returned cfg s (.guarded g now)) :
    Inv cfg (guardedStep cfg s g now) := by
  unfold guardedStep
  by_cases hchecked : g.checked = true
  · cases hrecorded : recordedBy cfg s.db g.request now with
    | none =>
      have hnone : rejection cfg s.db g.request now = none := by rw [rejection, hrecorded]
      simp only [hchecked, if_true, hnone, handle_unrecorded cfg s.db g now hrecorded, State.note,
        Option.map_none, Option.toList_none, List.nil_append]
      exact inv_unrecorded cfg s now h hclock
    | some recorded =>
      obtain ⟨p, seen, claims⟩ := recorded
      obtain ⟨hbefore, hanswered⟩ := hreturned hchecked _ hrecorded
      obtain ⟨_, req, hproof⟩ := checkRequest_some cfg s.db g.request now p seen claims hrecorded
      have hdb := handle_recorded cfg s.db g now p seen claims hchecked hrecorded hanswered
      have hnew := not_failed cfg s seen req now p h hclock hproof
      obtain ⟨hre, hrej, hnext, hfailed⟩ := note_fields { s with
        rejections := (rejection cfg s.db g.request now).toList ++ s.rejections } p
        (handle cfg s.db g now).1 hnew
      simp only [hchecked, if_true, hdb, Option.map_some]
      have hold : ∀ r ∈ s.rejections, Settled { s.db with seen := seen } r :=
        h.persisted.settled
      have hnoted : ∀ r ∈ (rejection cfg s.db g.request now).toList,
          Settled (checkSession cfg { s.db with seen := seen } claims g.request.sourceIp now).2 r ∧
            r.session < s.nextSession := by
        intro r hr
        rw [Option.mem_toList, rejection, hrecorded] at hr
        simp only at hr
        cases hx : s.db.sessions.lookup claims.sid with
        | none => simp [hx] at hr
        | some x =>
          simp only [hx] at hr
          obtain ⟨hsettled, hid⟩ := settled_rejection cfg { s.db with seen := seen } r claims.sid x
            g.request.sourceIp now hr
          rw [checkSession_db]
          simp only [hx]
          exact ⟨hsettled, hid ▸ h.stored _ (mem_of_lookup _ _ _ hx)⟩
      refine ⟨⟨?_, hre.trans h.persisted.refused⟩, ?_, ?_, ?_⟩
      · rw [hrej]
        intro r hr
        rcases List.mem_append.mp hr with hr | hr
        · exact (hnoted r hr).1
        · exact settled_checkSession cfg _ r claims _ now (hold r hr)
      · rw [hrej, hnext]
        intro r hr
        rcases List.mem_append.mp hr with hr | hr
        · exact (hnoted r hr).2
        · exact h.below r hr
      · rw [hnext]
        refine stored_of_map s _ cfg h ?_
        rw [checkSession_db]
        split
        · rfl
        · exact stored_checkLiveness cfg _ _ _ _ now true
      · intro q hq
        rw [checkSession_seen]
        exact kept_recorded cfg s seen req now p q h hclock hproof hbefore (hfailed q hq)
  · have hguard : g.guard = .requireAdmin ∧ g.lanClient = false := by
      simpa [Guarded.checked] using hchecked
    have hsettle : settle s.db (handle cfg s.db g now) = s.db := by
      simp only [handle, hguard.1, hguard.2]
      rfl
    simp only [hchecked, hsettle]
    exact inv_unrecorded cfg s now h hclock

theorem inv_proof (cfg : Config) (s : State) (req : ProofRequest) (ending : Ending) (now : ℤ)
    (h : Inv cfg s) (hclock : s.clock ≤ now) (hreturned : Returned cfg s (.proof req ending now)) :
    Inv cfg (proofStep cfg s req ending now) := by
  unfold proofStep handleProof
  rcases hproof : verifyProof cfg.dpop s.db.seen req now with ⟨result, seen⟩
  cases result with
  | error e =>
    obtain rfl := verifyProof_error _ _ _ _ _ _ hproof
    have hidle := inv_unrecorded cfg s now h hclock
    cases e <;> exact hidle
  | ok p =>
    obtain ⟨hbefore, status, rfl⟩ := hreturned p (by rw [hproof]; rfl)
    have hnew := not_failed cfg s seen req now p h hclock hproof
    obtain ⟨hre, hrej, hnext, hfailed⟩ := note_fields s p (.response status) hnew
    refine ⟨⟨?_, hre.trans h.persisted.refused⟩, ?_, ?_, ?_⟩
    · exact fun r hr => h.persisted.settled r (hrej ▸ hr)
    · exact fun r hr => hnext ▸ h.below r (hrej ▸ hr)
    · exact fun entry hentry => hnext ▸ h.stored entry hentry
    · exact fun q hq => kept_recorded cfg s seen req now p q h hclock hproof hbefore (hfailed q hq)

theorem inv_other (cfg : Config) (s : State) (w : OtherWrite) (h : Inv cfg s) :
    Inv cfg (applyOther cfg s w) := by
  cases w with
  | createSession x =>
    refine ⟨⟨fun r hr => ?_, h.persisted.refused⟩, fun r hr => ?_, fun entry hentry => ?_, h.kept⟩
    · refine ⟨fun y hy => ?_, (h.persisted.settled r hr).2⟩
      rcases List.mem_append.mp hy with hy | hy
      · exact (h.persisted.settled r hr).1 y hy
      · rw [List.mem_singleton] at hy
        have hlt := h.below r hr
        obtain ⟨hid, _⟩ := Prod.mk.inj hy
        rw [hid] at hlt
        exact absurd hlt (Nat.lt_irrefl _)
    · exact Nat.lt_succ_of_lt (h.below r hr)
    · rcases List.mem_append.mp hentry with hentry | hentry
      · exact Nat.lt_succ_of_lt (h.stored entry hentry)
      · rw [List.mem_singleton] at hentry
        rw [hentry]
        exact Nat.lt_succ_self _
  | checkLiveness id ip enforceIp now =>
    simp only [applyOther]
    split
    · exact h
    · rename_i x hx
      refine ⟨⟨fun r hr => ?_, h.persisted.refused⟩, h.below, ?_, ?_⟩
      · exact settled_checkLiveness cfg s.db r id x ip now enforceIp (h.persisted.settled r hr)
      · exact stored_of_map s _ cfg h (stored_checkLiveness cfg s.db id x ip now enforceIp)
      · rw [checkLiveness_seen]
        exact h.kept
  | revoke id type ip now =>
    simp only [applyOther]
    split
    · exact h
    · rename_i x hx
      refine ⟨⟨fun r hr => ?_, h.persisted.refused⟩, h.below, ?_, ?_⟩
      · exact settled_revoke s.db r id x type ip now (h.persisted.settled r hr)
      · refine stored_of_map s _ cfg h ?_
        unfold revoke
        split_ifs
        · rfl
        · simp [Db.emit, Db.setSession, Function.comp_def]
      · unfold revoke
        split_ifs <;> exact h.kept
  | setUser u => exact ⟨⟨h.persisted.settled, h.persisted.refused⟩, h.below, h.stored, h.kept⟩
  | deleteUser id =>
    refine ⟨⟨fun r hr => ?_, h.persisted.refused⟩, h.below, fun entry hentry => ?_, h.kept⟩
    · exact ⟨fun x hx => (h.persisted.settled r hr).1 x (List.mem_of_mem_filter hx),
        (h.persisted.settled r hr).2⟩
    · exact h.stored entry (List.mem_of_mem_filter hentry)

theorem inv_step (cfg : Config) (s : State) (e : Event) (h : Inv cfg s) (htimely : Timely s e)
    (hreturned : Returned cfg s e) : Inv cfg (step cfg s e) := by
  cases e with
  | guarded g now => exact inv_guarded cfg s g now h htimely hreturned
  | proof req ending now => exact inv_proof cfg s req ending now h htimely hreturned
  | gc now =>
    exact ⟨⟨h.persisted.settled, h.persisted.refused⟩, h.below, h.stored,
      fun p hp => ReplayCache.kept_gc s.db.seen s.clock now _ _ (h.kept p hp)⟩
  | other w => exact inv_other cfg s w h

/-- In every run whose requests return once they have recorded a proof, what they record while
they are rejected persists. -/
theorem rejection_persists (cfg : Config) (start : ℤ) (events : List Event)
    (htimely : Along (step cfg) Timely (initial start) events)
    (hreturned : Along (step cfg) (Returned cfg) (initial start) events) :
    ∀ n, Persisted (after cfg start (events.take n)) := by
  intro n
  have hboth := along_take _ _ _ _ n (along_and (step cfg) _ _ _ _ htimely hreturned)
  exact (hboth.invariant (Inv cfg) (inv_initial cfg start) fun s e h hguard =>
    inv_step cfg s e h hguard.1 hguard.2).persisted

def sampleDpop : Dpop.Config where
  iatWindow := 300000000
  iatFutureSkew := 30000000
  b64Decode segment := some (segment.map fun c => UInt8.ofNat c.toNat)
  jsonLoads bytes :=
    if bytes = [104] then
      some (.obj [("typ".toList, .str "dpop+jwt".toList), ("alg".toList, .str "ES256".toList),
        ("jwk".toList, .obj [("kty".toList, .str "EC".toList), ("crv".toList, .str "P-256".toList),
          (['x'], .str ['x']), (['y'], .str ['y'])])])
    else
      some (.obj [("jti".toList, .str "12345678".toList), ("htm".toList, .str "GET".toList),
        ("htu".toList, .str ['u']), ("iat".toList, .int 100), ("ath".toList, .str ['t'])])
  repr _ := ""
  importKey _ := .returns ()
  deserializeCompact _ _ := .returns [99]
  thumbprint _ := ['k']
  urlsplit _ := some ⟨"https".toList, ['h'], none, ['/']⟩
  lower := id
  athOf := id

def sampleConfig : Config :=
  ⟨1800000000, 60000000, ['i'], sampleDpop, fun _ => .ok ⟨['i'], some 10000, some 0, some ['k'], []⟩⟩

def sampleRequest (ip : Char) : AuthRequest :=
  ⟨"DPoP t".toList, "h.c.s".toList, "GET".toList, ['u'], [ip]⟩

/-- A standard user signs in from the address `a`, last seen at the given time. -/
def signedIn (lastSeenAt : ℤ) : List Event :=
  [.other (.setUser ⟨1, [], .active, .standard, [], false⟩),
    .other (.createSession ⟨1, [], ['a'], .standard, [], lastSeenAt, 20000000000, false, none, 0⟩)]

def guarded (guard : Guard) (ip : Char) (now : ℤ) : Event :=
  .guarded ⟨guard, true, sampleRequest ip, .returns 200⟩ now

def roaming (guard : Guard) : List Event := signedIn 100000000 ++ [guarded guard 'b' 110000000]

def resting (guard : Guard) : List Event := signedIn (-2000000000) ++ [guarded guard 'a' 110000000]

/-- A standard user asks an endpoint for administrators twice with one proof. -/
def refusedTwice : List Event :=
  signedIn 100000000 ++
    [guarded .requirePortalAdmin 'a' 110000000, guarded .requirePortalAdmin 'a' 120000000]

theorem rejection_persists_sample :
    (after sampleConfig 0 (roaming .userinfo)).rejections = [⟨0, .sessionStaleIP⟩] ∧
      Persisted (after sampleConfig 0 ((roaming .userinfo).take 3)) := by
  refine ⟨by decide, rejection_persists sampleConfig 0 (roaming .userinfo) ?_ ?_ 3⟩
  · have htime : (0 : ℤ) ≤ 110000000 := by decide
    exact ⟨trivial, trivial, htime, trivial⟩
  · refine ⟨trivial, trivial, fun _ recorded hrecorded => ?_, trivial⟩
    have hvalue : recordedBy sampleConfig (after sampleConfig 0 (signedIn 100000000)).db
        (sampleRequest 'b') 110000000 = some (⟨['k'], "12345678".toList, 100000000⟩,
          [((['k'], "12345678".toList), 410000000)], ⟨0, [], ['k'], 10000000000⟩) := by rfl
    obtain rfl := Option.some.inj (hvalue.symm.trans hrecorded)
    exact ⟨by decide, Or.inl rfl⟩

theorem rejection_lost :
    (after sampleConfig 0 (roaming .requireUser)).rejections = [⟨0, .sessionStaleIP⟩] ∧
      ¬ Persisted (after sampleConfig 0 (roaming .requireUser)) ∧
      (after sampleConfig 0 (resting .requireUser)).rejections = [⟨0, .sessionIdleTimeout⟩] ∧
      ¬ Persisted (after sampleConfig 0 (resting .requireUser)) ∧
      (after sampleConfig 0 refusedTwice).reaccepted = [⟨['k'], "12345678".toList, 100000000⟩] := by
  refine ⟨by decide, fun h => ?_, by decide, fun h => ?_, by decide⟩
  · have hnone : (after sampleConfig 0 (roaming .requireUser)).db.events = [] := by decide
    obtain ⟨e, he, _⟩ := (h.settled ⟨0, .sessionStaleIP⟩ (by decide)).2
    rw [hnone] at he
    cases he
  · have hnone : (after sampleConfig 0 (resting .requireUser)).db.events = [] := by decide
    obtain ⟨e, he, _⟩ := (h.settled ⟨0, .sessionIdleTimeout⟩ (by decide)).2
    rw [hnone] at he
    cases he

end Hyproxy.RejectionRecords

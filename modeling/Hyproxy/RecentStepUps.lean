import Hyproxy.StepUp

/-!
Behind every request that needs a fresh assertion there is one. The same session was offered a
challenge, then an assertion over that challenge by a passkey of the same user was verified for it,
and the request was accepted within the bound, whatever other requests ran in between.
-/
namespace Hyproxy.RecentStepUps

open Accounts (User WebAuthnCredential)
open ReadCommitted (Txn)
open StepUp

variable (cfg : Config)

/-- A step-up of the session is among the answers. -/
def SteppedUp (answers : List Answer) (id user : ℕ) (t : ℤ) : Prop :=
  ∃ c challenge assertion, .steppedUp id user c challenge assertion t ∈ answers

/-- The answers before it account for an answer. -/
def Explained (past : List Answer) : Answer → Prop
  | .steppedUp id user c challenge assertion _ => .offered id challenge ∈ past ∧ c.user = user ∧
      assertion.rawId = some c.credentialId ∧
      (cfg.verifyAssertion assertion.text challenge c).isSome = true
  | .accepted id user now => ∃ t, SteppedUp past id user t ∧ now - t ≤ cfg.stepupMaxAge
  | _ => True

/-- A step-up is one of the user that the session was given to. -/
def Owned (owner : ℕ → Option ℕ) : Answer → Prop
  | .steppedUp id user _ _ _ _ => owner id = some user
  | _ => True

/-- What the row of a session says is accounted for. -/
structure RowOk (owner : ℕ → Option ℕ) (answers : List Answer) (id : ℕ) (x : Session) : Prop where
  owner : owner id = some x.user
  challenge : ∀ c, x.stepupChallenge = some c → .offered id c ∈ answers
  verified : ∀ t, x.stepUpVerifiedAt = some t → SteppedUp answers id x.user t

def RowsOk (db : Db) (answers : List Answer) : Prop :=
  ∀ entry ∈ db.sessions, RowOk db.owner answers entry.1 entry.2

/-- A transaction offers a challenge or records a step-up only with its answer. -/
def WriteOk (a : Option Answer) : Write → Prop
  | .setChallenge id (some c) => a = some (.offered id c)
  | .setVerified id t => ∃ user c challenge assertion,
      a = some (.steppedUp id user c challenge assertion t)
  | _ => True

/-- The passkey of the session's user that has signed a challenge offered to the session. -/
structure Asserted (owner : ℕ → Option ℕ) (answers : List Answer) (id : ℕ) (x : Session)
    (c : WebAuthnCredential) (challenge : Text) (assertion : Accounts.Assertion) : Prop where
  row : RowOk owner answers id x
  offered : .offered id challenge ∈ answers
  user : c.user = x.user
  rawId : assertion.rawId = some c.credentialId
  verified : (cfg.verifyAssertion assertion.text challenge c).isSome = true

/-- What is known where a transaction stands; its first read comes before its writes. -/
def PointOk (owner : ℕ → Option ℕ) (answers : List Answer) (writes : List Write) : Point → Prop
  | .cookie _ _ => writes = []
  | .token _ _ => writes = []
  | .revoke _ a => Explained cfg answers a ∧ Owned owner a
  | .stale _ a => Explained cfg answers a ∧ Owned owner a
  | .touch id x _ => RowOk owner answers id x
  | .user id x _ => RowOk owner answers id x
  | .credentials id x _ => RowOk owner answers id x
  | .offer _ _ => True
  | .take id x challenge _ _ => RowOk owner answers id x ∧ .offered id challenge ∈ answers
  | .credential id x challenge _ _ => RowOk owner answers id x ∧ .offered id challenge ∈ answers
  | .count id x c challenge assertion _ _ => Asserted cfg owner answers id x c challenge assertion
  | .stamp id x c challenge assertion _ => Asserted cfg owner answers id x c challenge assertion
  | .handler _ a => Explained cfg answers a ∧ Owned owner a
  | .answered a => Explained cfg answers a ∧ Owned owner a

structure TxnOk (owner : ℕ → Option ℕ) (answers : List Answer) (x : Txn Write Point) : Prop where
  point : PointOk cfg owner answers x.writes x.point
  writes : ∀ w ∈ x.writes, WriteOk x.point.answer w

structure Inv (s : System) : Prop where
  rows : RowsOk s.db s.answers
  txns : ∀ x ∈ s.txns, TxnOk cfg s.db.owner s.answers x
  answers : ∀ past a rest, s.answers = past ++ a :: rest → Explained cfg past a

/-! ### More answers and more sessions -/

section Growth

variable {cfg : Config} {owner owner' : ℕ → Option ℕ} {answers answers' : List Answer}
  (howner : ∀ id u, owner id = some u → owner' id = some u) (hanswers : answers ⊆ answers')

include hanswers in
theorem Explained.grow {a : Answer} (h : Explained cfg answers a) : Explained cfg answers' a := by
  cases a with
  | steppedUp id user c challenge assertion t => exact ⟨hanswers h.1, h.2⟩
  | accepted id user now =>
    obtain ⟨t, ⟨c, challenge, assertion, hmem⟩, hage⟩ := h
    exact ⟨t, ⟨c, challenge, assertion, hanswers hmem⟩, hage⟩
  | error status message => trivial
  | offered id challenge => trivial
  | done => trivial

include howner in
theorem Owned.grow {a : Answer} (h : Owned owner a) : Owned owner' a := by
  cases a with
  | steppedUp id user c challenge assertion t => exact howner id user h
  | accepted id user now => trivial
  | error status message => trivial
  | offered id challenge => trivial
  | done => trivial

include howner hanswers

theorem RowOk.grow {id : ℕ} {x : Session} (h : RowOk owner answers id x) :
    RowOk owner' answers' id x := by
  refine ⟨howner id _ h.owner, fun c hc => hanswers (h.challenge c hc), fun t ht => ?_⟩
  obtain ⟨c, challenge, assertion, hmem⟩ := h.verified t ht
  exact ⟨c, challenge, assertion, hanswers hmem⟩

theorem Asserted.grow {id : ℕ} {x : Session} {c : WebAuthnCredential} {challenge : Text}
    {assertion : Accounts.Assertion} (h : Asserted cfg owner answers id x c challenge assertion) :
    Asserted cfg owner' answers' id x c challenge assertion :=
  ⟨h.row.grow howner hanswers, hanswers h.offered, h.user, h.rawId, h.verified⟩

theorem TxnOk.grow {x : Txn Write Point} (h : TxnOk cfg owner answers x) :
    TxnOk cfg owner' answers' x := by
  refine ⟨?_, h.writes⟩
  have hpoint := h.point
  revert hpoint
  cases x.point with
  | cookie value e => exact fun h => h
  | token session e => exact fun h => h
  | offer id challenge => exact fun h => h
  | touch id y e => exact fun h => h.grow howner hanswers
  | user id y e => exact fun h => h.grow howner hanswers
  | credentials id y challenge => exact fun h => h.grow howner hanswers
  | take id y challenge assertion t =>
    exact fun h => ⟨h.1.grow howner hanswers, hanswers h.2⟩
  | credential id y challenge assertion t =>
    exact fun h => ⟨h.1.grow howner hanswers, hanswers h.2⟩
  | count id y c challenge assertion count t => exact fun h => h.grow howner hanswers
  | stamp id y c challenge assertion t => exact fun h => h.grow howner hanswers
  | revoke id a => exact fun h => ⟨h.1.grow hanswers, h.2.grow howner⟩
  | stale id a => exact fun h => ⟨h.1.grow hanswers, h.2.grow howner⟩
  | handler rest a => exact fun h => ⟨h.1.grow hanswers, h.2.grow howner⟩
  | answered a => exact fun h => ⟨h.1.grow hanswers, h.2.grow howner⟩

end Growth

/-! ### Statements -/

variable {cfg : Config} {owner : ℕ → Option ℕ} {answers : List Answer}

theorem mem_of_lookup (sessions : List (ℕ × Session)) (id : ℕ) (x : Session)
    (h : sessions.lookup id = some x) : (id, x) ∈ sessions := by
  obtain ⟨left, right, rfl, -⟩ := List.lookup_eq_some_iff.mp h
  exact List.mem_append_right _ (List.mem_cons_self ..)

theorem cookieSession_mem (db : Db) (value : Option Text) (entry : ℕ × Session)
    (h : cookieSession cfg db value = some entry) : entry ∈ db.sessions := by
  cases value with
  | none => cases h
  | some value =>
    rw [cookieSession] at h
    split_ifs at h
    obtain ⟨id, -, h⟩ := Option.bind_eq_some_iff.mp h
    obtain ⟨x, hx, h⟩ := Option.bind_eq_some_iff.mp h
    split_ifs at h
    rw [← Option.some.inj h]
    exact mem_of_lookup _ id x hx

theorem denied_ok (p : Purpose) : Explained cfg answers p.denied ∧ Owned owner p.denied := by
  cases p with
  | options challenge => exact ⟨trivial, trivial⟩
  | verify assertion => exact ⟨trivial, trivial⟩
  | mutation writes => exact ⟨trivial, trivial⟩

theorem checked_ok (e : Entry) (found : Option (ℕ × Session)) (writes : List Write)
    (h : ∀ entry ∈ found, RowOk owner answers entry.1 entry.2) :
    PointOk cfg owner answers writes (checked cfg e found) := by
  cases found with
  | none => exact denied_ok e.purpose
  | some entry =>
    unfold checked
    simp only
    split
    · exact denied_ok e.purpose
    · exact denied_ok e.purpose
    · exact denied_ok e.purpose
    · exact h entry rfl
    · exact h entry rfl

theorem admitted_ok (id : ℕ) (x : Session) (now : ℤ) (user : Option User) (e : Entry)
    (writes : List Write) (h : RowOk owner answers id x) :
    PointOk cfg owner answers writes (admitted cfg id x now user e) := by
  unfold admitted
  split
  · split_ifs
    · exact h
    · exact ⟨trivial, trivial⟩
  · split_ifs
    · split
      · exact ⟨trivial, trivial⟩
      · rename_i challenge hchallenge
        exact ⟨h, h.challenge challenge hchallenge⟩
    · exact ⟨trivial, trivial⟩
  · rename_i handler hpurpose
    split_ifs with hactive htier hrecent
    · exact denied_ok e.purpose
    · exact ⟨trivial, trivial⟩
    · exact ⟨trivial, trivial⟩
    · rw [Bool.not_eq_true', Bool.not_eq_false, recentStepup, Option.any_eq_true] at hrecent
      obtain ⟨t, ht, hage⟩ := hrecent
      exact ⟨⟨t, h.verified t ht, of_decide_eq_true hage⟩, trivial⟩

theorem asserted_some (db : Db) (user : ℕ) (challenge : Text) (assertion : Accounts.Assertion)
    (c : WebAuthnCredential) (count : ℕ)
    (h : asserted cfg db user challenge assertion = some (c, count)) :
    c.user = user ∧ assertion.rawId = some c.credentialId ∧
      cfg.verifyAssertion assertion.text challenge c = some count := by
  obtain ⟨rawId, hraw, h⟩ := Option.bind_eq_some_iff.mp h
  obtain ⟨found, hfound, h⟩ := Option.bind_eq_some_iff.mp h
  split_ifs at h with huser
  obtain ⟨count', hcount, h⟩ := Option.bind_eq_some_iff.mp h
  cases h
  have hid := List.find?_some hfound
  rw [beq_iff_eq] at hid
  exact ⟨huser, hraw.trans (congrArg some hid.symm), hcount⟩

theorem select_ok (db : Db) (now : ℤ) (p : Point) (writes : List Write)
    (hrows : writes = [] → db.owner = owner ∧ RowsOk db answers)
    (h : PointOk cfg owner answers writes p) :
    PointOk cfg owner answers writes (select cfg db now p) := by
  cases p with
  | cookie value e =>
    obtain ⟨rfl, hdb⟩ := hrows h
    exact checked_ok e _ writes fun entry hentry =>
      hdb entry (cookieSession_mem db value entry hentry)
  | token session e =>
    obtain ⟨rfl, hdb⟩ := hrows h
    refine checked_ok e _ writes fun entry hentry => ?_
    obtain ⟨x, hx, rfl⟩ := Option.map_eq_some_iff.mp hentry
    exact hdb _ (mem_of_lookup _ session x hx)
  | user id x e => exact admitted_ok id x now _ e writes h
  | credentials id x challenge =>
    rw [select]
    split_ifs
    · trivial
    · exact ⟨trivial, trivial⟩
  | credential id x challenge assertion arrived =>
    rw [select]
    split
    · exact ⟨trivial, trivial⟩
    · rename_i c count hasserted
      obtain ⟨huser, hraw, hcount⟩ := asserted_some db _ _ _ c count hasserted
      exact ⟨h.1, h.2, huser, hraw, by rw [hcount]; rfl⟩
  | revoke id a => exact h
  | stale id a => exact h
  | touch id x e => exact h
  | offer id challenge => exact h
  | take id x challenge assertion arrived => exact h
  | count id x c challenge assertion count arrived => exact h
  | stamp id x c challenge assertion arrived => exact h
  | handler rest a => exact h
  | answered a => exact h

theorem update_some (db : Db) (id : ℕ) (w : Write) (next p : Point) (new : List Write)
    (h : update db id w next = some (new, p)) : new = [w] ∧ p = next := by
  unfold update at h
  split_ifs at h
  cases h
  exact ⟨rfl, rfl⟩

/-- One statement keeps what is known of its transaction. -/
theorem statement_ok (db : Db) (now : ℤ) (p p' : Point) (writes new : List Write)
    (hrows : writes = [] → db.owner = owner ∧ RowsOk db answers)
    (h : PointOk cfg owner answers writes p) (hopen : p.answer = none)
    (hstatement : statement cfg db now p = some (new, p')) :
    PointOk cfg owner answers (writes ++ new) p' ∧ ∀ w ∈ new, WriteOk p'.answer w := by
  have hread : statement cfg db now p = some ([], select cfg db now p) →
      PointOk cfg owner answers (writes ++ new) p' ∧ ∀ w ∈ new, WriteOk p'.answer w := by
    intro hselect
    rw [hselect] at hstatement
    obtain ⟨rfl, rfl⟩ := Prod.mk.inj (Option.some.inj hstatement)
    rw [List.append_nil]
    exact ⟨select_ok db now p writes hrows h, fun w hw => absurd hw List.not_mem_nil⟩
  have hsingle : ∀ (w : Write) (next : Point), new = [w] ∧ p' = next →
      PointOk cfg owner answers (writes ++ [w]) next → WriteOk next.answer w →
      PointOk cfg owner answers (writes ++ new) p' ∧ ∀ w ∈ new, WriteOk p'.answer w := by
    rintro w next ⟨rfl, rfl⟩ hpoint hw
    exact ⟨hpoint, fun w' hw' => List.mem_singleton.mp hw' ▸ hw⟩
  cases p with
  | cookie value e => exact hread rfl
  | token session e => exact hread rfl
  | user id x e => exact hread rfl
  | credentials id x challenge => exact hread rfl
  | credential id x challenge assertion arrived => exact hread rfl
  | revoke id a => exact hsingle _ _ (update_some db id _ _ p' new hstatement) h trivial
  | stale id a => exact hsingle _ _ (update_some db id _ _ p' new hstatement) h trivial
  | touch id x e => exact hsingle _ _ (update_some db id _ _ p' new hstatement) h trivial
  | offer id challenge =>
    exact hsingle _ _ (update_some db id _ _ p' new hstatement) ⟨trivial, trivial⟩ rfl
  | take id x challenge assertion arrived =>
    exact hsingle _ _ (update_some db id _ _ p' new hstatement) h trivial
  | count id x c challenge assertion count arrived =>
    rw [statement] at hstatement
    split_ifs at hstatement
    cases hstatement
    exact hsingle _ _ ⟨rfl, rfl⟩ h trivial
  | stamp id x c challenge assertion arrived =>
    refine hsingle _ _ (update_some db id _ _ p' new hstatement) ?_ ⟨_, _, _, _, rfl⟩
    refine ⟨⟨h.offered, h.user, h.rawId, h.verified⟩, h.row.owner⟩
  | handler rest a =>
    cases rest with
    | nil =>
      cases hstatement
      rw [List.append_nil]
      exact ⟨h, fun w hw => absurd hw List.not_mem_nil⟩
    | cons w rest =>
      cases hstatement
      exact hsingle _ _ ⟨rfl, rfl⟩ h trivial
  | answered a => cases hopen

/-! ### Commits -/

theorem owner_apply (db : Db) (w : Write) (id user : ℕ) (h : db.owner id = some user) :
    (apply db w).owner id = some user := by
  cases w with
  | setChallenge id' challenge => exact h
  | setVerified id' now => exact h
  | other w =>
    cases w with
    | addSession id' x =>
      rw [apply, applyOther]
      split_ifs with hgiven
      · exact h
      · have hne : id ≠ id' := by
          rintro rfl
          rw [h] at hgiven
          exact hgiven rfl
        exact (Function.update_of_ne hne _ _).trans h
    | touch id' now => exact h
    | stale id' => exact h
    | revoke id' now => exact h
    | reissue id' hash => exact h
    | setUser u => exact h
    | deleteUser id' => exact h
    | addCredential c => exact h
    | deleteCredential id' => exact h
    | setSignCount id' count => exact h

theorem rows_setSession (db : Db) (id : ℕ) (f : Session → Session) (h : RowsOk db answers)
    (hf : ∀ x, RowOk db.owner answers id x → RowOk db.owner answers id (f x)) :
    RowsOk (db.setSession id f) answers := by
  intro entry hentry
  obtain ⟨old, hold, rfl⟩ := List.mem_map.mp hentry
  change RowOk db.owner answers old.1 (if old.1 = id then f old.2 else old.2)
  split_ifs with hid
  · exact hid ▸ hf old.2 (hid ▸ h old hold)
  · exact h old hold

/-- A write with the answer of its transaction keeps the rows. -/
theorem rows_apply (db : Db) (w : Write) (a : Answer) (h : RowsOk db answers)
    (hmem : a ∈ answers) (howned : Owned db.owner a) (hw : WriteOk (some a) w) :
    RowsOk (apply db w) answers := by
  cases w with
  | setChallenge id challenge =>
    refine rows_setSession db id _ h fun x hx => ⟨hx.owner, fun c hc => ?_, hx.verified⟩
    obtain rfl : challenge = some c := hc
    exact Option.some.inj hw ▸ hmem
  | setVerified id now =>
    obtain ⟨user, c, challenge, assertion, ha⟩ := hw
    obtain rfl := Option.some.inj ha
    refine rows_setSession db id _ h fun x hx => ⟨hx.owner, hx.challenge, fun t ht => ?_⟩
    obtain rfl := Option.some.inj ht
    obtain rfl : user = x.user := Option.some.inj (howned.symm.trans hx.owner)
    exact ⟨c, challenge, assertion, hmem⟩
  | other w =>
    cases w with
    | addSession id x =>
      rw [apply, applyOther]
      split_ifs with hgiven
      · exact h
      · intro entry hentry
        rcases List.mem_append.mp hentry with hold | hnew
        · have hrow := h entry hold
          have hne : entry.1 ≠ id := fun hsame =>
            hgiven (by rw [← hsame, hrow.owner]; rfl)
          exact ⟨(Function.update_of_ne hne _ _).trans hrow.owner, hrow.challenge, hrow.verified⟩
        · rw [List.mem_singleton.mp hnew]
          refine ⟨Function.update_self _ _ _, ?_, ?_⟩
          · intro c hc
            cases hc
          · intro t ht
            cases ht
    | touch id now => exact rows_setSession db id _ h fun x hx => ⟨hx.owner, hx.challenge, hx.verified⟩
    | stale id => exact rows_setSession db id _ h fun x hx => ⟨hx.owner, hx.challenge, hx.verified⟩
    | revoke id now =>
      exact rows_setSession db id _ h fun x hx => ⟨hx.owner, hx.challenge, hx.verified⟩
    | reissue id hash =>
      exact rows_setSession db id _ h fun x hx => ⟨hx.owner, hx.challenge, hx.verified⟩
    | deleteUser id => exact fun entry hentry => h entry (List.mem_filter.mp hentry).1
    | setUser u => exact h
    | addCredential c => exact h
    | deleteCredential id => exact h
    | setSignCount id count => exact h

theorem rows_commit (a : Answer) (writes : List Write) (db : Db) (h : RowsOk db answers)
    (hmem : a ∈ answers) (howned : Owned db.owner a) (hw : ∀ w ∈ writes, WriteOk (some a) w) :
    RowsOk (writes.foldl apply db) answers ∧
      ∀ id user, db.owner id = some user → (writes.foldl apply db).owner id = some user := by
  induction writes generalizing db with
  | nil => exact ⟨h, fun _ _ h => h⟩
  | cons w rest ih =>
    have hfirst := rows_apply db w a h hmem howned (hw w (List.mem_cons_self ..))
    obtain ⟨hrows, howner⟩ := ih (apply db w) hfirst (howned.grow fun id u => owner_apply db w id u)
      fun w' hw' => hw w' (List.mem_cons_of_mem _ hw')
    exact ⟨hrows, fun id user huser => howner id user (owner_apply db w id user huser)⟩

/-- What a transaction has written before its answer fits every answer. -/
theorem writeOk_any (w : Write) (a : Option Answer) (h : WriteOk none w) : WriteOk a w := by
  cases w with
  | setChallenge id challenge =>
    cases challenge with
    | none => trivial
    | some c => cases h
  | setVerified id now =>
    obtain ⟨user, c, challenge, assertion, h⟩ := h
    cases h
  | other w => trivial

theorem inv_initial (cfg : Config) : Inv cfg initial :=
  ⟨fun _ h => absurd h List.not_mem_nil, fun _ h => absurd h List.not_mem_nil,
    fun past a rest h => by cases past <;> cases h⟩

theorem start_ok (request : Request) (now : ℤ) :
    PointOk cfg owner answers [] (start request now) := by
  cases request with
  | options cookie ip challenge => rfl
  | verify cookie ip assertion => rfl
  | mutation session ip writes => rfl
  | other writes => exact ⟨trivial, trivial⟩

theorem inv_step (s : System) (e : ReadCommitted.Event Request) (h : Inv cfg s) :
    Inv cfg (ReadCommitted.step (program cfg) s e) := by
  generalize ht : ReadCommitted.step (program cfg) s e = s'
  have heffect := ht ▸ ReadCommitted.step_effect (program cfg) s e
  cases heffect with
  | wait => exact ⟨h.rows, h.txns, h.answers⟩
  | arrive t request now hnew =>
    refine ⟨h.rows, fun x hx => ?_, h.answers⟩
    rcases List.mem_cons.mp hx with rfl | hx
    · exact ⟨start_ok request now, fun w hw => absurd hw List.not_mem_nil⟩
    · exact h.txns x hx
  | statement x now writes p hmem hanswer hstatement hfree =>
    refine ⟨h.rows, fun y hy => ?_, h.answers⟩
    rcases ReadCommitted.mem_put s _ y hy with rfl | ⟨hy, -⟩
    · have hx := h.txns x hmem
      obtain ⟨hpoint, hwrites⟩ := statement_ok (x.view (program cfg) s.db) now x.point p x.writes
        writes (fun hnil => by rw [Txn.view, hnil]; exact ⟨rfl, h.rows⟩) hx.point hanswer hstatement
      refine ⟨hpoint, fun w hw => ?_⟩
      rcases List.mem_append.mp hw with hw | hw
      · exact writeOk_any w _ (hanswer ▸ hx.writes w hw)
      · exact hwrites w hw
    · exact h.txns y hy
  | commit x r hmem hanswer =>
    have hx := h.txns x hmem
    have hpoint : x.point = .answered r := by
      revert hanswer
      change x.point.answer = some r → _
      cases x.point <;> intro hanswer <;> cases hanswer
      rfl
    have hr : Explained cfg s.answers r ∧ Owned s.db.owner r := by
      have hp := hx.point
      rw [hpoint] at hp
      exact hp
    have hgrow : s.answers ⊆ s.answers ++ [r] := List.subset_append_left _ _
    have hrows : RowsOk s.db (s.answers ++ [r]) :=
      fun entry hentry => (h.rows entry hentry).grow (fun _ _ h => h) hgrow
    obtain ⟨hrows', howner⟩ := rows_commit r x.writes s.db hrows
      (List.mem_append_right _ (List.mem_singleton.mpr rfl)) hr.2
      fun w hw => hanswer ▸ hx.writes w hw
    refine ⟨hrows', fun y hy => ?_, fun past a rest heq => ?_⟩
    · exact (h.txns y ((ReadCommitted.mem_drop s x.id y).mp hy).1).grow howner hgrow
    · rcases List.eq_nil_or_concat rest with rfl | ⟨front, last, rfl⟩
      · obtain ⟨rfl, hlast⟩ := List.append_inj' heq rfl
        rw [← List.singleton_inj.mp hlast]
        exact hr.1
      · refine h.answers past a front ?_
        rw [List.concat_eq_append, ← List.cons_append, ← List.append_assoc] at heq
        exact (List.append_inj' heq rfl).1
  | abandon _ t =>
    exact ⟨h.rows, fun y hy => h.txns y ((ReadCommitted.mem_drop s t y).mp hy).1, h.answers⟩

theorem inv_after (cfg : Config) (events : List (ReadCommitted.Event Request)) :
    Inv cfg (after cfg events) := by
  have hinv : ∀ s, Inv cfg s → Inv cfg (events.foldl (ReadCommitted.step (program cfg)) s) := by
    induction events with
    | nil => exact fun _ h => h
    | cons e rest ih => exact fun s h => ih _ (inv_step s e h)
  exact hinv initial (inv_initial cfg)

/-- Before a guarded request of a session is accepted, the session was offered a challenge and then
stepped up, within the bound, by an assertion over that challenge of a passkey of its user. -/
theorem accepted_steppedUp (cfg : Config) (events : List (ReadCommitted.Event Request))
    (past rest : List Answer) (id user : ℕ) (now : ℤ)
    (h : (after cfg events).answers = past ++ .accepted id user now :: rest) :
    ∃ (first second third : List Answer) (c : WebAuthnCredential) (challenge : Text)
      (assertion : Accounts.Assertion) (t : ℤ),
      past = first ++ .offered id challenge :: second ++
        .steppedUp id user c challenge assertion t :: third ∧
      now - t ≤ cfg.stepupMaxAge ∧ c.user = user ∧ assertion.rawId = some c.credentialId ∧
      (cfg.verifyAssertion assertion.text challenge c).isSome = true := by
  have hinv := inv_after cfg events
  obtain ⟨t, ⟨c, challenge, assertion, hmem⟩, hage⟩ := hinv.answers past _ rest h
  obtain ⟨before, third, rfl⟩ := List.append_of_mem hmem
  have hstep := hinv.answers before (.steppedUp id user c challenge assertion t)
    (third ++ .accepted id user now :: rest) (by simpa using h)
  obtain ⟨first, second, rfl⟩ := List.append_of_mem hstep.1
  exact ⟨first, second, third, c, challenge, assertion, t, rfl, hage, hstep.2⟩

def sampleConfig : Config where
  idleTtl := 1800
  sessionTouchInterval := 60
  stepupMaxAge := 300
  sha256Hex := id
  uuid text := if text = ['s'] then some 1 else none
  verifyAssertion text challenge _ := if text = challenge then some 1 else none

def sampleSession : Accounts.Session where
  user := 7
  cookieSecretHash := "secret".toList
  sourceIP := []
  tier := .admin
  amr := [.pwd, .webauthn]
  lastSeenAt := 0
  absoluteExpiresAt := 9000
  stale := false
  revokedAt := none
  flow := 0

def sampleKey : WebAuthnCredential := ⟨7, "key".toList, [], 0, false, 0, 0⟩

def sampleAssertion : Accounts.Assertion := ⟨some "key".toList, "nonce".toList⟩

/-- A request with no other between its statements. -/
def alone (t : ℕ) (request : Request) (now : ℤ) : List (ReadCommitted.Event Request) :=
  .arrive t request now :: List.replicate 6 (.statement t now) ++ [.commit t]

/-- An administrator signs in, steps up, and sends a request that is guarded. -/
def sampleRun : List (ReadCommitted.Event Request) :=
  alone 0 (.other [.setUser ⟨7, [], .active, .admin, [], false⟩, .addCredential sampleKey,
      .addSession 1 sampleSession]) 0 ++
    alone 1 (.options (some "s.secret".toList) [] "nonce".toList) 10 ++
    alone 2 (.verify (some "s.secret".toList) [] sampleAssertion) 20 ++
    alone 3 (.mutation 1 [] []) 30

theorem accepted_steppedUp_sample :
    ∃ (first second third : List Answer) (c : WebAuthnCredential) (challenge : Text)
      (assertion : Accounts.Assertion) (t : ℤ),
      [.done, .offered 1 "nonce".toList,
        .steppedUp 1 7 sampleKey "nonce".toList sampleAssertion 20] =
        first ++ .offered 1 challenge :: second ++ .steppedUp 1 7 c challenge assertion t :: third ∧
      30 - t ≤ sampleConfig.stepupMaxAge ∧ c.user = 7 ∧ assertion.rawId = some c.credentialId ∧
      (sampleConfig.verifyAssertion assertion.text challenge c).isSome = true :=
  accepted_steppedUp sampleConfig sampleRun _ [] 1 7 30 (by decide)

end Hyproxy.RecentStepUps

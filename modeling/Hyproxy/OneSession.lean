import Hyproxy.AdminSessions
import Hyproxy.FactorMoves
import Hyproxy.Runs

/-!
A login flow creates one session as long as no enrollment is committed on a flow
that is gone or completed. The submissions that lock the flow see to that
themselves; the enrollment does not look.
-/
namespace Hyproxy.OneSession

open Accounts (Config LoginFlow)
open FactorMoves FactorTransactions
open ReadCommitted (State read_only written)
open Runs (Along)

/-- The sessions that the flow has created. -/
def opened (db : Db) (id : ℕ) : ℕ := db.sessions.countP fun x => x.flow == id

/-- Whether the flow is there, and the session that it has completed with. -/
def completion (db : Db) (id : ℕ) : Option (Option ℕ) :=
  (db.flows id).map LoginFlow.completedSession

/-- The write neither creates a session nor ends a flow. -/
def isMild : Write → Bool
  | .addSession _ => false
  | .complete _ _ => false
  | .deleteFlow _ => false
  | _ => true

def Mild (writes : List Write) : Prop := ∀ w ∈ writes, isMild w = true

def Holds (writes : List Write) (id : ℕ) : Prop := ∃ w ∈ writes, w.row = .flow id

/-- The flow is locked and not completed. -/
structure Locks (db : Db) (writes : List Write) (id : ℕ) : Prop where
  mild : Mild writes
  holds : Holds writes id
  openFlow : completion db id = some none

/-- The flow is locked as it was read. -/
structure Reads (db : Db) (writes : List Write) (id : ℕ) (f : LoginFlow) : Prop where
  mild : Mild writes
  holds : Holds writes id
  read : completion db id = some f.completedSession

/-- The transaction has created a session on the flow. -/
def Creates (writes : List Write) (id : ℕ) (rest : List Write) : Prop :=
  ∃ before row, writes = before ++ .addSession row :: rest ∧ Mild before ∧ row.flow = id

/-- The session of the flow that the transaction holds. -/
def Completes (db : Db) (writes : List Write) (id : ℕ) (rest : List Write) : Prop :=
  Creates writes id rest ∧ Holds writes id ∧ completion db id = some none

/-- The transaction has created the session of an enrollment, on a flow that it deletes. -/
def Burns (db : Db) (writes : List Write) (id : ℕ) : Prop :=
  Creates writes id [.deleteFlow id] ∨ Creates writes id [] ∧ completion db id = none

/-- The reply of a request that creates no session. -/
def Plain : Reply → Prop
  | .signedIn _ _ => False
  | .enrolled _ _ _ _ => False
  | _ => True

def Finished (db : Db) (writes : List Write) : Reply → Prop
  | .signedIn id session => Completes db writes id [.complete id session]
  | .enrolled id _ _ _ => Burns db writes id
  | _ => Mild writes

/-- What a transaction has written before it stands at the point. -/
def Stands (db : Db) (writes : List Write) : Point → Prop
  | .totp (.flow _ _) => writes = []
  | .totp (.user _ _ id f) => Reads db writes id f
  | .totp (.secret e _) => Locks db writes e.id
  | .assertion (.flow _ _) => writes = []
  | .assertion (.user _ _ id f) => Reads db writes id f
  | .assertion (.challenge e _) => Locks db writes e.id
  | .assertion (.credential e _ _) => Locks db writes e.id
  | .assertion (.sign e _ _) => Locks db writes e.id
  | .session e _ => Locks db writes e.id
  | .complete e _ => Completes db writes e.id []
  | .enroll (.burn e _ _) _ => Creates writes e.id []
  | .resume _ _ failed _ => Mild writes ∧ Plain failed
  | .settle _ _ _ failed _ => Mild writes ∧ Plain failed
  | .reissue _ _ failed _ => Mild writes ∧ Plain failed
  | .answer reply => Finished db writes reply
  | _ => Mild writes

/-- No flow has created two sessions, and one that has created any is gone or completed. -/
structure Once (db : Db) : Prop where
  atMost : ∀ id, opened db id ≤ 1
  closed : ∀ id, completion db id = some none → opened db id = 0

structure Inv (s : State Db Write Point Reply) : Prop where
  once : Once s.db
  stands : ∀ x ∈ s.txns, Stands s.db x.writes x.point

/-- The flow of an enrollment is there and not completed. -/
def timelyAt (db : Db) : Point → Bool
  | .answer (.enrolled id _ _ _) => completion db id == some none
  | _ => true

/-- An enrollment is committed while its flow is there and not completed. -/
def Timely (s : State Db Write Point Reply) : Event → Prop
  | .commit t => ∀ x ∈ s.txns, x.id = t → timelyAt s.db x.point = true
  | _ => True

instance decidableTimely (s : State Db Write Point Reply) : ∀ e, Decidable (Timely s e)
  | .commit t => inferInstanceAs (Decidable (∀ x ∈ s.txns, x.id = t → timelyAt s.db x.point = true))
  | .arrive _ _ _ => isTrue trivial
  | .statement _ _ => isTrue trivial
  | .rollback _ => isTrue trivial

/-! ### Writes -/

theorem mild_append (left right : List Write) (hleft : Mild left) (hright : Mild right) :
    Mild (left ++ right) := by
  intro w hw
  rcases List.mem_append.mp hw with hw | hw
  · exact hleft w hw
  · exact hright w hw

theorem mild_nil : Mild [] := fun _ hw => absurd hw List.not_mem_nil

theorem mild_single (w : Write) (h : isMild w = true) : Mild [w] := by
  intro v hv
  rw [List.mem_singleton.mp hv]
  exact h

theorem Holds.append {writes : List Write} {id : ℕ} (h : Holds writes id) (more : List Write) :
    Holds (writes ++ more) id := by
  obtain ⟨w, hw, hrow⟩ := h
  exact ⟨w, List.mem_append_left _ hw, hrow⟩

theorem completion_apply (db : Db) (w : Write) (id : ℕ) (h : w.row ≠ .flow id) :
    completion (apply db w) id = completion db id := by
  have hflow : (apply db w).flows id = db.flows id := if_neg h
  rw [completion, hflow, completion]

theorem completion_mild (db : Db) (w : Write) (id : ℕ) (h : isMild w = true) :
    completion (apply db w) id = completion db id := by
  by_cases hrow : w.row = .flow id
  · have hflow : (apply db w).flows id = (db.flows id).bind w.touchFlow := if_pos hrow
    rw [completion, hflow, completion]
    cases db.flows id with
    | none => rfl
    | some f =>
      cases w with
      | complete id session => cases h
      | deleteFlow id => cases h
      | addSession row => cases h
      | _ => rfl
  · exact completion_apply db w id hrow

theorem completion_foldl (writes : List Write) (db : Db) (id : ℕ) (h : Mild writes) :
    completion (writes.foldl apply db) id = completion db id := by
  induction writes generalizing db with
  | nil => rfl
  | cons w rest ih =>
    rw [List.foldl_cons, ih _ fun w hw => h w (List.mem_cons_of_mem _ hw),
      completion_mild db w id (h w (List.mem_cons_self ..))]

/-- A flow that is gone does not come back. -/
theorem completion_gone (writes : List Write) (db : Db) (id : ℕ) (h : completion db id = none) :
    completion (writes.foldl apply db) id = none := by
  induction writes generalizing db with
  | nil => exact h
  | cons w rest ih =>
    refine ih (apply db w) ?_
    have hnone : db.flows id = none := Option.map_eq_none_iff.mp h
    have hflow : (apply db w).flows id = none := by
      simp only [apply, Write.setFlow, hnone, Option.bind_none, ite_self]
    rw [completion, hflow, Option.map_none]

theorem updateSession_flow (w : Write) (x : SessionRow) : (w.updateSession x).flow = x.flow := by
  cases w with
  | touchSession id now =>
    simp only [Write.updateSession]
    split <;> rfl
  | revokeSession id now =>
    simp only [Write.updateSession]
    split <;> rfl
  | staleSession id =>
    simp only [Write.updateSession]
    split <;> rfl
  | reissueSession id hash =>
    simp only [Write.updateSession]
    split <;> rfl
  | _ => rfl

theorem opened_apply (db : Db) (w : Write) (id : ℕ) :
    opened (apply db w) id = opened db id + w.newSession.countP fun x => x.flow == id := by
  simp only [opened, apply, List.countP_append, List.countP_map, Function.comp_def,
    updateSession_flow]

theorem opened_mild (db : Db) (w : Write) (id : ℕ) (h : isMild w = true) :
    opened (apply db w) id = opened db id := by
  rw [opened_apply]
  cases w with
  | addSession row => cases h
  | _ => rfl

theorem opened_foldl (writes : List Write) (db : Db) (id : ℕ) (h : Mild writes) :
    opened (writes.foldl apply db) id = opened db id := by
  induction writes generalizing db with
  | nil => rfl
  | cons w rest ih =>
    rw [List.foldl_cons, ih _ fun w hw => h w (List.mem_cons_of_mem _ hw),
      opened_mild db w id (h w (List.mem_cons_self ..))]

theorem Once.mild {db : Db} (h : Once db) (writes : List Write) (hmild : Mild writes) :
    Once (writes.foldl apply db) := by
  refine ⟨fun id => ?_, fun id hopen => ?_⟩
  · rw [opened_foldl writes db id hmild]
    exact h.atMost id
  · rw [completion_foldl writes db id hmild] at hopen
    rw [opened_foldl writes db id hmild]
    exact h.closed id hopen

/-! ### Other transactions -/

theorem completion_kept (db : Db) (writes others : List Write) (id : ℕ) (hheld : Holds writes id)
    (hrows : ∀ v ∈ others, ∀ w ∈ writes, v.row ≠ w.row) :
    completion (others.foldl apply db) id = completion db id := by
  obtain ⟨w, hw, hrow⟩ := hheld
  have hflow := flows_foldl others db id fun v hv => by
    rw [← hrow]
    exact hrows v hv w hw
  rw [completion, hflow, completion]

theorem finished_kept (db : Db) (writes others : List Write) (reply : Reply)
    (hrows : ∀ v ∈ others, ∀ w ∈ writes, v.row ≠ w.row) (h : Finished db writes reply) :
    Finished (others.foldl apply db) writes reply := by
  cases reply with
  | signedIn id session =>
    exact ⟨h.1, h.2.1, (completion_kept db writes others id h.2.1 hrows).trans h.2.2⟩
  | enrolled id user batch session =>
    rcases h with hburns | ⟨hcreates, hgone⟩
    · exact Or.inl hburns
    · exact Or.inr ⟨hcreates, completion_gone others db id hgone⟩
  | _ => exact h

theorem Locks.kept {db : Db} {writes : List Write} {id : ℕ} (h : Locks db writes id)
    (others : List Write) (hrows : ∀ v ∈ others, ∀ w ∈ writes, v.row ≠ w.row) :
    Locks (others.foldl apply db) writes id :=
  ⟨h.mild, h.holds, (completion_kept db writes others id h.holds hrows).trans h.openFlow⟩

theorem Reads.kept {db : Db} {writes : List Write} {id : ℕ} {f : LoginFlow}
    (h : Reads db writes id f) (others : List Write)
    (hrows : ∀ v ∈ others, ∀ w ∈ writes, v.row ≠ w.row) :
    Reads (others.foldl apply db) writes id f :=
  ⟨h.mild, h.holds, (completion_kept db writes others id h.holds hrows).trans h.read⟩

/-- The commit of another transaction, which has written other rows. -/
theorem stands_kept (db : Db) (writes others : List Write) (p : Point)
    (hrows : ∀ v ∈ others, ∀ w ∈ writes, v.row ≠ w.row) (h : Stands db writes p) :
    Stands (others.foldl apply db) writes p := by
  cases p with
  | totp p =>
    cases p with
    | flow a code => exact h
    | user a code id f => exact Reads.kept h others hrows
    | secret e code => exact Locks.kept h others hrows
  | assertion p =>
    cases p with
    | flow a assertion => exact h
    | user a assertion id f => exact Reads.kept h others hrows
    | challenge e assertion => exact Locks.kept h others hrows
    | credential e assertion challenge => exact Locks.kept h others hrows
    | sign e credentialId count => exact Locks.kept h others hrows
  | enroll p hashes => cases p <;> exact h
  | session e amr => exact Locks.kept h others hrows
  | complete e session =>
    exact ⟨h.1, h.2.1, (completion_kept db writes others e.id h.2.1 hrows).trans h.2.2⟩
  | answer reply => exact finished_kept db writes others reply hrows h
  | _ => exact h

/-! ### Statements -/

theorem finished_plain (db : Db) (writes : List Write) (reply : Reply) (hplain : Plain reply)
    (hmild : Mild writes) : Finished db writes reply := by
  cases reply with
  | signedIn id session => cases hplain
  | enrolled id user batch session => cases hplain
  | _ => exact hmild

theorem lock_mild (db : Db) (r : Login.Form) : Mild (lock db r) := by
  unfold lock
  cases r.flow with
  | none => exact mild_nil
  | some id =>
    simp only
    split_ifs
    · exact mild_single _ rfl
    · exact mild_nil

/-- The statement that locks a flow reads it. -/
theorem lock_reads (cfg : Config) (db : Db) (r : Login.Form) (stage : Accounts.Stage) (id : ℕ)
    (f : LoginFlow) (h : Login.guardedRow cfg db.flows r stage = some (id, f)) :
    Reads db (lock db r) id f := by
  obtain ⟨hnamed, hrow⟩ := Login.guardedRow_some cfg db.flows r stage id f h
  have hlock : lock db r = [.lockFlow id] := by
    simp only [lock, hnamed, hrow, Option.isSome_some, if_true]
  refine ⟨lock_mild db r, ?_, by rw [completion, hrow, Option.map_some]⟩
  rw [hlock]
  exact ⟨.lockFlow id, List.mem_singleton_self _, rfl⟩

theorem Reads.locks {db : Db} {writes : List Write} {id : ℕ} {f : LoginFlow} (h : Reads db writes id f)
    (hopen : f.completedSession = none) : Locks db writes id :=
  ⟨h.mild, h.holds, by rw [h.read, hopen]⟩

theorem Locks.append {db : Db} {writes : List Write} {id : ℕ} (h : Locks db writes id) (w : Write)
    (hw : isMild w = true) : Locks db (writes ++ [w]) id :=
  ⟨mild_append writes [w] h.mild (mild_single w hw), h.holds.append [w], h.openFlow⟩

/-- The update of a flow that is there. -/
theorem updateFlow_stands (db view : Db) (id : ℕ) (w : Write) (p p' : Point)
    (writes writes' : List Write) (h : updateFlow view id w p = some (writes', p'))
    (hs : Stands db (writes ++ [w]) p) : Stands db (writes ++ writes') p' := by
  obtain ⟨rfl, rfl⟩ := updateFlow_some h
  exact hs

theorem mild_of_setup (writes : List Write) (h : ∀ w ∈ writes, isSetup w = true) : Mild writes := by
  intro w hw
  have hsetup := h w hw
  cases w with
  | addSession row => cases hsetup
  | complete id session => cases hsetup
  | deleteFlow id => cases hsetup
  | _ => rfl

/-- A request that is refused creates no session. -/
theorem finished_refused (db : Db) (writes : List Write) (reply : Reply)
    (h : refuses reply = true) (hmild : Mild writes) : Finished db writes reply := by
  refine finished_plain db writes reply ?_ hmild
  cases reply with
  | signedIn id session => cases h
  | enrolled id user batch session => cases h
  | _ => trivial

theorem totp_mild (db : Db) (writes : List Write) (p : TotpPoint) (h : Stands db writes (.totp p)) :
    Mild writes := by
  cases p with
  | flow a code =>
    obtain rfl : writes = [] := h
    exact mild_nil
  | user a code id f => exact Reads.mild h
  | secret e code => exact Locks.mild h

theorem assertion_mild (db : Db) (writes : List Write) (p : AssertionPoint)
    (h : Stands db writes (.assertion p)) : Mild writes := by
  cases p with
  | flow a assertion =>
    obtain rfl : writes = [] := h
    exact mild_nil
  | user a assertion id f => exact Reads.mild h
  | challenge e assertion => exact Locks.mild h
  | credential e assertion challenge => exact Locks.mild h
  | sign e credentialId count => exact Locks.mild h

theorem totp_stands (cfg : Config) (db : Db) (writes writes' : List Write) (p : TotpPoint) (p' : Point)
    (hstands : Stands db writes (.totp p))
    (h : totpStatement cfg (writes.foldl apply db) p = some (writes', p')) :
    Stands db (writes ++ writes') p' := by
  have hmild := totp_mild db writes p hstands
  cases totp_move cfg _ p writes' p' h with
  | turnedAway a code => exact mild_append writes _ hmild (lock_mild _ a.form)
  | flow a code id f hguarded =>
    obtain rfl : writes = [] := hstands
    exact lock_reads cfg db a.form .totp id f hguarded
  | resume a code id f session hcompleted =>
    rw [List.append_nil]
    exact ⟨hmild, trivial⟩
  | user a code id f user hopen huser =>
    rw [List.append_nil]
    exact Reads.locks hstands hopen
  | verified e code row hrow hcode =>
    rw [List.append_nil]
    exact hstands
  | failed e code =>
    rw [List.append_nil]
    exact hmild
  | refused _ reply hrefuses =>
    rw [List.append_nil]
    exact finished_refused db writes reply hrefuses hmild

/-- The enrollment creates its session on a flow that it then deletes, if it is there. -/
theorem burn_finished (db : Db) (writes : List Write) (e : Entry) (batch session : ℕ)
    (h : Creates writes e.id []) :
    Finished db (writes ++ if ((writes.foldl apply db).flows e.id).isSome then [.deleteFlow e.id]
      else []) (.enrolled e.id e.user.id batch session) := by
  obtain ⟨before, row, rfl, hmild, hflow⟩ := h
  split_ifs with hthere
  · refine Or.inl ⟨before, row, ?_, hmild, hflow⟩
    rw [List.append_assoc, List.singleton_append]
  · refine Or.inr ⟨⟨before, row, by rw [List.append_nil], hmild, hflow⟩, ?_⟩
    have hgone : completion ((before ++ [Write.addSession row]).foldl apply db) e.id = none := by
      rw [completion, Option.map_eq_none_iff]
      simpa using hthere
    rw [List.foldl_append, List.foldl_cons, List.foldl_nil, completion_apply _ _ _ Row.noConfusion,
      completion_foldl before db e.id hmild] at hgone
    exact hgone

theorem enroll_stands (cfg : Config) (db : Db) (serial : ℕ) (hashes : List (List Char))
    (writes writes' : List Write) (p : EnrollPoint) (p' : Point)
    (hstands : Stands db writes (.enroll p hashes))
    (h : enrollStatement cfg (writes.foldl apply db) serial hashes p = some (writes', p')) :
    Stands db (writes ++ writes') p' := by
  cases enroll_move cfg _ serial hashes p writes' p' h with
  | flow a code id f hguarded =>
    rw [List.append_nil]
    exact hstands
  | user a code id f user huser =>
    rw [List.append_nil]
    exact hstands
  | verified e code row hrow hpending hcode =>
    rw [List.append_nil]
    exact hstands
  | failed e code =>
    rw [List.append_nil]
    exact hstands
  | refused _ reply hopening hrefuses =>
    rw [List.append_nil]
    refine finished_refused db writes reply hrefuses ?_
    cases p with
    | burn e batch session => cases hopening
    | _ => exact hstands
  | confirm e => exact mild_append writes _ hstands (mild_single _ rfl)
  | unused e =>
    rw [List.append_nil]
    exact hstands
  | remove e keys =>
    refine mild_append writes _ hstands fun w hw => ?_
    obtain ⟨c, -, rfl⟩ := List.mem_map.mp hw
    rfl
  | issue e =>
    refine mild_append writes _ hstands fun w hw => ?_
    obtain ⟨c, -, rfl⟩ := List.mem_map.mp hw
    rfl
  | session e batch => exact ⟨writes, _, rfl, hstands, rfl⟩
  | burn e batch session => exact burn_finished db writes e batch session hstands

theorem recovery_stands (cfg : Config) (db : Db) (writes writes' : List Write) (p : RecoveryPoint)
    (p' : Point) (hstands : Mild writes)
    (h : recoveryStatement cfg (writes.foldl apply db) p = some (writes', p')) :
    Stands db (writes ++ writes') p' := by
  have hlocked : ∀ codes : List Code, Mild (writes ++ codes.map fun c => .lockCode c.key) := by
    intro codes
    refine mild_append writes _ hstands fun w hw => ?_
    obtain ⟨c, -, rfl⟩ := List.mem_map.mp hw
    rfl
  cases recovery_move cfg _ p writes' p' h with
  | refused _ reply hopening hrefuses =>
    rw [List.append_nil]
    exact finished_refused db writes reply hrefuses hstands
  | failed e code keys => exact hlocked _
  | found e code keys row hfound => exact hlocked _
  | use e key => exact mild_append writes _ hstands (mild_single _ rfl)
  | mark e key old => exact mild_append writes _ hstands (mild_single _ rfl)
  | drop e key old =>
    refine mild_append writes _ hstands ?_
    split_ifs
    · exact mild_single _ rfl
    · exact mild_nil
  | _ =>
    rw [List.append_nil]
    exact hstands

theorem assertion_stands (cfg : Config) (db : Db) (writes writes' : List Write) (p : AssertionPoint)
    (p' : Point) (hstands : Stands db writes (.assertion p))
    (h : assertionStatement cfg (writes.foldl apply db) p = some (writes', p')) :
    Stands db (writes ++ writes') p' := by
  have hmild := assertion_mild db writes p hstands
  cases assertion_move cfg _ p writes' p' h with
  | turnedAway a assertion => exact mild_append writes _ hmild (lock_mild _ a.form)
  | flow a assertion id f hguarded =>
    obtain rfl : writes = [] := hstands
    exact lock_reads cfg db a.form .webauthn id f hguarded
  | resume a assertion id f session hcompleted =>
    rw [List.append_nil]
    exact ⟨hmild, trivial⟩
  | user a assertion id f user hopen huser =>
    rw [List.append_nil]
    exact Reads.locks hstands hopen
  | challenge e assertion challenge hchallenge => exact Locks.append hstands _ rfl
  | verified e assertion challenge row count hrow huser hverified =>
    rw [List.append_nil]
    exact hstands
  | sign e credentialId count => exact Locks.append hstands _ rfl
  | refused _ reply hrefuses =>
    rw [List.append_nil]
    exact finished_refused db writes reply hrefuses hmild

theorem setup_stands (cfg : Config) (db : Db) (writes writes' : List Write) (p : SetupPoint)
    (p' : Point) (hstands : Mild writes)
    (h : setupStatement cfg (writes.foldl apply db) p = some (writes', p')) :
    Stands db (writes ++ writes') p' := by
  obtain ⟨hsetup, hnext⟩ := setup_move cfg _ p writes' p' h
  have hmild := mild_append writes writes' hstands (mild_of_setup writes' hsetup)
  rcases hnext with ⟨q, rfl⟩ | ⟨reply, rfl, hrefuses⟩
  · exact hmild
  · exact finished_refused db _ reply hrefuses hmild

theorem statement_stands (cfg : Config) (db : Db) (serial : ℕ) (writes writes' : List Write)
    (p p' : Point) (hstands : Stands db writes p)
    (h : statement cfg (writes.foldl apply db) serial p = some (writes', p')) :
    Stands db (writes ++ writes') p' := by
  cases p with
  | totp p => exact totp_stands cfg db writes writes' p p' hstands h
  | enroll p hashes => exact enroll_stands cfg db serial hashes writes writes' p p' hstands h
  | recovery p => exact recovery_stands cfg db writes writes' p p' hstands h
  | assertion p => exact assertion_stands cfg db writes writes' p p' hstands h
  | setup p => exact setup_stands cfg db writes writes' p p' hstands h
  | resume r session failed known =>
    simp only [statement] at h
    cases hrow : (writes.foldl apply db).sessions.find? fun x => x.id == session with
    | none =>
      rw [hrow] at h
      exact read_only (Stands db) h (finished_plain db writes failed hstands.2 hstands.1)
    | some x =>
      rw [hrow] at h
      exact read_only (Stands db) h hstands
  | settle r session found failed known =>
    have hfailed : ∀ w, isMild w = true → Finished db (writes ++ [w]) failed := fun w hw =>
      finished_plain db _ failed hstands.2 (mild_append writes _ hstands.1 (mild_single w hw))
    cases found with
    | dead => exact read_only (Stands db) h (finished_plain db writes failed hstands.2 hstands.1)
    | idle => exact written (Stands db) h (hfailed _ rfl)
    | moved => exact written (Stands db) h (hfailed _ rfl)
    | due => exact written (Stands db) h ⟨mild_append writes _ hstands.1 (mild_single _ rfl), hstands.2⟩
    | live => exact read_only (Stands db) h hstands
  | reissue r session failed known =>
    have hmild := mild_append writes _ hstands.1
      (mild_single (.reissueSession session (cfg.sha256Hex r.newSecret)) rfl)
    cases known with
    | true => exact written (Stands db) h hmild
    | false => exact written (Stands db) h (finished_plain db _ failed hstands.2 hmild)
  | refuse e =>
    exact updateFlow_stands db _ e.id _ _ p' writes writes' h
      (mild_append writes _ hstands (mild_single _ rfl))
  | session e amr =>
    have hlocks : Locks db writes e.id := hstands
    exact written (Stands db) h
      ⟨⟨writes, _, rfl, hlocks.mild, rfl⟩, hlocks.holds.append _, hlocks.openFlow⟩
  | complete e session =>
    obtain ⟨⟨before, row, rfl, hmild, hflow⟩, hholds, hopen⟩ := hstands
    refine updateFlow_stands db _ e.id _ _ p' _ writes' h ⟨⟨before, row, ?_, hmild, hflow⟩,
      hholds.append _, hopen⟩
    rw [List.append_assoc, List.singleton_append]
  | answer reply => cases h

/-! ### Commits -/

theorem completion_ended (db : Db) (w : Write) (id : ℕ) (hrow : w.row = .flow id)
    (hends : ∀ f, (w.touchFlow f).map LoginFlow.completedSession ≠ some none) :
    completion (apply db w) id ≠ some none := by
  have hflow : (apply db w).flows id = (db.flows id).bind w.touchFlow := if_pos hrow
  rw [completion, hflow]
  cases db.flows id with
  | none => simp
  | some f => exact hends f

/-- The commit of a session on a flow that is there and not completed, and that it ends. -/
theorem Once.creates {db : Db} (h : Once db) (writes : List Write) (id : ℕ) (w : Write)
    (hcreates : Creates writes id [w]) (hopen : completion db id = some none) (hrow : w.row = .flow id)
    (hw : w.newSession = [])
    (hends : ∀ f, (w.touchFlow f).map LoginFlow.completedSession ≠ some none) :
    Once (writes.foldl apply db) := by
  obtain ⟨before, row, rfl, hmild, rfl⟩ := hcreates
  have hcount : ∀ other, opened ((before ++ [.addSession row, w]).foldl apply db) other =
      opened db other + if row.flow = other then 1 else 0 := by
    intro other
    simp only [List.foldl_append, List.foldl_cons, List.foldl_nil]
    rw [opened_apply, hw, opened_apply, opened_foldl before db other hmild]
    simp [Write.newSession, List.countP_cons]
  have hzero := h.closed row.flow hopen
  refine ⟨fun other => ?_, fun other hother => ?_⟩
  · have hatMost := h.atMost other
    rw [hcount other]
    split_ifs with heq
    · rw [← heq]
      omega
    · omega
  · simp only [List.foldl_append, List.foldl_cons, List.foldl_nil] at hother
    by_cases heq : other = row.flow
    · rw [heq] at hother
      exact absurd hother (completion_ended _ w row.flow hrow hends)
    · rw [completion_apply _ w other (by rw [hrow]; exact fun hsame => heq (Row.flow.inj hsame).symm),
        completion_apply _ _ other Row.noConfusion, completion_foldl before db other hmild] at hother
      rw [hcount other, if_neg (Ne.symm heq), h.closed other hother]

theorem Once.commit {db : Db} (h : Once db) (writes : List Write) (reply : Reply)
    (hfinished : Finished db writes reply) (htimely : timelyAt db (.answer reply) = true) :
    Once (writes.foldl apply db) := by
  cases reply with
  | signedIn id session =>
    refine h.creates writes id (.complete id session) hfinished.1 hfinished.2.2 rfl rfl fun f => ?_
    simp [Write.touchFlow]
  | enrolled id user batch session =>
    have hopen : completion db id = some none := by simpa [timelyAt] using htimely
    rcases hfinished with hcreates | ⟨-, hgone⟩
    · refine h.creates writes id (.deleteFlow id) hcreates hopen rfl rfl fun f => ?_
      simp [Write.touchFlow]
    · rw [hgone] at hopen
      cases hopen
  | _ => exact h.mild writes hfinished

theorem step_inv (cfg : Config) (s : State Db Write Point Reply) (e : Event) (hlocked :
    ReadCommitted.Locked (program cfg) s) (h : Inv s) (htimely : Timely s e) : Inv (step cfg s e) := by
  unfold step
  generalize ht : ReadCommitted.step (program cfg) s e = s'
  have heffect := ht ▸ ReadCommitted.step_effect (program cfg) s e
  cases heffect with
  | wait => exact ⟨h.once, h.stands⟩
  | arrive t request now hnew =>
    refine ⟨h.once, fun x hx => ?_⟩
    rcases List.mem_cons.mp hx with rfl | hx
    · cases request with
      | totpSubmit a code => rfl
      | webauthnVerify a assertion => rfl
      | _ => exact mild_nil
    · exact h.stands x hx
  | statement x now writes p hmem hanswer hstatement hfree =>
    refine ⟨h.once, fun y hy => ?_⟩
    rcases ReadCommitted.mem_put s _ y hy with rfl | ⟨hy, -⟩
    · exact statement_stands cfg s.db s.serial x.writes writes x.point p (h.stands x hmem) hstatement
    · exact h.stands y hy
  | commit x r hmem hanswer =>
    have hpoint := answer_some cfg x.point r hanswer
    have hstands := h.stands x hmem
    have hfits := htimely x hmem rfl
    rw [hpoint] at hstands hfits
    refine ⟨h.once.commit x.writes r hstands hfits, fun y hy => ?_⟩
    obtain ⟨hy, hne⟩ := (ReadCommitted.mem_drop s x.id y).mp hy
    exact stands_kept s.db y.writes x.writes y.point
      (hlocked.rows x hmem y hy (Ne.symm hne)) (h.stands y hy)
  | abandon _ t hwhy =>
    exact ⟨h.once, fun y hy => h.stands y ((ReadCommitted.mem_drop s t y).mp hy).1⟩

/-- In a timely run every flow creates at most one session, whatever the submissions that carry it and
in whatever order they run. -/
theorem one_session (cfg : Config) (tables : Tables) (events : List Event)
    (htimely : Along (step cfg) Timely (initial tables) events) (id : ℕ) :
    ((run cfg tables events).db.sessions.countP fun x => x.flow == id) ≤ 1 := by
  have hinv := htimely.invariant (fun s => ReadCommitted.Locked (program cfg) s ∧ Inv s) ?_ ?_
  · exact hinv.2.once.atMost id
  · refine ⟨⟨?_, ?_⟩, ⟨fun _ => Nat.zero_le _, fun _ _ => rfl⟩, ?_⟩
    · exact fun x hx => absurd hx List.not_mem_nil
    · exact fun x hx => absurd hx List.not_mem_nil
    · exact fun x hx => absurd hx List.not_mem_nil
  · exact fun s e h hguard =>
      ⟨ReadCommitted.locked_step (program cfg) s e h.1, step_inv cfg s e h.1 h.2 hguard⟩

def sampleUser : Accounts.User := ⟨1, "ada@example.org".toList, .active, .standard, [], false⟩

def sampleFlow : LoginFlow :=
  ⟨"csrf".toList, "192.0.2.7".toList, .totp, some 1, none, false, none, 0, 600000000⟩

def sampleTables : Tables where
  users := [sampleUser]
  flows := fun id => if id = 5 ∨ id = 6 then some sampleFlow else none
  totp := fun user => if user = 1 then some ⟨"code".toList, none⟩ else none
  credentials := []

def sampleAttempt (flow : ℕ) : Attempt := ⟨AdminSessions.sampleForm 0 flow, none⟩

def statements (t n : ℕ) : List Event := List.replicate n (.statement t 0)

/-- A request that no other interrupts. -/
def alone (t n : ℕ) (request : Request) : List Event :=
  .arrive t request 0 :: statements t n ++ [.commit t]

def enrollment (flow : ℕ) : Request :=
  .enrollTotpSubmit (sampleAttempt flow) "code".toList ["one".toList]

/-- An enrollment, its duplicate, and a login on another flow. -/
def sampleRun : List Event :=
  alone 1 9 (enrollment 5) ++ alone 2 1 (enrollment 5) ++
    alone 3 5 (.totpSubmit (sampleAttempt 6) "code".toList)

theorem one_session_sample :
    ((run AdminSessions.sampleConfig sampleTables sampleRun).db.sessions.countP
      fun x => x.flow == 6) ≤ 1 :=
  one_session AdminSessions.sampleConfig sampleTables sampleRun (by decide) 6

/-- Two submissions of an enrollment read the flow before either deletes it. -/
def pairRun : List Event :=
  [.arrive 1 (enrollment 5) 0, .arrive 2 (enrollment 5) 0] ++ statements 1 3 ++ statements 2 3 ++
    statements 1 6 ++ [.commit 1] ++ statements 2 6 ++ [.commit 2]

/-- Each creates a session. -/
theorem pair_opens_two :
    ¬∀ (cfg : Config) (tables : Tables) (events : List Event) (id : ℕ),
      ((run cfg tables events).db.sessions.countP fun x => x.flow == id) ≤ 1 := by
  intro h
  exact absurd (h AdminSessions.sampleConfig sampleTables pairRun 5) (by decide)

set_option maxRecDepth 4096 in
/-- So do a login and an enrollment after it, which a recovery has made possible on the same flow. -/
example : (run AdminSessions.sampleConfig sampleTables (alone 1 9 (enrollment 5) ++
    alone 2 5 (.totpSubmit (sampleAttempt 6) "code".toList) ++
    alone 3 8 (.recoverySubmit (sampleAttempt 6) "one".toList) ++
    alone 4 7 (.enrollTotpForm (AdminSessions.sampleForm 0 6) "code".toList) ++
    alone 5 9 (enrollment 6))).db.sessions.countP (fun x => x.flow == 6) = 2 := by decide

end Hyproxy.OneSession

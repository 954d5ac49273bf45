import Hyproxy.FactorTransactions

/-!
What a statement of a second-factor request can do, for each handler: what it writes,
where the transaction then stands, and what it has found.
-/
namespace Hyproxy.FactorMoves

open FactorTransactions
open Accounts (Assertion LoginFlow User UserTotp WebAuthnCredential)
open Login (guardedRow normalize totpAmr)
open Text (strip)

/-- A reply that neither signs in nor enrolls nor takes a code. -/
def refuses : Reply → Bool
  | .turnedAway => true
  | .page _ => true
  | .error _ _ => true
  | .throttled _ => true
  | .redirect _ => true
  | _ => false

theorem eq_of_some {α β : Type} {a a' : α} {b b' : β} (h : some (a, b) = some (a', b')) :
    a = a' ∧ b = b' :=
  Prod.mk.inj (Option.some.inj h)

/-- The update of a flow that is there. -/
theorem updateFlow_some {db : Db} {id : ℕ} {w : Write} {p p' : Point} {new : List Write}
    (h : updateFlow db id w p = some (new, p')) : [w] = new ∧ p = p' := by
  unfold updateFlow at h
  split_ifs at h
  exact eq_of_some h

section

variable (cfg : Accounts.Config) (db : Db)

inductive TotpMove : TotpPoint → List Write → Point → Prop
  | turnedAway (a : Attempt) (code : List Char) :
    TotpMove (.flow a code) (lock db a.form) (.answer .turnedAway)
  | flow (a : Attempt) (code : List Char) (id : ℕ) (f : LoginFlow)
      (hguarded : guardedRow cfg db.flows a.form .totp = some (id, f)) :
    TotpMove (.flow a code) (lock db a.form) (.totp (.user a code id f))
  | resume (a : Attempt) (code : List Char) (id : ℕ) (f : LoginFlow) (session : ℕ)
      (hcompleted : f.completedSession = some session) :
    TotpMove (.user a code id f) [] (.resume a.form session expired (flowUser db f).isSome)
  | user (a : Attempt) (code : List Char) (id : ℕ) (f : LoginFlow) (user : User)
      (hopen : f.completedSession = none) (huser : flowUser db f = some user) :
    TotpMove (.user a code id f) [] (.totp (.secret ⟨a.form, id, f, user⟩ code))
  | verified (e : Entry) (code : List Char) (row : UserTotp)
      (hrow : db.totp e.user.id = some row)
      (hcode : cfg.verifyCode row.secret (strip code) e.form.now = true) :
    TotpMove (.secret e code) [] (.session e (totpAmr e.flow))
  | failed (e : Entry) (code : List Char) : TotpMove (.secret e code) [] (.refuse e)
  | refused (p : TotpPoint) (reply : Reply) (hrefuses : refuses reply = true) :
    TotpMove p [] (.answer reply)

theorem totp_move (p : TotpPoint) (new : List Write) (p' : Point)
    (h : totpStatement cfg db p = some (new, p')) : TotpMove cfg db p new p' := by
  cases p with
  | flow a code =>
    simp only [totpStatement] at h
    cases hguarded : guardedRow cfg db.flows a.form .totp with
    | none =>
      rw [hguarded] at h
      obtain ⟨rfl, rfl⟩ := eq_of_some h
      exact .turnedAway a code
    | some found =>
      rw [hguarded] at h
      obtain ⟨rfl, rfl⟩ := eq_of_some h
      exact .flow a code _ _ hguarded
  | user a code id f =>
    simp only [totpStatement] at h
    cases hcompleted : f.completedSession with
    | some session =>
      rw [hcompleted] at h
      obtain ⟨rfl, rfl⟩ := eq_of_some h
      exact .resume a code id f session hcompleted
    | none =>
      rw [hcompleted] at h
      cases huser : flowUser db f with
      | none =>
        simp only [huser] at h
        obtain ⟨rfl, rfl⟩ := eq_of_some h
        exact .refused _ _ rfl
      | some user =>
        simp only [huser] at h
        split at h
        · obtain ⟨rfl, rfl⟩ := eq_of_some h
          exact .refused _ _ rfl
        · obtain ⟨rfl, rfl⟩ := eq_of_some h
          exact .user a code id f user hcompleted huser
  | secret e code =>
    simp only [totpStatement] at h
    cases hrow : db.totp e.user.id with
    | none =>
      rw [hrow] at h
      obtain ⟨rfl, rfl⟩ := eq_of_some h
      exact .refused _ _ rfl
    | some row =>
      rw [hrow] at h
      simp only at h
      split_ifs at h with hpending hcode
      · obtain ⟨rfl, rfl⟩ := eq_of_some h
        exact .refused _ _ rfl
      · obtain ⟨rfl, rfl⟩ := eq_of_some h
        exact .verified e code row hrow hcode
      · obtain ⟨rfl, rfl⟩ := eq_of_some h
        exact .failed e code

/-- The point comes before the enrollment's first write. -/
def enrollOpening : EnrollPoint → Bool
  | .flow _ _ => true
  | .user _ _ _ _ => true
  | .secret _ _ => true
  | _ => false

inductive EnrollMove (serial : ℕ) (hashes : List (List Char)) :
    EnrollPoint → List Write → Point → Prop
  | flow (a : Attempt) (code : List Char) (id : ℕ) (f : LoginFlow)
      (hguarded : guardedRow cfg db.flows a.form .totp = some (id, f)) :
    EnrollMove serial hashes (.flow a code) [] (.enroll (.user a code id f) hashes)
  | user (a : Attempt) (code : List Char) (id : ℕ) (f : LoginFlow) (user : User)
      (huser : flowUser db f = some user) :
    EnrollMove serial hashes (.user a code id f) []
      (.enroll (.secret ⟨a.form, id, f, user⟩ code) hashes)
  | verified (e : Entry) (code : List Char) (row : UserTotp)
      (hrow : db.totp e.user.id = some row) (hpending : row.confirmedAt = none)
      (hcode : cfg.verifyCode row.secret (strip code) e.form.now = true) :
    EnrollMove serial hashes (.secret e code) [] (.enroll (.confirm e) hashes)
  | failed (e : Entry) (code : List Char) : EnrollMove serial hashes (.secret e code) [] (.refuse e)
  | refused (p : EnrollPoint) (reply : Reply) (hopening : enrollOpening p = true)
      (hrefuses : refuses reply = true) : EnrollMove serial hashes p [] (.answer reply)
  | confirm (e : Entry) :
    EnrollMove serial hashes (.confirm e) [.confirmTotp e.user.id e.form.now]
      (.enroll (.unused e) hashes)
  | unused (e : Entry) :
    EnrollMove serial hashes (.unused e) []
      (.enroll (.remove e ((db.codes.filter (Code.unusedBy e.user.id)).map Code.key)) hashes)
  | remove (e : Entry) (keys : List Key) :
    EnrollMove serial hashes (.remove e keys)
      ((still db e.user.id keys).map fun c => .deleteCode c.key) (.enroll (.issue e) hashes)
  | issue (e : Entry) :
    EnrollMove serial hashes (.issue e) ((newCodes serial e.user.id hashes).map .addCode)
      (.enroll (.session e serial) hashes)
  | session (e : Entry) (batch : ℕ) :
    EnrollMove serial hashes (.session e batch)
      [.addSession (sessionRow cfg serial e (totpAmr e.flow))]
      (.enroll (.burn e batch serial) hashes)
  | burn (e : Entry) (batch session : ℕ) :
    EnrollMove serial hashes (.burn e batch session)
      (if (db.flows e.id).isSome then [.deleteFlow e.id] else [])
      (.answer (.enrolled e.id e.user.id batch session))

theorem enroll_move (serial : ℕ) (hashes : List (List Char)) (p : EnrollPoint) (new : List Write)
    (p' : Point) (h : enrollStatement cfg db serial hashes p = some (new, p')) :
    EnrollMove cfg db serial hashes p new p' := by
  cases p with
  | flow a code =>
    simp only [enrollStatement] at h
    cases hguarded : guardedRow cfg db.flows a.form .totp with
    | none =>
      rw [hguarded] at h
      obtain ⟨rfl, rfl⟩ := eq_of_some h
      exact .refused _ _ rfl rfl
    | some found =>
      rw [hguarded] at h
      obtain ⟨rfl, rfl⟩ := eq_of_some h
      exact .flow a code _ _ hguarded
  | user a code id f =>
    simp only [enrollStatement] at h
    cases huser : flowUser db f with
    | none =>
      rw [huser] at h
      obtain ⟨rfl, rfl⟩ := eq_of_some h
      exact .refused _ _ rfl rfl
    | some user =>
      rw [huser] at h
      simp only at h
      split_ifs at h
      · obtain ⟨rfl, rfl⟩ := eq_of_some h
        exact .refused _ _ rfl rfl
      · split at h
        · obtain ⟨rfl, rfl⟩ := eq_of_some h
          exact .refused _ _ rfl rfl
        · obtain ⟨rfl, rfl⟩ := eq_of_some h
          exact .user a code id f user huser
  | secret e code =>
    simp only [enrollStatement] at h
    cases hrow : db.totp e.user.id with
    | none =>
      rw [hrow] at h
      obtain ⟨rfl, rfl⟩ := eq_of_some h
      exact .refused _ _ rfl rfl
    | some row =>
      rw [hrow] at h
      simp only at h
      split_ifs at h with hconfirmed hcode
      · obtain ⟨rfl, rfl⟩ := eq_of_some h
        exact .refused _ _ rfl rfl
      · obtain ⟨rfl, rfl⟩ := eq_of_some h
        exact .verified e code row hrow (not_not.mp hconfirmed) hcode
      · obtain ⟨rfl, rfl⟩ := eq_of_some h
        exact .failed e code
  | confirm e =>
    simp only [enrollStatement] at h
    split_ifs at h
    obtain ⟨rfl, rfl⟩ := eq_of_some h
    exact .confirm e
  | unused e =>
    obtain ⟨rfl, rfl⟩ := eq_of_some h
    exact .unused e
  | remove e keys =>
    obtain ⟨rfl, rfl⟩ := eq_of_some h
    exact .remove e keys
  | issue e =>
    obtain ⟨rfl, rfl⟩ := eq_of_some h
    exact .issue e
  | session e batch =>
    obtain ⟨rfl, rfl⟩ := eq_of_some h
    exact .session e batch
  | burn e batch session =>
    obtain ⟨rfl, rfl⟩ := eq_of_some h
    exact .burn e batch session

/-- The point comes before the recovery has looked for codes. -/
def recoveryOpening : RecoveryPoint → Bool
  | .flow _ _ => true
  | .user _ _ _ _ => true
  | _ => false

inductive RecoveryMove : RecoveryPoint → List Write → Point → Prop
  | flow (a : Attempt) (code : List Char) (id : ℕ) (f : LoginFlow)
      (hguarded : guardedRow cfg db.flows a.form .totp = some (id, f)) :
    RecoveryMove (.flow a code) [] (.recovery (.user a code id f))
  | user (a : Attempt) (code : List Char) (id : ℕ) (f : LoginFlow) (user : User)
      (huser : flowUser db f = some user) :
    RecoveryMove (.user a code id f) [] (.recovery (.unused ⟨a.form, id, f, user⟩ code))
  | refused (p : RecoveryPoint) (reply : Reply) (hopening : recoveryOpening p = true)
      (hrefuses : refuses reply = true) : RecoveryMove p [] (.answer reply)
  | unused (e : Entry) (code : List Char) :
    RecoveryMove (.unused e code) []
      (.recovery (.lock e code ((db.codes.filter (Code.unusedBy e.user.id)).map Code.key)))
  | failed (e : Entry) (code : List Char) (keys : List Key) :
    RecoveryMove (.lock e code keys) ((still db e.user.id keys).map fun c => .lockCode c.key)
      (.refuse e)
  | found (e : Entry) (code : List Char) (keys : List Key) (row : Code)
      (hfound : (still db e.user.id keys).find?
        (fun c => cfg.verifyPassword c.codeHash (normalize cfg code)) = some row) :
    RecoveryMove (.lock e code keys) ((still db e.user.id keys).map fun c => .lockCode c.key)
      (.recovery (.use e row.key))
  | use (e : Entry) (key : Key) :
    RecoveryMove (.use e key) [.useCode key e.form.now] (.recovery (.old e key))
  | old (e : Entry) (key : Key) :
    RecoveryMove (.old e key) [] (.recovery (.mark e key (db.totp e.user.id).isSome))
  | marked (e : Entry) (key : Key) (old : Bool) :
    RecoveryMove (.mark e key old) [] (.recovery (.drop e key old))
  | mark (e : Entry) (key : Key) (old : Bool) :
    RecoveryMove (.mark e key old) [.setRecoveryUsed e.id] (.recovery (.drop e key old))
  | drop (e : Entry) (key : Key) (old : Bool) :
    RecoveryMove (.drop e key old)
      (if old && (db.totp e.user.id).isSome then [.deleteTotp e.user.id] else [])
      (.answer (.recovered e.user.id key))

theorem recovery_move (p : RecoveryPoint) (new : List Write) (p' : Point)
    (h : recoveryStatement cfg db p = some (new, p')) : RecoveryMove cfg db p new p' := by
  cases p with
  | flow a code =>
    simp only [recoveryStatement] at h
    cases hguarded : guardedRow cfg db.flows a.form .totp with
    | none =>
      rw [hguarded] at h
      obtain ⟨rfl, rfl⟩ := eq_of_some h
      exact .refused _ _ rfl rfl
    | some found =>
      rw [hguarded] at h
      obtain ⟨rfl, rfl⟩ := eq_of_some h
      exact .flow a code _ _ hguarded
  | user a code id f =>
    simp only [recoveryStatement] at h
    cases huser : flowUser db f with
    | none =>
      rw [huser] at h
      obtain ⟨rfl, rfl⟩ := eq_of_some h
      exact .refused _ _ rfl rfl
    | some user =>
      rw [huser] at h
      simp only at h
      split at h
      · obtain ⟨rfl, rfl⟩ := eq_of_some h
        exact .refused _ _ rfl rfl
      · obtain ⟨rfl, rfl⟩ := eq_of_some h
        exact .user a code id f user huser
  | unused e code =>
    obtain ⟨rfl, rfl⟩ := eq_of_some h
    exact .unused e code
  | lock e code keys =>
    simp only [recoveryStatement] at h
    cases hfound : (still db e.user.id keys).find? fun c =>
        cfg.verifyPassword c.codeHash (normalize cfg code) with
    | none =>
      rw [hfound] at h
      obtain ⟨rfl, rfl⟩ := eq_of_some h
      exact .failed e code keys
    | some row =>
      rw [hfound] at h
      obtain ⟨rfl, rfl⟩ := eq_of_some h
      exact .found e code keys row hfound
  | use e key =>
    simp only [recoveryStatement] at h
    split_ifs at h
    obtain ⟨rfl, rfl⟩ := eq_of_some h
    exact .use e key
  | old e key =>
    obtain ⟨rfl, rfl⟩ := eq_of_some h
    exact .old e key
  | mark e key old =>
    simp only [recoveryStatement] at h
    split_ifs at h
    · obtain ⟨rfl, rfl⟩ := eq_of_some h
      exact .marked e key old
    · obtain ⟨rfl, rfl⟩ := updateFlow_some h
      exact .mark e key old
  | drop e key old =>
    obtain ⟨rfl, rfl⟩ := eq_of_some h
    exact .drop e key old

inductive AssertionMove : AssertionPoint → List Write → Point → Prop
  | turnedAway (a : Attempt) (assertion : Assertion) :
    AssertionMove (.flow a assertion) (lock db a.form) (.answer invalidFlow)
  | flow (a : Attempt) (assertion : Assertion) (id : ℕ) (f : LoginFlow)
      (hguarded : guardedRow cfg db.flows a.form .webauthn = some (id, f)) :
    AssertionMove (.flow a assertion) (lock db a.form) (.assertion (.user a assertion id f))
  | resume (a : Attempt) (assertion : Assertion) (id : ℕ) (f : LoginFlow) (session : ℕ)
      (hcompleted : f.completedSession = some session) :
    AssertionMove (.user a assertion id f) []
      (.resume a.form session (.error 400 "sign-in expired, start over") true)
  | user (a : Attempt) (assertion : Assertion) (id : ℕ) (f : LoginFlow) (user : User)
      (hopen : f.completedSession = none) (huser : flowUser db f = some user) :
    AssertionMove (.user a assertion id f) []
      (.assertion (.challenge ⟨a.form, id, f, user⟩ assertion))
  | challenge (e : Entry) (assertion : Assertion) (challenge : List Char)
      (hchallenge : e.flow.challenge = some challenge) :
    AssertionMove (.challenge e assertion) [.setChallenge e.id none]
      (.assertion (.credential e assertion challenge))
  | verified (e : Entry) (assertion : Assertion) (challenge : List Char)
      (row : WebAuthnCredential) (count : ℕ) (hrow : credentialById db assertion.rawId = some row)
      (huser : row.user = e.user.id)
      (hverified : cfg.verifyAssertion assertion.text challenge row = some count) :
    AssertionMove (.credential e assertion challenge) []
      (.assertion (.sign e row.credentialId count))
  | sign (e : Entry) (credentialId : List Char) (count : ℕ) :
    AssertionMove (.sign e credentialId count) [.setSignCount credentialId count]
      (.session e [.pwd, .webauthn])
  | refused (p : AssertionPoint) (reply : Reply) (hrefuses : refuses reply = true) :
    AssertionMove p [] (.answer reply)

theorem assertion_move (p : AssertionPoint) (new : List Write) (p' : Point)
    (h : assertionStatement cfg db p = some (new, p')) : AssertionMove cfg db p new p' := by
  cases p with
  | flow a assertion =>
    simp only [assertionStatement] at h
    cases hguarded : guardedRow cfg db.flows a.form .webauthn with
    | none =>
      rw [hguarded] at h
      obtain ⟨rfl, rfl⟩ := eq_of_some h
      exact .turnedAway a assertion
    | some found =>
      rw [hguarded] at h
      obtain ⟨rfl, rfl⟩ := eq_of_some h
      exact .flow a assertion _ _ hguarded
  | user a assertion id f =>
    simp only [assertionStatement] at h
    cases huser : flowUser db f with
    | none =>
      rw [huser] at h
      obtain ⟨rfl, rfl⟩ := eq_of_some h
      exact .refused _ _ rfl
    | some user =>
      rw [huser] at h
      cases hcompleted : f.completedSession with
      | some session =>
        simp only [hcompleted] at h
        obtain ⟨rfl, rfl⟩ := eq_of_some h
        exact .resume a assertion id f session hcompleted
      | none =>
        simp only [hcompleted] at h
        split at h
        · obtain ⟨rfl, rfl⟩ := eq_of_some h
          exact .refused _ _ rfl
        · obtain ⟨rfl, rfl⟩ := eq_of_some h
          exact .user a assertion id f user hcompleted huser
  | challenge e assertion =>
    simp only [assertionStatement] at h
    cases hchallenge : e.flow.challenge with
    | none =>
      rw [hchallenge] at h
      obtain ⟨rfl, rfl⟩ := eq_of_some h
      exact .refused _ _ rfl
    | some challenge =>
      rw [hchallenge] at h
      obtain ⟨rfl, rfl⟩ := updateFlow_some h
      exact .challenge e assertion challenge hchallenge
  | credential e assertion challenge =>
    simp only [assertionStatement] at h
    cases hrow : credentialById db assertion.rawId with
    | none =>
      rw [hrow] at h
      obtain ⟨rfl, rfl⟩ := eq_of_some h
      exact .refused _ _ rfl
    | some row =>
      rw [hrow] at h
      simp only at h
      split_ifs at h with huser
      · obtain ⟨rfl, rfl⟩ := eq_of_some h
        exact .refused _ _ rfl
      · cases hverified : cfg.verifyAssertion assertion.text challenge row with
        | none =>
          rw [hverified] at h
          obtain ⟨rfl, rfl⟩ := eq_of_some h
          exact .refused _ _ rfl
        | some count =>
          rw [hverified] at h
          obtain ⟨rfl, rfl⟩ := eq_of_some h
          exact .verified e assertion challenge row count hrow (not_not.mp huser) hverified
  | sign e credentialId count =>
    simp only [assertionStatement] at h
    split_ifs at h
    obtain ⟨rfl, rfl⟩ := eq_of_some h
    exact .sign e credentialId count

/-- The writes of the requests that prepare a factor. -/
def isSetup : Write → Bool
  | .lockFlow _ => true
  | .setChallenge _ _ => true
  | .setCsrf _ _ => true
  | .deleteTotp _ => true
  | .addTotp _ _ => true
  | _ => false

/-- A request that prepares a factor goes on, or answers that it has done so or not. -/
def SetupMove (new : List Write) (p' : Point) : Prop :=
  (∀ w ∈ new, isSetup w = true) ∧
    ((∃ p, p' = .setup p) ∨ ∃ reply, p' = .answer reply ∧ refuses reply = true)

theorem lock_setup (r : Login.Form) : ∀ w ∈ lock db r, isSetup w = true := by
  unfold lock
  cases r.flow with
  | none => exact fun w hw => absurd hw List.not_mem_nil
  | some id =>
    simp only
    split_ifs
    · exact List.forall_mem_singleton.mpr rfl
    · exact fun w hw => absurd hw List.not_mem_nil

theorem setup_read {new : List Write} {p p' : Point}
    (h : some (([] : List Write), p) = some (new, p'))
    (hp : (∃ q, p = .setup q) ∨ ∃ reply, p = .answer reply ∧ refuses reply = true) :
    SetupMove new p' := by
  obtain ⟨rfl, rfl⟩ := eq_of_some h
  exact ⟨fun w hw => absurd hw List.not_mem_nil, hp⟩

theorem setup_move (p : SetupPoint) (new : List Write) (p' : Point)
    (h : setupStatement cfg db p = some (new, p')) : SetupMove new p' := by
  cases p with
  | optionsFlow r challenge =>
    simp only [setupStatement] at h
    split at h
    · obtain ⟨rfl, rfl⟩ := eq_of_some h
      exact ⟨lock_setup db r, Or.inr ⟨_, rfl, rfl⟩⟩
    · obtain ⟨rfl, rfl⟩ := eq_of_some h
      exact ⟨lock_setup db r, Or.inl ⟨_, rfl⟩⟩
  | optionsUser r challenge id f =>
    simp only [setupStatement] at h
    split at h
    · exact setup_read h (Or.inr ⟨_, rfl, rfl⟩)
    · exact setup_read h (Or.inl ⟨_, rfl⟩)
  | credentials e challenge =>
    simp only [setupStatement] at h
    split_ifs at h
    · exact setup_read h (Or.inl ⟨_, rfl⟩)
    · exact setup_read h (Or.inr ⟨_, rfl, rfl⟩)
  | options e challenge =>
    obtain ⟨rfl, rfl⟩ := updateFlow_some h
    exact ⟨List.forall_mem_singleton.mpr rfl, Or.inr ⟨_, rfl, rfl⟩⟩
  | formFlow r newTotp =>
    simp only [setupStatement] at h
    split at h
    · exact setup_read h (Or.inr ⟨_, rfl, rfl⟩)
    · exact setup_read h (Or.inl ⟨_, rfl⟩)
  | formUser r newTotp id f =>
    simp only [setupStatement] at h
    split at h
    · exact setup_read h (Or.inr ⟨_, rfl, rfl⟩)
    · split_ifs at h
      · exact setup_read h (Or.inr ⟨_, rfl, rfl⟩)
      · exact setup_read h (Or.inl ⟨_, rfl⟩)
  | confirmed e newTotp =>
    simp only [setupStatement] at h
    split_ifs at h
    · exact setup_read h (Or.inr ⟨_, rfl, rfl⟩)
    · exact setup_read h (Or.inl ⟨_, rfl⟩)
  | secret e newTotp =>
    simp only [setupStatement] at h
    split at h
    · exact setup_read h (Or.inl ⟨_, rfl⟩)
    · exact setup_read h (Or.inl ⟨_, rfl⟩)
  | existing e newTotp =>
    simp only [setupStatement] at h
    split_ifs at h
    · exact setup_read h (Or.inl ⟨_, rfl⟩)
    · exact setup_read h (Or.inl ⟨_, rfl⟩)
  | delete e newTotp =>
    obtain ⟨rfl, rfl⟩ := eq_of_some h
    refine ⟨?_, Or.inl ⟨_, rfl⟩⟩
    split_ifs
    · exact List.forall_mem_singleton.mpr rfl
    · exact fun w hw => absurd hw List.not_mem_nil
  | insert e newTotp =>
    simp only [setupStatement] at h
    split_ifs at h
    obtain ⟨rfl, rfl⟩ := eq_of_some h
    exact ⟨List.forall_mem_singleton.mpr rfl, Or.inl ⟨_, rfl⟩⟩
  | csrf e =>
    obtain ⟨rfl, rfl⟩ := updateFlow_some h
    exact ⟨List.forall_mem_singleton.mpr rfl, Or.inr ⟨_, rfl, rfl⟩⟩

end

end Hyproxy.FactorMoves

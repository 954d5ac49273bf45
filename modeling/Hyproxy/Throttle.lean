import Hyproxy.AccountEffects

/-!
The account throttle as the outside sees it. Requests that reach the throttle and
pass it are attempts on an account key, and the response says how they went. The
row of a key is a function of the attempts on it alone: a failure counts up within
its window, and a success of either step deletes the row.
-/

namespace Hyproxy.Throttle

open Accounts Login Passkeys AccountSteps AccountEffects

inductive Kind
  | passwordFailed
  | passwordPassed
  | factorFailed
  | factorPassed
  deriving Repr, DecidableEq

structure Attempt where
  key : List Char
  kind : Kind
  now : ℤ
  deriving Repr, DecidableEq

/-- The account key of a second-factor submission. -/
def factorKey (cfg : Config) (s : State) (r : Form) (stage : Stage) : Option (List Char) :=
  match guardedFlow cfg s r stage with
  | none => none
  | some (_, f) => (flowUser s f).map User.email

/-- The account key of a submission on a flow that is not completed. -/
def openKey (cfg : Config) (s : State) (r : Form) (stage : Stage) : Option (List Char) :=
  match guardedFlow cfg s r stage with
  | none => none
  | some (_, f) => if f.completedSession = none then (flowUser s f).map User.email else none

def attempt (now : ℤ) (kind : Kind) (key : List Char) : Attempt := ⟨key, kind, now⟩

/-- The attempt that a request makes, read from its response. -/
def attempted (cfg : Config) (s : State) : Event → Option Attempt
  | .loginSubmit r email password =>
    match (loginSubmit cfg s r email password).2 with
    | .page 401 => some (attempt r.now .passwordFailed (accountKey cfg email))
    | .redirect _ => some (attempt r.now .passwordPassed (accountKey cfg email))
    | _ => none
  | .totpSubmit r code =>
    match (totpSubmit cfg s r code).2 with
    | .page 401 => (openKey cfg s r .totp).map (attempt r.now .factorFailed)
    | .signedIn => (openKey cfg s r .totp).map (attempt r.now .factorPassed)
    | _ => none
  | .enrollTotpSubmit r code hashes =>
    match (enrollTotpSubmit cfg s r code hashes).2 with
    | .page 401 => (factorKey cfg s r .totp).map (attempt r.now .factorFailed)
    | .signedIn => (factorKey cfg s r .totp).map (attempt r.now .factorPassed)
    | _ => none
  | .recoverySubmit r code =>
    match (recoverySubmit cfg s r code).2 with
    | .page 401 => (factorKey cfg s r .totp).map (attempt r.now .factorFailed)
    | .redirect _ => (factorKey cfg s r .totp).map (attempt r.now .factorPassed)
    | _ => none
  | .webauthnVerify r a =>
    match (webauthnVerify cfg s r a).2 with
    | .error 401 _ => (openKey cfg s r .webauthn).map (attempt r.now .factorFailed)
    | .signedIn => (openKey cfg s r .webauthn).map (attempt r.now .factorPassed)
    | _ => none
  | _ => none

/-- The row of a key after an attempt. -/
def Attempt.apply (cfg : Config) (a : Attempt) (k : List Char) (row : Option AuthThrottle) :
    Option AuthThrottle :=
  if a.key = k then
    match a.kind with
    | .passwordFailed | .factorFailed => some (failedRow cfg .account a.now row)
    | .passwordPassed | .factorPassed => none
  else row

/-- The row of a key after a request with this attempt, if any. -/
def rowAfter (cfg : Config) (k : List Char) (row : Option AuthThrottle) :
    Option Attempt → Option AuthThrottle
  | none => row
  | some a => a.apply cfg k row

/-- How a request bears on the account rows. -/
inductive Accounted (cfg : Config) (s t : State) : Option Attempt → Prop
  | untouched (h : t.throttle = s.throttle) : Accounted cfg s t none
  | failed (a : Attempt) (ip : List Char) (hkind : a.kind = .passwordFailed ∨ a.kind = .factorFailed)
    (h : t.throttle = (s.registerFailure cfg ip a.key a.now).throttle) : Accounted cfg s t (some a)
  | passed (a : Attempt) (hkind : a.kind = .passwordPassed ∨ a.kind = .factorPassed)
    (h : t.throttle = (s.resetAccount a.key).throttle) : Accounted cfg s t (some a)

theorem setThrottle_account (s : State) (key k : List Char) (row : Option AuthThrottle) :
    (s.setThrottle .account key row).throttle .account k =
      if key = k then row else s.throttle .account k := by
  by_cases h : key = k
  · subst h
    simp [State.setThrottle]
  · simp [State.setThrottle, Function.update_of_ne (Ne.symm h), h]

theorem registerFailure_account (cfg : Config) (s : State) (ip key k : List Char) (now : ℤ) :
    (s.registerFailure cfg ip key now).throttle .account k =
      if key = k then some (failedRow cfg .account now (s.throttle .account k))
      else s.throttle .account k := by
  have hip : (s.setThrottle .ip ip (some (failedRow cfg .ip now (s.throttle .ip ip)))).throttle
      .account = s.throttle .account := by simp [State.setThrottle]
  unfold State.registerFailure
  simp only
  rw [setThrottle_account, hip]
  split_ifs with h
  · rw [h]
  · rfl

theorem Accounted.row {cfg : Config} {s t : State} {o : Option Attempt} (h : Accounted cfg s t o)
    (k : List Char) :
    t.throttle .account k = rowAfter cfg k (s.throttle .account k) o := by
  cases h with
  | untouched h => rw [h, rowAfter]
  | failed a ip hkind h =>
    rw [h, registerFailure_account]
    simp only [rowAfter, Attempt.apply]
    split_ifs
    · rcases hkind with hkind | hkind <;> rw [hkind]
    · rfl
  | passed a hkind h =>
    rw [h, State.resetAccount, setThrottle_account]
    simp only [rowAfter, Attempt.apply]
    split_ifs
    · rcases hkind with hkind | hkind <;> rw [hkind]
    · rfl

theorem accounted_loginSubmit (cfg : Config) (s : State) (r : Form) (email password : List Char) :
    Accounted cfg s (loginSubmit cfg s r email password).1
      (attempted cfg s (.loginSubmit r email password)) := by
  unfold attempted loginSubmit
  simp only
  split
  · exact .untouched rfl
  · rename_i id f hvalid
    split_ifs with hcookie hcsrf hthrottle
    · exact .untouched rfl
    · exact .untouched rfl
    · exact .untouched rfl
    · split
      · exact .failed _ r.ip (Or.inl rfl) rfl
      · split_ifs
        · exact .passed _ (Or.inl rfl) rfl
        · exact .failed _ r.ip (Or.inl rfl) rfl

theorem refused_response (s : State) (r : Form) (id : ℕ) (user : User) (refused : State × Response)
    (h : secondFactorThrottle s r id user = some refused) :
    ∃ retry, refused.2 = .throttled retry := by
  simp only [secondFactorThrottle] at h
  split_ifs at h
  obtain rfl := Option.some.inj h
  exact ⟨_, rfl⟩

theorem accounted_totpSubmit (cfg : Config) (s : State) (r : Form) (code : List Char) :
    Accounted cfg s (totpSubmit cfg s r code).1 (attempted cfg s (.totpSubmit r code)) := by
  cases hguarded : guardedFlow cfg s r .totp with
  | none =>
    have heq : totpSubmit cfg s r code = turnedAway cfg s r := by rw [totpSubmit, hguarded]
    have hkey : openKey cfg s r .totp = none := by rw [openKey, hguarded]
    have hnone : attempted cfg s (.totpSubmit r code) = none := by
      simp only [attempted, hkey, Option.map_none]
      split <;> rfl
    rw [hnone, heq]
    exact .untouched (quiet_turnedAway cfg s r).2
  | some p =>
    obtain ⟨id, f⟩ := p
    cases hopen : f.completedSession with
    | some session =>
      have hkey : openKey cfg s r .totp = none := by simp [openKey, hguarded, hopen]
      have hnone : attempted cfg s (.totpSubmit r code) = none := by
        simp only [attempted, hkey, Option.map_none]
        split <;> rfl
      rw [hnone]
      refine .untouched ?_
      simp only [totpSubmit, hguarded, hopen]
      split_ifs <;> exact (quiet_resumeCompletedLogin cfg s r session).2
    | none =>
      cases huser : flowUser s f with
      | none =>
        have hnone : attempted cfg s (.totpSubmit r code) = none := by
          simp only [attempted, totpSubmit, hguarded, hopen, huser, expired]
        rw [hnone]
        simp only [totpSubmit, hguarded, hopen, huser]
        exact .untouched rfl
      | some user =>
        have hkey : openKey cfg s r .totp = some user.email := by
          simp [openKey, hguarded, hopen, huser]
        simp only [attempted, hkey, Option.map_some]
        simp only [totpSubmit, hguarded, hopen, huser]
        cases hthrottle : secondFactorThrottle s r id user with
        | some refused =>
          obtain ⟨retry, hretry⟩ := refused_response s r id user refused hthrottle
          simp only [hretry]
          exact .untouched (secondFactorThrottle_some s r id user refused hthrottle).2
        | none =>
          cases hrow : confirmedTotp s user.id with
          | none => exact .untouched rfl
          | some row =>
            by_cases hverified : cfg.verifyCode row.secret (Text.strip code) r.now = true
            · simp only [hverified, if_true]
              exact .passed _ (Or.inr rfl) rfl
            · simp only [hverified]
              exact .failed _ r.ip (Or.inr rfl) rfl

theorem accounted_enrollTotpSubmit (cfg : Config) (s : State) (r : Form) (code : List Char)
    (hashes : List (List Char)) :
    Accounted cfg s (enrollTotpSubmit cfg s r code hashes).1
      (attempted cfg s (.enrollTotpSubmit r code hashes)) := by
  cases hguarded : guardedFlow cfg s r .totp with
  | none =>
    have hkey : factorKey cfg s r .totp = none := by rw [factorKey, hguarded]
    have hnone : attempted cfg s (.enrollTotpSubmit r code hashes) = none := by
      simp only [attempted, hkey, Option.map_none]
      split <;> rfl
    rw [hnone, enrollTotpSubmit, hguarded]
    exact .untouched (quiet_turnedAway cfg s r).2
  | some p =>
    obtain ⟨id, f⟩ := p
    cases huser : flowUser s f with
    | none =>
      simp only [attempted, enrollTotpSubmit, hguarded, huser, expired]
      exact .untouched rfl
    | some user =>
      have hkey : factorKey cfg s r .totp = some user.email := by simp [factorKey, hguarded, huser]
      simp only [attempted, hkey, Option.map_some]
      simp only [enrollTotpSubmit, hguarded, huser]
      by_cases htier : user.tier = .admin
      · simp only [htier, if_true, expired]
        exact .untouched rfl
      · simp only [htier, if_false]
        cases hthrottle : secondFactorThrottle s r id user with
        | some refused =>
          obtain ⟨retry, hretry⟩ := refused_response s r id user refused hthrottle
          simp only [hretry]
          exact .untouched (secondFactorThrottle_some s r id user refused hthrottle).2
        | none =>
          cases hrow : s.totp user.id with
          | none => exact .untouched rfl
          | some row =>
            by_cases hpending : row.confirmedAt = none
            · by_cases hverified : cfg.verifyCode row.secret (Text.strip code) r.now = true
              · simp only [hpending, hverified, ne_eq, not_true_eq_false, if_true, if_false]
                exact .passed _ (Or.inr rfl) rfl
              · simp only [hpending, hverified, ne_eq, not_true_eq_false, if_false]
                exact .failed _ r.ip (Or.inr rfl) rfl
            · simp only [hpending, ne_eq, not_false_eq_true, if_true]
              exact .untouched rfl

theorem accounted_recoverySubmit (cfg : Config) (s : State) (r : Form) (code : List Char) :
    Accounted cfg s (recoverySubmit cfg s r code).1 (attempted cfg s (.recoverySubmit r code)) := by
  cases hguarded : guardedFlow cfg s r .totp with
  | none =>
    have hkey : factorKey cfg s r .totp = none := by rw [factorKey, hguarded]
    have hnone : attempted cfg s (.recoverySubmit r code) = none := by
      simp only [attempted, hkey, Option.map_none]
      split <;> rfl
    rw [hnone, recoverySubmit, hguarded]
    exact .untouched (quiet_turnedAway cfg s r).2
  | some p =>
    obtain ⟨id, f⟩ := p
    cases huser : flowUser s f with
    | none =>
      simp only [attempted, recoverySubmit, hguarded, huser, expired]
      exact .untouched rfl
    | some user =>
      have hkey : factorKey cfg s r .totp = some user.email := by simp [factorKey, hguarded, huser]
      simp only [attempted, hkey, Option.map_some]
      simp only [recoverySubmit, hguarded, huser]
      cases hthrottle : secondFactorThrottle s r id user with
      | some refused =>
        obtain ⟨retry, hretry⟩ := refused_response s r id user refused hthrottle
        simp only [hretry]
        exact .untouched (secondFactorThrottle_some s r id user refused hthrottle).2
      | none =>
        cases hcodes : consumeCode cfg user.id (normalize cfg code) r.now s.codes with
        | none => exact .failed _ r.ip (Or.inr rfl) rfl
        | some codes => exact .passed _ (Or.inr rfl) rfl

theorem accounted_webauthnVerify (cfg : Config) (s : State) (r : Form) (a : Assertion) :
    Accounted cfg s (webauthnVerify cfg s r a).1 (attempted cfg s (.webauthnVerify r a)) := by
  cases hguarded : guardedFlow cfg s r .webauthn with
  | none =>
    simp only [attempted, webauthnVerify, hguarded, invalidFlow]
    exact .untouched rfl
  | some p =>
    obtain ⟨id, f⟩ := p
    cases huser : flowUser s f with
    | none =>
      simp only [attempted, webauthnVerify, hguarded, huser, invalidFlow]
      exact .untouched rfl
    | some user =>
      cases hopen : f.completedSession with
      | some session =>
        have hkey : openKey cfg s r .webauthn = none := by simp [openKey, hguarded, hopen]
        have hnone : attempted cfg s (.webauthnVerify r a) = none := by
          simp only [attempted, hkey, Option.map_none]
          split <;> rfl
        have hquiet := (quiet_resumeCompletedLogin cfg s r session).2
        rw [hnone]
        refine .untouched ?_
        simp only [webauthnVerify, hguarded, huser, hopen]
        split
        · rename_i t heq
          rwa [heq] at hquiet
        · rename_i t heq
          rwa [heq] at hquiet
      | none =>
        have hkey : openKey cfg s r .webauthn = some user.email := by
          simp [openKey, hguarded, hopen, huser]
        simp only [attempted, hkey, Option.map_some]
        simp only [webauthnVerify, hguarded, huser, hopen]
        cases hthrottle : secondFactorThrottle s r id user with
        | some refused => exact .untouched (secondFactorThrottle_some s r id user refused hthrottle).2
        | none =>
          have hfailed : ∀ g, Accounted cfg s
              (assertionFailure cfg (s.setFlow id g) id user r).1
              (some (attempt r.now .factorFailed user.email)) :=
            fun g => .failed _ r.ip (Or.inr rfl) rfl
          cases f.challenge with
          | none => exact .untouched rfl
          | some challenge =>
            simp only
            generalize credentialById _ a.rawId = cred
            cases cred with
            | none => exact hfailed _
            | some row =>
              by_cases howner : row.user = user.id
              · simp only [howner, ne_eq, not_true_eq_false, if_false]
                cases cfg.verifyAssertion a.text challenge row with
                | none => exact hfailed _
                | some count =>
                  refine .passed (attempt r.now .factorPassed user.email) (Or.inr rfl) ?_
                  simp only [assertionSuccess]
                  split <;> rfl
              · simp only [howner, ne_eq, not_false_eq_true, if_true]
                exact hfailed _

/-- The requests that can be attempts. -/
def mayAttempt : Event → Bool
  | .loginSubmit .. | .totpSubmit .. | .enrollTotpSubmit .. | .recoverySubmit ..
  | .webauthnVerify .. => true
  | _ => false

theorem throttle_of_effect (cfg : Config) (s t : State) (e : Event) (heffect : Effect cfg s e t)
    (h : mayAttempt e = false) : t.throttle = s.throttle := by
  cases heffect with
  | quiet _ _ _ hthrottle => exact hthrottle
  | opened _ _ _ _ _ hthrottle => exact hthrottle
  | factorFailed _ _ _ _ _ _ _ hsub _ _ _ _ => cases hsub <;> cases h
  | totpDrawn _ _ _ _ _ _ _ => rfl
  | passkeyAdded _ _ _ _ _ _ _ _ _ => rfl
  | administered _ _ _ hadmin => exact hadmin.throttle
  | passwordFailed _ _ _ _ _ => cases h
  | passwordPassed _ _ _ _ _ _ _ _ _ _ => cases h
  | totpPassed _ _ _ _ _ _ _ _ _ _ _ => cases h
  | totpEnrolled _ _ _ _ _ _ _ _ _ _ _ _ _ => cases h
  | recovered _ _ _ _ _ _ _ _ _ => cases h
  | asserted _ _ _ _ _ _ _ _ _ _ => cases h

/-- The row of an account key follows the attempts on it. -/
theorem account_step (cfg : Config) (s : State) (e : Event) :
    Accounted cfg s (step cfg s e) (attempted cfg s e) := by
  have heffect := step_effect cfg s e
  cases e with
  | loginSubmit r email password => exact accounted_loginSubmit cfg s r email password
  | totpSubmit r code => exact accounted_totpSubmit cfg s r code
  | enrollTotpSubmit r code hashes => exact accounted_enrollTotpSubmit cfg s r code hashes
  | recoverySubmit r code => exact accounted_recoverySubmit cfg s r code
  | webauthnVerify r a => exact accounted_webauthnVerify cfg s r a
  | _ => exact .untouched (throttle_of_effect cfg s _ _ heffect rfl)

end Hyproxy.Throttle

import Hyproxy.AccountSteps

/-!
Every request has the effect that its handler allows: one lemma for each handler,
following its branches, and the inversion of a step that the results about runs
rest on.
-/

namespace Hyproxy.AccountEffects

open Accounts Login Passkeys AccountSteps

/-- A refusal by the throttle leaves its trace in the log only. -/
theorem secondFactorThrottle_some (s : State) (r : Form) (id : ℕ) (user : User)
    (refused : State × Response) (h : secondFactorThrottle s r id user = some refused) :
    Quiet s refused.1 ∧ refused.1.throttle = s.throttle := by
  simp only [secondFactorThrottle] at h
  split_ifs at h
  obtain rfl := Option.some.inj h
  exact ⟨(Quiet.refl s).emit .., rfl⟩

theorem secondFactorThrottle_none (s : State) (r : Form) (id : ℕ) (user : User)
    (h : secondFactorThrottle s r id user = none) :
    (s.check r.ip user.email r.now).allowed = true := by
  simp only [secondFactorThrottle] at h
  split_ifs at h with hallowed
  exact hallowed

/-- The page resumes a valid flow or opens a new one in place of a stale one. -/
theorem effect_loginForm (cfg : Config) (s : State) (r : Form) (dbNow : ℤ) :
    Effect cfg s (.loginForm r dbNow) (loginForm cfg s r dbNow).1 := by
  obtain ⟨hquiet, hthrottle⟩ := quiet_getSessionFromCookie cfg s r.session r.ip r.now
  unfold loginForm
  split
  · rename_i t heq
    rw [heq] at hquiet hthrottle
    exact .quiet _ t hquiet hthrottle
  · rename_i t heq
    rw [heq] at hquiet hthrottle
    split
    · exact .opened _ t r dbNow hquiet hthrottle
    · rename_i id f hvalid
      -- a flow at its first stage is kept, one past it is dropped for a new one
      split_ifs
      · have hflow := (getValidFlow_some t r true id f hvalid).2.1
        exact .quiet _ _ (hquiet.trans (quiet_rotateCsrf cfg t id f r hflow)) hthrottle
      · exact .opened _ _ r dbNow (hquiet.trans (quiet_deleteFlow t id)) hthrottle

theorem effect_authorize (cfg : Config) (s : State) (r : Form) (dbNow : ℤ) :
    Effect cfg s (.authorize r dbNow) (authorize cfg s r dbNow).1 := by
  obtain ⟨hquiet, hthrottle⟩ := quiet_getSessionFromCookie cfg s r.session r.ip r.now
  unfold authorize
  split
  · rename_i t heq
    rw [heq] at hquiet hthrottle
    exact .quiet _ t hquiet hthrottle
  · rename_i t heq
    rw [heq] at hquiet hthrottle
    exact .opened _ t r dbNow hquiet hthrottle

/-- Behind the flow, the cookie and the throttle, the password decides between a failure and
an advance to the second factor. -/
theorem effect_loginSubmit (cfg : Config) (s : State) (r : Form) (email password : List Char) :
    Effect cfg s (.loginSubmit r email password) (loginSubmit cfg s r email password).1 := by
  unfold loginSubmit
  split
  · exact .quiet _ s (.refl s) rfl
  · rename_i id f hvalid
    have hflow := (getValidFlow_some s r true id f hvalid).2.1
    simp only
    split_ifs with hcookie hcsrf hthrottle
    · exact .quiet _ s (.refl s) rfl
    · exact .quiet _ s (.refl s) rfl
    · exact .quiet _ _ ((Quiet.refl s).emit ..) rfl
    · split
      · exact .passwordFailed r email password id none
      · rename_i user hfound
        push Not at hcsrf
        split_ifs with hverified
        · exact .passwordPassed r email password id f user hflow hcsrf.2 hfound hverified.2
        · exact .passwordFailed r email password id (some user)

/-- A page of a stage gives the flow a fresh CSRF token and nothing else. -/
theorem effect_page (cfg : Config) (s : State) (e : Event) (r : Form) (id : ℕ) (f : LoginFlow)
    (stage : Stage) (h : getStageFlow s r stage = some (id, f)) :
    Effect cfg s e (rotateCsrf cfg s id f r) :=
  .quiet _ _ (quiet_rotateCsrf cfg s id f r (getStageFlow_some s r stage id f h).2.1) rfl

theorem effect_none (cfg : Config) (s : State) (e : Event) : Effect cfg s e s :=
  .quiet _ s (.refl s) rfl

/-- A code counts only on an open flow that the throttle lets in: a duplicate of a completed
flow is answered from its session. -/
theorem effect_totpSubmit (cfg : Config) (s : State) (r : Form) (code : List Char) :
    Effect cfg s (.totpSubmit r code) (totpSubmit cfg s r code).1 := by
  unfold totpSubmit
  split
  · obtain ⟨hquiet, hthrottle⟩ := quiet_turnedAway cfg s r
    exact .quiet _ _ hquiet hthrottle
  · rename_i id f hguarded
    split
    · rename_i _ session _
      obtain ⟨hquiet, hthrottle⟩ := quiet_resumeCompletedLogin cfg s r session
      simp only
      split_ifs
      · exact .quiet _ _ hquiet hthrottle
      · exact .quiet _ _ hquiet hthrottle
    · exact effect_none cfg s _
    · rename_i user hopen huser
      have hon : OnFlow cfg s r .totp id f user := ⟨hguarded, huser⟩
      split
      · rename_i refused hrefused
        obtain ⟨hquiet, hthrottle⟩ := secondFactorThrottle_some s r id user refused hrefused
        exact .quiet _ _ hquiet hthrottle
      · rename_i hallowed
        have hallowed := secondFactorThrottle_none s r id user hallowed
        split
        · exact effect_none cfg s _
        · rename_i row hrow
          split_ifs with hverified
          · exact .totpPassed r code id f user row hon hopen hallowed hrow hverified
          · refine .factorFailed _ r .totp id f user _ (.totp r code) hon hallowed ?_ rfl
            have hfailed := (quiet_registerFailure cfg s r.ip user.email r.now).emit
              .loginTotpFailure false (some user.id) (some id)
            exact hfailed.trans (quiet_rotateCsrf cfg _ id f r hon.flow)

theorem effect_totpForm (cfg : Config) (s : State) (r : Form) :
    Effect cfg s (.totpForm r) (totpForm cfg s r).1 := by
  unfold totpForm
  split
  · exact effect_none cfg s _
  · rename_i id f hstage
    split
    · exact effect_none cfg s _
    · split_ifs
      · exact effect_none cfg s _
      · exact effect_page cfg s _ r id f .totp hstage

/-- A seed is drawn once for a standard user and shown again on later visits. -/
theorem effect_enrollTotpForm (cfg : Config) (s : State) (r : Form) (newTotp : List Char) :
    Effect cfg s (.enrollTotpForm r newTotp) (enrollTotpForm cfg s r newTotp).1 := by
  unfold enrollTotpForm
  split
  · exact effect_none cfg s _
  · rename_i id f hstage
    split
    · exact effect_none cfg s _
    · rename_i user huser
      split_ifs with htier hconfirmed hnone
      · exact effect_none cfg s _
      · exact effect_none cfg s _
      · exact .totpDrawn r newTotp id f user (getStageFlow_some s r .totp id f hstage).2.1 hnone
      · exact effect_page cfg s _ r id f .totp hstage

theorem effect_enrollTotpSubmit (cfg : Config) (s : State) (r : Form) (code : List Char)
    (hashes : List (List Char)) :
    Effect cfg s (.enrollTotpSubmit r code hashes) (enrollTotpSubmit cfg s r code hashes).1 := by
  unfold enrollTotpSubmit
  split
  · obtain ⟨hquiet, hthrottle⟩ := quiet_turnedAway cfg s r
    exact .quiet _ _ hquiet hthrottle
  · rename_i id f hguarded
    split
    · exact effect_none cfg s _
    · rename_i user huser
      have hon : OnFlow cfg s r .totp id f user := ⟨hguarded, huser⟩
      split_ifs with htier
      · exact effect_none cfg s _
      · split
        · rename_i refused hrefused
          obtain ⟨hquiet, hthrottle⟩ := secondFactorThrottle_some s r id user refused hrefused
          exact .quiet _ _ hquiet hthrottle
        · rename_i hallowed
          have hallowed := secondFactorThrottle_none s r id user hallowed
          have hstandard : user.tier = .standard := by
            cases htier' : user.tier with
            | standard => rfl
            | admin => exact absurd htier' htier
          split
          · exact effect_none cfg s _
          · rename_i row hrow
            split_ifs with hpending hverified
            · exact effect_none cfg s _
            · push Not at hpending
              exact .totpEnrolled r code hashes id f user row hon hstandard hallowed hrow hpending
                hverified
            · refine .factorFailed _ r .totp id f user _ (.enroll r code hashes) hon hallowed ?_ rfl
              have hfailed := quiet_registerFailure cfg s r.ip user.email r.now
              exact hfailed.trans (quiet_rotateCsrf cfg _ id f r hon.flow)

theorem effect_recoveryForm (cfg : Config) (s : State) (r : Form) :
    Effect cfg s (.recoveryForm r) (recoveryForm cfg s r).1 := by
  unfold recoveryForm
  split
  · exact effect_none cfg s _
  · rename_i id f hstage
    exact effect_page cfg s _ r id f .totp hstage

/-- A wrong recovery code is a second-factor failure like any other. -/
theorem effect_recoverySubmit (cfg : Config) (s : State) (r : Form) (code : List Char) :
    Effect cfg s (.recoverySubmit r code) (recoverySubmit cfg s r code).1 := by
  unfold recoverySubmit
  split
  · obtain ⟨hquiet, hthrottle⟩ := quiet_turnedAway cfg s r
    exact .quiet _ _ hquiet hthrottle
  · rename_i id f hguarded
    split
    · exact effect_none cfg s _
    · rename_i user huser
      have hon : OnFlow cfg s r .totp id f user := ⟨hguarded, huser⟩
      split
      · rename_i refused hrefused
        obtain ⟨hquiet, hthrottle⟩ := secondFactorThrottle_some s r id user refused hrefused
        exact .quiet _ _ hquiet hthrottle
      · rename_i hallowed
        have hallowed := secondFactorThrottle_none s r id user hallowed
        split
        · refine .factorFailed _ r .totp id f user _ (.recovery r code) hon hallowed ?_ rfl
          have hfailed := (quiet_registerFailure cfg s r.ip user.email r.now).emit
            .loginRecoveryCodeFailure false (some user.id) (some id)
          exact hfailed.trans (quiet_rotateCsrf cfg _ id f r hon.flow)
        · rename_i codes hcodes
          exact .recovered r code id f user codes hon hallowed hcodes

theorem effect_webauthnPage (cfg : Config) (s : State) (r : Form) :
    Effect cfg s (.webauthnPage r) (webauthnPage cfg s r).1 := by
  unfold webauthnPage
  split
  · exact effect_none cfg s _
  · rename_i id f hstage
    split
    · exact effect_none cfg s _
    · split_ifs
      · exact effect_none cfg s _
      · exact effect_page cfg s _ r id f .webauthn hstage

theorem effect_enrollWebauthnPage (cfg : Config) (s : State) (r : Form) :
    Effect cfg s (.enrollWebauthnPage r) (enrollWebauthnPage cfg s r).1 := by
  unfold enrollWebauthnPage
  split
  · exact effect_none cfg s _
  · rename_i id f hstage
    split
    · exact effect_none cfg s _
    · split_ifs
      · exact effect_page cfg s _ r id f .webauthn hstage
      · exact effect_none cfg s _

theorem quiet_challenge (s : State) (id : ℕ) (f : LoginFlow) (challenge : Option (List Char))
    (hf : s.flows id = some f) : Quiet s (s.setFlow id { f with challenge := challenge }) :=
  quiet_setFlow s id f _ hf ⟨rfl, rfl, rfl, rfl, rfl⟩

theorem effect_webauthnOptions (cfg : Config) (s : State) (r : Form) (challenge : List Char) :
    Effect cfg s (.webauthnOptions r challenge) (webauthnOptions cfg s r challenge).1 := by
  unfold webauthnOptions
  split
  · exact effect_none cfg s _
  · rename_i id f hguarded
    have hflow := (guardedFlow_some cfg s r .webauthn id f hguarded).2.1
    split
    · exact effect_none cfg s _
    · split_ifs
      · exact effect_none cfg s _
      · exact .quiet _ _ (quiet_challenge s id f _ hflow) rfl

theorem effect_enrollWebauthnOptions (cfg : Config) (s : State) (r : Form)
    (challenge : List Char) :
    Effect cfg s (.enrollWebauthnOptions r challenge)
      (enrollWebauthnOptions cfg s r challenge).1 := by
  unfold enrollWebauthnOptions
  split
  · exact effect_none cfg s _
  · rename_i id f hguarded
    have hflow := (guardedFlow_some cfg s r .webauthn id f hguarded).2.1
    split
    · exact effect_none cfg s _
    · split_ifs
      · exact .quiet _ _ (quiet_challenge s id f _ hflow) rfl
      · exact effect_none cfg s _

/-- Past the throttle the challenge is spent, whether the assertion holds or not. -/
theorem effect_webauthnVerify (cfg : Config) (s : State) (r : Form) (a : Assertion) :
    Effect cfg s (.webauthnVerify r a) (webauthnVerify cfg s r a).1 := by
  unfold webauthnVerify
  split
  · exact effect_none cfg s _
  · rename_i id f hguarded
    split
    · exact effect_none cfg s _
    · rename_i user huser
      have hon : OnFlow cfg s r .webauthn id f user := ⟨hguarded, huser⟩
      split
      · rename_i session _
        obtain ⟨hquiet, hthrottle⟩ := quiet_resumeCompletedLogin cfg s r session
        split
        · rename_i t heq
          rw [heq] at hquiet hthrottle
          exact .quiet _ _ hquiet hthrottle
        · rename_i t heq
          rw [heq] at hquiet hthrottle
          exact .quiet _ _ hquiet hthrottle
      · rename_i hopen
        split
        · rename_i t _ hrefused
          obtain ⟨hquiet, hthrottle⟩ := secondFactorThrottle_some s r id user _ hrefused
          exact .quiet _ _ hquiet hthrottle
        · rename_i hallowed
          have hallowed := secondFactorThrottle_none s r id user hallowed
          have hcleared := quiet_challenge s id f none hon.flow
          have hfailed : Effect cfg s (.webauthnVerify r a)
              (assertionFailure cfg (s.setFlow id { f with challenge := none }) id user r).1 := by
            refine .factorFailed _ r .webauthn id f user _ (.webauthn r a) hon hallowed ?_ rfl
            exact (hcleared.trans (quiet_registerFailure cfg _ r.ip user.email r.now)).emit ..
          simp only
          split
          · exact .quiet _ _ hcleared rfl
          · split
            · exact hfailed
            · rename_i row _
              split_ifs
              · exact hfailed
              · split
                · exact hfailed
                · rename_i count _
                  exact .asserted r a id f user row count hon hopen hallowed

/-- A passkey is added only by a flow that the bootstrap gate lets through. -/
theorem effect_enrollWebauthnVerify (cfg : Config) (s : State) (r : Form) (text : List Char)
    (breakGlass : Bool) :
    Effect cfg s (.enrollWebauthnVerify r text breakGlass)
      (enrollWebauthnVerify cfg s r text breakGlass).1 := by
  unfold enrollWebauthnVerify
  split
  · exact effect_none cfg s _
  · rename_i id f hguarded
    split
    · exact effect_none cfg s _
    · rename_i user huser
      have hon : OnFlow cfg s r .webauthn id f user := ⟨hguarded, huser⟩
      have hcleared := quiet_challenge s id f none hon.flow
      split_ifs with hrefused
      · exact effect_none cfg s _
      · have hallowed : bootstrapEnrollAllowed (userCredentials s user.id) f = true := by
          simpa using hrefused
        split
        · exact .quiet _ _ hcleared rfl
        · split
          · exact .quiet _ _ (hcleared.emit ..) rfl
          · rename_i reg _
            split_ifs
            · exact effect_none cfg s _
            · exact .passkeyAdded r text breakGlass id f user reg hon hallowed

/-- Disabling an active user revokes the sessions as well. -/
theorem effect_patchUser (cfg : Config) (s : State) (id : ℕ) (tier : Option Tier)
    (status : Option Status) (now : ℤ) :
    Effect cfg s (.patchUser id tier status now) (patchUser s id tier status now).1 := by
  unfold patchUser
  split
  · exact effect_none cfg s _
  · simp only
    split_ifs
    · exact effect_none cfg s _
    · exact effect_none cfg s _
    · exact .administered _ _ rfl ((administered_setUser s _).revoke id now)
    · exact .administered _ _ rfl (administered_setUser s _)

theorem effect_deleteUser (cfg : Config) (s : State) (id : ℕ) :
    Effect cfg s (.deleteUser id) (deleteUser s id).1 := by
  unfold deleteUser
  split
  · exact effect_none cfg s _
  · split_ifs
    · exact effect_none cfg s _
    · refine .administered _ _ rfl ⟨fun n g hg => ?_, rfl, List.filter_sublist, fun n x hx => ?_,
        rfl, rfl, List.Subset.refl _⟩
      · exact (Option.filter_eq_some_iff.mp hg).1
      · exact ⟨x, (Option.filter_eq_some_iff.mp hx).1, .refl x⟩

theorem effect_resetTotp (cfg : Config) (s : State) (id : ℕ) (now : ℤ) :
    Effect cfg s (.resetTotp id now) (resetTotp s id now).1 := by
  unfold resetTotp
  split
  · exact effect_none cfg s _
  · simp only
    split_ifs
    · exact effect_none cfg s _
    · have h := (Administered.refl s).revoke id now
      exact .administered _ _ rfl ⟨h.flows, h.nextFlow, h.credentials, h.sessions, h.nextSession,
        h.throttle, List.subset_cons_of_subset _ h.log⟩

theorem effect_deleteCredential (cfg : Config) (s : State) (id : ℕ) (credentialId : List Char) :
    Effect cfg s (.deleteCredential id credentialId) (deleteCredential s id credentialId).1 := by
  unfold deleteCredential
  split
  · exact effect_none cfg s _
  · split
    · exact effect_none cfg s _
    · split_ifs
      · exact effect_none cfg s _
      · exact effect_none cfg s _
      · have h := Administered.refl s
        exact .administered _ _ rfl ⟨h.flows, h.nextFlow, List.filter_sublist, h.sessions,
          h.nextSession, h.throttle, h.log⟩

/-- The inversion of a step. -/
theorem step_effect (cfg : Config) (s : State) (e : Event) : Effect cfg s e (step cfg s e) := by
  cases e with
  | authorize r dbNow => exact effect_authorize cfg s r dbNow
  | loginForm r dbNow => exact effect_loginForm cfg s r dbNow
  | loginSubmit r email password => exact effect_loginSubmit cfg s r email password
  | totpForm r => exact effect_totpForm cfg s r
  | totpSubmit r code => exact effect_totpSubmit cfg s r code
  | enrollTotpForm r newTotp => exact effect_enrollTotpForm cfg s r newTotp
  | enrollTotpSubmit r code hashes => exact effect_enrollTotpSubmit cfg s r code hashes
  | recoveryForm r => exact effect_recoveryForm cfg s r
  | recoverySubmit r code => exact effect_recoverySubmit cfg s r code
  | webauthnPage r => exact effect_webauthnPage cfg s r
  | webauthnOptions r challenge => exact effect_webauthnOptions cfg s r challenge
  | webauthnVerify r a => exact effect_webauthnVerify cfg s r a
  | enrollWebauthnPage r => exact effect_enrollWebauthnPage cfg s r
  | enrollWebauthnOptions r challenge => exact effect_enrollWebauthnOptions cfg s r challenge
  | enrollWebauthnVerify r text breakGlass =>
    exact effect_enrollWebauthnVerify cfg s r text breakGlass
  | createUser user =>
    rw [step, serve]
    unfold createUser
    split_ifs
    · exact effect_none cfg s _
    · exact effect_none cfg s _
    · have h := Administered.refl s
      exact .administered _ _ rfl ⟨h.flows, h.nextFlow, h.credentials, h.sessions, h.nextSession,
        h.throttle, h.log⟩
  | patchUser id tier status now => exact effect_patchUser cfg s id tier status now
  | deleteUser id => exact effect_deleteUser cfg s id
  | resetTotp id now => exact effect_resetTotp cfg s id now
  | resetPassword id hash now =>
    rw [step, serve]
    unfold resetPassword
    split
    · exact effect_none cfg s _
    · exact .administered _ _ rfl ((administered_setUser s _).revoke id now)
  | deleteCredential id credentialId => exact effect_deleteCredential cfg s id credentialId
  | gcFlows now =>
    have h := Administered.refl s
    refine .administered _ _ rfl ⟨fun n g hg => ?_, h.nextFlow, h.credentials, h.sessions,
      h.nextSession, h.throttle, h.log⟩
    exact (Option.filter_eq_some_iff.mp hg).1

end Hyproxy.AccountEffects

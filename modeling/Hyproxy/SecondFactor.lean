import Hyproxy.AdminSessions

/-!
The second factor of a user across flows. A flow on which a recovery code was used
says so, and that flag is the flow's own; the authenticator row is shared by all
flows of the user. A recovery code drops the row, so a flow that has only passed
the password step can enroll a new authenticator and sign in with it.
-/

namespace Hyproxy.SecondFactor

open Accounts Login Passkeys AccountSteps AccountEffects AdminSessions Runs

/-- A request of the run that the throttle let in used up an unused recovery code of the
user on this flow: the code is marked in the state after it. -/
def Recovered (cfg : Config) (events : List Event) (id u : ℕ) : Prop :=
  ∃ past r code rest f user, events = past ++ .recoverySubmit r code :: rest ∧
    OnFlow cfg (after cfg past) r .totp id f user ∧ user.id = u ∧
    ((after cfg past).check r.ip user.email r.now).allowed ∧
    ∃ before c more, (after cfg past).codes = before ++ c :: more ∧ c.user = u ∧
      c.usedAt = none ∧ cfg.verifyPassword c.codeHash (normalize cfg code) ∧
      (after cfg (past ++ [.recoverySubmit r code])).codes =
        before ++ { c with usedAt := some r.now } :: more

/-- After these events, the request proves a code of the confirmed authenticator on this flow. -/
def CodeVerified (cfg : Config) (events : List Event) (e : Event) (id u : ℕ) : Prop :=
  ∃ r code f user row, e = .totpSubmit r code ∧ OnFlow cfg (after cfg events) r .totp id f user ∧
    user.id = u ∧ confirmedTotp (after cfg events) u = some row ∧
    cfg.verifyCode row.secret (Text.strip code) r.now

theorem recovered_append (cfg : Config) (events more : List Event) (id u : ℕ)
    (h : Recovered cfg events id u) : Recovered cfg (events ++ more) id u := by
  obtain ⟨past, r, code, rest, f, user, rfl, hrest⟩ := h
  exact ⟨past, r, code, rest ++ more, f, user, by simp, hrest⟩

theorem consumeCode_some (cfg : Config) (user : ℕ) (normalized : List Char) (now : ℤ)
    (codes codes' : List RecoveryCode)
    (h : consumeCode cfg user normalized now codes = some codes') :
    ∃ before c more, codes = before ++ c :: more ∧ c.user = user ∧ c.usedAt = none ∧
      cfg.verifyPassword c.codeHash normalized ∧
      codes' = before ++ { c with usedAt := some now } :: more := by
  induction codes generalizing codes' with
  | nil => simp [consumeCode] at h
  | cons c rest ih =>
    rw [consumeCode] at h
    by_cases hmatch : c.user = user ∧ c.usedAt = none ∧ cfg.verifyPassword c.codeHash normalized
    · rw [if_pos hmatch] at h
      obtain ⟨huser, hunused, hverified⟩ := hmatch
      exact ⟨[], c, rest, rfl, huser, hunused, hverified, (Option.some.inj h).symm⟩
    · rw [if_neg hmatch] at h
      obtain ⟨more', hmore, hcodes⟩ := Option.map_eq_some_iff.mp h
      obtain ⟨before, d, more, hrest, huser, hunused, hverified, hmarked⟩ := ih more' hmore
      refine ⟨c :: before, d, more, ?_, huser, hunused, hverified, ?_⟩
      · rw [hrest, List.cons_append]
      · rw [← hcodes, hmarked, List.cons_append]

/-- The flow that a step leaves behind, against the flow before it. -/
structure Kept (f g : LoginFlow) : Prop where
  recoveryUsed : g.recoveryUsed = f.recoveryUsed
  user : f.stage ≠ .password → g.user = f.user
  stage : f.stage ≠ .password → g.stage = f.stage

theorem kept_of_sameFlow {f g : LoginFlow} (h : SameFlow f g) : Kept f g :=
  ⟨h.recoveryUsed, fun _ => h.user, fun _ => h.stage⟩

theorem setFlow_some (s : State) (id n : ℕ) (f g : LoginFlow) (h : (s.setFlow id f).flows n = some g) :
    (n = id ∧ g = f) ∨ (n ≠ id ∧ s.flows n = some g) := by
  by_cases hn : n = id
  · subst hn
    simp only [State.setFlow, Function.update_self, Option.some.injEq] at h
    exact Or.inl ⟨rfl, h.symm⟩
  · simp only [State.setFlow, Function.update_of_ne hn] at h
    exact Or.inr ⟨hn, h⟩

/-- One flow is deleted in a state with the same flows. -/
theorem deleteFlow_some (s t : State) (id n : ℕ) (g : LoginFlow)
    (h : (t.deleteFlow id).flows n = some g) (ht : t.flows = s.flows) : s.flows n = some g := by
  by_cases hn : n = id
  · subst hn
    simp [State.deleteFlow] at h
  · simpa only [State.deleteFlow, Function.update_of_ne hn, ht] using h

/-- A flow that a step changes in place, in a state with the same flows. -/
theorem kept_setFlow (s t : State) (id n : ℕ) (f f' g : LoginFlow) (hf : s.flows id = some f)
    (h : (t.setFlow id f').flows n = some g) (ht : t.flows = s.flows) (hkept : Kept f f') :
    ∃ f, s.flows n = some f ∧ Kept f g := by
  rcases setFlow_some t id n f' g h with ⟨rfl, rfl⟩ | ⟨-, hg⟩
  · exact ⟨f, hf, hkept⟩
  · exact ⟨g, ht ▸ hg, kept_of_sameFlow (.refl g)⟩

/-- Where the flows of a state come from. -/
theorem flow_step (cfg : Config) (s : State) (e : Event) (n : ℕ) (g : LoginFlow)
    (h : (step cfg s e).flows n = some g) :
    g.recoveryUsed = false ∨ (∃ f, s.flows n = some f ∧ Kept f g) ∨
      ∃ r code f user codes, e = .recoverySubmit r code ∧ OnFlow cfg s r .totp n f user ∧
        (s.check r.ip user.email r.now).allowed ∧
        consumeCode cfg user.id (normalize cfg code) r.now s.codes = some codes ∧
        (step cfg s e).codes = codes ∧ g = { f with recoveryUsed := true } := by
  have hsame : s.flows n = some g → ∃ f, s.flows n = some f ∧ Kept f g :=
    fun hg => ⟨g, hg, kept_of_sameFlow (.refl g)⟩
  have hquiet : ∀ {t : State}, Quiet s t → t.flows n = some g →
      ∃ f, s.flows n = some f ∧ Kept f g := by
    intro t hquiet hg
    obtain ⟨f, hf, hfg⟩ := hquiet.flows n g hg
    exact ⟨f, hf, kept_of_sameFlow hfg⟩
  generalize ht : step cfg s e = t at h
  have heffect := ht ▸ step_effect cfg s e
  cases heffect with
  | quiet _ t hq _ => exact Or.inr (Or.inl (hquiet hq h))
  | opened _ t r dbNow hq _ =>
    rcases setFlow_some t t.nextFlow n _ g h with ⟨-, rfl⟩ | ⟨-, hg⟩
    · exact Or.inl rfl
    · exact Or.inr (Or.inl (hquiet hq hg))
  | passwordFailed r email password id user => exact Or.inr (Or.inl (hsame h))
  | passwordPassed r email password id f user hflow hstage _ _ =>
    exact Or.inr (Or.inl (kept_setFlow s _ id n f _ g hflow h rfl
      ⟨rfl, fun hne => absurd hstage hne, fun hne => absurd hstage hne⟩))
  | factorFailed _ r stage id f user t _ _ _ hq _ => exact Or.inr (Or.inl (hquiet hq h))
  | totpPassed r code id f user row hon _ _ _ _ =>
    exact Or.inr (Or.inl (kept_setFlow s _ id n f _ g hon.flow h rfl ⟨rfl, fun _ => rfl, fun _ => rfl⟩))
  | totpDrawn r newTotp id f user hflow _ =>
    exact Or.inr (Or.inl (kept_setFlow s _ id n f _ g hflow h rfl ⟨rfl, fun _ => rfl, fun _ => rfl⟩))
  | totpEnrolled r code hashes id f user row _ _ _ _ _ _ =>
    exact Or.inr (Or.inl (hsame (deleteFlow_some s _ id n g h rfl)))
  | recovered r code id f user codes hon hallowed hcodes =>
    rcases setFlow_some s id n _ g h with ⟨rfl, rfl⟩ | ⟨-, hg⟩
    · exact Or.inr (Or.inr ⟨r, code, f, user, codes, rfl, hon, hallowed, hcodes, rfl, rfl⟩)
    · exact Or.inr (Or.inl (hsame hg))
  | asserted r a id f user row count hon _ _ =>
    rcases setFlow_some _ id n _ g h with ⟨rfl, rfl⟩ | ⟨hne, hg⟩
    · exact Or.inr (Or.inl ⟨f, hon.flow, rfl, fun _ => rfl, fun _ => rfl⟩)
    · have hold : (s.setFlow id { f with challenge := none }).flows n = some g := by
        split at hg <;> exact hg
      exact Or.inr (Or.inl (hquiet (quiet_challenge s id f none hon.flow) hold))
  | passkeyAdded r text breakGlass id f user reg hon _ =>
    exact Or.inr (Or.inl (kept_setFlow s _ id n f _ g hon.flow h rfl ⟨rfl, fun _ => rfl, fun _ => rfl⟩))
  | administered _ t _ hadmin => exact Or.inr (Or.inl (hsame (hadmin.flows n g h)))

/-- A flow marked by a recovery code has passed the password step, and the code was used on
it for its user. -/
def Flagged (cfg : Config) (events : List Event) (s : State) : Prop :=
  ∀ id f, s.flows id = some f → f.recoveryUsed = true →
    f.stage ≠ .password ∧ ∃ u, f.user = some u ∧ Recovered cfg events id u

theorem flagged_step (cfg : Config) (events : List Event) (e : Event)
    (h : Flagged cfg events (after cfg events)) :
    Flagged cfg (events ++ [e]) (step cfg (after cfg events) e) := by
  intro n g hg hused
  rcases flow_step cfg _ e n g hg with hfresh | ⟨f, hf, hkept⟩ | ⟨r, code, f, user, codes, rfl,
    hon, hallowed, hcodes, hstored, rfl⟩
  · rw [hfresh] at hused
    cases hused
  · obtain ⟨hstage, u, hu, hrecovered⟩ := h n f hf (hkept.recoveryUsed.symm.trans hused)
    exact ⟨(hkept.stage hstage) ▸ hstage, u, (hkept.user hstage).trans hu,
      recovered_append cfg events [e] n u hrecovered⟩
  · refine ⟨by rw [hon.stage_eq]; simp, user.id, hon.user_eq, ?_⟩
    obtain ⟨before, c, more, hcut, huser, hunused, hverified, hmarked⟩ :=
      consumeCode_some cfg _ _ _ _ codes hcodes
    refine ⟨events, r, code, [], f, user, rfl, hon, rfl, hallowed, before, c, more, hcut, huser,
      hunused, hverified, ?_⟩
    rw [after_snoc, hstored, hmarked]

theorem flagged_after (cfg : Config) (events : List Event) :
    Flagged cfg events (after cfg events) := by
  have hrun : Along (step cfg) (fun _ _ => True) initial events :=
    along_of_forall _ _ fun _ _ _ => trivial
  have h := hrun.history (fun past s => s = after cfg past ∧ Flagged cfg past s)
    ⟨rfl, fun _ _ h => by cases h⟩ (fun past s e h _ => ?_)
  · exact h.2
  · obtain ⟨rfl, hflagged⟩ := h
    exact ⟨(after_snoc cfg past e).symm, flagged_step cfg past e hflagged⟩

/-- What the user's later sessions rely on: an enrollment on a flow of the user without a
recovery code finds no authenticator waiting to be confirmed, and no passkey is asserted
on an open flow of the user. -/
def EnrolledAfterRecovery (cfg : Config) (u : ℕ) (s : State) : Event → Prop
  | .enrollTotpSubmit r _ _ =>
    match guardedFlow cfg s r .totp with
    | none => True
    | some (_, f) => f.user = some u → f.recoveryUsed = true ∨
        (s.totp u).map UserTotp.confirmedAt ≠ some none
  | .webauthnVerify r _ =>
    match guardedFlow cfg s r .webauthn with
    | none => True
    | some (_, f) => f.user = some u → f.completedSession ≠ none
  | _ => True

def decidableOnFlow (found : Option (ℕ × LoginFlow)) (P : LoginFlow → Prop) [DecidablePred P] :
    Decidable (match found with | none => True | some (_, f) => P f) :=
  match found with
  | none => instDecidableTrue
  | some (_, f) => inferInstanceAs (Decidable (P f))

instance (cfg : Config) (u : ℕ) (s : State) (e : Event) :
    Decidable (EnrolledAfterRecovery cfg u s e) :=
  match e with
  | .enrollTotpSubmit r _ _ =>
    decidableOnFlow (guardedFlow cfg s r .totp) fun f =>
      f.user = some u → f.recoveryUsed = true ∨ (s.totp u).map UserTotp.confirmedAt ≠ some none
  | .webauthnVerify r _ =>
    decidableOnFlow (guardedFlow cfg s r .webauthn) fun f =>
      f.user = some u → f.completedSession ≠ none
  | .authorize .. | .loginForm .. | .loginSubmit .. | .totpForm .. | .totpSubmit ..
  | .enrollTotpForm .. | .recoveryForm .. | .recoverySubmit .. | .webauthnPage ..
  | .webauthnOptions .. | .enrollWebauthnPage .. | .enrollWebauthnOptions ..
  | .enrollWebauthnVerify .. | .createUser .. | .patchUser .. | .deleteUser .. | .resetTotp ..
  | .resetPassword .. | .deleteCredential .. | .gcFlows .. => instDecidableTrue

/-- From any reachable state on, in every run that meets the condition for a user, each new
session of the user is made on a flow on which the request proves a code of the
confirmed authenticator or a recovery code of the user was used. -/
theorem later_sessions_verified (cfg : Config) (u : ℕ) (past rest before more : List Event)
    (e : Event) (hrun : Along (step cfg) (EnrolledAfterRecovery cfg u) (after cfg past) rest)
    (hrest : rest = before ++ e :: more) (n : ℕ) (y : Session)
    (hnew : (after cfg (past ++ before)).sessions n = none)
    (hy : (after cfg (past ++ before ++ [e])).sessions n = some y) (huser : y.user = u) :
    CodeVerified cfg (past ++ before) e y.flow u ∨ Recovered cfg (past ++ before) y.flow u := by
  have hguard : EnrolledAfterRecovery cfg u (after cfg (past ++ before)) e := by
    have := (along_iff_cut _ _ _ _).mp hrun before e more hrest
    rwa [after, ← List.foldl_append] at this
  rw [after_snoc] at hy
  rcases session_created cfg _ e n y hy with ⟨x, hx, -⟩ | hcreated
  · rw [hnew] at hx
    cases hx
  · cases hcreated with
    | totp r code id f user row _ hon hopen hallowed hrow hverified huser' _ hflow =>
      have hid : user.id = u := huser'.symm.trans huser
      exact Or.inl ⟨r, code, f, user, row, rfl, hflow ▸ hon, hid, hid ▸ hrow, hverified⟩
    | enroll r code hashes id f user row _ hon hrow hpending huser' _ hflow =>
      have hid : user.id = u := huser'.symm.trans huser
      simp only [EnrolledAfterRecovery, hon.guarded] at hguard
      rcases hguard (hid ▸ hon.user_eq) with hused | hconfirmed
      · obtain ⟨-, u', hu', hrecovered⟩ := flagged_after cfg (past ++ before) id f hon.flow hused
        obtain rfl : u' = u := Option.some.inj (hu'.symm.trans (hid ▸ hon.user_eq))
        exact Or.inr (hflow ▸ hrecovered)
      · rw [← hid, hrow, Option.map_some, hpending] at hconfirmed
        exact absurd rfl hconfirmed
    | webauthn r a id f user _ hon hopen huser' _ _ =>
      have hid : user.id = u := huser'.symm.trans huser
      simp only [EnrolledAfterRecovery, hon.guarded] at hguard
      exact absurd hopen (hguard (hid ▸ hon.user_eq))

/-- A standard user enrolls an authenticator on the first flow. -/
def enrolledRun : List Event :=
  [.createUser (sampleUser .standard)] ++ sampleLogin 0 0 ++
    [.enrollTotpForm (sampleForm 1 0) "seed".toList,
      .enrollTotpSubmit (sampleForm 2 0) "seed".toList ["CODE".toList]]

theorem later_sessions_verified_sample :
    ∃ y, (after sampleConfig (enrolledRun ++ sampleLogin 3 1 ++
        [.totpSubmit (sampleForm 4 1) "seed".toList])).sessions 1 = some y ∧
      (CodeVerified sampleConfig (enrolledRun ++ sampleLogin 3 1)
          (.totpSubmit (sampleForm 4 1) "seed".toList) y.flow 1 ∨
        Recovered sampleConfig (enrolledRun ++ sampleLogin 3 1) y.flow 1) := by
  have hsome : ((after sampleConfig (enrolledRun ++ sampleLogin 3 1 ++
      [.totpSubmit (sampleForm 4 1) "seed".toList])).sessions 1).map Session.user = some 1 := by
    decide
  obtain ⟨y, hy, huser⟩ := Option.map_eq_some_iff.mp hsome
  have hrun : Along (step sampleConfig) (EnrolledAfterRecovery sampleConfig 1)
      (after sampleConfig enrolledRun) (sampleLogin 3 1 ++
        [.totpSubmit (sampleForm 4 1) "seed".toList]) := by decide
  exact ⟨y, hy, later_sessions_verified sampleConfig 1 enrolledRun _ (sampleLogin 3 1) [] _ hrun rfl
    1 y (by decide) hy huser⟩

/-- Two flows pass the password step; a recovery code is used on the first, and the second
enrolls an authenticator. -/
def takeoverRun : List Event :=
  sampleLogin 3 1 ++ sampleLogin 4 2 ++
    [.recoverySubmit (sampleForm 5 1) "CODE".toList,
      .enrollTotpForm (sampleForm 6 2) "mine".toList]

def recoveryFlow : Event → Option ℕ
  | .recoverySubmit r _ => r.flow
  | _ => none

theorem takeover_session :
    (confirmedTotp (after sampleConfig enrolledRun) 1).isSome ∧
      ((after sampleConfig enrolledRun).user 1).map User.tier = some .standard ∧
      (after sampleConfig (enrolledRun ++ takeoverRun)).sessions 1 = none ∧
      ∃ y, (after sampleConfig (enrolledRun ++ takeoverRun ++
          [.enrollTotpSubmit (sampleForm 7 2) "mine".toList []])).sessions 1 = some y ∧
        y.user = 1 ∧
        ¬ (CodeVerified sampleConfig (enrolledRun ++ takeoverRun)
            (.enrollTotpSubmit (sampleForm 7 2) "mine".toList []) y.flow 1 ∨
          Recovered sampleConfig (enrolledRun ++ takeoverRun) y.flow 1) := by
  refine ⟨by decide, by decide, by decide, ?_⟩
  have hsome : ((after sampleConfig (enrolledRun ++ takeoverRun ++
      [.enrollTotpSubmit (sampleForm 7 2) "mine".toList []])).sessions 1).map
        (fun y => (y.user, y.flow)) = some (1, 2) := by decide
  obtain ⟨y, hy, huser⟩ := Option.map_eq_some_iff.mp hsome
  obtain ⟨huser, hflow⟩ := Prod.mk.inj huser
  refine ⟨y, hy, huser, ?_⟩
  rw [hflow]
  rintro (⟨r, code, f, user, row, he, -⟩ | ⟨past, r, code, rest, f, user, heq, hon, -⟩)
  · cases he
  · have hnone : ∀ e ∈ enrolledRun ++ takeoverRun, recoveryFlow e ≠ some 2 := by decide
    have hmem : Event.recoverySubmit r code ∈ enrolledRun ++ takeoverRun := by simp [heq]
    exact hnone _ hmem (guardedFlow_some _ _ r .totp 2 f hon.guarded).1

end Hyproxy.SecondFactor

import Hyproxy.SecondFactor

/-!
The password changes of a user and the logins that are under way. A change revokes
sessions and leaves the login flows as they are, so a flow that has passed the
password step can still be finished; unless there is none, every later session
of the user rests on a password that was checked after the change.
-/
namespace Hyproxy.PasswordChanges

open Accounts Login Passkeys AccountSteps AccountEffects Runs
open AdminSessions (sampleConfig sampleForm sampleLogin session_created)
open SecondFactor (decidableOnFlow deleteFlow_some setFlow_some)

/-- A request of the login surface or the administration, or a change of the own password, which
comes with the session of an access token. -/
inductive Request
  | request (e : Event)
  | changePassword (session : ℕ) (current newHash : List Char) (now : ℤ)
  deriving Repr, DecidableEq

/-- The user behind the session of an authenticated request. -/
def authedUser (s : State) (session : ℕ) : Option User :=
  match s.sessions session with
  | none => none
  | some x =>
    match s.user x.user with
    | none => none
    | some user => if user.status = .active then some user else none

/-- `_revoke_user_sessions` with `exclude_session_id` -/
def revokeOtherSessions (s : State) (user session : ℕ) (now : ℤ) : State :=
  { s with
    sessions := fun id => (s.sessions id).map fun x =>
      if x.user = user ∧ x.revokedAt = none ∧ id ≠ session then { x with revokedAt := some now }
      else x }

def changePassword (cfg : Config) (s : State) (session : ℕ) (current newHash : List Char) (now : ℤ) :
    State × Response :=
  match authedUser s session with
  | none => (s, .error 401 "invalid_token")
  | some user =>
    if cfg.verifyPassword user.passwordHash current then
      (revokeOtherSessions (setUser s { user with passwordHash := newHash }) user.id session now,
        .page 204)
    else (s, .error 403 "current password incorrect")

def step (cfg : Config) (s : State) : Request → State
  | .request e => Passkeys.step cfg s e
  | .changePassword session current newHash now => (changePassword cfg s session current newHash now).1

def after (cfg : Config) (requests : List Request) : State := requests.foldl (step cfg) initial

/-- The request changes the password of the user. -/
def changesPassword (cfg : Config) (u : ℕ) (s : State) : Request → Bool
  | .request (.resetPassword id _ _) => id == u && (s.user id).isSome
  | .request _ => false
  | .changePassword session current _ _ =>
    (authedUser s session).any fun user =>
      user.id == u && cfg.verifyPassword user.passwordHash current

/-- In these requests the flow passed the password step with the password that the user had. -/
def PasswordPassed (cfg : Config) (past requests : List Request) (id u : ℕ) : Prop :=
  ∃ before r email password more f g user,
    requests = before ++ .request (.loginSubmit r email password) :: more ∧
    (after cfg (past ++ before)).flows id = some f ∧ f.stage = .password ∧
    (after cfg (past ++ before ++ [.request (.loginSubmit r email password)])).flows id = some g ∧
    g.user = some u ∧ user.id = u ∧
    userByEmail cfg (after cfg (past ++ before)) (accountKey cfg email) = some user ∧
    cfg.verifyPassword user.passwordHash password = true

/-- Every login of the user that has passed the password step is complete. -/
def loginsComplete (u : ℕ) (s : State) : Bool :=
  (List.range s.nextFlow).all fun id =>
    (s.flows id).all fun f => f.user != some u || f.completedSession.isSome

/-- The password changes while no login of the user is under way, and no authenticator is enrolled
on a login that is complete. -/
def Settled (cfg : Config) (u : ℕ) (s : State) (e : Request) : Prop :=
  (changesPassword cfg u s e = true → loginsComplete u s = true) ∧
  match e with
  | .request (.enrollTotpSubmit r _ _) =>
    match guardedFlow cfg s r .totp with
    | none => True
    | some (_, f) => f.user = some u → f.completedSession = none ∨
        (s.totp u).map UserTotp.confirmedAt ≠ some none
  | _ => True

instance decidableSettled (cfg : Config) (u : ℕ) (s : State) (e : Request) :
    Decidable (Settled cfg u s e) :=
  have : Decidable (match e with
      | .request (.enrollTotpSubmit r _ _) =>
        match guardedFlow cfg s r .totp with
        | none => True
        | some (_, f) => f.user = some u → f.completedSession = none ∨
            (s.totp u).map UserTotp.confirmedAt ≠ some none
      | _ => True) :=
    match e with
    | .request e =>
      match e with
      | .enrollTotpSubmit r _ _ =>
        decidableOnFlow (guardedFlow cfg s r .totp) fun f =>
          f.user = some u → f.completedSession = none ∨
            (s.totp u).map UserTotp.confirmedAt ≠ some none
      | .authorize .. | .loginForm .. | .loginSubmit .. | .totpForm .. | .totpSubmit ..
      | .enrollTotpForm .. | .recoveryForm .. | .recoverySubmit .. | .webauthnPage ..
      | .webauthnOptions .. | .webauthnVerify .. | .enrollWebauthnPage ..
      | .enrollWebauthnOptions .. | .enrollWebauthnVerify .. | .createUser .. | .patchUser ..
      | .deleteUser .. | .resetTotp .. | .resetPassword .. | .deleteCredential ..
      | .gcFlows .. => instDecidableTrue
    | .changePassword .. => instDecidableTrue
  inferInstanceAs (Decidable (_ ∧ _))

theorem after_snoc (cfg : Config) (requests : List Request) (e : Request) :
    after cfg (requests ++ [e]) = step cfg (after cfg requests) e := by
  rw [after, List.foldl_append]
  rfl

/-! ### Flows -/

/-- A flow after a step: it is new, or as it was up to its completion, or has just passed the
password step. -/
inductive Origin (cfg : Config) (s : State) (e : Request) (n : ℕ) (g : LoginFlow) : Prop
  | opened (huser : g.user = none) (hbelow : n < (step cfg s e).nextFlow)
  | kept (f : LoginFlow) (hf : s.flows n = some f) (huser : g.user = f.user)
    (hopen : g.completedSession = none → f.completedSession = none)
  | passed (r : Form) (email password : List Char) (f : LoginFlow) (user : User)
    (he : e = .request (.loginSubmit r email password)) (hf : s.flows n = some f)
    (hstage : f.stage = .password) (hg : g.user = some user.id)
    (hfound : userByEmail cfg s (accountKey cfg email) = some user)
    (hverified : cfg.verifyPassword user.passwordHash password = true)

theorem origin_setFlow (cfg : Config) (s t : State) (e : Request) (id n : ℕ)
    (f f' g : LoginFlow) (hf : s.flows id = some f) (h : (t.setFlow id f').flows n = some g)
    (ht : t.flows = s.flows) (huser : f'.user = f.user)
    (hopen : f'.completedSession = none → f.completedSession = none) : Origin cfg s e n g := by
  rcases setFlow_some t id n f' g h with ⟨rfl, rfl⟩ | ⟨-, hg⟩
  · exact .kept f hf huser hopen
  · exact .kept g (ht ▸ hg) rfl fun hopen => hopen

theorem flow_origin (cfg : Config) (s : State) (e : Event) (n : ℕ) (g : LoginFlow)
    (h : (Passkeys.step cfg s e).flows n = some g) : Origin cfg s (.request e) n g := by
  have hquiet : ∀ {t : State}, Quiet s t → t.flows n = some g → Origin cfg s (.request e) n g := by
    intro t hquiet hg
    obtain ⟨f, hf, hfg⟩ := hquiet.flows n g hg
    exact .kept f hf hfg.user fun hopen => hfg.completedSession.symm.trans hopen
  have hsame : s.flows n = some g → Origin cfg s (.request e) n g :=
    fun hg => .kept g hg rfl fun hopen => hopen
  generalize ht : Passkeys.step cfg s e = t at h
  have heffect := ht ▸ step_effect cfg s e
  cases heffect with
  | quiet _ t hq _ => exact hquiet hq h
  | opened _ t r dbNow hq _ =>
    rcases setFlow_some t t.nextFlow n _ g h with ⟨hn, rfl⟩ | ⟨-, hg⟩
    · refine .opened rfl ?_
      simp only [step, ht, createFlow]
      omega
    · exact hquiet hq hg
  | passwordFailed r email password id user => exact hsame h
  | passwordPassed r email password id f user hflow hstage hfound hverified =>
    rcases setFlow_some _ id n _ g h with ⟨rfl, rfl⟩ | ⟨-, hg⟩
    · exact .passed r email password f user rfl hflow hstage rfl hfound hverified
    · exact hsame hg
  | factorFailed _ r stage id f user t _ _ _ hq _ => exact hquiet hq h
  | totpPassed r code id f user row hon hopen _ _ _ =>
    exact origin_setFlow cfg s _ _ id n f _ g hon.flow h rfl rfl fun _ => hopen
  | totpDrawn r newTotp id f user hflow _ =>
    exact origin_setFlow cfg s _ _ id n f _ g hflow h rfl rfl fun hopen => hopen
  | totpEnrolled r code hashes id f user row _ _ _ _ _ _ =>
    exact hsame (deleteFlow_some s _ id n g h rfl)
  | recovered r code id f user codes hon _ _ =>
    exact origin_setFlow cfg s _ _ id n f _ g hon.flow h rfl rfl fun hopen => hopen
  | asserted r a id f user row count hon hopen _ =>
    rcases setFlow_some _ id n _ g h with ⟨rfl, rfl⟩ | ⟨hne, hg⟩
    · exact .kept f hon.flow rfl fun _ => hopen
    · have hold : (s.setFlow id { f with challenge := none }).flows n = some g := by
        split at hg <;> exact hg
      exact hquiet (quiet_challenge s id f none hon.flow) hold
  | passkeyAdded r text breakGlass id f user reg hon _ =>
    exact origin_setFlow cfg s _ _ id n f _ g hon.flow h rfl rfl fun hopen => hopen
  | administered _ t _ hadmin => exact hsame (hadmin.flows n g h)

theorem nextFlow_step (cfg : Config) (s : State) (e : Event) :
    s.nextFlow ≤ (Passkeys.step cfg s e).nextFlow := by
  generalize ht : Passkeys.step cfg s e = t
  have heffect := ht ▸ step_effect cfg s e
  cases heffect with
  | quiet _ t hq _ => exact Nat.le_of_eq hq.nextFlow.symm
  | opened _ t r dbNow hq _ =>
    rw [← hq.nextFlow]
    exact Nat.le_succ _
  | factorFailed _ r stage id f user t _ _ _ hq _ => exact Nat.le_of_eq hq.nextFlow.symm
  | administered _ t _ hadmin => exact Nat.le_of_eq hadmin.nextFlow.symm
  | asserted r a id f user row count _ _ _ =>
    simp only [assertionSuccess]
    split <;> exact Nat.le_refl _
  | _ => exact Nat.le_refl _

theorem changePassword_frame (cfg : Config) (s : State) (session : ℕ) (current newHash : List Char)
    (now : ℤ) :
    (changePassword cfg s session current newHash now).1.flows = s.flows ∧
      (changePassword cfg s session current newHash now).1.nextFlow = s.nextFlow ∧
      ∀ n y, (changePassword cfg s session current newHash now).1.sessions n = some y →
        ∃ x, s.sessions n = some x := by
  unfold changePassword
  cases authedUser s session with
  | none => exact ⟨rfl, rfl, fun n y hy => ⟨y, hy⟩⟩
  | some user =>
    simp only
    split_ifs
    · refine ⟨rfl, rfl, fun n y hy => ?_⟩
      obtain ⟨x, hx, -⟩ := Option.map_eq_some_iff.mp hy
      exact ⟨x, hx⟩
    · exact ⟨rfl, rfl, fun n y hy => ⟨y, hy⟩⟩

theorem step_origin (cfg : Config) (s : State) (e : Request) (n : ℕ) (g : LoginFlow)
    (h : (step cfg s e).flows n = some g) : Origin cfg s e n g := by
  cases e with
  | request e => exact flow_origin cfg s e n g h
  | changePassword session current newHash now =>
    rw [step, (changePassword_frame cfg s session current newHash now).1] at h
    exact .kept g h rfl fun hopen => hopen

/-- Flows are numbered in the order in which they are opened. -/
def Numbered (s : State) : Prop := ∀ n g, s.flows n = some g → n < s.nextFlow

theorem numbered_step (cfg : Config) (s : State) (e : Request) (h : Numbered s) :
    Numbered (step cfg s e) := by
  intro n g hg
  have hnext : s.nextFlow ≤ (step cfg s e).nextFlow := by
    cases e with
    | request e => exact nextFlow_step cfg s e
    | changePassword session current newHash now =>
      exact Nat.le_of_eq (changePassword_frame cfg s session current newHash now).2.1.symm
  cases step_origin cfg s e n g hg with
  | opened _ hbelow => exact hbelow
  | kept f hf _ _ => exact Nat.lt_of_lt_of_le (h n f hf) hnext
  | passed r email password f user _ hf _ _ _ _ => exact Nat.lt_of_lt_of_le (h n f hf) hnext

theorem numbered_after (cfg : Config) (requests : List Request) : Numbered (after cfg requests) := by
  have hrun : Along (step cfg) (fun _ _ => True) initial requests :=
    along_of_forall _ _ fun _ _ _ => trivial
  exact hrun.invariant Numbered (fun _ _ h => by cases h) fun s e h _ => numbered_step cfg s e h

/-! ### Logins -/

theorem loginsComplete_iff (u : ℕ) (s : State) (h : Numbered s) :
    loginsComplete u s = true ↔
      ∀ id f, s.flows id = some f → f.user = some u → f.completedSession ≠ none := by
  simp only [loginsComplete, List.all_eq_true, List.mem_range, Option.all_eq_true, Bool.or_eq_true,
    bne_iff_ne, Option.isSome_iff_ne_none]
  constructor
  · intro hall id f hf huser
    exact (hall id (h id f hf) f hf).resolve_left fun hne => hne huser
  · intro hall id _ f hf
    by_cases huser : f.user = some u
    · exact Or.inr (hall id f hf huser)
    · exact Or.inl huser

/-- Every login of the user that is under way has passed the password step in these requests. -/
def Renewed (cfg : Config) (past requests : List Request) (u : ℕ) : Prop :=
  ∀ id f, (after cfg (past ++ requests)).flows id = some f → f.user = some u →
    f.completedSession = none → PasswordPassed cfg past requests id u

theorem passwordPassed_snoc (cfg : Config) (past requests : List Request) (e : Request) (id u : ℕ)
    (h : PasswordPassed cfg past requests id u) :
    PasswordPassed cfg past (requests ++ [e]) id u := by
  obtain ⟨before, r, email, password, more, f, g, user, rfl, hrest⟩ := h
  exact ⟨before, r, email, password, more ++ [e], f, g, user, by simp, hrest⟩

theorem renewed_step (cfg : Config) (past requests : List Request) (e : Request) (u : ℕ)
    (h : Renewed cfg past requests u) : Renewed cfg past (requests ++ [e]) u := by
  intro id g hg huser hopen
  have hstep := hg
  rw [← List.append_assoc, after_snoc] at hstep
  cases step_origin cfg _ e id g hstep with
  | opened hnone _ =>
    rw [hnone] at huser
    cases huser
  | kept f hf hsame hkept =>
    exact passwordPassed_snoc cfg past requests e id u
      (h id f hf (hsame.symm.trans huser) (hkept hopen))
  | passed r email password f user he hf hstage hid hfound hverified =>
    subst he
    rw [← List.append_assoc] at hg
    exact ⟨requests, r, email, password, [], f, g, user, rfl, hf, hstage, hg, huser,
      Option.some.inj (hid.symm.trans huser), hfound, hverified⟩

theorem renewed_requests (cfg : Config) (past requests : List Request) (u : ℕ)
    (h : Renewed cfg past [] u) : Renewed cfg past requests u := by
  induction requests using List.reverseRecOn with
  | nil => exact h
  | append_singleton requests e ih => exact renewed_step cfg past requests e u ih

/-- A change of the password that finds every login complete leaves them so. -/
theorem renewed_change (cfg : Config) (past : List Request) (change : Request) (u : ℕ)
    (hchange : changesPassword cfg u (after cfg past) change = true)
    (hcomplete : loginsComplete u (after cfg past) = true) :
    Renewed cfg (past ++ [change]) [] u := by
  intro id g hg huser hopen
  have hall := (loginsComplete_iff u _ (numbered_after cfg past)).mp hcomplete
  rw [List.append_nil, after_snoc] at hg
  cases step_origin cfg _ change id g hg with
  | opened hnone _ =>
    rw [hnone] at huser
    cases huser
  | kept f hf hsame hkept => exact absurd (hkept hopen) (hall id f hf (hsame.symm.trans huser))
  | passed r email password f user he _ _ _ _ _ =>
    rw [he] at hchange
    cases hchange

/-- In a settled run every session that is made after a change of its user's password is made on a
flow that has passed the password step since. -/
theorem later_sessions_renewed (cfg : Config) (u : ℕ) (past rest before more : List Request)
    (change e : Request) (hrun : Along (step cfg) (Settled cfg u) initial (past ++ change :: rest))
    (hchange : changesPassword cfg u (after cfg past) change = true)
    (hrest : rest = before ++ e :: more) (n : ℕ) (y : Session)
    (hnew : (after cfg (past ++ [change] ++ before)).sessions n = none)
    (hy : (after cfg (past ++ [change] ++ before ++ [e])).sessions n = some y) (huser : y.user = u) :
    PasswordPassed cfg (past ++ [change]) before y.flow u := by
  have hcut := (along_iff_cut _ _ _ _).mp hrun
  have hcomplete := (hcut past change rest rfl).1 hchange
  have hguard : Settled cfg u (after cfg (past ++ [change] ++ before)) e :=
    hcut (past ++ [change] ++ before) e more (by simp [hrest])
  have hrenewed := renewed_requests cfg (past ++ [change]) before u
    (renewed_change cfg past change u hchange hcomplete)
  rw [after_snoc] at hy
  cases e with
  | changePassword session current newHash now =>
    obtain ⟨x, hx⟩ := (changePassword_frame cfg _ session current newHash now).2.2 n y hy
    rw [hnew] at hx
    cases hx
  | request e =>
    rcases session_created cfg _ e n y hy with ⟨x, hx, -⟩ | hcreated
    · rw [hnew] at hx
      cases hx
    · cases hcreated with
      | totp r code id f user row _ hon hopen _ _ _ hid _ hflow =>
        rw [hflow]
        exact hrenewed id f hon.flow (by rw [hon.user_eq, ← hid, huser]) hopen
      | enroll r code hashes id f user row _ hon hrow hpending hid _ hflow =>
        have hu : f.user = some u := by rw [hon.user_eq, ← hid, huser]
        have henroll := hguard.2
        simp only [hon.guarded] at henroll
        rw [hflow]
        rcases henroll hu with hopen | hconfirmed
        · exact hrenewed id f hon.flow hu hopen
        · rw [← huser, hid, hrow, Option.map_some, hpending] at hconfirmed
          exact absurd rfl hconfirmed
      | webauthn r a id f user _ hon hopen hid _ hflow =>
        rw [hflow]
        exact hrenewed id f hon.flow (by rw [hon.user_eq, ← hid, huser]) hopen

def sampleEvents : List Event :=
  [.createUser (AdminSessions.sampleUser .standard)] ++ sampleLogin 0 0 ++
    [.enrollTotpForm (sampleForm 1 0) "seed".toList,
      .enrollTotpSubmit (sampleForm 2 0) "seed".toList []]

/-- A standard user enrolls an authenticator, and then has the password reset. -/
def sampleRun : List Request := sampleEvents.map .request

def sampleReset : Request := .request (.resetPassword 1 "new".toList 3)

def sampleSubmit : Request := .request (.totpSubmit (sampleForm 5 1) "seed".toList)

/-- The next login, with the new password. -/
def newLogin : List Request :=
  [.request (.loginForm (sampleForm 4 1) 4),
    .request (.loginSubmit (sampleForm 4 1) "ada@example.org".toList "new".toList)]

def newSession (n : ℕ) (past : List Request) : Session :=
  ((after sampleConfig past).sessions n).getD
    ⟨0, [], [], .standard, [], 0, 0, false, none, 0⟩

theorem later_sessions_renewed_sample :
    PasswordPassed sampleConfig (sampleRun ++ [sampleReset]) newLogin 1 1 :=
  later_sessions_renewed sampleConfig 1 sampleRun (newLogin ++ [sampleSubmit]) newLogin [] sampleReset
    sampleSubmit (by decide) (by decide) rfl 1
    (newSession 1 (sampleRun ++ [sampleReset] ++ newLogin ++ [sampleSubmit])) (by decide)
    (by decide) (by decide)

/-- The login is past the password step when the password is reset. -/
def openRun : List Request := sampleRun ++ (sampleLogin 3 1).map .request

/-- A login that was begun with the old password is finished after the reset. -/
theorem old_login_finished :
    ¬∀ (cfg : Config) (u : ℕ) (past before : List Request) (change e : Request),
      changesPassword cfg u (after cfg past) change = true →
      ∀ (n : ℕ) (y : Session), (after cfg (past ++ [change] ++ before)).sessions n = none →
      (after cfg (past ++ [change] ++ before ++ [e])).sessions n = some y → y.user = u →
      PasswordPassed cfg (past ++ [change]) before y.flow u := by
  intro h
  obtain ⟨before, r, email, password, more, f, g, user, hbefore, -⟩ := h sampleConfig 1 openRun []
    sampleReset sampleSubmit (by decide) 1 (newSession 1 (openRun ++ [sampleReset] ++ [sampleSubmit]))
    (by decide) (by decide) (by decide)
  cases before <;> cases hbefore

end Hyproxy.PasswordChanges

import Hyproxy.Passkeys

/-!
What one request can do to the account tables. A quiet request leaves everything
that later steps rely on as it was: it may touch sessions, rotate a token, draw a
challenge or write to the audit trail. Every other request has one of a few
effects, and each of them comes with the checks that the handler made before.
-/

namespace Hyproxy.AccountSteps

open Accounts Login Passkeys

/-- The two rows are one session, up to liveness and cookie. -/
structure SameSession (x y : Session) : Prop where
  user : y.user = x.user
  tier : y.tier = x.tier
  amr : y.amr = x.amr
  flow : y.flow = x.flow

/-- The two rows are one flow at one point of its login. -/
structure SameFlow (f g : LoginFlow) : Prop where
  stage : g.stage = f.stage
  user : g.user = f.user
  recoveryUsed : g.recoveryUsed = f.recoveryUsed
  completedSession : g.completedSession = f.completedSession
  createdAt : g.createdAt = f.createdAt

structure Quiet (s t : State) : Prop where
  users : t.users = s.users
  flows : ∀ id g, t.flows id = some g → ∃ f, s.flows id = some f ∧ SameFlow f g
  nextFlow : t.nextFlow = s.nextFlow
  totp : t.totp = s.totp
  credentials : t.credentials = s.credentials
  sessions : ∀ id y, t.sessions id = some y → ∃ x, s.sessions id = some x ∧ SameSession x y
  nextSession : t.nextSession = s.nextSession
  log : s.log ⊆ t.log

theorem SameSession.refl (x : Session) : SameSession x x := ⟨rfl, rfl, rfl, rfl⟩

theorem SameFlow.refl (f : LoginFlow) : SameFlow f f := ⟨rfl, rfl, rfl, rfl, rfl⟩

theorem Quiet.refl (s : State) : Quiet s s :=
  ⟨rfl, fun _ f h => ⟨f, h, .refl f⟩, rfl, rfl, rfl, fun _ x h => ⟨x, h, .refl x⟩, rfl,
    List.Subset.refl _⟩

theorem Quiet.trans {s t u : State} (h : Quiet s t) (k : Quiet t u) : Quiet s u where
  users := k.users.trans h.users
  flows := fun id g hg => by
    obtain ⟨f, hf, hfg⟩ := k.flows id g hg
    obtain ⟨e, he, hef⟩ := h.flows id f hf
    exact ⟨e, he, hfg.stage.trans hef.stage, hfg.user.trans hef.user,
      hfg.recoveryUsed.trans hef.recoveryUsed, hfg.completedSession.trans hef.completedSession,
      hfg.createdAt.trans hef.createdAt⟩
  nextFlow := k.nextFlow.trans h.nextFlow
  totp := k.totp.trans h.totp
  credentials := k.credentials.trans h.credentials
  sessions := fun id y hy => by
    obtain ⟨x, hx, hxy⟩ := k.sessions id y hy
    obtain ⟨w, hw, hwx⟩ := h.sessions id x hx
    exact ⟨w, hw, hxy.user.trans hwx.user, hxy.tier.trans hwx.tier, hxy.amr.trans hwx.amr,
      hxy.flow.trans hwx.flow⟩
  nextSession := k.nextSession.trans h.nextSession
  log := List.Subset.trans h.log k.log

theorem Quiet.emit {s t : State} (h : Quiet s t) (type : AuthEventType) (success : Bool)
    (user flow : Option ℕ) : Quiet s (t.emit type success user flow) :=
  { h with log := List.subset_cons_of_subset _ h.log }

theorem Quiet.setThrottle {s t : State} (h : Quiet s t) (scope : Scope) (key : List Char)
    (row : Option AuthThrottle) : Quiet s (t.setThrottle scope key row) :=
  ⟨h.users, h.flows, h.nextFlow, h.totp, h.credentials, h.sessions, h.nextSession, h.log⟩

theorem quiet_registerFailure (cfg : Config) (s : State) (ip account : List Char) (now : ℤ) :
    Quiet s (s.registerFailure cfg ip account now) :=
  ((Quiet.refl s).setThrottle ..).setThrottle ..

theorem quiet_setFlow (s : State) (id : ℕ) (f g : LoginFlow) (hf : s.flows id = some f)
    (hfg : SameFlow f g) : Quiet s (s.setFlow id g) := by
  refine { Quiet.refl s with flows := fun n h hh => ?_ }
  by_cases hn : n = id
  · subst hn
    simp only [State.setFlow, Function.update_self, Option.some.injEq] at hh
    exact ⟨f, hf, hh ▸ hfg⟩
  · simp only [State.setFlow, Function.update_of_ne hn] at hh
    exact ⟨h, hh, .refl h⟩

theorem quiet_deleteFlow (s : State) (id : ℕ) : Quiet s (s.deleteFlow id) := by
  refine { Quiet.refl s with flows := fun n h hh => ?_ }
  by_cases hn : n = id
  · subst hn
    simp [State.deleteFlow] at hh
  · simp only [State.deleteFlow, Function.update_of_ne hn] at hh
    exact ⟨h, hh, .refl h⟩

theorem quiet_setSession (s : State) (id : ℕ) (x y : Session) (hx : s.sessions id = some x)
    (hxy : SameSession x y) : Quiet s (s.setSession id y) := by
  refine { Quiet.refl s with sessions := fun n z hz => ?_ }
  by_cases hn : n = id
  · subst hn
    simp only [State.setSession, Function.update_self, Option.some.injEq] at hz
    exact ⟨x, hx, hz ▸ hxy⟩
  · simp only [State.setSession, Function.update_of_ne hn] at hz
    exact ⟨z, hz, .refl z⟩

theorem quiet_rotateCsrf (cfg : Config) (s : State) (id : ℕ) (f : LoginFlow) (r : Form)
    (hf : s.flows id = some f) : Quiet s (rotateCsrf cfg s id f r) :=
  quiet_setFlow s id f _ hf ⟨rfl, rfl, rfl, rfl, rfl⟩

theorem quiet_checkLiveness (cfg : Config) (s : State) (id : ℕ) (x : Session) (ip : List Char)
    (now : ℤ) (enforceIP : Bool) (hx : s.sessions id = some x) :
    Quiet s (checkLiveness cfg s id x ip now enforceIP).1 ∧
      (checkLiveness cfg s id x ip now enforceIP).1.throttle = s.throttle := by
  have hset : ∀ y, SameSession x y → Quiet s (s.setSession id y) :=
    fun y hy => quiet_setSession s id x y hx hy
  unfold checkLiveness revokeSession
  split_ifs
  · exact ⟨.refl s, rfl⟩
  · exact ⟨.refl s, rfl⟩
  · exact ⟨.refl s, rfl⟩
  · exact ⟨(hset { x with revokedAt := some now } ⟨rfl, rfl, rfl, rfl⟩).emit .., rfl⟩
  · exact ⟨(hset { x with stale := true } ⟨rfl, rfl, rfl, rfl⟩).emit .., rfl⟩
  · exact ⟨hset _ ⟨rfl, rfl, rfl, rfl⟩, rfl⟩
  · exact ⟨.refl s, rfl⟩

theorem quiet_getSessionFromCookie (cfg : Config) (s : State) (cookie : Option (ℕ × List Char))
    (ip : List Char) (now : ℤ) :
    Quiet s (getSessionFromCookie cfg s cookie ip now).1 ∧
      (getSessionFromCookie cfg s cookie ip now).1.throttle = s.throttle := by
  unfold getSessionFromCookie
  split
  · exact ⟨.refl s, rfl⟩
  · split
    · exact ⟨.refl s, rfl⟩
    · rename_i id _ _ x hx
      split_ifs
      · exact quiet_checkLiveness cfg s id x ip now false hx
      · exact ⟨.refl s, rfl⟩

theorem quiet_turnedAway (cfg : Config) (s : State) (r : Form) :
    Quiet s (turnedAway cfg s r).1 ∧ (turnedAway cfg s r).1.throttle = s.throttle := by
  have h := quiet_getSessionFromCookie cfg s r.session r.ip r.now
  unfold turnedAway
  split
  · rename_i t heq
    rwa [heq] at h
  · rename_i t heq
    rwa [heq] at h

theorem quiet_resumeCompletedLogin (cfg : Config) (s : State) (r : Form) (session : ℕ) :
    Quiet s (resumeCompletedLogin cfg s r session).1 ∧
      (resumeCompletedLogin cfg s r session).1.throttle = s.throttle := by
  unfold resumeCompletedLogin
  split
  · exact ⟨.refl s, rfl⟩
  · rename_i x hx
    have h := quiet_checkLiveness cfg s session x r.ip r.now true hx
    split
    · rename_i t heq
      rwa [heq] at h
    · rename_i t heq
      rw [heq] at h
      split
      · exact h
      · rename_i y hy
        exact ⟨h.1.trans (quiet_setSession t session y _ hy ⟨rfl, rfl, rfl, rfl⟩), h.2⟩

/-- The flow and the user of a second-factor submission, as its handler found them. -/
structure OnFlow (cfg : Config) (s : State) (r : Form) (stage : Stage) (id : ℕ) (f : LoginFlow)
    (user : User) : Prop where
  guarded : guardedFlow cfg s r stage = some (id, f)
  flowUser : flowUser s f = some user

theorem getValidFlow_some (s : State) (r : Form) (enforceIP : Bool) (id : ℕ) (f : LoginFlow)
    (h : getValidFlow s r enforceIP = some (id, f)) :
    r.flow = some id ∧ s.flows id = some f ∧ r.now < f.expiresAt := by
  unfold getValidFlow at h
  split at h
  · cases h
  · rename_i n hn
    split at h
    · cases h
    · rename_i g hg
      split_ifs at h with hexp
      obtain ⟨rfl, rfl⟩ := Prod.mk.inj (Option.some.inj h)
      exact ⟨hn, hg, by omega⟩

theorem getStageFlow_some (s : State) (r : Form) (stage : Stage) (id : ℕ) (f : LoginFlow)
    (h : getStageFlow s r stage = some (id, f)) :
    r.flow = some id ∧ s.flows id = some f ∧ f.stage = stage ∧ f.user ≠ none := by
  unfold getStageFlow at h
  split at h
  · cases h
  · rename_i n g hvalid
    split_ifs at h with hstage hcookie
    obtain ⟨rfl, rfl⟩ := Prod.mk.inj (Option.some.inj h)
    obtain ⟨hflow, hget, -⟩ := getValidFlow_some s r false _ _ hvalid
    push Not at hstage
    exact ⟨hflow, hget, hstage⟩

theorem guardedFlow_some (cfg : Config) (s : State) (r : Form) (stage : Stage) (id : ℕ)
    (f : LoginFlow) (h : guardedFlow cfg s r stage = some (id, f)) :
    r.flow = some id ∧ s.flows id = some f ∧ f.stage = stage ∧ f.user ≠ none := by
  unfold guardedFlow at h
  split at h
  · cases h
  · rename_i n g hstage
    split_ifs at h
    obtain ⟨rfl, rfl⟩ := Prod.mk.inj (Option.some.inj h)
    exact getStageFlow_some s r stage _ _ hstage

theorem flowUser_some (s : State) (f : LoginFlow) (user : User) (h : flowUser s f = some user) :
    f.user = some user.id ∧ s.user user.id = some user ∧ user.status = .active := by
  unfold flowUser at h
  split at h
  · cases h
  · rename_i id hid
    split at h
    · cases h
    · rename_i found hfound
      split_ifs at h with hactive
      obtain rfl := Option.some.inj h
      have hmatch : found.id = id := by
        have := List.find?_some hfound
        simpa using this
      rw [hmatch]
      exact ⟨hid, hfound, hactive⟩

theorem OnFlow.flow {cfg : Config} {s : State} {r : Form} {stage : Stage} {id : ℕ} {f : LoginFlow}
    {user : User} (h : OnFlow cfg s r stage id f user) : s.flows id = some f :=
  (guardedFlow_some cfg s r stage id f h.guarded).2.1

theorem OnFlow.stage_eq {cfg : Config} {s : State} {r : Form} {stage : Stage} {id : ℕ}
    {f : LoginFlow} {user : User} (h : OnFlow cfg s r stage id f user) : f.stage = stage :=
  (guardedFlow_some cfg s r stage id f h.guarded).2.2.1

theorem OnFlow.user_eq {cfg : Config} {s : State} {r : Form} {stage : Stage} {id : ℕ}
    {f : LoginFlow} {user : User} (h : OnFlow cfg s r stage id f user) :
    f.user = some user.id :=
  (flowUser_some s f user h.flowUser).1

/-- The submissions that check the account's throttle before a second factor. -/
inductive Submission : Event → Form → Stage → Prop
  | totp (r : Form) (code : List Char) : Submission (.totpSubmit r code) r .totp
  | enroll (r : Form) (code : List Char) (hashes : List (List Char)) :
    Submission (.enrollTotpSubmit r code hashes) r .totp
  | recovery (r : Form) (code : List Char) : Submission (.recoverySubmit r code) r .totp
  | webauthn (r : Form) (a : Assertion) : Submission (.webauthnVerify r a) r .webauthn

/-- A step of the user administration. -/
structure Administered (s t : State) : Prop where
  flows : ∀ id g, t.flows id = some g → s.flows id = some g
  nextFlow : t.nextFlow = s.nextFlow
  credentials : t.credentials.Sublist s.credentials
  sessions : ∀ id y, t.sessions id = some y → ∃ x, s.sessions id = some x ∧ SameSession x y
  nextSession : t.nextSession = s.nextSession
  throttle : t.throttle = s.throttle
  log : s.log ⊆ t.log

theorem Administered.refl (s : State) : Administered s s :=
  ⟨fun _ _ h => h, rfl, List.Sublist.refl _, fun _ x h => ⟨x, h, .refl x⟩, rfl, rfl,
    List.Subset.refl _⟩

theorem Administered.revoke {s t : State} (h : Administered s t) (user : ℕ) (now : ℤ) :
    Administered s (revokeUserSessions t user now) := by
  refine ⟨h.flows, h.nextFlow, h.credentials, fun id y hy => ?_, h.nextSession, h.throttle, h.log⟩
  obtain ⟨x, hx, rfl⟩ := Option.map_eq_some_iff.mp hy
  obtain ⟨w, hw, hwx⟩ := h.sessions id x hx
  refine ⟨w, hw, ?_⟩
  split_ifs
  · exact ⟨hwx.user, hwx.tier, hwx.amr, hwx.flow⟩
  · exact hwx

theorem administered_setUser (s : State) (user : User) : Administered s (setUser s user) :=
  let h := Administered.refl s
  ⟨h.flows, h.nextFlow, h.credentials, h.sessions, h.nextSession, h.throttle, h.log⟩

/-- The administration of users, and the clean-up of flows. -/
def isAdministration : Event → Bool
  | .createUser .. | .patchUser .. | .deleteUser .. | .resetTotp .. | .resetPassword ..
  | .deleteCredential .. | .gcFlows .. => true
  | _ => false

/-- The effect of a request. -/
inductive Effect (cfg : Config) (s : State) : Event → State → Prop
  | quiet (e : Event) (t : State) (h : Quiet s t) (hthrottle : t.throttle = s.throttle) :
    Effect cfg s e t
  | opened (e : Event) (t : State) (r : Form) (dbNow : ℤ) (h : Quiet s t)
    (hthrottle : t.throttle = s.throttle) : Effect cfg s e (createFlow cfg t r dbNow)
  | passwordFailed (r : Form) (email password : List Char) (id : ℕ) (user : Option User) :
    Effect cfg s (.loginSubmit r email password)
      (passwordFailure cfg s id user r (accountKey cfg email)).1
  | passwordPassed (r : Form) (email password : List Char) (id : ℕ) (f : LoginFlow) (user : User)
    (hflow : s.flows id = some f) (hstage : f.stage = .password)
    (hfound : userByEmail cfg s (accountKey cfg email) = some user)
    (hverified : cfg.verifyPassword user.passwordHash password) :
    Effect cfg s (.loginSubmit r email password)
      (passwordSuccess s id f user r (accountKey cfg email)).1
  | factorFailed (e : Event) (r : Form) (stage : Stage) (id : ℕ) (f : LoginFlow) (user : User)
    (t : State) (hsub : Submission e r stage) (hon : OnFlow cfg s r stage id f user)
    (hallowed : (s.check r.ip user.email r.now).allowed) (h : Quiet s t)
    (hthrottle : t.throttle = (factorFailure cfg s user r).throttle) : Effect cfg s e t
  | totpPassed (r : Form) (code : List Char) (id : ℕ) (f : LoginFlow) (user : User) (row : UserTotp)
    (hon : OnFlow cfg s r .totp id f user) (hopen : f.completedSession = none)
    (hallowed : (s.check r.ip user.email r.now).allowed)
    (hrow : confirmedTotp s user.id = some row)
    (hverified : cfg.verifyCode row.secret (Text.strip code) r.now) :
    Effect cfg s (.totpSubmit r code)
      (finalizeLogin cfg ((s.resetAccount user.email).emit .loginTotpSuccess true
        (some user.id) (some id)) id f user (totpAmr f) r)
  | totpDrawn (r : Form) (newTotp : List Char) (id : ℕ) (f : LoginFlow) (user : User)
    (hflow : s.flows id = some f) (hnone : s.totp user.id = none) :
    Effect cfg s (.enrollTotpForm r newTotp)
      (rotateCsrf cfg (s.setTotp user.id (some ⟨newTotp, none⟩)) id f r)
  | totpEnrolled (r : Form) (code : List Char) (hashes : List (List Char)) (id : ℕ) (f : LoginFlow)
    (user : User) (row : UserTotp) (hon : OnFlow cfg s r .totp id f user)
    (htier : user.tier = .standard) (hallowed : (s.check r.ip user.email r.now).allowed)
    (hrow : s.totp user.id = some row) (hpending : row.confirmedAt = none)
    (hverified : cfg.verifyCode row.secret (Text.strip code) r.now) :
    Effect cfg s (.enrollTotpSubmit r code hashes)
      ((createSession cfg (issueBatch
        (((s.setTotp user.id (some { row with confirmedAt := some r.now })).resetAccount
          user.email).emit .enrollTotp true (some user.id) (some id)) user.id hashes)
        user r.ip (totpAmr f) r.now r.newSecret id).deleteFlow id)
  | recovered (r : Form) (code : List Char) (id : ℕ) (f : LoginFlow) (user : User)
    (codes : List RecoveryCode) (hon : OnFlow cfg s r .totp id f user)
    (hallowed : (s.check r.ip user.email r.now).allowed)
    (hcodes : consumeCode cfg user.id (normalize cfg code) r.now s.codes = some codes) :
    Effect cfg s (.recoverySubmit r code)
      ((((({ s with codes := codes } : State).resetAccount user.email).emit .loginRecoveryCodeUsed
        true (some user.id) (some id)).setTotp user.id none).setFlow id
          { f with recoveryUsed := true })
  | asserted (r : Form) (a : Assertion) (id : ℕ) (f : LoginFlow) (user : User)
    (row : WebAuthnCredential) (count : ℕ) (hon : OnFlow cfg s r .webauthn id f user)
    (hopen : f.completedSession = none) (hallowed : (s.check r.ip user.email r.now).allowed) :
    Effect cfg s (.webauthnVerify r a)
      (assertionSuccess cfg (s.setFlow id { f with challenge := none }) id
        { f with challenge := none } user row count r).1
  | passkeyAdded (r : Form) (text : List Char) (breakGlass : Bool) (id : ℕ) (f : LoginFlow)
    (user : User) (reg : Registration) (hon : OnFlow cfg s r .webauthn id f user)
    (hallowed : bootstrapEnrollAllowed (userCredentials s user.id) f) :
    Effect cfg s (.enrollWebauthnVerify r text breakGlass)
      (addCredential (s.setFlow id { f with challenge := none }) id user reg breakGlass r.now)
  | administered (e : Event) (t : State) (hadmin : isAdministration e) (h : Administered s t) :
    Effect cfg s e t

end Hyproxy.AccountSteps

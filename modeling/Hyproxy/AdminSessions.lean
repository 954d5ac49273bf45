import Hyproxy.AccountEffects
import Hyproxy.Runs

/-!
How sessions come about. Only three requests create one: a code of a confirmed
authenticator, the enrollment of an authenticator, and a passkey assertion. The
tier is read when the session is made, so a session of the admin tier rests on a
passkey as long as no code is accepted for a user who has become an
administrator in the meantime.
-/

namespace Hyproxy.AdminSessions

open Accounts Login Passkeys AccountSteps AccountEffects Runs

/-- The request made the session, after these checks. -/
inductive Created (cfg : Config) (s : State) : Event → Session → Prop
  | totp (r : Form) (code : List Char) (id : ℕ) (f : LoginFlow) (user : User) (row : UserTotp)
    (y : Session) (hon : OnFlow cfg s r .totp id f user) (hopen : f.completedSession = none)
    (hallowed : (s.check r.ip user.email r.now).allowed)
    (hrow : confirmedTotp s user.id = some row)
    (hverified : cfg.verifyCode row.secret (Text.strip code) r.now) (huser : y.user = user.id)
    (htier : y.tier = user.tier) (hflow : y.flow = id) : Created cfg s (.totpSubmit r code) y
  | enroll (r : Form) (code : List Char) (hashes : List (List Char)) (id : ℕ) (f : LoginFlow)
    (user : User) (row : UserTotp) (y : Session) (hon : OnFlow cfg s r .totp id f user)
    (hrow : s.totp user.id = some row) (hpending : row.confirmedAt = none)
    (huser : y.user = user.id) (htier : y.tier = .standard) (hflow : y.flow = id) :
    Created cfg s (.enrollTotpSubmit r code hashes) y
  | webauthn (r : Form) (a : Assertion) (id : ℕ) (f : LoginFlow) (user : User) (y : Session)
    (hon : OnFlow cfg s r .webauthn id f user) (hopen : f.completedSession = none)
    (huser : y.user = user.id) (hamr : .webauthn ∈ y.amr) (hflow : y.flow = id) :
    Created cfg s (.webauthnVerify r a) y

theorem sessions_createSession (cfg : Config) (s : State) (user : User) (ip : List Char)
    (amr : List Amr) (now : ℤ) (secret : List Char) (flow n : ℕ) (y : Session)
    (h : (createSession cfg s user ip amr now secret flow).sessions n = some y) :
    s.sessions n = some y ∨
      (y.user = user.id ∧ y.tier = user.tier ∧ y.amr = amr ∧ y.flow = flow) := by
  by_cases hn : n = s.nextSession
  · subst hn
    simp only [createSession, State.setSession, State.emit, Function.update_self,
      Option.some.injEq] at h
    subst h
    exact Or.inr ⟨rfl, rfl, rfl, rfl⟩
  · simp only [createSession, State.setSession, State.emit, Function.update_of_ne hn] at h
    exact Or.inl h

/-- Every session after a step was there before it or was made by it. -/
theorem session_created (cfg : Config) (s : State) (e : Event) (n : ℕ) (y : Session)
    (h : (step cfg s e).sessions n = some y) :
    (∃ x, s.sessions n = some x ∧ SameSession x y) ∨ Created cfg s e y := by
  have hsame : s.sessions n = some y → ∃ x, s.sessions n = some x ∧ SameSession x y :=
    fun hy => ⟨y, hy, .refl y⟩
  generalize ht : step cfg s e = t at h
  have heffect := ht ▸ step_effect cfg s e
  cases heffect with
  | quiet _ t hquiet _ => exact Or.inl (hquiet.sessions n y h)
  | opened _ t r dbNow hquiet _ => exact Or.inl (hquiet.sessions n y h)
  | passwordFailed r email password id user => exact Or.inl (hsame h)
  | passwordPassed r email password id f user _ _ _ _ => exact Or.inl (hsame h)
  | factorFailed _ r stage id f user t _ _ _ hquiet _ => exact Or.inl (hquiet.sessions n y h)
  | totpPassed r code id f user row hon hopen hallowed hrow hverified =>
    rcases sessions_createSession _ _ _ _ _ _ _ _ n y h with h | ⟨huser, htier, -, hflow⟩
    · exact Or.inl (hsame h)
    · exact Or.inr (.totp r code id f user row y hon hopen hallowed hrow hverified huser htier
        hflow)
  | totpDrawn r newTotp id f user _ _ => exact Or.inl (hsame h)
  | totpEnrolled r code hashes id f user row hon htier' _ hrow hpending _ =>
    rcases sessions_createSession _ _ _ _ _ _ _ _ n y h with h | ⟨huser, htier, -, hflow⟩
    · exact Or.inl (hsame h)
    · exact Or.inr (.enroll r code hashes id f user row y hon hrow hpending huser
        (htier.trans htier') hflow)
  | recovered r code id f user codes _ _ _ => exact Or.inl (hsame h)
  | asserted r a id f user row count hon hopen _ =>
    rcases sessions_createSession _ _ _ _ _ _ _ _ n y h with h | ⟨huser, -, hamr, hflow⟩
    · refine Or.inl (hsame ?_)
      split at h <;> exact h
    · exact Or.inr (.webauthn r a id f user y hon hopen huser (by simp [hamr]) hflow)
  | passkeyAdded r text breakGlass id f user reg _ _ => exact Or.inl (hsame h)
  | administered _ t _ hadmin => exact Or.inl (hadmin.sessions n y h)

/-- No code that the throttle lets in verifies on an open flow of a user who is an
administrator by then. -/
def StandardAtTotp (cfg : Config) (s : State) : Event → Prop
  | .totpSubmit r code =>
    match guardedFlow cfg s r .totp with
    | none => True
    | some (_, f) => f.completedSession = none → ∀ user ∈ flowUser s f, user.tier = .admin →
        (s.check r.ip user.email r.now).allowed → ∀ row ∈ confirmedTotp s user.id,
          cfg.verifyCode row.secret (Text.strip code) r.now = false
  | _ => True

instance (cfg : Config) (s : State) (e : Event) : Decidable (StandardAtTotp cfg s e) := by
  unfold StandardAtTotp
  split
  · split <;> infer_instance
  · infer_instance

def PasskeySessions (s : State) : Prop :=
  ∀ id x, s.sessions id = some x → x.tier = .admin → .webauthn ∈ x.amr

theorem passkeySessions_step (cfg : Config) (s : State) (e : Event) (h : PasskeySessions s)
    (hguard : StandardAtTotp cfg s e) : PasskeySessions (step cfg s e) := by
  intro n y hy hadmin
  rcases session_created cfg s e n y hy with ⟨x, hx, hxy⟩ | hcreated
  · rw [hxy.amr]
    exact h n x hx (hxy.tier.symm.trans hadmin)
  · cases hcreated with
    | totp r code id f user row _ hon hopen hallowed hrow hverified _ htier _ =>
      simp only [StandardAtTotp, hon.guarded] at hguard
      have hrefused := hguard hopen user hon.flowUser (htier.symm.trans hadmin) hallowed row hrow
      rw [hrefused] at hverified
      simp at hverified
    | enroll r code hashes id f user row _ _ _ _ _ htier _ =>
      rw [htier] at hadmin
      cases hadmin
    | webauthn r a id f user _ _ _ _ hamr _ => exact hamr

/-- In every run in which each code that is let in and verifies on an open flow is one of a
standard user, all sessions of the admin tier are passkey sessions, in every state reached. -/
theorem admin_sessions_webauthn (cfg : Config) (events : List Event)
    (hrun : Along (step cfg) (StandardAtTotp cfg) initial events) :
    PasskeySessions (after cfg events) :=
  hrun.invariant PasskeySessions (fun _ _ h => by cases h)
    (fun s e h he => passkeySessions_step cfg s e h he)

/-- Default settings; hashes, codes and assertions are compared as they are. -/
def sampleConfig : Config where
  loginFlowTtl := 600000000
  refreshAbsTtl := 21600000000
  idleTtl := 1800000000
  sessionTouchInterval := 60000000
  throttleWindow := 900000000
  accountFree := 3
  accountCap := 60
  ipFree := 10
  ipCap := 30
  lower := id
  citext := id
  upper := id
  sha256Hex := id
  verifyPassword := fun hash password => hash == password
  verifyCode := fun secret code _ => secret == code
  verifyAssertion := fun text challenge _ => if text = challenge then some 1 else none
  verifyRegistration := fun text _ => some ⟨text, text, 0⟩

def sampleForm (now : ℤ) (flow : ℕ) : Form :=
  ⟨now, "192.0.2.7".toList, some flow, some flow, "csrf".toList, none, "csrf".toList, "sid".toList⟩

def sampleUser (tier : Tier) : User := ⟨1, "ada@example.org".toList, .active, tier, "pw".toList, false⟩

def sampleLogin (now : ℤ) (flow : ℕ) : List Event :=
  [.loginForm (sampleForm now flow) now,
    .loginSubmit (sampleForm now flow) "ada@example.org".toList "pw".toList]

def sampleEnroll (now : ℤ) (flow : ℕ) (key : List Char) : List Event :=
  [.enrollWebauthnOptions (sampleForm now flow) "challenge".toList,
    .enrollWebauthnVerify (sampleForm now flow) key false]

/-- An administrator enrolls a passkey and signs in with it. -/
def passkeyRun : List Event :=
  [.createUser (sampleUser .admin)] ++ sampleLogin 0 0 ++ sampleEnroll 1 0 "key".toList ++
    [.webauthnOptions (sampleForm 2 0) "challenge".toList,
      .webauthnVerify (sampleForm 3 0) ⟨some "key".toList, "challenge".toList⟩]

theorem admin_sessions_webauthn_sample :
    (((after sampleConfig passkeyRun).sessions 0).map Session.tier = some .admin) ∧
      PasskeySessions (after sampleConfig passkeyRun) :=
  ⟨by decide, admin_sessions_webauthn sampleConfig passkeyRun (by decide)⟩

/-- An administrator with two passkeys is demoted, enrolls an authenticator, passes the
password step once more, is promoted again and submits a code on the flow at hand. -/
def promotedRun : List Event :=
  [.createUser (sampleUser .admin)] ++ sampleLogin 0 0 ++ sampleEnroll 1 0 "key".toList ++
    sampleEnroll 2 0 "spare".toList ++ [.patchUser 1 (some .standard) none 3] ++ sampleLogin 4 1 ++
    [.enrollTotpForm (sampleForm 5 1) "seed".toList,
      .enrollTotpSubmit (sampleForm 6 1) "seed".toList []] ++ sampleLogin 7 2 ++
    [.patchUser 1 (some .admin) none 8, .totpSubmit (sampleForm 9 2) "seed".toList]

theorem promoted_totp_session :
    ((after sampleConfig promotedRun).sessions 1).map (fun x => (x.tier, x.amr)) =
      some (.admin, [.pwd, .otp]) ∧ ¬ PasskeySessions (after sampleConfig promotedRun) := by
  have hsession : ((after sampleConfig promotedRun).sessions 1).map (fun x => (x.tier, x.amr)) =
      some (.admin, [.pwd, .otp]) := by decide
  refine ⟨hsession, fun h => ?_⟩
  obtain ⟨x, hx, hx'⟩ := Option.map_eq_some_iff.mp hsession
  obtain ⟨htier, hamr⟩ := Prod.mk.inj hx'
  have := h 1 x hx htier
  rw [hamr] at this
  simp at this

end Hyproxy.AdminSessions

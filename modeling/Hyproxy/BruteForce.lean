import Hyproxy.AdminSessions
import Hyproxy.Throttle

/-!
The bound on guessing a second factor. A ledger counts the second-factor failures
of an account in the current window, and only a second-factor success closes a
window that holds one. The throttle row of the account keeps at least as long a
delay, as long as no password is accepted in between: the password step deletes
the row that both steps share.
-/

namespace Hyproxy.BruteForce

open Accounts Login Passkeys AccountSteps AdminSessions Runs Throttle

/-- A window of failures on an account: its start, its second-factor failures and the time
of the last of them. -/
structure Window where
  start : ℤ
  failures : ℕ
  last : ℤ
  deriving Repr, DecidableEq

/-- The window in which a failure at this time falls. -/
def windowAt (cfg : Config) (now : ℤ) (w : Option Window) : Window :=
  let w := w.getD ⟨now, 0, now⟩
  if cfg.throttleWindow < now - w.start then ⟨now, 0, now⟩ else w

def held (w : Option Window) : ℕ := (w.map Window.failures).getD 0

/-- The ledger of one account after an attempt. -/
def observe (cfg : Config) (k : List Char) (w : Option Window) (a : Attempt) : Option Window :=
  if a.key = k then
    match a.kind with
    | .passwordFailed => some (windowAt cfg a.now w)
    | .factorFailed =>
      some ⟨(windowAt cfg a.now w).start, (windowAt cfg a.now w).failures + 1, a.now⟩
    | .factorPassed => none
    | .passwordPassed => if held w = 0 then none else w
  else w

def ledgerStep (cfg : Config) (k : List Char) (p : State × Option Window) (e : Event) :
    State × Option Window :=
  (step cfg p.1 e,
    match attempted cfg p.1 e with
    | none => p.2
    | some a => observe cfg k p.2 a)

def ledgerAfter (cfg : Config) (k : List Char) (events : List Event) : State × Option Window :=
  events.foldl (ledgerStep cfg k) (initial, none)

def passwordMatches (cfg : Config) (s : State) (email password : List Char) : Bool :=
  match userByEmail cfg s (accountKey cfg email) with
  | none => false
  | some user => user.status = .active && cfg.verifyPassword user.passwordHash password

def attemptTime : Event → Option ℤ
  | .loginSubmit r .. | .totpSubmit r .. | .enrollTotpSubmit r .. | .recoverySubmit r ..
  | .webauthnVerify r .. => some r.now
  | _ => none

/-- Time does not run back behind the last failure. -/
def InOrder (w : Option Window) (e : Event) : Prop :=
  match w, attemptTime e with
  | some w, some t => 0 < w.failures → w.last ≤ t
  | _, _ => True

instance (w : Option Window) (e : Event) : Decidable (InOrder w e) := by
  unfold InOrder
  split <;> infer_instance

/-- No right password for the account gets past the throttle while the ledger holds a
second-factor failure. -/
def NoPasswordReset (cfg : Config) (k : List Char) (p : State × Option Window) : Event → Prop
  | .loginSubmit r email password =>
    accountKey cfg email = k → (p.1.check r.ip k r.now).allowed →
      passwordMatches cfg p.1 email password → held p.2 = 0
  | _ => True

instance (cfg : Config) (k : List Char) (p : State × Option Window) (e : Event) :
    Decidable (NoPasswordReset cfg k p e) :=
  match e with
  | .loginSubmit r email password =>
    inferInstanceAs (Decidable (accountKey cfg email = k →
      (p.1.check r.ip k r.now).allowed → passwordMatches cfg p.1 email password → held p.2 = 0))
  | .authorize .. | .loginForm .. | .totpForm .. | .totpSubmit .. | .enrollTotpForm ..
  | .enrollTotpSubmit .. | .recoveryForm .. | .recoverySubmit .. | .webauthnPage ..
  | .webauthnOptions .. | .webauthnVerify .. | .enrollWebauthnPage .. | .enrollWebauthnOptions ..
  | .enrollWebauthnVerify .. | .createUser .. | .patchUser .. | .deleteUser .. | .resetTotp ..
  | .resetPassword .. | .deleteCredential .. | .gcFlows .. => instDecidableTrue

/-- The time and the kind of an attempt: one at the second factor, or one at the password
step, where success shows as a redirect. -/
theorem attempted_some (cfg : Config) (s : State) (e : Event) (a : Attempt)
    (h : attempted cfg s e = some a) :
    attemptTime e = some a.now ∧ (a.kind = .factorFailed ∨ a.kind = .factorPassed ∨
      ∃ r email password, e = .loginSubmit r email password ∧ a.key = accountKey cfg email ∧
        (a.kind = .passwordFailed ∨
          ∃ location, (loginSubmit cfg s r email password).2 = .redirect location)) := by
  have hfailed : ∀ {o : Option (List Char)} {now : ℤ},
      o.map (attempt now .factorFailed) = some a → some now = some a.now ∧ a.kind = .factorFailed := by
    intro o now ho
    obtain ⟨key, -, rfl⟩ := Option.map_eq_some_iff.mp ho
    exact ⟨rfl, rfl⟩
  have hpassed : ∀ {o : Option (List Char)} {now : ℤ},
      o.map (attempt now .factorPassed) = some a → some now = some a.now ∧ a.kind = .factorPassed := by
    intro o now ho
    obtain ⟨key, -, rfl⟩ := Option.map_eq_some_iff.mp ho
    exact ⟨rfl, rfl⟩
  cases e with
  | loginSubmit r email password =>
    simp only [attempted] at h
    split at h
    · obtain rfl := Option.some.inj h
      exact ⟨rfl, Or.inr (Or.inr ⟨r, email, password, rfl, rfl, Or.inl rfl⟩)⟩
    · rename_i location hlocation
      obtain rfl := Option.some.inj h
      exact ⟨rfl, Or.inr (Or.inr ⟨r, email, password, rfl, rfl, Or.inr ⟨location, hlocation⟩⟩)⟩
    · cases h
  | totpSubmit r code =>
    simp only [attempted] at h
    split at h
    · exact ⟨(hfailed h).1, Or.inl (hfailed h).2⟩
    · exact ⟨(hpassed h).1, Or.inr (Or.inl (hpassed h).2)⟩
    · cases h
  | enrollTotpSubmit r code hashes =>
    simp only [attempted] at h
    split at h
    · exact ⟨(hfailed h).1, Or.inl (hfailed h).2⟩
    · exact ⟨(hpassed h).1, Or.inr (Or.inl (hpassed h).2)⟩
    · cases h
  | recoverySubmit r code =>
    simp only [attempted] at h
    split at h
    · exact ⟨(hfailed h).1, Or.inl (hfailed h).2⟩
    · exact ⟨(hpassed h).1, Or.inr (Or.inl (hpassed h).2)⟩
    · cases h
  | webauthnVerify r a' =>
    simp only [attempted] at h
    split at h
    · exact ⟨(hfailed h).1, Or.inl (hfailed h).2⟩
    · exact ⟨(hpassed h).1, Or.inr (Or.inl (hpassed h).2)⟩
    · cases h
  | _ => cases h

theorem loginSubmit_redirect (cfg : Config) (s : State) (r : Form) (email password : List Char)
    (location : String) (h : (loginSubmit cfg s r email password).2 = .redirect location) :
    (s.check r.ip (accountKey cfg email) r.now).allowed ∧
      passwordMatches cfg s email password := by
  unfold loginSubmit at h
  split at h
  · cases h
  · simp only at h
    split_ifs at h with hcookie hcsrf hthrottle
    · cases h
    · cases h
    · refine ⟨by simpa using hthrottle, ?_⟩
      split at h
      · cases h
      · rename_i user huser
        split_ifs at h with hverified
        · simp [passwordMatches, huser, hverified.1, hverified.2]
        · cases h

/-- The row of an account is at least as strict as its ledger. -/
inductive Agrees (cfg : Config) : Option AuthThrottle → Option Window → Prop
  | clear : Agrees cfg none none
  | counting (row : AuthThrottle) (w : Window) (hstart : row.windowStartedAt = w.start)
    (hcount : w.failures ≤ row.failureCount)
    (hdelay : 0 < w.failures →
      w.last + delaySeconds cfg .account w.failures * 1000000 ≤ row.nextAllowedAt) :
    Agrees cfg (some row) (some w)

/-- A failure of either step falls in the window that the ledger has. -/
theorem failedRow_windowAt (cfg : Config) (now : ℤ) (row : Option AuthThrottle) (w : Option Window)
    (h : Agrees cfg row w) :
    (failedRow cfg .account now row).windowStartedAt = (windowAt cfg now w).start ∧
      (windowAt cfg now w).failures + 1 ≤ (failedRow cfg .account now row).failureCount ∧
      (failedRow cfg .account now row).nextAllowedAt = now +
        delaySeconds cfg .account (failedRow cfg .account now row).failureCount * 1000000 := by
  cases h with
  | clear =>
    simp only [failedRow, windowAt, Option.getD_none]
    split_ifs <;> simp
  | counting row w hstart hcount hdelay =>
    simp only [failedRow, windowAt, Option.getD_some, hstart]
    split_ifs
    · simp
    · exact ⟨hstart, Nat.succ_le_succ hcount, trivial⟩

theorem last_windowAt (cfg : Config) (now : ℤ) (w : Option Window)
    (horder : ∀ x ∈ w, 0 < x.failures → x.last ≤ now) (h : 0 < (windowAt cfg now w).failures) :
    (windowAt cfg now w).last ≤ now := by
  unfold windowAt at h ⊢
  simp only at h ⊢
  split_ifs at h ⊢ with hover
  · cases h
  · cases w with
    | none => exact Int.le_refl now
    | some x => exact horder x rfl h

/-- Every attempt keeps the row at least as strict as the ledger, unless it is a password
accepted while the ledger holds failures. -/
theorem agrees_observe (cfg : Config) (k : List Char) (row : Option AuthThrottle)
    (w : Option Window) (a : Attempt) (h : Agrees cfg row w)
    (horder : ∀ x ∈ w, 0 < x.failures → x.last ≤ a.now)
    (hreset : a.key = k → a.kind = .passwordPassed → held w = 0) :
    Agrees cfg (a.apply cfg k row) (observe cfg k w a) := by
  unfold Attempt.apply observe
  by_cases hkey : a.key = k
  · rw [if_pos hkey, if_pos hkey]
    obtain ⟨hstart, hcount, hnext⟩ := failedRow_windowAt cfg a.now row w h
    cases hkind : a.kind with
    | passwordFailed =>
      refine .counting _ _ hstart (by omega) fun hpos => ?_
      have hlast := last_windowAt cfg a.now w horder hpos
      have hmono := delaySeconds_mono cfg .account _ _ (Nat.le_of_succ_le hcount)
      rw [hnext]
      omega
    | factorFailed =>
      refine .counting _ _ hstart hcount fun _ => ?_
      have hmono := delaySeconds_mono cfg .account _ _ hcount
      rw [hnext]
      simp only
      omega
    | factorPassed => exact .clear
    | passwordPassed =>
      simp only [hreset hkey hkind, if_true]
      exact .clear
  · rw [if_neg hkey, if_neg hkey]
    exact h

def Bounded (cfg : Config) (k : List Char) (p : State × Option Window) : Prop :=
  Agrees cfg (p.1.throttle .account k) p.2

theorem bounded_step (cfg : Config) (k : List Char) (p : State × Option Window) (e : Event)
    (h : Bounded cfg k p) (horder : InOrder p.2 e) (hguard : NoPasswordReset cfg k p e) :
    Bounded cfg k (ledgerStep cfg k p e) := by
  have hrow := (account_step cfg p.1 e).row k
  unfold Bounded ledgerStep
  simp only
  rw [hrow]
  cases hattempted : attempted cfg p.1 e with
  | none => exact h
  | some a =>
    obtain ⟨htime, hkinds⟩ := attempted_some cfg p.1 e a hattempted
    refine agrees_observe cfg k _ p.2 a h (fun x hx hpos => ?_) fun hkey hkind => ?_
    · have hx : p.2 = some x := hx
      simp only [InOrder, hx, htime] at horder
      exact horder hpos
    · rcases hkinds with hfactor | hfactor | ⟨r, email, password, rfl, hkey', hfailed | ⟨location,
        hlocation⟩⟩
      · rw [hkind] at hfactor
        cases hfactor
      · rw [hkind] at hfactor
        cases hfactor
      · rw [hkind] at hfailed
        cases hfailed
      · obtain ⟨hallowed, hmatches⟩ := loginSubmit_redirect cfg p.1 r email password location
          hlocation
        have hname : accountKey cfg email = k := hkey'.symm.trans hkey
        exact hguard hname (hname ▸ hallowed) hmatches

theorem ledgerAfter_fst (cfg : Config) (k : List Char) (events : List Event) :
    (ledgerAfter cfg k events).1 = after cfg events := by
  suffices h : ∀ p : State × Option Window,
      (events.foldl (ledgerStep cfg k) p).1 = events.foldl (step cfg) p.1 from h (initial, none)
  induction events with
  | nil => exact fun _ => rfl
  | cons e rest ih => exact fun p => ih (ledgerStep cfg k p e)

/-- A row whose time has not come refuses, whatever the row of the address says. -/
theorem check_refused (s : State) (ip key : List Char) (now : ℤ) (row : AuthThrottle)
    (hrow : s.throttle .account key = some row) (hnow : now < row.nextAllowedAt) :
    (s.check ip key now).allowed = false := by
  have hretry : 0 < (row.nextAllowedAt - now) / 1000000 + 1 := by omega
  have hip : (worse now ⟨true, 0⟩ (s.throttle .ip ip)).allowed = false ∨
      worse now ⟨true, 0⟩ (s.throttle .ip ip) = ⟨true, 0⟩ := by
    cases s.throttle .ip ip with
    | none => exact Or.inr rfl
    | some other =>
      simp only [worse]
      split_ifs
      · exact Or.inl rfl
      · exact Or.inr rfl
      · exact Or.inr rfl
  unfold State.check
  rw [hrow]
  generalize worse now ⟨true, 0⟩ (s.throttle .ip ip) = worst at hip
  simp only [worse, if_pos hnow]
  split_ifs with hworse
  · rfl
  · rcases hip with hip | rfl
    · exact hip
    · exact absurd hretry hworse

/-- The submission gets as far as the throttle: a code on an open flow, an enrollment of a
standard user, or a recovery code. -/
def Reaches (f : LoginFlow) (user : User) : Event → Prop
  | .totpSubmit .. => f.completedSession = none
  | .enrollTotpSubmit .. => user.tier = .standard
  | .recoverySubmit .. => True
  | _ => False

theorem refused_of_check (cfg : Config) (s : State) (e : Event) (r : Form) (id : ℕ) (f : LoginFlow)
    (user : User) (hsub : Submission e r .totp) (hon : OnFlow cfg s r .totp id f user)
    (hreach : Reaches f user e) (hcheck : (s.check r.ip user.email r.now).allowed = false) :
    ∃ retry, (serve cfg s e).2 = .throttled retry := by
  have hthrottle : secondFactorThrottle s r id user =
      some (s.emit .throttleApplied false (some user.id) (some id),
        .throttled (s.check r.ip user.email r.now).retryAfter) := by
    simp [secondFactorThrottle, hcheck]
  refine ⟨(s.check r.ip user.email r.now).retryAfter, ?_⟩
  cases hsub with
  | totp r code =>
    have hopen : f.completedSession = none := hreach
    simp only [serve, totpSubmit, hon.guarded, hopen, hon.flowUser, hthrottle]
  | enroll r code hashes =>
    have hstandard : user.tier = .standard := hreach
    simp only [serve, enrollTotpSubmit, hon.guarded, hon.flowUser, hstandard, reduceCtorEq,
      if_false, hthrottle]
  | recovery r code => simp only [serve, recoverySubmit, hon.guarded, hon.flowUser, hthrottle]

/-- In every run in which no right password for an account gets past the throttle while its
ledger holds second-factor failures, a submission that comes before the delay for
these failures has passed since the last of them is refused with 429. -/
theorem second_factor_refused (cfg : Config) (k : List Char) (events : List Event)
    (hrun : Along (ledgerStep cfg k) (fun p e => InOrder p.2 e ∧ NoPasswordReset cfg k p e)
      (initial, none) events)
    (w : Window) (hw : (ledgerAfter cfg k events).2 = some w) (hmany : cfg.accountFree < w.failures)
    (e : Event) (r : Form) (id : ℕ) (f : LoginFlow) (user : User) (hsub : Submission e r .totp)
    (hon : OnFlow cfg (after cfg events) r .totp id f user) (hkey : user.email = k)
    (hreach : Reaches f user e)
    (hearly : r.now < w.last + delaySeconds cfg .account w.failures * 1000000) :
    ∃ retry, (serve cfg (after cfg events) e).2 = .throttled retry := by
  have hbounded : Bounded cfg k (ledgerAfter cfg k events) :=
    hrun.invariant (Bounded cfg k) .clear
      (fun p e h he => bounded_step cfg k p e h he.1 he.2)
  unfold Bounded at hbounded
  rw [ledgerAfter_fst, hw] at hbounded
  generalize hrow : (after cfg events).throttle .account k = row at hbounded
  cases hbounded with
  | counting row w hstart hcount hdelay =>
    refine refused_of_check cfg _ e r id f user hsub hon hreach ?_
    refine check_refused _ r.ip user.email r.now row (hkey ▸ hrow) ?_
    have := hdelay (Nat.lt_of_le_of_lt (Nat.zero_le _) hmany)
    omega

/-- A standard user with an authenticator, and four wrong codes on a second flow. -/
def fourWrongRun : List Event :=
  [.createUser (sampleUser .standard)] ++ sampleLogin 0 0 ++
    [.enrollTotpForm (sampleForm 1 0) "seed".toList,
      .enrollTotpSubmit (sampleForm 2 0) "seed".toList []] ++ sampleLogin 3 1 ++
    [.totpSubmit (sampleForm 4 1) "a".toList, .totpSubmit (sampleForm 5 1) "b".toList,
      .totpSubmit (sampleForm 6 1) "c".toList, .totpSubmit (sampleForm 7 1) "d".toList]

theorem second_factor_refused_sample :
    (ledgerAfter sampleConfig "ada@example.org".toList fourWrongRun).2 = some ⟨4, 4, 7⟩ ∧
      ∃ retry, (serve sampleConfig (after sampleConfig fourWrongRun)
        (.totpSubmit (sampleForm 8 1) "seed".toList)).2 = .throttled retry := by
  have hledger : (ledgerAfter sampleConfig "ada@example.org".toList fourWrongRun).2 =
      some ⟨4, 4, 7⟩ := by decide
  have hflow : (guardedFlow sampleConfig (after sampleConfig fourWrongRun) (sampleForm 8 1)
      .totp).map (fun p => (p.2.completedSession,
        flowUser (after sampleConfig fourWrongRun) p.2)) =
        some (none, some (sampleUser .standard)) := by decide
  obtain ⟨⟨id, f⟩, hguarded, hpair⟩ := Option.map_eq_some_iff.mp hflow
  obtain ⟨hopen, huser⟩ := Prod.mk.inj hpair
  exact ⟨hledger, second_factor_refused sampleConfig _ fourWrongRun (by decide) ⟨4, 4, 7⟩
    hledger (by decide) _ (sampleForm 8 1) id f (sampleUser .standard) (.totp _ _)
    ⟨hguarded, huser⟩ rfl hopen (by decide)⟩

def sixWrongRun : List Event :=
  [.createUser (sampleUser .standard)] ++ sampleLogin 0 0 ++
    [.enrollTotpForm (sampleForm 1 0) "seed".toList,
      .enrollTotpSubmit (sampleForm 2 0) "seed".toList []] ++ sampleLogin 3 1 ++
    [.totpSubmit (sampleForm 4 1) "a".toList, .totpSubmit (sampleForm 5 1) "b".toList,
      .totpSubmit (sampleForm 6 1) "c".toList] ++ sampleLogin 7 2 ++
    [.totpSubmit (sampleForm 8 2) "d".toList, .totpSubmit (sampleForm 9 2) "e".toList,
      .totpSubmit (sampleForm 10 2) "f".toList]

/-- Six failures ask for eight seconds, and the next guess is let through at once. -/
theorem password_lifts_delay :
    (ledgerAfter sampleConfig "ada@example.org".toList sixWrongRun).2 = some ⟨4, 6, 10⟩ ∧
      delaySeconds sampleConfig .account 6 = 8 ∧
      (serve sampleConfig (after sampleConfig sixWrongRun)
        (.totpSubmit (sampleForm 11 2) "g".toList)).2 = .page 401 := by
  decide

end Hyproxy.BruteForce

import Hyproxy.AdminSessions
import Hyproxy.Throttle

/-!
The throttle keys of an account. The password step counts under the email as it was
typed, in lower case; the steps of the second factor count under the email as it is stored.
The two meet in a lookup that does not distinguish case, so they are one key exactly when
the stored email is in lower case.
-/

namespace Hyproxy.AccountKeys

open Accounts Login Passkeys AccountSteps Throttle

/-- The request is an attempt of the user: the typed email finds the user, or the flow is at
one of the second factors. -/
inductive AttemptOf (cfg : Config) (s : State) (user : User) : Event → Form → Prop
  | password (r : Form) (typed password : List Char)
    (hfound : userByEmail cfg s (accountKey cfg typed) = some user) :
    AttemptOf cfg s user (.loginSubmit r typed password) r
  | factor (e : Event) (r : Form) (stage : Stage) (id : ℕ) (f : LoginFlow)
    (hsub : Submission e r stage) (hon : OnFlow cfg s r stage id f user) : AttemptOf cfg s user e r

/-- Status 429. -/
def tooMany : Response → Bool
  | .throttled _ => true
  | .error status _ => status == 429
  | _ => false

/-- The request counts and clears under the key, and the check that it has to pass reads the key. -/
structure Under (cfg : Config) (s : State) (e : Event) (r : Form) (key : List Char) : Prop where
  counts : Accounted cfg s (step cfg s e) (attempted cfg s e)
  keyed : ∀ a, attempted cfg s e = some a → a.key = key
  passes : attempted cfg s e ≠ none → (s.check r.ip key r.now).allowed = true
  refuses : tooMany (serve cfg s e).2 = true → (s.check r.ip key r.now).allowed = false

/-- All attempts of the users with this email, however it is typed, go under one key. -/
def OneCounter (cfg : Config) (email : List Char) : Prop :=
  ∃ key, ∀ s e r user, user.email = email → AttemptOf cfg s user e r → Under cfg s e r key

/-- The response of the password step, by the check that it makes. -/
theorem loginSubmit_response (cfg : Config) (s : State) (r : Form) (typed password : List Char) :
    (∃ message, (loginSubmit cfg s r typed password).2 = .error 400 message) ∨
      ((s.check r.ip (accountKey cfg typed) r.now).allowed = false ∧
        ∃ retry, (loginSubmit cfg s r typed password).2 = .throttled retry) ∨
      ((s.check r.ip (accountKey cfg typed) r.now).allowed = true ∧
        ((loginSubmit cfg s r typed password).2 = .page 401 ∨
          ∃ location, (loginSubmit cfg s r typed password).2 = .redirect location)) := by
  unfold loginSubmit
  simp only
  split
  · exact Or.inl ⟨_, rfl⟩
  · split_ifs with hcookie hcsrf hdenied
    · exact Or.inl ⟨_, rfl⟩
    · exact Or.inl ⟨_, rfl⟩
    · exact Or.inr (Or.inl ⟨by simpa using hdenied, _, rfl⟩)
    · refine Or.inr (Or.inr ⟨by simpa using hdenied, ?_⟩)
      split
      · exact Or.inl rfl
      · split_ifs
        · exact Or.inr ⟨_, rfl⟩
        · exact Or.inl rfl

theorem under_password (cfg : Config) (s : State) (r : Form) (typed password : List Char) :
    Under cfg s (.loginSubmit r typed password) r (accountKey cfg typed) := by
  have hkeyed : ∀ a, attempted cfg s (.loginSubmit r typed password) = some a →
      a.key = accountKey cfg typed := by
    intro a ha
    simp only [attempted] at ha
    split at ha
    · exact (Option.some.inj ha) ▸ rfl
    · exact (Option.some.inj ha) ▸ rfl
    · cases ha
  have hcounts := account_step cfg s (.loginSubmit r typed password)
  rcases loginSubmit_response cfg s r typed password with
    ⟨message, hmessage⟩ | ⟨hdenied, retry, hretry⟩ | ⟨hallowed, hresponse⟩
  · refine ⟨hcounts, hkeyed, fun hattempt => absurd ?_ hattempt, fun hrefused => ?_⟩
    · simp only [attempted, hmessage]
    · simp [serve, hmessage, tooMany] at hrefused
  · refine ⟨hcounts, hkeyed, fun hattempt => absurd ?_ hattempt, fun _ => hdenied⟩
    simp only [attempted, hretry]
  · refine ⟨hcounts, hkeyed, fun _ => hallowed, fun hrefused => ?_⟩
    rcases hresponse with hpage | ⟨location, hredirect⟩
    · simp [serve, hpage, tooMany] at hrefused
    · simp [serve, hredirect, tooMany] at hrefused

theorem secondFactorThrottle_none (s : State) (r : Form) (id : ℕ) (user : User)
    (h : (s.check r.ip user.email r.now).allowed = true) :
    secondFactorThrottle s r id user = none := by
  simp [secondFactorThrottle, h]

theorem secondFactorThrottle_denied (s : State) (r : Form) (id : ℕ) (user : User)
    (h : (s.check r.ip user.email r.now).allowed = false) :
    ∃ t retry, secondFactorThrottle s r id user = some (t, .throttled retry) :=
  ⟨_, _, by rw [secondFactorThrottle, h]; rfl⟩

theorem refuses_factor (cfg : Config) (s : State) (e : Event) (r : Form) (stage : Stage) (id : ℕ)
    (f : LoginFlow) (user : User) (hsub : Submission e r stage)
    (hon : OnFlow cfg s r stage id f user) (hrefused : tooMany (serve cfg s e).2 = true) :
    (s.check r.ip user.email r.now).allowed = false := by
  by_contra hallowed
  have hnone := secondFactorThrottle_none s r id user (by simpa using hallowed)
  cases hsub with
  | totp r code =>
    cases hopen : f.completedSession with
    | some session =>
      simp only [serve, totpSubmit, hon.guarded, hon.flowUser, hopen] at hrefused
      split_ifs at hrefused <;> simp [tooMany, expired] at hrefused
    | none =>
      simp only [serve, totpSubmit, hon.guarded, hon.flowUser, hopen, hnone] at hrefused
      split at hrefused
      · simp [tooMany] at hrefused
      · split_ifs at hrefused <;> simp [tooMany] at hrefused
  | enroll r code hashes =>
    simp only [serve, enrollTotpSubmit, hon.guarded, hon.flowUser, hnone] at hrefused
    split_ifs at hrefused
    · simp [tooMany, expired] at hrefused
    · split at hrefused
      · simp [tooMany] at hrefused
      · split_ifs at hrefused <;> simp [tooMany] at hrefused
  | recovery r code =>
    simp only [serve, recoverySubmit, hon.guarded, hon.flowUser, hnone] at hrefused
    split at hrefused <;> simp [tooMany] at hrefused
  | webauthn r a =>
    cases hopen : f.completedSession with
    | some session =>
      simp only [serve, webauthnVerify, hon.guarded, hon.flowUser, hopen] at hrefused
      split at hrefused <;> simp [tooMany] at hrefused
    | none =>
      simp only [serve, webauthnVerify, hon.guarded, hon.flowUser, hopen, hnone] at hrefused
      repeat' split at hrefused
      all_goals simp [tooMany, assertionFailure, assertionSuccess] at hrefused

theorem passes_factor (cfg : Config) (s : State) (e : Event) (r : Form) (stage : Stage) (id : ℕ)
    (f : LoginFlow) (user : User) (hsub : Submission e r stage)
    (hon : OnFlow cfg s r stage id f user)
    (hattempt : attempted cfg s e ≠ none) : (s.check r.ip user.email r.now).allowed = true := by
  by_contra hdenied
  obtain ⟨t, retry, hthrottle⟩ :=
    secondFactorThrottle_denied s r id user (by simpa using hdenied)
  refine hattempt ?_
  cases hsub with
  | totp r code =>
    cases hopen : f.completedSession with
    | some session =>
      have hkey : openKey cfg s r .totp = none := by simp [openKey, hon.guarded, hopen]
      simp only [attempted, hkey, Option.map_none]
      split <;> rfl
    | none => simp only [attempted, totpSubmit, hon.guarded, hon.flowUser, hopen, hthrottle]
  | enroll r code hashes =>
    by_cases htier : user.tier = .admin
    · simp only [attempted, enrollTotpSubmit, hon.guarded, hon.flowUser, htier, if_true, expired]
    · simp only [attempted, enrollTotpSubmit, hon.guarded, hon.flowUser, htier, if_false, hthrottle]
  | recovery r code => simp only [attempted, recoverySubmit, hon.guarded, hon.flowUser, hthrottle]
  | webauthn r a =>
    cases hopen : f.completedSession with
    | some session =>
      have hkey : openKey cfg s r .webauthn = none := by simp [openKey, hon.guarded, hopen]
      simp only [attempted, hkey, Option.map_none]
      split <;> rfl
    | none => simp only [attempted, webauthnVerify, hon.guarded, hon.flowUser, hopen, hthrottle]

theorem keyed_factor (cfg : Config) (s : State) (e : Event) (r : Form) (stage : Stage) (id : ℕ)
    (f : LoginFlow) (user : User) (hsub : Submission e r stage)
    (hon : OnFlow cfg s r stage id f user)
    (a : Attempt) (ha : attempted cfg s e = some a) : a.key = user.email := by
  have hfactor : ∀ kind, (factorKey cfg s r stage).map (attempt r.now kind) = some a →
      a.key = user.email := by
    intro kind hmap
    simp only [factorKey, hon.guarded, hon.flowUser, Option.map_some] at hmap
    exact (Option.some.inj hmap) ▸ rfl
  have hopen : ∀ kind, (openKey cfg s r stage).map (attempt r.now kind) = some a →
      a.key = user.email := by
    intro kind hmap
    simp only [openKey, hon.guarded, hon.flowUser, Option.map_some] at hmap
    split_ifs at hmap
    · exact (Option.some.inj hmap) ▸ rfl
    · cases hmap
  cases hsub with
  | totp r code =>
    simp only [attempted] at ha
    split at ha
    · exact hopen _ ha
    · exact hopen _ ha
    · cases ha
  | enroll r code hashes =>
    simp only [attempted] at ha
    split at ha
    · exact hfactor _ ha
    · exact hfactor _ ha
    · cases ha
  | recovery r code =>
    simp only [attempted] at ha
    split at ha
    · exact hfactor _ ha
    · exact hfactor _ ha
    · cases ha
  | webauthn r a =>
    simp only [attempted] at ha
    split at ha
    · exact hopen _ ha
    · exact hopen _ ha
    · cases ha

theorem under_factor (cfg : Config) (s : State) (e : Event) (r : Form) (stage : Stage) (id : ℕ)
    (f : LoginFlow) (user : User) (hsub : Submission e r stage)
    (hon : OnFlow cfg s r stage id f user) : Under cfg s e r user.email where
  counts := account_step cfg s e
  keyed := keyed_factor cfg s e r stage id f user hsub hon
  passes := passes_factor cfg s e r stage id f user hsub hon
  refuses := refuses_factor cfg s e r stage id f user hsub hon

/-! ### The two keys -/

/-- A standard user with this email. -/
def ordinaryUser (email : List Char) : User := ⟨1, email, .active, .standard, [], false⟩

def ordinaryForm : Form := ⟨0, [], some 0, some 0, [], none, [], []⟩

/-- A state with this user and one flow, at the given stage. -/
def stateAt (cfg : Config) (email : List Char) (stage : Stage) (user : Option ℕ) : State where
  users := [ordinaryUser email]
  flows := fun _ => some ⟨cfg.sha256Hex [], [], stage, user, none, false, none, 0, 1⟩
  nextFlow := 1
  totp := fun _ => none
  codes := []
  credentials := []
  sessions := fun _ => none
  nextSession := 0
  throttle := fun _ _ => none
  log := []

/-- Some attempt counts under the typed email. -/
theorem counted_password (cfg : Config) (email typed : List Char)
    (hlower : ∀ s, cfg.citext (cfg.lower s) = cfg.lower s)
    (htyped : accountKey cfg typed = cfg.citext email) :
    AttemptOf cfg (stateAt cfg email .password none) (ordinaryUser email)
        (.loginSubmit ordinaryForm typed []) ordinaryForm ∧
      attempted cfg (stateAt cfg email .password none) (.loginSubmit ordinaryForm typed []) ≠
        none := by
  have hsame : cfg.citext (accountKey cfg typed) = cfg.citext email := by
    rw [accountKey, hlower]
    exact htyped
  have hfound : userByEmail cfg (stateAt cfg email .password none) (accountKey cfg typed) =
      some (ordinaryUser email) := by
    simp [userByEmail, stateAt, ordinaryUser, hsame]
  refine ⟨.password ordinaryForm typed [] hfound, ?_⟩
  have hflow : getValidFlow (stateAt cfg email .password none) ordinaryForm true =
      some (0, ⟨cfg.sha256Hex [], [], .password, none, none, false, none, 0, 1⟩) := by rfl
  have hcsrf : verifyFlowCsrf cfg ⟨cfg.sha256Hex [], [], .password, none, none, false, none, 0, 1⟩
      ordinaryForm.csrf = true := by simp [verifyFlowCsrf, ordinaryForm]
  have hcheck : ((stateAt cfg email .password none).check ordinaryForm.ip (accountKey cfg typed)
      ordinaryForm.now).allowed = true := by rfl
  simp only [attempted, loginSubmit, hflow, hcsrf, hcheck, hfound]
  by_cases hpassword : (ordinaryUser email).status = .active ∧
      cfg.verifyPassword (ordinaryUser email).passwordHash [] = true
  · simp [hpassword, ordinaryForm, passwordSuccess]
  · simp [hpassword, ordinaryForm, passwordFailure]

/-- Some attempt counts under the stored email. -/
theorem counted_recovery (cfg : Config) (email : List Char) :
    AttemptOf cfg (stateAt cfg email .totp (some 1)) (ordinaryUser email)
        (.recoverySubmit ordinaryForm []) ordinaryForm ∧
      (attempted cfg (stateAt cfg email .totp (some 1)) (.recoverySubmit ordinaryForm [])).map
        Attempt.key = some email := by
  have hflow : guardedFlow cfg (stateAt cfg email .totp (some 1)) ordinaryForm .totp =
      some (0, ⟨cfg.sha256Hex [], [], .totp, some 1, none, false, none, 0, 1⟩) := by
    simp [guardedFlow, getStageFlow, getValidFlow, stateAt, ordinaryForm, verifyFlowCsrf]
  have huser : flowUser (stateAt cfg email .totp (some 1))
      ⟨cfg.sha256Hex [], [], .totp, some 1, none, false, none, 0, 1⟩ =
        some (ordinaryUser email) := by rfl
  refine ⟨.factor _ _ .totp 0 _ (.recovery ordinaryForm []) ⟨hflow, huser⟩, ?_⟩
  have hcheck : ((stateAt cfg email .totp (some 1)).check ordinaryForm.ip
      (ordinaryUser email).email ordinaryForm.now).allowed = true := by rfl
  have hnone := secondFactorThrottle_none _ ordinaryForm 0 (ordinaryUser email) hcheck
  have hcodes : (stateAt cfg email .totp (some 1)).codes = [] := rfl
  simp only [attempted, recoverySubmit, hflow, huser, hnone, hcodes, consumeCode, factorKey]
  rfl

theorem stored_of_one_counter (cfg : Config) (email : List Char)
    (hlower : ∀ s, cfg.citext (cfg.lower s) = cfg.lower s) (h : OneCounter cfg email)
    (typed : List Char) (htyped : accountKey cfg typed = cfg.citext email) :
    cfg.citext email = email := by
  obtain ⟨key, hkey⟩ := h
  obtain ⟨hpassword, hattempt⟩ := counted_password cfg email typed hlower htyped
  obtain ⟨a, ha⟩ := Option.ne_none_iff_exists'.mp hattempt
  have htypedKey : key = accountKey cfg typed :=
    ((hkey _ _ _ _ rfl hpassword).keyed a ha).symm.trans
      ((under_password cfg _ _ typed []).keyed a ha)
  obtain ⟨hrecovery, hattempt⟩ := counted_recovery cfg email
  obtain ⟨b, hb, hemail⟩ := Option.map_eq_some_iff.mp hattempt
  have hstoredKey : key = email := ((hkey _ _ _ _ rfl hrecovery).keyed b hb).symm.trans hemail
  exact htyped.symm.trans (htypedKey.symm.trans hstoredKey)

/-- All attempts of an account go under one key exactly when its email is stored in lower case, or
cannot be typed at all. -/
theorem one_counter_iff (cfg : Config) (email : List Char)
    (hlower : ∀ s, cfg.citext (cfg.lower s) = cfg.lower s) :
    OneCounter cfg email ↔
      cfg.citext email = email ∨ ∀ typed, accountKey cfg typed ≠ cfg.citext email := by
  constructor
  · intro h
    by_cases htypable : ∃ typed, accountKey cfg typed = cfg.citext email
    · obtain ⟨typed, htyped⟩ := htypable
      exact Or.inl (stored_of_one_counter cfg email hlower h typed htyped)
    · exact Or.inr (not_exists.mp htypable)
  · intro hstored
    refine ⟨email, fun s e r user huser hattempt => ?_⟩
    cases hattempt with
    | password r typed password hfound =>
      have hsame : cfg.citext email = accountKey cfg typed := by
        have hmatch := List.find?_some hfound
        rw [beq_iff_eq, huser] at hmatch
        rw [hmatch, accountKey, hlower]
      rcases hstored with hstored | hnever
      · rw [← hstored, hsame]
        exact under_password cfg s r typed password
      · exact absurd hsame.symm (hnever typed)
    | factor e r stage id f hsub hon =>
      rw [← huser]
      exact under_factor cfg s e r stage id f user hsub hon

/-- Letters of ASCII are compared without their case. -/
def caselessConfig : Config :=
  { AdminSessions.sampleConfig with lower := List.map Char.toLower, citext := List.map Char.toLower }

theorem caseless_lower (s : List Char) :
    caselessConfig.citext (caselessConfig.lower s) = caselessConfig.lower s := by
  simp only [caselessConfig, List.map_map, Function.comp_def, Text.toLower_toLower]

theorem one_counter_sample : OneCounter caselessConfig "alice@example.org".toList :=
  (one_counter_iff caselessConfig "alice@example.org".toList caseless_lower).mpr
    (Or.inl (by decide))

def capitalUser : User := ⟨1, "Alice@example.org".toList, .active, .standard, "pw".toList, false⟩

/-- A wrong and a right password, a wrong recovery code, and the password step of another flow. -/
def capitalRun : List Event :=
  [.createUser capitalUser, .loginForm (AdminSessions.sampleForm 0 0) 0,
    .loginSubmit (AdminSessions.sampleForm 1 0) "Alice@example.org".toList "wrong".toList,
    .loginSubmit (AdminSessions.sampleForm 2 0) "Alice@example.org".toList "pw".toList,
    .recoverySubmit (AdminSessions.sampleForm 3 0) "wrong".toList,
    .loginForm (AdminSessions.sampleForm 4 1) 4,
    .loginSubmit (AdminSessions.sampleForm 5 1) "Alice@example.org".toList "pw".toList]

/-- The password counts under one key and the recovery code under another, which the second right
password does not clear. -/
theorem capital_two_counters :
    ¬ (∀ email, OneCounter caselessConfig email) ∧
      ((after caselessConfig (capitalRun.take 3)).throttle .account
        "alice@example.org".toList).map AuthThrottle.failureCount = some 1 ∧
      (after caselessConfig (capitalRun.take 3)).throttle .account
        "Alice@example.org".toList = none ∧
      (after caselessConfig capitalRun).throttle .account "alice@example.org".toList = none ∧
      ((after caselessConfig capitalRun).throttle .account
        "Alice@example.org".toList).map AuthThrottle.failureCount = some 1 := by
  refine ⟨fun h => ?_, by decide, by decide, by decide, by decide⟩
  have hstored := stored_of_one_counter caselessConfig "Alice@example.org".toList caseless_lower
    (h _) "Alice@example.org".toList (by decide)
  exact absurd hstored (by decide)

end Hyproxy.AccountKeys

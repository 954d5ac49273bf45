import Hyproxy.AccountSteps
import Hyproxy.AuthzCheck
import Hyproxy.SecondFactor
import Hyproxy.UrlQuery

/-!
A second-factor submission that comes again after its login is complete. It is
answered with a new cookie for the session of the first one, and with the same
destination, provided that it comes from the address of that session: a check of
the session that binds it to its address comes first, and makes it stale.
-/
namespace Hyproxy.LoginReplay

open Accounts Login
open AdminSessions (sampleConfig sampleForm sampleLogin)
open AuthzCheck (utf8)
open Passkeys (after Event)
open UrlQuery (queryEscape)

/-- A parked authorization request. -/
abbrev OidcRequest : Type := List (List Char × List Char)

def urlencode (request : OidcRequest) : List Char :=
  ['&'].intercalate
    (request.map fun p => queryEscape (utf8 p.1) ++ '=' :: queryEscape (utf8 p.2))

/-- `_continue_url` -/
def continueUrl (request : OidcRequest) : Option (List Char) :=
  if request = [] then none else some ("/oidc/authorize?".toList ++ urlencode request)

/-- The session and the secret of the cookie that a completed login sets, and where it leads. -/
structure Landing where
  session : ℕ
  secret : List Char
  continueUrl : Option (List Char)
  deriving Repr, DecidableEq

/-- The `_login_response` of a submission; `requests` is the column `oidc_request` of the flows. -/
def landing (cfg : Config) (requests : ℕ → OidcRequest) (s : State) (r : Form) (code : List Char) :
    Option Landing :=
  match guardedFlow cfg s r .totp with
  | none => none
  | some (id, f) =>
    match f.completedSession, flowUser s f with
    | some session, user =>
      if (resumeCompletedLogin cfg s r session).2 ∧ user.isSome then
        some ⟨session, r.newSecret, continueUrl (requests id)⟩
      else none
    | none, none => none
    | none, some user =>
      match secondFactorThrottle s r id user with
      | some _ => none
      | none =>
        match confirmedTotp s user.id with
        | none => none
        | some row =>
          if cfg.verifyCode row.secret (Text.strip code) r.now then
            some ⟨s.nextSession, r.newSecret, continueUrl (requests id)⟩
          else none

/-- The session would pass a check that does not look at the address. -/
structure LiveApartFromIp (cfg : Config) (x : Session) (now : ℤ) : Prop where
  unrevoked : x.revokedAt = none
  fresh : x.stale = false
  unexpired : now < x.absoluteExpiresAt
  awake : now - x.lastSeenAt ≤ cfg.idleTtl

/-- The submission leaves the session live, and its response leads to it. -/
structure Harmless (cfg : Config) (requests : ℕ → OidcRequest) (s : State) (r : Form)
    (code : List Char) (id session : ℕ) : Prop where
  live : ∃ y, (totpSubmit cfg s r code).1.sessions session = some y ∧ y.stale = false ∧
    y.revokedAt = none
  lands : ∃ l, landing cfg requests s r code = some l ∧ l.session = session ∧
    l.continueUrl = continueUrl (requests id) ∧ ∀ ip,
      (getSessionFromCookie cfg (totpSubmit cfg s r code).1 (some (l.session, l.secret)) ip r.now).2
        = true

/-- A response that signs in is a landing. -/
theorem totpSubmit_signedIn_iff (cfg : Config) (requests : ℕ → OidcRequest) (s : State) (r : Form)
    (code : List Char) :
    (totpSubmit cfg s r code).2 = .signedIn ↔ (landing cfg requests s r code).isSome = true := by
  unfold totpSubmit landing
  cases hguard : guardedFlow cfg s r .totp with
  | none =>
    simp only [turnedAway]
    split <;> simp [invalid]
  | some found =>
    obtain ⟨id, f⟩ := found
    cases hdone : f.completedSession with
    | some session =>
      simp only [hdone]
      split_ifs <;> simp [expired]
    | none =>
      cases huser : flowUser s f with
      | none => simp [hdone, huser, expired]
      | some user =>
        simp only [hdone, huser]
        cases hthrottle : secondFactorThrottle s r id user with
        | some refused =>
          simp only [secondFactorThrottle] at hthrottle
          split_ifs at hthrottle
          obtain rfl := Option.some.inj hthrottle
          simp
        | none =>
          cases hrow : confirmedTotp s user.id with
          | none => simp
          | some row =>
            simp only
            split_ifs <;> simp

/-- Every submission that lands leads where the flow does. -/
theorem landing_continueUrl (cfg : Config) (requests : ℕ → OidcRequest) (s : State) (r : Form)
    (code : List Char) (id : ℕ) (f : LoginFlow) (l : Landing)
    (hguard : guardedFlow cfg s r .totp = some (id, f))
    (h : landing cfg requests s r code = some l) : l.continueUrl = continueUrl (requests id) := by
  unfold landing at h
  rw [hguard] at h
  simp only at h
  cases hdone : f.completedSession with
  | some session =>
    simp only [hdone] at h
    split_ifs at h
    obtain rfl := Option.some.inj h
    rfl
  | none =>
    cases huser : flowUser s f with
    | none =>
      simp only [hdone, huser] at h
      cases h
    | some user =>
      simp only [hdone, huser] at h
      cases hthrottle : secondFactorThrottle s r id user with
      | some refused =>
        rw [hthrottle] at h
        cases h
      | none =>
        rw [hthrottle] at h
        simp only at h
        cases hrow : confirmedTotp s user.id with
        | none =>
          rw [hrow] at h
          cases h
        | some row =>
          simp only [hrow] at h
          split_ifs at h
          obtain rfl := Option.some.inj h
          rfl

/-- What a check that binds the address makes of a session that is live but for it. -/
theorem checkLiveness_bound (cfg : Config) (s : State) (id : ℕ) (x : Session) (ip : List Char)
    (now : ℤ) (h : LiveApartFromIp cfg x now) :
    checkLiveness cfg s id x ip now true =
      if x.sourceIP ≠ ip then
        ((s.setSession id { x with stale := true }).emit .sessionStaleIP false (some x.user) none,
          false)
      else if cfg.sessionTouchInterval ≤ now - x.lastSeenAt then
        (s.setSession id { x with lastSeenAt := now }, true)
      else (s, true) := by
  have hexpiry := h.unexpired
  have hidle := h.awake
  simp only [checkLiveness, h.unrevoked, h.fresh, Option.isSome_none, Bool.or_self,
    Bool.false_eq_true, if_false, if_neg (show ¬x.absoluteExpiresAt ≤ now by omega),
    if_neg (show ¬cfg.idleTtl < now - x.lastSeenAt by omega), Bool.true_and, bne_iff_ne]

theorem checkLiveness_passes (cfg : Config) (s : State) (id : ℕ) (x : Session) (ip : List Char)
    (now : ℤ) (hunrevoked : x.revokedAt = none) (hfresh : x.stale = false)
    (hexpiry : now < x.absoluteExpiresAt) :
    (checkLiveness cfg s id x ip now false).2 = true ↔ now - x.lastSeenAt ≤ cfg.idleTtl := by
  simp only [checkLiveness, hunrevoked, hfresh, Option.isSome_none, Bool.or_self,
    Bool.false_eq_true, if_false, if_neg (show ¬x.absoluteExpiresAt ≤ now by omega),
    Bool.false_and]
  split_ifs with hidle hinterval
  · exact iff_of_false (by simp) (by omega)
  · exact iff_of_true rfl (by omega)
  · exact iff_of_true rfl (by omega)

/-- The session as the replay of its login leaves it. -/
def replayed (cfg : Config) (x : Session) (r : Form) : Session :=
  { x with
    cookieSecretHash := cfg.sha256Hex r.newSecret
    lastSeenAt := if cfg.sessionTouchInterval ≤ r.now - x.lastSeenAt then r.now else x.lastSeenAt }

theorem resumeCompletedLogin_eq (cfg : Config) (s : State) (r : Form) (session : ℕ) (x : Session)
    (hx : s.sessions session = some x) (h : LiveApartFromIp cfg x r.now) :
    resumeCompletedLogin cfg s r session =
      if x.sourceIP ≠ r.ip then
        ((s.setSession session { x with stale := true }).emit .sessionStaleIP false (some x.user)
          none, false)
      else (s.setSession session (replayed cfg x r), true) := by
  unfold resumeCompletedLogin
  simp only [hx, checkLiveness_bound cfg s session x r.ip r.now h]
  by_cases hip : x.sourceIP ≠ r.ip
  · simp only [if_pos hip]
  · simp only [if_neg hip]
    by_cases htouch : cfg.sessionTouchInterval ≤ r.now - x.lastSeenAt
    · simp only [if_pos htouch, State.setSession, Function.update_self, Function.update_idem,
        replayed]
    · simp only [if_neg htouch, hx, replayed]

theorem totpSubmit_completed (cfg : Config) (requests : ℕ → OidcRequest) (s : State) (r : Form)
    (code : List Char) (id session : ℕ) (f : LoginFlow)
    (hguard : guardedFlow cfg s r .totp = some (id, f)) (hdone : f.completedSession = some session) :
    (totpSubmit cfg s r code).1 = (resumeCompletedLogin cfg s r session).1 ∧
      landing cfg requests s r code =
        if (resumeCompletedLogin cfg s r session).2 ∧ (flowUser s f).isSome then
          some ⟨session, r.newSecret, continueUrl (requests id)⟩
        else none := by
  unfold totpSubmit landing
  simp only [hguard, hdone]
  refine ⟨?_, trivial⟩
  split <;> rfl

/-- The cookie of a replay leads to its session. -/
theorem getSessionFromCookie_replayed (cfg : Config) (s : State) (r : Form) (session : ℕ)
    (x : Session) (ip : List Char) (h : LiveApartFromIp cfg x r.now) :
    (getSessionFromCookie cfg (s.setSession session (replayed cfg x r))
        (some (session, r.newSecret)) ip r.now).2 = true ↔
      (cfg.sessionTouchInterval ≤ r.now - x.lastSeenAt → 0 ≤ cfg.idleTtl) := by
  have hawake := h.awake
  simp only [getSessionFromCookie, State.setSession, Function.update_self]
  rw [if_pos (show cfg.sha256Hex r.newSecret = (replayed cfg x r).cookieSecretHash from rfl),
    checkLiveness_passes cfg _ session (replayed cfg x r) ip r.now h.unrevoked h.fresh h.unexpired]
  unfold replayed
  simp only
  split_ifs with htouch
  · constructor
    · intro hidle _
      omega
    · intro hidle
      have hpositive := hidle htouch
      omega
  · exact iff_of_true hawake fun h => absurd h htouch

/-- A submission that comes again is harmless if and only if it comes from the address of the
session, and the account is still active. -/
theorem duplicate_harmless_iff (cfg : Config) (requests : ℕ → OidcRequest) (s : State) (r : Form)
    (code : List Char) (id session : ℕ) (f : LoginFlow) (x : Session)
    (hguard : guardedFlow cfg s r .totp = some (id, f)) (hdone : f.completedSession = some session)
    (hx : s.sessions session = some x) (hlive : LiveApartFromIp cfg x r.now) :
    Harmless cfg requests s r code id session ↔
      r.ip = x.sourceIP ∧ (flowUser s f).isSome = true ∧
        (cfg.sessionTouchInterval ≤ r.now - x.lastSeenAt → 0 ≤ cfg.idleTtl) := by
  obtain ⟨hstate, hlanding⟩ := totpSubmit_completed cfg requests s r code id session f hguard hdone
  have hresume := resumeCompletedLogin_eq cfg s r session x hx hlive
  by_cases hip : x.sourceIP ≠ r.ip
  · rw [if_pos hip] at hresume
    refine iff_of_false (fun h => ?_) fun h => hip h.1.symm
    obtain ⟨y, hy, hfresh, -⟩ := h.live
    rw [hstate, hresume] at hy
    simp only [State.emit, State.setSession, Function.update_self, Option.some.injEq] at hy
    rw [← hy] at hfresh
    cases hfresh
  · rw [if_neg hip] at hresume
    rw [not_not] at hip
    rw [hresume] at hstate hlanding
    have hcookie := fun ip => getSessionFromCookie_replayed cfg s r session x ip hlive
    constructor
    · intro h
      obtain ⟨l, hl, hsession, -, hresolves⟩ := h.lands
      rw [hlanding] at hl
      split_ifs at hl with huser
      obtain rfl := Option.some.inj hl
      refine ⟨hip.symm, huser.2, (hcookie r.ip).mp ?_⟩
      have hhere := hresolves r.ip
      rw [hstate] at hhere
      exact hhere
    · rintro ⟨-, huser, hidle⟩
      refine ⟨⟨replayed cfg x r, ?_, hlive.fresh, hlive.unrevoked⟩,
        ⟨session, r.newSecret, continueUrl (requests id)⟩, ?_, rfl, rfl, fun ip => ?_⟩
      · rw [hstate]
        simp only [State.setSession, Function.update_self]
      · rw [hlanding]
        exact if_pos ⟨rfl, huser⟩
      · rw [hstate]
        exact (hcookie ip).mpr hidle

/-- A user with an authenticator signs in with it. -/
def completedRun : List Event :=
  SecondFactor.enrolledRun ++ sampleLogin 3 1 ++ [.totpSubmit (sampleForm 4 1) "seed".toList]

def sampleFlow : LoginFlow where
  csrfTokenHash := "csrf".toList
  sourceIP := "192.0.2.7".toList
  stage := .totp
  user := some 1
  challenge := none
  recoveryUsed := false
  completedSession := some 1
  createdAt := 3
  expiresAt := 600000003

def sampleSession : Session where
  user := 1
  cookieSecretHash := "sid".toList
  sourceIP := "192.0.2.7".toList
  tier := .standard
  amr := [.pwd, .otp]
  lastSeenAt := 4
  absoluteExpiresAt := 21600000004
  stale := false
  revokedAt := none
  flow := 1

def sampleRequests : ℕ → OidcRequest := fun _ => [("client_id".toList, "portal".toList)]

theorem duplicate_harmless_sample :
    Harmless sampleConfig sampleRequests (after sampleConfig completedRun) (sampleForm 5 1)
      "seed".toList 1 1 :=
  (duplicate_harmless_iff sampleConfig sampleRequests (after sampleConfig completedRun)
    (sampleForm 5 1) "seed".toList 1 1 sampleFlow sampleSession (by decide) rfl (by decide)
    ⟨rfl, rfl, by decide, by decide⟩).mpr ⟨rfl, by decide, fun _ => by decide⟩

/-- The duplicate comes from another address. -/
def movedForm : Form := { sampleForm 5 1 with ip := "198.51.100.9".toList }

/-- A duplicate of a completed login makes its session stale. -/
theorem moved_duplicate_harms :
    ¬∀ (cfg : Config) (requests : ℕ → OidcRequest) (events : List Event) (r : Form)
      (code : List Char) (id session : ℕ) (f : LoginFlow) (x : Session),
      guardedFlow cfg (after cfg events) r .totp = some (id, f) →
      f.completedSession = some session → (after cfg events).sessions session = some x →
      LiveApartFromIp cfg x r.now → Harmless cfg requests (after cfg events) r code id session := by
  intro h
  have hharmless := h sampleConfig sampleRequests completedRun movedForm "seed".toList 1 1 sampleFlow
    sampleSession (by decide) rfl (by decide) ⟨rfl, rfl, by decide, by decide⟩
  obtain ⟨y, hy, hfresh, -⟩ := hharmless.live
  have hstale : ((totpSubmit sampleConfig (after sampleConfig completedRun) movedForm
      "seed".toList).1.sessions 1).map Session.stale = some true := by decide
  rw [hy, Option.map_some, hfresh] at hstale
  cases hstale

end Hyproxy.LoginReplay

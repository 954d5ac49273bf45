import Hyproxy.AdminSessions

/-!
The enrollment of passkeys during a login. The gate compares the creation times of
the user's passkeys with that of the flow; it does not know which flow enrolled
them. It keeps other flows out as long as every flow that enrolls was opened after
one of the passkeys that other flows enrolled for its user.
-/

namespace Hyproxy.PasskeyBootstrap

open Accounts Login Passkeys AccountSteps AccountEffects AdminSessions Runs

/-- What a step does to the passkeys: it adds one, or all that it leaves were there before. -/
theorem credentials_step (cfg : Config) (s : State) (e : Event) :
    (∃ r text breakGlass id f user c, e = .enrollWebauthnVerify r text breakGlass ∧
      OnFlow cfg s r .webauthn id f user ∧ c.user = user.id ∧ c.flow = id ∧
      bootstrapEnrollAllowed (userCredentials s user.id) f ∧
      (step cfg s e).credentials = c :: s.credentials) ∨
    ((step cfg s e).credentials.length ≤ s.credentials.length ∧
      ∀ c ∈ (step cfg s e).credentials, ∃ d ∈ s.credentials, d.user = c.user ∧ d.flow = c.flow) := by
  have hsame : ∀ {t : State}, t.credentials = s.credentials →
      t.credentials.length ≤ s.credentials.length ∧
        ∀ c ∈ t.credentials, ∃ d ∈ s.credentials, d.user = c.user ∧ d.flow = c.flow := by
    intro t ht
    rw [ht]
    exact ⟨Nat.le_refl _, fun c hc => ⟨c, hc, rfl, rfl⟩⟩
  generalize ht : step cfg s e = t
  have heffect := ht ▸ step_effect cfg s e
  cases heffect with
  | quiet _ t hq _ => exact Or.inr (hsame hq.credentials)
  | opened _ t r dbNow hq _ => exact Or.inr (hsame hq.credentials)
  | passwordFailed r email password id user => exact Or.inr (hsame rfl)
  | passwordPassed r email password id f user _ _ _ _ => exact Or.inr (hsame rfl)
  | factorFailed _ r stage id f user t _ _ _ hq _ => exact Or.inr (hsame hq.credentials)
  | totpPassed r code id f user row _ _ _ _ _ => exact Or.inr (hsame rfl)
  | totpDrawn r newTotp id f user _ _ => exact Or.inr (hsame rfl)
  | totpEnrolled r code hashes id f user row _ _ _ _ _ _ => exact Or.inr (hsame rfl)
  | recovered r code id f user codes _ _ _ => exact Or.inr (hsame rfl)
  | asserted r a id f user row count _ _ _ =>
    right
    have hmap : (assertionSuccess cfg (s.setFlow id { f with challenge := none }) id
        { f with challenge := none } user row count r).1.credentials =
        s.credentials.map fun c =>
          if c.credentialId = row.credentialId then { c with signCount := count } else c := by
      unfold assertionSuccess
      simp only
      split <;> rfl
    rw [hmap]
    refine ⟨by simp, fun c hc => ?_⟩
    obtain ⟨d, hd, rfl⟩ := List.mem_map.mp hc
    refine ⟨d, hd, ?_⟩
    split_ifs <;> exact ⟨rfl, rfl⟩
  | passkeyAdded r text breakGlass id f user reg hon hallowed =>
    exact Or.inl ⟨r, text, breakGlass, id, f, user, _, rfl, hon, rfl, rfl, hallowed, rfl⟩
  | administered _ t _ hadmin =>
    exact Or.inr ⟨hadmin.credentials.length_le,
      fun c hc => ⟨c, hadmin.credentials.subset hc, rfl, rfl⟩⟩

/-- Whatever passkey the step adds, the user's passkeys so far are of the same flow. -/
def Exclusive (cfg : Config) (s : State) (e : Event) : Prop :=
  ∀ c, (step cfg s e).credentials = c :: s.credentials →
    ∀ d ∈ s.credentials, d.user = c.user → d.flow = c.flow

/-- All passkeys of a user were enrolled on one flow. -/
def OneFlow (s : State) : Prop :=
  ∀ c ∈ s.credentials, ∀ d ∈ s.credentials, d.user = c.user → d.flow = c.flow

/-- If other flows enrolled passkeys for the user, the enrolling flow was opened after one of
them was made. -/
def OpenedAfterOthers (cfg : Config) (s : State) : Event → Prop
  | .enrollWebauthnVerify r _ _ =>
    match guardedFlow cfg s r .webauthn with
    | none => True
    | some (id, f) => (∃ c ∈ s.credentials, f.user = some c.user ∧ c.flow ≠ id) →
        ∃ c ∈ s.credentials, f.user = some c.user ∧ c.flow ≠ id ∧ c.createdAt < f.createdAt
  | _ => True

instance (cfg : Config) (s : State) (e : Event) : Decidable (OpenedAfterOthers cfg s e) := by
  unfold OpenedAfterOthers
  split
  · split <;> infer_instance
  · infer_instance

/-- The gate, under the condition: it opens only for the flow of the passkeys at hand. -/
theorem gate_exclusive (cfg : Config) (s : State) (r : Form) (text : List Char) (breakGlass : Bool)
    (id : ℕ) (f : LoginFlow) (user : User) (hon : OnFlow cfg s r .webauthn id f user)
    (hallowed : bootstrapEnrollAllowed (userCredentials s user.id) f)
    (hguard : OpenedAfterOthers cfg s (.enrollWebauthnVerify r text breakGlass)) :
    ∀ d ∈ s.credentials, d.user = user.id → d.flow = id := by
  intro d hd huser
  by_contra hne
  simp only [OpenedAfterOthers, hon.guarded] at hguard
  obtain ⟨c, hc, huser', -, hbefore⟩ := hguard ⟨d, hd, by rw [hon.user_eq, huser], hne⟩
  have hafter : f.createdAt ≤ c.createdAt := by
    have hmem : c ∈ userCredentials s user.id := by
      refine List.mem_filter.mpr ⟨hc, ?_⟩
      have := Option.some.inj (huser'.symm.trans hon.user_eq)
      simpa using this
    simpa using List.all_eq_true.mp hallowed c hmem
  omega

theorem exclusive_of_guard (cfg : Config) (s : State) (e : Event)
    (hguard : OpenedAfterOthers cfg s e) : Exclusive cfg s e := by
  intro c hc d hd huser
  rcases credentials_step cfg s e with ⟨r, text, breakGlass, id, f, user, c', rfl, hon, huser',
    hflow, hallowed, hadd⟩ | ⟨hlength, -⟩
  · obtain rfl : c = c' := (List.cons.inj (hc.symm.trans hadd)).1
    rw [hflow]
    exact gate_exclusive cfg s r text breakGlass id f user hon hallowed hguard d hd
      (huser.trans huser')
  · rw [hc, List.length_cons] at hlength
    omega

theorem oneFlow_step (cfg : Config) (s : State) (e : Event) (h : OneFlow s)
    (hguard : OpenedAfterOthers cfg s e) : OneFlow (step cfg s e) := by
  rcases credentials_step cfg s e with ⟨-, -, -, -, -, -, new, -, -, -, -, -, hadd⟩ | ⟨-, hold⟩
  · have hexclusive := exclusive_of_guard cfg s e hguard new hadd
    unfold OneFlow
    rw [hadd]
    intro c hc d hd huser
    rcases List.mem_cons.mp hc with hcnew | hcold <;> rcases List.mem_cons.mp hd with hdnew | hdold
    · rw [hcnew, hdnew]
    · rw [hcnew] at huser ⊢
      exact hexclusive d hdold huser
    · rw [hdnew] at huser ⊢
      exact (hexclusive c hcold huser.symm).symm
    · exact h c hcold d hdold huser
  · intro c hc d hd huser
    obtain ⟨c', hc', hcuser, hcflow⟩ := hold c hc
    obtain ⟨d', hd', hduser, hdflow⟩ := hold d hd
    rw [← hcflow, ← hdflow]
    exact h c' hc' d' hd' (by rw [hcuser, hduser, huser])

/-- In every run in which each enrolling flow was opened after one of the passkeys that other
flows enrolled for its user, if there are any, passkeys are only ever added on the flow of
the passkeys at hand, and in every state reached all passkeys of a user are of one flow. -/
theorem bootstrap_exclusive (cfg : Config) (events : List Event)
    (hrun : Along (step cfg) (OpenedAfterOthers cfg) initial events) :
    (∀ past e rest, events = past ++ e :: rest → Exclusive cfg (after cfg past) e) ∧
      OneFlow (after cfg events) := by
  constructor
  · intro past e rest heq
    exact exclusive_of_guard cfg _ e ((along_iff_cut _ _ _ _).mp hrun past e rest heq)
  · exact hrun.invariant OneFlow (fun _ h => by cases h)
      (fun s e h he => oneFlow_step cfg s e h he)

/-- Two passkeys, enrolled on one flow. -/
def twoKeysRun : List Event :=
  [.createUser (sampleUser .admin)] ++ sampleLogin 0 0 ++ sampleEnroll 1 0 "key".toList ++
    sampleEnroll 2 0 "spare".toList

theorem bootstrap_exclusive_sample :
    (after sampleConfig twoKeysRun).credentials.map WebAuthnCredential.flow = [0, 0] ∧
      OneFlow (after sampleConfig twoKeysRun) :=
  ⟨by decide, (bootstrap_exclusive sampleConfig twoKeysRun (by decide)).2⟩

/-- Two flows pass the password step before the first of them enrolls a passkey. -/
def twoFlowsRun : List Event :=
  [.createUser (sampleUser .admin)] ++ sampleLogin 0 0 ++ sampleLogin 1 1 ++
    sampleEnroll 2 0 "key".toList ++ [.enrollWebauthnOptions (sampleForm 3 1) "challenge".toList]

theorem second_flow_enrolls :
    ¬ Exclusive sampleConfig (after sampleConfig twoFlowsRun)
      (.enrollWebauthnVerify (sampleForm 4 1) "other".toList false) := by
  intro h
  have hadd : (step sampleConfig (after sampleConfig twoFlowsRun)
      (.enrollWebauthnVerify (sampleForm 4 1) "other".toList false)).credentials =
      ⟨1, "other".toList, "other".toList, 0, false, 4, 1⟩ ::
        (after sampleConfig twoFlowsRun).credentials := by decide
  have hfirst : (⟨1, "key".toList, "key".toList, 0, false, 2, 0⟩ : WebAuthnCredential) ∈
      (after sampleConfig twoFlowsRun).credentials := by decide
  exact absurd (h _ hadd _ hfirst rfl) (by simp)

end Hyproxy.PasskeyBootstrap

import Hyproxy.AccountKeys

/-!
The throttle of the public gate, which counts under a key of the account scope that it makes
from the identifier of the resource. The key of a login submission is what was typed, so the
two meet when somebody types the key of a gate.
-/

namespace Hyproxy.GateThrottle

open Accounts Login Passkeys AccountSteps Throttle AccountKeys

structure GateResource where
  id : List Char
  passwordHash : Option (List Char)
  deriving Repr, DecidableEq

/-- A submission to the gate, with the resource that its host leads to. -/
structure GateForm where
  now : ℤ
  ip : List Char
  resource : Option GateResource
  cookieCsrf : List Char
  csrf : List Char
  password : List Char
  deriving Repr, DecidableEq

inductive GateReply
  | notFound
  | form (error : String) (status : ℕ) (retryAfter : ℤ)
  | admitted
  deriving Repr, DecidableEq

def publicKey (id : List Char) : List Char := "public:".toList ++ id

/-- `gate_submit`, as far as the throttle is concerned. -/
def gateSubmit (cfg : Config) (s : State) (g : GateForm) : State × GateReply :=
  match g.resource with
  | none => (s, .notFound)
  | some resource =>
    if g.csrf = [] ∨ g.cookieCsrf = [] ∨ g.csrf ≠ g.cookieCsrf then
      (s, .form "That form expired. Try again." 400 0)
    else
      let throttle := s.check g.ip (publicKey resource.id) g.now
      if !throttle.allowed then
        (s, .form "Too many attempts. Wait a moment and try again." 429 throttle.retryAfter)
      else
        let ok := match resource.passwordHash with
          | none => false
          | some stored => cfg.verifyPassword stored g.password
        if ok then (s, .admitted)
        else (s.registerFailure cfg g.ip (publicKey resource.id) g.now,
          .form "Incorrect password." 401 0)

/-- A submission of the login form. -/
structure LoginAttempt where
  form : Form
  typed : List Char
  password : List Char
  deriving Repr, DecidableEq

def afterLogins (cfg : Config) (s : State) (logins : List LoginAttempt) : State :=
  logins.foldl (fun s l => (loginSubmit cfg s l.form l.typed l.password).1) s

/-- Logins with these emails leave the row of the gate alone, and the gate leaves theirs alone. -/
structure Separate (cfg : Config) (id : List Char) (emails : List Char → Prop) : Prop where
  logins : ∀ s logins, (∀ l ∈ logins, emails l.typed) →
    (afterLogins cfg s logins).throttle .account (publicKey id) =
      s.throttle .account (publicKey id)
  gate : ∀ s g resource typed, g.resource = some resource → resource.id = id → emails typed →
    (gateSubmit cfg s g).1.throttle .account (accountKey cfg typed) =
      s.throttle .account (accountKey cfg typed)

theorem loginSubmit_row (cfg : Config) (s : State) (l : LoginAttempt) (k : List Char)
    (hne : accountKey cfg l.typed ≠ k) :
    (loginSubmit cfg s l.form l.typed l.password).1.throttle .account k =
      s.throttle .account k := by
  have hunder := under_password cfg s l.form l.typed l.password
  have hrow := hunder.counts.row k
  cases hattempt : attempted cfg s (.loginSubmit l.form l.typed l.password) with
  | none =>
    rw [hattempt] at hrow
    exact hrow
  | some a =>
    rw [hattempt, rowAfter, Attempt.apply, if_neg] at hrow
    · exact hrow
    · rw [hunder.keyed a hattempt]
      exact hne

theorem afterLogins_row (cfg : Config) (s : State) (logins : List LoginAttempt) (k : List Char)
    (hne : ∀ l ∈ logins, accountKey cfg l.typed ≠ k) :
    (afterLogins cfg s logins).throttle .account k = s.throttle .account k := by
  induction logins generalizing s with
  | nil => rfl
  | cons l rest ih =>
    have hrest := ih (loginSubmit cfg s l.form l.typed l.password).1
      fun x hx => hne x (List.mem_cons_of_mem l hx)
    exact hrest.trans (loginSubmit_row cfg s l k (hne l (List.mem_cons_self ..)))

theorem gateSubmit_row (cfg : Config) (s : State) (g : GateForm) (resource : GateResource)
    (k : List Char) (hresource : g.resource = some resource) (hne : publicKey resource.id ≠ k) :
    (gateSubmit cfg s g).1.throttle .account k = s.throttle .account k := by
  simp only [gateSubmit, hresource]
  split_ifs
  · rfl
  · rfl
  · rfl
  · exact (registerFailure_account cfg s g.ip _ k g.now).trans (if_neg hne)

/-- A state with no user and one login flow. -/
def strangers (cfg : Config) : State := { stateAt cfg [] .password none with users := [] }

/-- A stranger's login counts under what was typed. -/
theorem loginSubmit_stranger (cfg : Config) (typed : List Char) :
    (loginSubmit cfg (strangers cfg) ordinaryForm typed []).1.throttle .account
      (accountKey cfg typed) ≠ none := by
  have hflow : getValidFlow (strangers cfg) ordinaryForm true =
      some (0, ⟨cfg.sha256Hex [], [], .password, none, none, false, none, 0, 1⟩) := by rfl
  have hcsrf : verifyFlowCsrf cfg ⟨cfg.sha256Hex [], [], .password, none, none, false, none, 0, 1⟩
      ordinaryForm.csrf = true := by simp [verifyFlowCsrf, ordinaryForm]
  have hcheck : ((strangers cfg).check ordinaryForm.ip (accountKey cfg typed)
      ordinaryForm.now).allowed = true := by rfl
  have hnobody : userByEmail cfg (strangers cfg) (accountKey cfg typed) = none := by rfl
  have hcounted : (loginSubmit cfg (strangers cfg) ordinaryForm typed []).1.throttle .account
      (accountKey cfg typed) = ((strangers cfg).registerFailure cfg ordinaryForm.ip
        (accountKey cfg typed) ordinaryForm.now).throttle .account (accountKey cfg typed) := by
    simp only [loginSubmit, hflow, hcsrf, hcheck, hnobody, passwordFailure]
    rfl
  rw [hcounted, registerFailure_account, if_pos rfl]
  simp

/-- The login form and the gate of a resource keep their rows apart exactly when no email that is
typed is, in lower case, the key of the gate. -/
theorem separate_iff (cfg : Config) (id : List Char) (emails : List Char → Prop) :
    Separate cfg id emails ↔ ∀ typed, emails typed → accountKey cfg typed ≠ publicKey id := by
  constructor
  · intro h typed htyped hkey
    have hrow := h.logins (strangers cfg) [⟨ordinaryForm, typed, []⟩]
      (by simpa using htyped)
    rw [← hkey] at hrow
    exact loginSubmit_stranger cfg typed hrow
  · intro h
    refine ⟨fun s logins hlogins => ?_, fun s g resource typed hresource hid htyped => ?_⟩
    · exact afterLogins_row cfg s logins _ fun l hl => h l.typed (hlogins l hl)
    · exact gateSubmit_row cfg s g resource _ hresource (hid ▸ (h typed htyped).symm)

def sampleId : List Char := "5f0c9a3e-8d1b-4c55-9d33-6f1e2a7b4c10".toList

/-- Four logins that type the key of a gate, from one address. -/
def keyLogins : List LoginAttempt :=
  [1, 2, 3, 4].map fun now =>
    ⟨AdminSessions.sampleForm now 0, " PUBLIC:5F0C9A3E-8D1B-4C55-9D33-6F1E2A7B4C10".toList, []⟩

/-- A visitor at another address with the right password. -/
def sampleVisit : GateForm :=
  ⟨5, "203.0.113.9".toList, some ⟨sampleId, some "pw".toList⟩, "c".toList, "c".toList, "pw".toList⟩

/-- The gate turns the visitor away after the logins. -/
theorem gate_held_by_logins :
    ¬ (∀ id emails, Separate caselessConfig id emails) ∧
      (gateSubmit caselessConfig initial sampleVisit).2 = .admitted ∧
      (gateSubmit caselessConfig (afterLogins caselessConfig
        (step caselessConfig initial (.loginForm (AdminSessions.sampleForm 0 0) 0)) keyLogins)
          sampleVisit).2 = .form "Too many attempts. Wait a moment and try again." 429 2 := by
  refine ⟨fun h => ?_, by decide, by decide⟩
  have hrow := (h sampleId fun _ => True).logins (strangers caselessConfig)
    [⟨ordinaryForm, publicKey sampleId, []⟩] (by simp)
  have hkey : accountKey caselessConfig (publicKey sampleId) = publicKey sampleId := by decide
  exact loginSubmit_stranger caselessConfig (publicKey sampleId) (hkey ▸ hrow)

end Hyproxy.GateThrottle

import Hyproxy.Runs
import Mathlib.Data.Int.Notation
import Mathlib.Data.List.Basic
import Mathlib.Tactic.Common
import Mathlib.Tactic.SplitIfs

/-!
The hot reload of the certificate (`tlsconf`) beside a renewer that replaces the files. A reload
reads the certificate, reads the key, and then asks for the time of the certificate file, each as
one step; one reload runs at a time. Times of checks are nanoseconds; those of the file are only
compared.
-/
namespace Hyproxy.CertReload

open Runs (Along along_iff_prefixes)

/-- Where a reload stands, with what it has read. -/
inductive Phase (File : Type)
  | idle
  | readCert
  | readKey (cert : File)
  | stat (cert key : File)
  deriving Repr, DecidableEq

/-- The files with the times that the certificate file has had, and the reloader. -/
structure State (File : Type) where
  cert : File
  key : File
  mtime : ℕ
  mtimes : List ℕ
  cached : Option (File × File)
  certMtime : Option ℕ
  lastCheck : Option ℤ
  phase : Phase File
  deriving Repr, DecidableEq

inductive Event (File : Type)
  | replace (cert key : Option File) (mtime : ℕ)
  | getCertificate (now : ℤ) (statOk : Bool)
  | proceed (ok : Bool)
  deriving Repr, DecidableEq

variable {File : Type}

/-- The reloader is built by a first reload. -/
def newCertReloader (cert key : File) (mtime : ℕ) : State File where
  cert := cert
  key := key
  mtime := mtime
  mtimes := [mtime]
  cached := none
  certMtime := none
  lastCheck := none
  phase := .readCert

/-- Either file or both; the certificate file then has a time that it never had. -/
def replace (s : State File) (cert key : Option File) (mtime : ℕ) : State File :=
  if s.mtimes.contains mtime then s
  else
    { s with
      cert := cert.getD s.cert
      key := key.getD s.key
      mtime := mtime
      mtimes := mtime :: s.mtimes }

def checkDue (s : State File) (now : ℤ) : Bool :=
  match s.lastCheck with
  | none => true
  | some last => 1000000000 < now - last

/-- A call during a reload waits for it; a reloader that was not built has no calls. -/
def getCertificate (s : State File) (now : ℤ) (statOk : Bool) : State File :=
  match s.phase with
  | .idle =>
    if s.cached.isSome && checkDue s now then
      { s with
        lastCheck := some now
        phase := if statOk && s.certMtime != some s.mtime then .readCert else .idle }
    else s
  | _ => s

/-- One step of `reload`; any of them may fail, and so does a key of another certificate. -/
def reload (x509KeyPair : File → File → Bool) (s : State File) (ok : Bool) : State File :=
  match s.phase with
  | .idle => s
  | .readCert => { s with phase := if ok then .readKey s.cert else .idle }
  | .readKey cert =>
    { s with phase := if ok && x509KeyPair cert s.key then .stat cert s.key else .idle }
  | .stat cert key =>
    if ok then { s with cached := some (cert, key), certMtime := some s.mtime, phase := .idle }
    else { s with phase := .idle }

def step (x509KeyPair : File → File → Bool) (s : State File) : Event File → State File
  | .replace cert key mtime => replace s cert key mtime
  | .getCertificate now statOk => getCertificate s now statOk
  | .proceed ok => reload x509KeyPair s ok

/-- The last step of a reload that does not fail. -/
def Completes (s : State File) (e : Event File) : Prop :=
  ∃ cert key, s.phase = .stat cert key ∧ e = .proceed true

/-- A reloader that believes its pair current has the pair on disk, and no step but the last of a
reload that does not fail changes the pair. -/
structure Converged (x509KeyPair : File → File → Bool) (s : State File) : Prop where
  current : s.certMtime = some s.mtime → s.cached = some (s.cert, s.key)
  kept : ∀ e, ¬ Completes s e → (step x509KeyPair s e).cached = s.cached

/-- A reload ends with the pair that is on disk at its end. -/
def ReadsDisk (s : State File) (e : Event File) : Prop :=
  ∀ cert key, s.phase = .stat cert key → e = .proceed true → cert = s.cert ∧ key = s.key

/-! ### One step -/

theorem getCertificate_cases (s : State File) (now : ℤ) (statOk : Bool) :
    getCertificate s now statOk = s ∨
      s.phase = .idle ∧ getCertificate s now statOk =
        { s with
          lastCheck := some now
          phase := if statOk && s.certMtime != some s.mtime then .readCert else .idle } := by
  unfold getCertificate
  cases hphase : s.phase with
  | idle =>
    by_cases hdue : (s.cached.isSome && checkDue s now) = true
    · exact .inr ⟨rfl, if_pos hdue⟩
    · exact .inl (if_neg hdue)
  | readCert => exact .inl rfl
  | readKey cert => exact .inl rfl
  | stat cert key => exact .inl rfl

/-- A step replaces files, or completes a reload, or else leaves the files and the pair as they
are. -/
theorem step_cases (x509KeyPair : File → File → Bool) (s : State File) (e : Event File) :
    (∃ cert key mtime, mtime ∉ s.mtimes ∧ ¬ Completes s e ∧ step x509KeyPair s e =
      { s with cert := cert, key := key, mtime := mtime, mtimes := mtime :: s.mtimes }) ∨
    (∃ cert key, s.phase = .stat cert key ∧ e = .proceed true ∧ step x509KeyPair s e =
      { s with cached := some (cert, key), certMtime := some s.mtime, phase := .idle }) ∨
    ∃ lastCheck phase, ¬ Completes s e ∧
      step x509KeyPair s e = { s with lastCheck := lastCheck, phase := phase } := by
  cases e with
  | replace cert key mtime =>
    have hnot : ¬ Completes s (.replace cert key mtime) := fun ⟨_, _, _, h⟩ => by cases h
    rw [step, replace]
    split_ifs with hold
    · exact .inr (.inr ⟨s.lastCheck, s.phase, hnot, rfl⟩)
    · rw [List.contains_iff_mem] at hold
      exact .inl ⟨_, _, mtime, hold, hnot, rfl⟩
  | getCertificate now statOk =>
    have hnot : ¬ Completes s (.getCertificate now statOk) := fun ⟨_, _, _, h⟩ => by cases h
    rcases getCertificate_cases s now statOk with hstep | ⟨-, hstep⟩
    · exact .inr (.inr ⟨s.lastCheck, s.phase, hnot, hstep⟩)
    · exact .inr (.inr ⟨_, _, hnot, hstep⟩)
  | proceed ok =>
    have hnot : (∀ cert key, s.phase ≠ .stat cert key) → ¬ Completes s (.proceed ok) :=
      fun hphase ⟨cert, key, h, _⟩ => hphase cert key h
    rw [step, reload]
    split
    · rename_i hphase
      exact .inr (.inr ⟨s.lastCheck, s.phase, hnot (by simp [hphase]), rfl⟩)
    · rename_i hphase
      exact .inr (.inr ⟨s.lastCheck, _, hnot (by simp [hphase]), rfl⟩)
    · rename_i hphase
      exact .inr (.inr ⟨s.lastCheck, _, hnot (by simp [hphase]), rfl⟩)
    · rename_i cert key hphase
      cases ok with
      | true => exact .inr (.inl ⟨cert, key, hphase, rfl, rfl⟩)
      | false =>
        refine .inr (.inr ⟨s.lastCheck, .idle, ?_, rfl⟩)
        exact fun ⟨_, _, _, h⟩ => by cases h

theorem step_kept (x509KeyPair : File → File → Bool) (s : State File) (e : Event File)
    (h : ¬ Completes s e) : (step x509KeyPair s e).cached = s.cached := by
  rcases step_cases x509KeyPair s e with
    ⟨_, _, _, -, -, hstep⟩ | ⟨cert, key, hphase, he, -⟩ | ⟨_, _, -, hstep⟩
  · rw [hstep]
  · exact absurd ⟨cert, key, hphase, he⟩ h
  · rw [hstep]

/-! ### Runs -/

/-- The times of the files and of the pair are among those that the file has had. -/
structure Current (s : State File) : Prop where
  mtime : s.mtime ∈ s.mtimes
  certMtime : ∀ t ∈ s.certMtime, t ∈ s.mtimes
  cached : s.certMtime = some s.mtime → s.cached = some (s.cert, s.key)

theorem current_step (x509KeyPair : File → File → Bool) (s : State File) (e : Event File)
    (h : Current s) (hreads : ReadsDisk s e) : Current (step x509KeyPair s e) := by
  rcases step_cases x509KeyPair s e with
    ⟨cert, key, mtime, hfresh, -, hstep⟩ | ⟨cert, key, hphase, rfl, hstep⟩ | ⟨_, _, -, hstep⟩
  · rw [hstep]
    constructor
    · exact List.mem_cons_self
    · exact fun t ht => List.mem_cons_of_mem _ (h.certMtime t ht)
    · exact fun hsame => absurd (h.certMtime mtime hsame) hfresh
  · obtain ⟨hcert, hkey⟩ := hreads cert key hphase rfl
    rw [hstep]
    constructor
    · exact h.mtime
    · intro t ht
      obtain rfl := Option.some.inj ht
      exact h.mtime
    · intro _
      rw [hcert, hkey]
  · rw [hstep]
    exact ⟨h.mtime, h.certMtime, h.cached⟩

theorem readsDisk_of_converged (x509KeyPair : File → File → Bool) (s : State File)
    (e : Event File) (h : Converged x509KeyPair (step x509KeyPair s e)) : ReadsDisk s e := by
  rintro cert key hphase rfl
  have hstep : step x509KeyPair s (.proceed true) =
      { s with cached := some (cert, key), certMtime := some s.mtime, phase := .idle } := by
    rw [step, reload, hphase]
    rfl
  rw [hstep] at h
  have hpair := Option.some.inj (h.current rfl)
  exact Prod.mk.inj hpair

/-- The reloader converges all along a run exactly when every reload that completes ends with the
files that it has read. -/
theorem reload_converges (x509KeyPair : File → File → Bool) (cert key : File) (mtime : ℕ)
    (events : List (Event File)) :
    (∀ past, past <+: events → Converged x509KeyPair
      (past.foldl (step x509KeyPair) (newCertReloader cert key mtime))) ↔
      Along (step x509KeyPair) ReadsDisk (newCertReloader cert key mtime) events := by
  refine along_iff_prefixes Current (Converged x509KeyPair) ?_ ?_ ?_ ?_
  · constructor
    · exact List.mem_cons_self
    · exact fun t ht => absurd ht (by simp [newCertReloader])
    · exact fun h => absurd h (by simp [newCertReloader])
  · exact fun s h => ⟨h.cached, step_kept x509KeyPair s⟩
  · exact fun s e => current_step x509KeyPair s e
  · exact fun s e _ => readsDisk_of_converged x509KeyPair s e

/-- A reloader that believes its pair current keeps it until the files are replaced. -/
theorem kept_until_replaced (x509KeyPair : File → File → Bool) (s : State File)
    (events : List (Event File)) (hidle : s.phase = .idle) (hcurrent : s.certMtime = some s.mtime)
    (hevents : ∀ e ∈ events, ∀ cert key mtime, e ≠ .replace cert key mtime) :
    (events.foldl (step x509KeyPair) s).cached = s.cached := by
  induction events generalizing s with
  | nil => rfl
  | cons e rest ih =>
    obtain ⟨he, hrest⟩ := List.forall_mem_cons.mp hevents
    have hstep : ∃ lastCheck,
        step x509KeyPair s e = { s with lastCheck := lastCheck, phase := .idle } := by
      cases e with
      | replace cert key mtime => exact absurd rfl (he cert key mtime)
      | getCertificate now statOk =>
        rcases getCertificate_cases s now statOk with hstep | ⟨-, hstep⟩
        · exact ⟨s.lastCheck, by rw [step, hstep, ← hidle]⟩
        · refine ⟨some now, ?_⟩
          rw [step, hstep, hcurrent, bne_self_eq_false, Bool.and_false, if_neg (by decide)]
      | proceed ok =>
        have hsame : reload x509KeyPair s ok = s := by rw [reload, hidle]
        exact ⟨s.lastCheck, by rw [step, hsame, ← hidle]⟩
    obtain ⟨lastCheck, hstep⟩ := hstep
    rw [List.foldl_cons, hstep]
    exact ih { s with lastCheck := lastCheck, phase := .idle } rfl hcurrent hrest

/-- The files are replaced between the reading of the pair and the second look at the time. -/
def sampleEvents : List (Event ℕ) :=
  [.proceed true, .proceed true, .proceed true, .replace (some 2) (some 2) 20,
    .getCertificate 5000000000 true, .proceed true, .proceed true,
    .replace (some 3) (some 3) 30, .proceed true]

def sampleOutdated : State ℕ := sampleEvents.foldl (step (· == ·)) (newCertReloader 1 1 10)

/-- The reloader takes the second pair for the third. -/
theorem reload_outdated :
    sampleOutdated.certMtime = some sampleOutdated.mtime ∧ sampleOutdated.cached = some (2, 2) ∧
      (sampleOutdated.cert, sampleOutdated.key) = (3, 3) ∧
      ¬ Converged (· == ·) sampleOutdated := by
  have hcertMtime : sampleOutdated.certMtime = some sampleOutdated.mtime := by decide
  have hcached : sampleOutdated.cached = some (2, 2) := by decide
  have hdisk : (sampleOutdated.cert, sampleOutdated.key) = (3, 3) := by decide
  refine ⟨hcertMtime, hcached, hdisk, fun h => ?_⟩
  have hcurrent := h.current hcertMtime
  rw [hcached, hdisk] at hcurrent
  exact absurd hcurrent (by decide)

end Hyproxy.CertReload

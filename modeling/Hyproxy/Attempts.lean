import Mathlib.Tactic.Common
import Mathlib.Tactic.SplitIfs

/-!
Programs that read and write a state and may fail. A failure takes back what the program has
written. A rule for each way to put programs together says from which states the program fails
only as it is allowed to, and what holds of its result otherwise.
-/
namespace Hyproxy.Attempts

abbrev Attempt (σ ε : Type) := StateT σ (Except ε)

variable {σ ε α β : Type}

def Meets (P : σ → Prop) (m : Attempt σ ε α) (Q : α → σ → Prop) (allowed : ε → Prop) : Prop :=
  ∀ s, P s → match m.run s with
    | .ok (a, s') => Q a s'
    | .error e => allowed e

/-- The state after the program has been committed, or rolled back. -/
def settle (m : Attempt σ ε α) (s : σ) : σ :=
  match m.run s with
  | .ok (_, s') => s'
  | .error _ => s

variable {P R : σ → Prop} {Q Q' : α → σ → Prop} {allowed : ε → Prop}

theorem Meets.pure (a : α) (h : ∀ s, P s → Q a s) : Meets P (pure a : Attempt σ ε α) Q allowed :=
  h

theorem Meets.throw (e : ε) (h : allowed e) : Meets P (throw e : Attempt σ ε α) Q allowed :=
  fun _ _ => h

theorem Meets.modify (f : σ → σ) (Q : PUnit → σ → Prop) (h : ∀ s, P s → Q () (f s)) :
    Meets P (modify f : Attempt σ ε PUnit) Q allowed :=
  h

theorem Meets.get (Q : σ → σ → Prop) (h : ∀ s, P s → Q s s) :
    Meets P (get : Attempt σ ε σ) Q allowed :=
  h

theorem Meets.bind (m : Attempt σ ε α) (f : α → Attempt σ ε β) (Q : α → σ → Prop)
    (Q' : β → σ → Prop) (h : Meets P m Q allowed) (hf : ∀ a, Meets (Q a) (f a) Q' allowed) :
    Meets P (m >>= f) Q' allowed := by
  intro s hs
  have hm := h s hs
  rw [StateT.run_bind]
  cases hrun : m.run s with
  | error e =>
    rw [hrun] at hm
    exact hm
  | ok out =>
    rw [hrun] at hm
    exact hf out.1 out.2 hm

theorem Meets.weaken (m : Attempt σ ε α) (h : Meets P m Q allowed) (hpre : ∀ s, R s → P s)
    (hpost : ∀ a s, Q a s → Q' a s) : Meets R m Q' allowed := by
  intro s hs
  have hm := h s (hpre s hs)
  cases hrun : m.run s with
  | error e =>
    rw [hrun] at hm
    exact hm
  | ok out =>
    rw [hrun] at hm
    exact hpost out.1 out.2 hm

theorem Meets.ite (c : Prop) [Decidable c] (m n : Attempt σ ε α)
    (hm : c → Meets P m Q allowed) (hn : ¬ c → Meets P n Q allowed) :
    Meets P (if c then m else n) Q allowed := by
  split_ifs with hc
  · exact hm hc
  · exact hn hc

/-- A fact about the state is used in the program that runs from it. -/
theorem Meets.assume (m : Attempt σ ε α) (h : ∀ s, P s → Meets (· = s) m Q allowed) :
    Meets P m Q allowed :=
  fun s hs => h s hs s rfl

theorem Meets.settle (m : Attempt σ ε α) (I : σ → Prop) (s : σ)
    (h : Meets P m (fun _ => I) allowed) (hs : P s) (hI : I s) : I (settle m s) := by
  have hm := h s hs
  unfold Attempts.settle
  cases hrun : m.run s with
  | error e => exact hI
  | ok out =>
    rw [hrun] at hm
    exact hm

theorem Meets.error (m : Attempt σ ε α) (s : σ) (e : ε) (h : Meets P m Q allowed) (hs : P s)
    (hrun : m.run s = .error e) : allowed e := by
  have hm := h s hs
  rw [hrun] at hm
  exact hm

end Hyproxy.Attempts

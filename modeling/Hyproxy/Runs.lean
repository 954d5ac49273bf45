import Mathlib.Data.Nat.Notation

/-!
Runs of a system given by a step function. A run is a list of events; a guard
says what a step may rely on in the state before it. An invariant that every
guarded step keeps holds at the end of every guarded run, also when it speaks
of the events that led there.
-/

namespace Hyproxy.Runs

universe u v

variable {σ : Type u} {ε : Type v}

/-- Every event of the run meets the guard in the state that it finds. -/
def Along (step : σ → ε → σ) (guard : σ → ε → Prop) : σ → List ε → Prop
  | _, [] => True
  | s, e :: rest => guard s e ∧ Along step guard (step s e) rest

instance decidableAlong (step : σ → ε → σ) (guard : σ → ε → Prop)
    [hguard : ∀ s e, Decidable (guard s e)] :
    ∀ s events, Decidable (Along step guard s events)
  | _, [] => isTrue trivial
  | s, e :: rest =>
    match hguard s e, decidableAlong step guard (step s e) rest with
    | isTrue he, isTrue hrest => isTrue ⟨he, hrest⟩
    | isFalse he, _ => isFalse fun h => he h.1
    | _, isFalse hrest => isFalse fun h => hrest h.2

theorem along_append (step : σ → ε → σ) (guard : σ → ε → Prop) (s : σ) (left right : List ε) :
    Along step guard s (left ++ right) ↔
      Along step guard s left ∧ Along step guard (left.foldl step s) right := by
  induction left generalizing s with
  | nil => simp [Along]
  | cons e left ih => rw [List.cons_append, Along, Along, ih, List.foldl_cons, and_assoc]

theorem along_take (step : σ → ε → σ) (guard : σ → ε → Prop) (s : σ) (events : List ε) (n : ℕ)
    (h : Along step guard s events) : Along step guard s (events.take n) := by
  rw [← List.take_append_drop n events] at h
  exact ((along_append step guard s _ _).mp h).1

theorem along_and (step : σ → ε → σ) (left right : σ → ε → Prop) (s : σ) (events : List ε)
    (hleft : Along step left s events) (hright : Along step right s events) :
    Along step (fun s e => left s e ∧ right s e) s events := by
  induction events generalizing s with
  | nil => trivial
  | cons e rest ih => exact ⟨⟨hleft.1, hright.1⟩, ih (step s e) hleft.2 hright.2⟩

/-- A run is guarded when the guard holds wherever the run is cut before an event. -/
theorem along_iff_cut (step : σ → ε → σ) (guard : σ → ε → Prop) (s : σ) (events : List ε) :
    Along step guard s events ↔
      ∀ past e rest, events = past ++ e :: rest → guard (past.foldl step s) e := by
  constructor
  · rintro h past e rest rfl
    exact ((along_append step guard s past (e :: rest)).mp h).2.1
  · intro h
    induction events generalizing s with
    | nil => trivial
    | cons e events ih =>
      refine ⟨h [] e events rfl, ih (step s e) fun past e' rest heq => ?_⟩
      exact h (e :: past) e' rest (by rw [heq, List.cons_append])

theorem along_of_forall {step : σ → ε → σ} {guard : σ → ε → Prop} (s : σ) (events : List ε)
    (h : ∀ s, ∀ e ∈ events, guard s e) : Along step guard s events := by
  induction events generalizing s with
  | nil => trivial
  | cons e rest ih =>
    exact ⟨h s e (List.mem_cons_self ..),
      ih _ fun s e he => h s e (List.mem_cons_of_mem _ he)⟩

/-- The invariant rule. -/
theorem Along.invariant {step : σ → ε → σ} {guard : σ → ε → Prop} {s : σ} {events : List ε}
    (I : σ → Prop) (hstart : I s) (hstep : ∀ s e, I s → guard s e → I (step s e))
    (h : Along step guard s events) : I (events.foldl step s) := by
  induction events generalizing s with
  | nil => exact hstart
  | cons e rest ih => exact ih (hstep s e hstart h.1) h.2

/-- A guard is exact for a property when a step from an invariant state keeps the invariant under
the guard and loses the property without it: then the property holds all along a run exactly when
the run is guarded. -/
theorem along_iff_prefixes {step : σ → ε → σ} {guard : σ → ε → Prop} {s : σ} {events : List ε}
    (I P : σ → Prop) (hstart : I s) (hproperty : ∀ s, I s → P s)
    (hstep : ∀ s e, I s → guard s e → I (step s e))
    (hexact : ∀ s e, I s → P (step s e) → guard s e) :
    (∀ past, past <+: events → P (past.foldl step s)) ↔ Along step guard s events := by
  constructor
  · intro h
    induction events generalizing s with
    | nil => trivial
    | cons e rest ih =>
      have he := hexact s e hstart (h [e] ⟨rest, rfl⟩)
      refine ⟨he, ih (hstep s e hstart he) fun past hpast => h (e :: past) ?_⟩
      exact List.cons_prefix_cons.mpr ⟨rfl, hpast⟩
  · rintro h past ⟨rest, rfl⟩
    exact hproperty _ (((along_append step guard s past rest).mp h).1.invariant I hstart hstep)

/-- The same, with the parts of the run by their lengths. -/
theorem along_iff_takes {step : σ → ε → σ} {guard : σ → ε → Prop} {s : σ} {events : List ε}
    (I P : σ → Prop) (hstart : I s) (hproperty : ∀ s, I s → P s)
    (hstep : ∀ s e, I s → guard s e → I (step s e))
    (hexact : ∀ s e, I s → P (step s e) → guard s e) :
    (∀ n, P ((events.take n).foldl step s)) ↔ Along step guard s events := by
  rw [← along_iff_prefixes I P hstart hproperty hstep hexact]
  constructor
  · intro h past hpast
    rw [List.prefix_iff_eq_take.mp hpast]
    exact h past.length
  · exact fun h n => h (events.take n) (List.take_prefix n events)

/-- The invariant rule for statements about the events so far. -/
theorem Along.history {step : σ → ε → σ} {guard : σ → ε → Prop} {s : σ} {events : List ε}
    (I : List ε → σ → Prop) (hstart : I [] s)
    (hstep : ∀ past s e, I past s → guard s e → I (past ++ [e]) (step s e))
    (h : Along step guard s events) : I events (events.foldl step s) := by
  suffices hmore : ∀ past s, I past s → Along step guard s events →
      I (past ++ events) (events.foldl step s) from hmore [] s hstart h
  clear hstart h s
  induction events with
  | nil =>
    intro past s hpast _
    simpa using hpast
  | cons e rest ih =>
    intro past s hpast hrun
    have hrest := ih (past ++ [e]) (step s e) (hstep past s e hpast hrun.1) hrun.2
    simpa using hrest

/-- What is there at the end of a run was there at its start, or an event of the run has brought
it. -/
theorem origin_or {α : Type*} (step : σ → ε → σ) (I : σ → Prop) (Holds : σ → α → Prop)
    (Brings : σ → ε → α → Prop) (hinv : ∀ s e, I s → I (step s e))
    (hstep : ∀ s e a, I s → Holds (step s e) a → Holds s a ∨ Brings s e a) (s : σ)
    (events : List ε) (a : α) (hstart : I s) (h : Holds (events.foldl step s) a) :
    Holds s a ∨ ∃ past e rest, events = past ++ e :: rest ∧ Brings (past.foldl step s) e a := by
  induction events generalizing s with
  | nil => exact Or.inl h
  | cons e events ih =>
    rcases ih (step s e) (hinv s e hstart) h with hthere | ⟨past, e', rest, rfl, hbrings⟩
    · exact (hstep s e a hstart hthere).imp_right fun hbrings => ⟨[], e, events, rfl, hbrings⟩
    · exact Or.inr ⟨e :: past, e', rest, rfl, hbrings⟩

end Hyproxy.Runs

import Hyproxy.Tasks
import Mathlib.Data.Int.Order.Basic
import Mathlib.Data.List.Induction
import Mathlib.Logic.Function.Basic

/-!
The slots for streams of the RTSP bridge. A connect is a task; it takes a slot of its user before
it runs the stream and gives it back when the stream has ended, both under one lock. The lock is
also held while a refusal is sent.
-/
namespace Hyproxy.StreamSlots

open Tasks

abbrev Text := List Char

/-- What the bridge reads from the payload of a token to find the slot. -/
structure Stream where
  userId : Option Text
  deriving Repr, DecidableEq

/-- `decryptToken` is none for a token that is forged, or sealed with another key. -/
structure Settings where
  rtspCypherKey : Text
  rtspMaxStreamsPerUser : ℤ
  decryptToken : Text → Option Stream

/-- `_active` and whether `_active_lock` is locked. -/
structure Slots where
  active : Text → Option ℤ
  locked : Bool

/-- The two waits of `_fail`. -/
inductive Failing
  | send
  | close
  deriving Repr, DecidableEq

/-- Where `_serve_stream` waits. -/
inductive Point
  | accept (token : Text)
  | reject (wait : Failing)
  | acquire (user : Text)
  | refuse (wait : Failing)
  | running (user : Text)
  | release (user : Text)
  deriving Repr, DecidableEq

/-- What comes of a wait. While `_run_stream` goes on, it waits again; it may also return or
raise, wherever it waits. -/
inductive Outcome
  | goesOn
  | returns
  | raises
  deriving Repr, DecidableEq

def Stream.user (stream : Stream) : Text := stream.userId.getD []

/-- From the admission on, when the lock is free. -/
def takeSlot (cfg : Settings) (slots : Slots) (user : Text) : Slots × Option Point :=
  if cfg.rtspMaxStreamsPerUser ≤ (slots.active user).getD 0 then
    (⟨slots.active, true⟩, some (.refuse .send))
  else
    (⟨Function.update slots.active user (some ((slots.active user).getD 0 + 1)), false⟩,
      some (.running user))

def acquire (cfg : Settings) (slots : Slots) (user : Text) : Slots × Option Point :=
  if slots.locked then (slots, some (.acquire user)) else takeSlot cfg slots user

def released (active : Text → Option ℤ) (user : Text) : Text → Option ℤ :=
  let remaining := (active user).getD 1 - 1
  Function.update active user (if 0 < remaining then some remaining else none)

/-- The `finally` of `_serve_stream`. -/
def release (slots : Slots) (user : Text) : Slots × Option Point :=
  if slots.locked then (slots, some (.release user))
  else (⟨released slots.active user, false⟩, none)

/-- After `ws.accept()` -/
def accepted (cfg : Settings) (slots : Slots) (token : Text) : Slots × Option Point :=
  if cfg.rtspCypherKey = [] ∨ token = [] then (slots, some (.reject .send))
  else
    match cfg.decryptToken token with
    | none => (slots, some (.reject .send))
    | some stream => acquire cfg slots stream.user

/-- Exceptions are suppressed while a failure is told. -/
def resume (cfg : Settings) (slots : Slots) : Point → Outcome → Slots × Option Point
  | .accept _, .raises => (slots, none)
  | .accept token, _ => accepted cfg slots token
  | .reject .send, _ => (slots, some (.reject .close))
  | .reject .close, _ => (slots, none)
  | .acquire user, _ => acquire cfg slots user
  | .refuse .send, _ => (slots, some (.refuse .close))
  | .refuse .close, _ => (⟨slots.active, false⟩, none)
  | .running user, .goesOn => (slots, some (.running user))
  | .running user, _ => release slots user
  | .release user, _ => release slots user

def program (cfg : Settings) : Program Slots Text Outcome Point where
  start slots token := (slots, some (.accept token))
  resume := resume cfg

abbrev Bridge := System Slots Point

def after (cfg : Settings) (events : List (Event Text Outcome)) : Bridge :=
  events.foldl (step (program cfg)) ⟨⟨fun _ => none, false⟩, [], 0⟩

/-- The stream has been admitted and has not given its slot back. -/
def holds (user : Text) : Point → Bool
  | .running other => other == user
  | .release other => other == user
  | _ => false

def admitted (s : Bridge) (user : Text) : ℕ := s.tasks.countP fun task => holds user task.point

/-! ### One turn -/

/-- What a turn from a point does to the slots. -/
inductive Turn (cfg : Settings) (slots : Slots) (p : Point) : Slots × Option Point → Prop
  | same (locked : Bool) (next : Option Point)
      (hsame : ∀ user, next.any (holds user) = holds user p) :
    Turn cfg slots p (⟨slots.active, locked⟩, next)
  | take (user : Text) (hfree : ∀ other, holds other p = false)
      (hroom : (slots.active user).getD 0 < cfg.rtspMaxStreamsPerUser) :
    Turn cfg slots p
      (⟨Function.update slots.active user (some ((slots.active user).getD 0 + 1)), false⟩,
        some (.running user))
  | give (user : Text) (hheld : ∀ other, holds other p = (user == other)) :
    Turn cfg slots p (⟨released slots.active user, false⟩, none)

theorem acquire_turn (cfg : Settings) (slots : Slots) (p : Point) (user : Text)
    (hfree : ∀ other, holds other p = false) : Turn cfg slots p (acquire cfg slots user) := by
  unfold acquire takeSlot
  split_ifs with hlocked hfull
  · exact .same slots.locked _ fun other => (hfree other).symm
  · exact .same true _ fun other => (hfree other).symm
  · exact .take user hfree (lt_of_not_ge hfull)

theorem release_turn (cfg : Settings) (slots : Slots) (p : Point) (user : Text)
    (hheld : ∀ other, holds other p = (user == other)) :
    Turn cfg slots p (release slots user) := by
  unfold release
  split_ifs with hlocked
  · exact .same slots.locked _ fun other => (hheld other).symm
  · exact .give user hheld

theorem resume_turn (cfg : Settings) (slots : Slots) (p : Point) (outcome : Outcome) :
    Turn cfg slots p (resume cfg slots p outcome) := by
  have hkeep : ∀ next : Option Point, (∀ user, next.any (holds user) = holds user p) →
      Turn cfg slots p (slots, next) := fun next h => .same slots.locked next h
  cases p with
  | accept token =>
    have haccepted : Turn cfg slots (.accept token) (accepted cfg slots token) := by
      unfold accepted
      split_ifs
      · exact hkeep _ fun _ => rfl
      · split
        · exact hkeep _ fun _ => rfl
        · exact acquire_turn cfg slots _ _ fun _ => rfl
    cases outcome with
    | raises => exact hkeep _ fun _ => rfl
    | goesOn | returns => exact haccepted
  | reject wait =>
    cases wait with
    | send | close => exact hkeep _ fun _ => rfl
  | acquire user => exact acquire_turn cfg slots _ user fun _ => rfl
  | refuse wait =>
    cases wait with
    | send => exact hkeep _ fun _ => rfl
    | close => exact .same false _ fun _ => rfl
  | running user =>
    cases outcome with
    | goesOn => exact hkeep _ fun _ => rfl
    | returns | raises => exact release_turn cfg slots _ user fun _ => rfl
  | release user => exact release_turn cfg slots _ user fun _ => rfl

/-! ### All turns -/

/-- What `_active` has for a user with so many streams. -/
def entry (streams : ℕ) : Option ℤ := if streams = 0 then none else some streams

theorem entry_getD (streams : ℕ) : (entry streams).getD 0 = streams := by
  unfold entry
  split_ifs with h
  · simp [h]
  · rfl

theorem entry_some (streams : ℕ) (n : ℤ) (h : entry streams = some n) : n = streams ∧ 0 < n := by
  unfold entry at h
  split_ifs at h with hnone
  obtain rfl := Option.some.inj h
  omega

structure Counted (cfg : Settings) (s : Bridge) : Prop where
  active : ∀ user, s.shared.active user = entry (admitted s user)
  bound : ∀ user streams, s.shared.active user = some streams →
    streams ≤ cfg.rtspMaxStreamsPerUser

theorem released_entry (active : Text → Option ℤ) (user : Text) (streams : ℕ)
    (h : active user = entry (streams + 1)) : released active user user = entry streams := by
  have hentry : entry (streams + 1) = some ((streams : ℤ) + 1) := by simp [entry]
  rw [released, h, hentry, Function.update_self]
  by_cases hnone : streams = 0
  · simp [entry, hnone]
  · have hpos : 0 < streams := Nat.pos_of_ne_zero hnone
    simp [entry, hnone]

theorem admitted_settle (s : Bridge) (x : Waiting Point) (hx : x ∈ s.tasks)
    (hnodup : (s.tasks.map Waiting.id).Nodup) (shared : Slots) (next : Option Point)
    (number : ℕ) (user : Text) :
    admitted ⟨shared, settle s.tasks x.id next, number⟩ user + (if holds user x.point then 1 else 0)
      = admitted s user + (if next.any (holds user) then 1 else 0) := by
  have hcount := countP_settle s.tasks (fun task => holds user task.point) x next hx hnodup
  cases next with
  | none => exact hcount
  | some p => exact hcount

theorem counted_turn (cfg : Settings) (s : Bridge) (x : Waiting Point) (hx : x ∈ s.tasks)
    (hnodup : (s.tasks.map Waiting.id).Nodup) (h : Counted cfg s) (r : Slots × Option Point)
    (hturn : Turn cfg s.shared x.point r) : Counted cfg ⟨r.1, settle s.tasks x.id r.2, s.next⟩ := by
  have hcount := fun user => admitted_settle s x hx hnodup r.1 r.2 s.next user
  cases hturn with
  | same locked next hsame =>
    refine ⟨fun user => (h.active user).trans (congrArg entry ?_), h.bound⟩
    have huser := hcount user
    rw [hsame user] at huser
    exact (Nat.add_right_cancel huser).symm
  | take user hfree hroom =>
    have hold := h.active user
    rw [hold, entry_getD] at hroom hcount ⊢
    refine ⟨fun other => ?_, fun other streams hstreams => ?_⟩
    · have hother := hcount other
      rw [hfree other] at hother
      by_cases heq : other = user
      · subst heq
        have hmore : (some (Point.running other)).any (holds other) = true := by simp [holds]
        simp only [hmore, if_true, Bool.false_eq_true, if_false, Nat.add_zero] at hother
        rw [hother]
        simp [entry]
      · have hsame : (some (Point.running user)).any (holds other) = false := by
          simpa [holds] using Ne.symm heq
        simp only [hsame, Bool.false_eq_true, if_false, Nat.add_zero] at hother
        rw [hother]
        exact (Function.update_of_ne heq _ _).trans (h.active other)
    · dsimp only at hstreams
      by_cases heq : other = user
      · subst heq
        rw [Function.update_self] at hstreams
        obtain rfl := Option.some.inj hstreams
        omega
      · rw [Function.update_of_ne heq] at hstreams
        exact h.bound other streams hstreams
  | give user hheld =>
    have hreleased : ∀ other, other ≠ user →
        released s.shared.active user other = s.shared.active other :=
      fun other hne => Function.update_of_ne hne _ _
    have hentry : ∀ other, released s.shared.active user other =
        entry (admitted ⟨⟨released s.shared.active user, false⟩, settle s.tasks x.id none, s.next⟩
          other) := by
      intro other
      have hother := hcount other
      rw [hheld other] at hother
      by_cases heq : other = user
      · subst heq
        simp only [beq_self_eq_true, if_true, Option.any_none, Bool.false_eq_true, if_false,
          Nat.add_zero] at hother
        exact released_entry _ other _ ((h.active other).trans (congrArg entry hother.symm))
      · have hne : (user == other) = false := beq_eq_false_iff_ne.mpr (Ne.symm heq)
        simp only [hne, Option.any_none, Bool.false_eq_true, if_false, Nat.add_zero] at hother
        rw [hreleased other heq, h.active other]
        exact congrArg entry hother.symm
    refine ⟨hentry, fun other streams hstreams => ?_⟩
    by_cases heq : other = user
    · subst heq
      have hother := hcount other
      simp only [hheld other, beq_self_eq_true, if_true, Option.any_none, Bool.false_eq_true,
        if_false, Nat.add_zero] at hother
      obtain ⟨rfl, -⟩ := entry_some _ _ ((hentry other).symm.trans hstreams)
      have hold : s.shared.active other = some (admitted s other : ℤ) := by
        rw [h.active other, entry, if_neg (by omega)]
      have hbound := h.bound other _ hold
      omega
    · exact h.bound other streams ((hreleased other heq).symm.trans hstreams)

theorem counted_step (cfg : Settings) (s : Bridge) (e : Event Text Outcome)
    (hnodup : (s.tasks.map Waiting.id).Nodup) (h : Counted cfg s) :
    Counted cfg (step (program cfg) s e) := by
  have heffect := step_effect (program cfg) s e
  generalize step (program cfg) s e = s' at heffect
  cases heffect with
  | none => exact h
  | start token =>
    refine ⟨fun user => ?_, h.bound⟩
    have hsame : admitted ⟨s.shared, spawn s.tasks s.next (some (.accept token)), s.next + 1⟩ user =
        admitted s user := by
      simp [admitted, spawn, holds]
    exact (h.active user).trans (congrArg entry hsame.symm)
  | resume x outcome hx =>
    exact counted_turn cfg s x hx hnodup h _ (resume_turn cfg s.shared x.point outcome)

theorem counted_after (cfg : Settings) (events : List (Event Text Outcome)) :
    Distinct (after cfg events) ∧ ((after cfg events).tasks.map Waiting.id).Nodup ∧
      Counted cfg (after cfg events) := by
  induction events using List.reverseRecOn with
  | nil =>
    exact ⟨⟨by simp [after], by simp [after]⟩, by simp [after], fun _ => rfl, by simp [after]⟩
  | append_singleton past e ih =>
    obtain ⟨hdistinct, hnodup, hcounted⟩ := ih
    rw [after, List.foldl_append]
    exact ⟨distinct_step _ _ e hdistinct, nodup_step _ _ e hdistinct hnodup,
      counted_step cfg _ e hnodup hcounted⟩

/-- After any turns of any streams, the entry of a user is the number of the streams that have
been admitted and have not given their slots back. -/
theorem stream_slots (cfg : Settings) (events : List (Event Text Outcome)) (user : Text) :
    ((after cfg events).shared.active user).getD 0 = admitted (after cfg events) user ∧
      (∀ streams, (after cfg events).shared.active user = some streams →
        0 < streams ∧ streams ≤ cfg.rtspMaxStreamsPerUser) ∧
      (admitted (after cfg events) user = 0 → (after cfg events).shared.active user = none) := by
  have h := (counted_after cfg events).2.2
  have hactive := h.active user
  refine ⟨by rw [hactive, entry_getD], fun streams hstreams => ?_, fun hnone => ?_⟩
  · exact ⟨(entry_some _ _ (hactive.symm.trans hstreams)).2, h.bound user streams hstreams⟩
  · rw [hactive, hnone]
    rfl

end Hyproxy.StreamSlots

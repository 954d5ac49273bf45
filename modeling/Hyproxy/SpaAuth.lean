import Hyproxy.Runs
import Hyproxy.Tasks
import Mathlib.Data.Int.Notation
import Mathlib.Data.List.Nodup

/-!
The tokens of the admin page. Its functions share one variable that holds the
tokens, and give way to each other wherever they wait: for the key, the proof,
an answer, a body, or one another. A refresh reads the refresh token when it
sends its request and replaces it when the answer has come, so two that overlap
send the same token.
-/

namespace Hyproxy.SpaAuth

open Runs Tasks

/-- The tokens at hand; times count milliseconds. -/
structure Tokens where
  access : List Char
  refresh : Option (List Char)
  expiresAt : ℤ
  deriving Repr, DecidableEq

/-- The fields of an answer of the token endpoint that the page reads. -/
structure Data where
  accessToken : List Char
  refreshToken : Option (List Char)
  expiresIn : Option ℤ
  deriving Repr, DecidableEq

/-- The variable `tokens`, and what a run remembers: the refresh tokens sent, those stored, and
whether a refresh request has ended without a readable answer since the last were stored. -/
structure Page where
  tokens : Option Tokens
  sent : List (List Char)
  stored : List (List Char)
  unanswered : Bool
  deriving Repr, DecidableEq

/-- Who waits for an access token: the page, or `apiFetch` before its first or second try. -/
inductive Caller
  | page
  | first
  | second
  deriving Repr, DecidableEq

/-- Who waits for `refresh`: `getAccessToken`, or `forceRefresh` from the page or from
`apiFetch`. -/
inductive After
  | token (c : Caller)
  | forced
  | retried
  deriving Repr, DecidableEq

inductive Stage
  | key
  | proof
  | answer
  deriving Repr, DecidableEq

/-- Where a call waits. -/
inductive Point
  | key (k : After)
  | proof (k : After)
  | answer (k : After)
  | body (k : After)
  | refreshed (k : After) (ok : Bool)
  | login
  | gotToken (second : Bool)
  | send (second : Bool) (stage : Stage)
  deriving Repr, DecidableEq

/-- How a wait ends. -/
inductive Outcome
  | resolved
  | rejected
  | response (status : ℕ)
  | body (data : Data)
  deriving Repr, DecidableEq

inductive Call
  | getAccessToken
  | forceRefresh
  | apiFetch
  deriving Repr, DecidableEq

/-- The refresh token as the request's body spells it. -/
def Tokens.refreshText (t : Tokens) : List Char := t.refresh.getD "undefined".toList

def store (p : Page) (data : Data) (now : ℤ) : Page :=
  let t : Tokens :=
    { access := data.accessToken
      refresh := data.refreshToken
      expiresAt := now + data.expiresIn.getD 600 * 1000 - 30000 }
  { p with tokens := some t, stored := t.refreshText :: p.stored, unanswered := false }

/-- `refresh` up to its first wait; an empty refresh token counts as none. -/
def beginRefresh (p : Page) (k : After) : Point :=
  match p.tokens with
  | none => .refreshed k false
  | some t => if t.refresh.getD [] = [] then .refreshed k false else .key k

/-- An access token reaches who waits for it. -/
def deliver : Caller → Option Point
  | .page => none
  | .first => some (.gotToken false)
  | .second => some (.gotToken true)

/-- `getAccessToken` up to its first wait. -/
def beginGetAccessToken (p : Page) (c : Caller) (now : ℤ) : Option Point :=
  match p.tokens with
  | none => some (beginRefresh p (.token c))
  | some t => if now < t.expiresAt then deliver c else some (beginRefresh p (.token c))

/-- The request of a refresh goes out with the refresh token of the moment. -/
def sendRefresh (p : Page) (k : After) : Page × Option Point :=
  match p.tokens with
  | none => (p, none)
  | some t => ({ p with sent := t.refreshText :: p.sent }, some (.answer k))

/-- What follows in the caller when `refresh` has returned. -/
def afterRefresh (p : Page) (now : ℤ) : After → Bool → Option Point
  | .forced, _ => none
  | .token c, true => if p.tokens.isSome then deliver c else none
  | .token _, false => some .login
  | .retried, true => beginGetAccessToken p .second now
  | .retried, false => none

def isOk (status : ℕ) : Bool := decide (200 ≤ status) && decide (status < 300)

def start (p : Page) : Call × ℤ → Page × Option Point
  | (.getAccessToken, now) => (p, beginGetAccessToken p .page now)
  | (.forceRefresh, _) => (p, some (beginRefresh p .forced))
  | (.apiFetch, now) => (p, beginGetAccessToken p .first now)

/-- A call goes on where it waits; a wait that is rejected ends it. -/
def resume (p : Page) (point : Point) (o : Outcome × ℤ) : Page × Option Point :=
  match point, o.1 with
  | .key k, .resolved => (p, some (.proof k))
  | .proof k, .resolved => sendRefresh p k
  | .answer k, .response status =>
    if isOk status then (p, some (.body k))
    else ({ p with tokens := none }, some (.refreshed k false))
  | .answer _, .rejected => ({ p with unanswered := true }, none)
  | .body k, .body data => (store p data o.2, some (.refreshed k true))
  | .body _, .rejected => ({ p with unanswered := true }, none)
  | .refreshed k ok, .resolved => (p, afterRefresh p o.2 k ok)
  | .login, .resolved => (p, none)
  | .gotToken second, .resolved => (p, some (.send second .key))
  | .send second .key, .resolved => (p, some (.send second .proof))
  | .send second .proof, .resolved => (p, some (.send second .answer))
  | .send second .answer, .response status =>
    (p, if status = 401 ∧ second = false then some (beginRefresh p .retried) else none)
  | _, .rejected => (p, none)
  | _, _ => (p, some point)

def program : Program Page (Call × ℤ) (Outcome × ℤ) Point := ⟨start, resume⟩

abbrev State := System Page Point

abbrev PageEvent := Event (Call × ℤ) (Outcome × ℤ)

/-- The page after its sign-in. -/
def initial (tokens : Option Tokens) : State :=
  ⟨⟨tokens, [], tokens.toList.map Tokens.refreshText, false⟩, [], 0⟩

def after (tokens : Option Tokens) (events : List PageEvent) : State :=
  events.foldl (step program) (initial tokens)

/-- A refresh request is on its way, or its answer is being read. -/
def Point.inFlight : Point → Bool
  | .answer _ => true
  | .body _ => true
  | _ => false

/-- The token endpoint never gives a refresh token that it gave before. -/
def Fresh (s : State) : PageEvent → Prop
  | .resume _ (.body data, _) => data.refreshToken.getD "undefined".toList ∉ s.shared.stored
  | _ => True

/-- A refresh request goes out only when no other is on its way and the last has been answered. -/
def Alone (s : State) : PageEvent → Prop
  | .resume id (.resolved, _) =>
    (∃ x ∈ s.tasks, x.id = id ∧ ∃ k, x.point = .proof k) →
      s.shared.unanswered = false ∧ ∀ y ∈ s.tasks, y.point.inFlight = false
  | _ => True

/-- What a turn does to the page; a call whose request is on its way waits on in a quiet one. -/
inductive Turn (p : Page) (point : Point) (o : Outcome × ℤ) : Page → Option Point → Prop
  | quiet (r : Option Point)
      (hflight : point.inFlight = true → ∃ q, r = some q ∧ q.inFlight = true) :
    Turn p point o p r
  | send (k : After) (t : Tokens) (hpoint : point = .proof k) (ho : o.1 = .resolved)
      (ht : p.tokens = some t) :
    Turn p point o { p with sent := t.refreshText :: p.sent } (some (.answer k))
  | refuse (r : Option Point) : Turn p point o { p with tokens := none } r
  | lose (r : Option Point) : Turn p point o { p with unanswered := true } r
  | store (data : Data) (r : Option Point) (ho : o.1 = .body data) :
    Turn p point o (store p data o.2) r

theorem quiet_of_not_inFlight (p : Page) (point : Point) (o : Outcome × ℤ) (r : Option Point)
    (h : point.inFlight = false) : Turn p point o p r :=
  .quiet r fun hflight => by
    rw [h] at hflight
    cases hflight

theorem quiet_wait (p : Page) (point : Point) (o : Outcome × ℤ) : Turn p point o p (some point) :=
  .quiet _ fun hflight => ⟨point, rfl, hflight⟩

theorem resume_turn (p : Page) (point : Point) (o : Outcome × ℤ) :
    Turn p point o (resume p point o).1 (resume p point o).2 := by
  obtain ⟨outcome, now⟩ := o
  cases point with
  | proof k =>
    cases outcome with
    | resolved =>
      simp only [resume, sendRefresh]
      split
      · exact quiet_of_not_inFlight _ _ _ _ rfl
      · rename_i t ht
        exact .send k t rfl rfl ht
    | _ => exact quiet_of_not_inFlight _ _ _ _ rfl
  | answer k =>
    cases outcome with
    | rejected => exact .lose none
    | response status =>
      simp only [resume]
      split_ifs
      · exact .quiet _ fun _ => ⟨.body k, rfl, rfl⟩
      · exact .refuse _
    | _ => exact quiet_wait _ _ _
  | body k =>
    cases outcome with
    | rejected => exact .lose none
    | body data => exact .store data _ rfl
    | _ => exact quiet_wait _ _ _
  | send second stage =>
    cases stage <;> cases outcome <;> exact quiet_of_not_inFlight _ _ _ _ rfl
  | _ => cases outcome <;> exact quiet_of_not_inFlight _ _ _ _ rfl

/-- No refresh token was sent twice, and the one at hand was sent only if its request is still
on its way or went unanswered. -/
structure Inv (s : State) : Prop where
  distinct : Distinct s
  nodup : s.shared.sent.Nodup
  sent : ∀ v ∈ s.shared.sent, v ∈ s.shared.stored
  held : ∀ t ∈ s.shared.tokens, t.refreshText ∈ s.shared.stored
  spent : ∀ t ∈ s.shared.tokens, t.refreshText ∈ s.shared.sent →
    s.shared.unanswered = true ∨ ∃ y ∈ s.tasks, y.point.inFlight = true

theorem inv_initial (tokens : Option Tokens) : Inv (initial tokens) where
  distinct := ⟨by simp [initial], by simp [initial]⟩
  nodup := List.nodup_nil
  sent := by simp [initial]
  held := by
    intro t ht
    have ht : tokens = some t := ht
    simp [initial, ht]
  spent := by simp [initial]

theorem inv_resume (s : State) (x : Waiting Point) (o : Outcome × ℤ) (hmem : x ∈ s.tasks)
    (h : Inv s) (hfresh : Fresh s (.resume x.id o)) (halone : Alone s (.resume x.id o))
    (hdistinct : Distinct ⟨(resume s.shared x.point o).1,
      settle s.tasks x.id (resume s.shared x.point o).2, s.next⟩) :
    Inv ⟨(resume s.shared x.point o).1,
      settle s.tasks x.id (resume s.shared x.point o).2, s.next⟩ := by
  generalize hpage : (resume s.shared x.point o).1 = page at hdistinct ⊢
  generalize hpoint : (resume s.shared x.point o).2 = r at hdistinct ⊢
  have hturn := hpage ▸ hpoint ▸ resume_turn s.shared x.point o
  cases hturn with
  | quiet _ hflight =>
    refine ⟨hdistinct, h.nodup, h.sent, h.held, fun t ht hsent => ?_⟩
    refine (h.spent t ht hsent).imp_right ?_
    rintro ⟨y, hy, hyflight⟩
    by_cases hid : y.id = x.id
    · obtain rfl := h.distinct.inj y hy x hmem hid
      obtain ⟨q, rfl, hq⟩ := hflight hyflight
      exact ⟨_, settle_self s.tasks y q hmem, hq⟩
    · exact ⟨y, settle_of_mem _ _ _ y hy hid, hyflight⟩
  | send k t hproof ho ht =>
    obtain ⟨outcome, now⟩ := o
    cases ho
    obtain ⟨hanswered, hnone⟩ := halone ⟨x, hmem, rfl, k, hproof⟩
    have hnew : t.refreshText ∉ s.shared.sent := by
      intro hsent
      rcases h.spent t ht hsent with hlost | ⟨y, hy, hyflight⟩
      · rw [hanswered] at hlost
        cases hlost
      · rw [hnone y hy] at hyflight
        cases hyflight
    refine ⟨hdistinct, List.nodup_cons.mpr ⟨hnew, h.nodup⟩, ?_, h.held, ?_⟩
    · intro v hv
      rcases List.mem_cons.mp hv with rfl | hv
      · exact h.held t ht
      · exact h.sent v hv
    · intro _ _ _
      exact Or.inr ⟨_, settle_self s.tasks x _ hmem, rfl⟩
  | refuse =>
    refine ⟨hdistinct, h.nodup, h.sent, ?_, ?_⟩ <;>
      · intro t ht
        cases ht
  | lose => exact ⟨hdistinct, h.nodup, h.sent, h.held, fun _ _ _ => Or.inl rfl⟩
  | store data _ ho =>
    obtain ⟨outcome, now⟩ := o
    cases ho
    refine ⟨hdistinct, h.nodup, fun v hv => List.mem_cons_of_mem _ (h.sent v hv), ?_, ?_⟩
    · intro t ht
      obtain rfl := Option.some.inj ht
      exact List.mem_cons_self ..
    · intro t ht hsent
      obtain rfl := Option.some.inj ht
      exact absurd (h.sent _ hsent) hfresh

theorem inv_step (s : State) (e : PageEvent) (h : Inv s) (hfresh : Fresh s e) (halone : Alone s e) :
    Inv (step program s e) := by
  have hdistinct := distinct_step program s e h.distinct
  generalize ht : step program s e = s' at hdistinct ⊢
  have heffect := ht ▸ step_effect program s e
  cases heffect with
  | none => exact h
  | start i =>
    have hpage : (program.start s.shared i).1 = s.shared := by
      obtain ⟨call, now⟩ := i
      cases call <;> rfl
    rw [hpage] at hdistinct ⊢
    refine ⟨hdistinct, h.nodup, h.sent, h.held, fun t ht hsent => ?_⟩
    refine (h.spent t ht hsent).imp_right ?_
    rintro ⟨y, hy, hflight⟩
    exact ⟨y, spawn_of_mem _ _ _ y hy, hflight⟩
  | resume x o hmem => exact inv_resume s x o hmem h hfresh halone hdistinct

/-- In every run of calls whose refresh requests do not overlap and are answered, no refresh
token is sent twice. -/
theorem refresh_tokens_sent_once (tokens : Option Tokens) (events : List PageEvent)
    (hfresh : Along (step program) Fresh (initial tokens) events)
    (halone : Along (step program) Alone (initial tokens) events) :
    ∀ n, (after tokens (events.take n)).shared.sent.Nodup := by
  intro n
  have hboth := along_take _ _ _ _ n (along_and (step program) Fresh Alone _ _ hfresh halone)
  have hinv := hboth.invariant Inv (inv_initial tokens) fun s e h hguard =>
    inv_step s e h hguard.1 hguard.2
  exact hinv.nodup

instance (s : State) (e : PageEvent) : Decidable (Fresh s e) := by
  unfold Fresh
  split
  · rename_i data _
    exact decidable_of_iff
      (s.shared.stored.contains (data.refreshToken.getD "undefined".toList) = false) (by simp)
  · infer_instance

instance (s : State) (id : ℕ) : Decidable (∃ x ∈ s.tasks, x.id = id ∧ ∃ k, x.point = .proof k) :=
  decidable_of_iff (s.tasks.any fun x => x.id == id && match x.point with
    | .proof _ => true
    | _ => false) (by
    simp only [List.any_eq_true, Bool.and_eq_true, beq_iff_eq]
    refine exists_congr fun x => and_congr_right fun _ => and_congr_right fun _ => ?_
    cases x.point <;> simp)

instance (s : State) (e : PageEvent) : Decidable (Alone s e) := by
  unfold Alone
  split <;> infer_instance

def expired : Option Tokens := some ⟨['a'], some ['r'], 0⟩

/-- One call asks for an access token, and its refresh is answered with a new token. -/
def refreshes (id : ℕ) (newToken : Char) (now : ℤ) : List PageEvent :=
  [.start (.getAccessToken, now), .resume id (.resolved, now), .resume id (.resolved, now),
    .resume id (.response 200, now), .resume id (.body ⟨['a'], some [newToken], some 600⟩, now),
    .resume id (.resolved, now)]

theorem refresh_tokens_sent_once_sample :
    (after expired (refreshes 0 's' 1 ++ refreshes 1 't' 600000)).shared.sent = [['s'], ['r']] ∧
      (after expired ((refreshes 0 's' 1 ++ refreshes 1 't' 600000).take 12)).shared.sent.Nodup :=
  ⟨by decide, refresh_tokens_sent_once expired _ (by decide) (by decide) 12⟩

/-- Two calls find the access token expired, and each starts a refresh of its own. -/
def overlapping : List PageEvent :=
  [.start (.apiFetch, 1), .start (.apiFetch, 1), .resume 0 (.resolved, 1), .resume 1 (.resolved, 1),
    .resume 0 (.resolved, 1), .resume 1 (.resolved, 1)]

/-- The answer to a refresh is lost, and the next call starts another. -/
def answerLost : List PageEvent :=
  [.start (.getAccessToken, 1), .resume 0 (.resolved, 1), .resume 0 (.resolved, 1),
    .resume 0 (.rejected, 2), .start (.getAccessToken, 3), .resume 1 (.resolved, 3),
    .resume 1 (.resolved, 3)]

theorem refresh_token_sent_twice :
    (after expired overlapping).shared.sent = [['r'], ['r']] ∧
      (after expired answerLost).shared.sent = [['r'], ['r']] := by
  decide

end Hyproxy.SpaAuth

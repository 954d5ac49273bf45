import Hyproxy.ThrottleTransactions

/-!
What the rows of the throttle count. The ledger of a key lists its committed failures in
the order of their commits, and its committed resets, each where its DELETE has run. The
committed row is a function of the ledger: it counts the failures of the current window,
and the delay starts at the last one. A check decides by the rows that it has selected.
-/

namespace Hyproxy.ThrottleLedger

open Accounts RowLocks ThrottleTransactions

/-- A reset is known by the number of its call. -/
inductive Entry
  | failure (now : ℤ)
  | reset (t : ℕ)
  deriving Repr, DecidableEq

/-- What the commit of a failure puts into the ledger of a key. -/
def failures (x : Call) (k : Key) : List Entry :=
  match x.request, x.point with
  | .registerFailure ip account now, .answered _ =>
    if k ∈ keys ip account then [.failure now] else []
  | _, _ => []

/-- What the DELETE of a reset puts into it, unless it waits. -/
def deleted (s : Table) (x : Call) (k : Key) : List Entry :=
  match x.point with
  | .deleting k' =>
    match execute s x (.delete k' (.answered .reset)) with
    | .moves _ => if k' = k then [.reset x.id] else []
    | _ => []
  | _ => []

/-- What an event puts into the ledger; of the resets those count that are `done`. -/
def recorded (done : ℕ → Bool) (s : Table) (e : Event Request) (k : Key) : List Entry :=
  match e with
  | .commit t => (s.txn t).elim [] fun x => failures x k
  | .statement t => if done t then (s.txn t).elim [] fun x => deleted s x k else []
  | _ => []

def ledgerFrom (cfg : Config) (done : ℕ → Bool) (k : Key) : Table → List (Event Request) → List Entry
  | _, [] => []
  | s, e :: rest => recorded done s e k ++ ledgerFrom cfg done k (step (program cfg) s e) rest

/-- The ledger of a run, when these calls are the committed ones. -/
def ledgerWith (cfg : Config) (done : ℕ → Bool) (events : List (Event Request)) (k : Key) :
    List Entry :=
  ledgerFrom cfg done k (after cfg []) events

def committed (s : Table) (t : ℕ) : Bool := s.answers.any fun a => a.id == t

/-- The failures and the resets of a key that are committed in a run. -/
def ledger (cfg : Config) (events : List (Event Request)) (k : Key) : List Entry :=
  ledgerWith cfg (committed (after cfg events)) events k

theorem ledger_append (cfg : Config) (done : ℕ → Bool) (past : List (Event Request))
    (e : Event Request) (k : Key) : ledgerWith cfg done (past ++ [e]) k =
      ledgerWith cfg done past k ++ recorded done (after cfg past) e k := by
  have hfrom : ∀ s, ledgerFrom cfg done k s (past ++ [e]) =
      ledgerFrom cfg done k s past ++ recorded done (past.foldl (step (program cfg)) s) e k := by
    induction past with
    | nil => simp [ledgerFrom]
    | cons first past ih =>
      intro s
      simp only [List.cons_append, ledgerFrom, ih, List.append_assoc, List.foldl_cons]
  exact hfrom _

theorem committed_iff (s : Table) (t : ℕ) : committed s t = true ↔ ∃ a ∈ s.answers, a.id = t := by
  simp [committed]

/-! ### What a step puts into the ledger -/

theorem stand_answer (cfg : Config) (p : Point) (a : Answer) (h : stand cfg p = .inr a) :
    p = .answered a := by
  cases p with
  | answered b => rw [Sum.inr.inj h]
  | inserting now k rest => cases h
  | locking now k rest => cases h
  | updating now k row rest => cases h
  | deleting k => cases h
  | reading now worst k rest => cases h

theorem failures_unanswered (cfg : Config) (x : Call) (q : Statement Key AuthThrottle Point)
    (k : Key) (h : stand cfg x.point = .inl q) : failures x k = [] := by
  unfold failures
  split
  · rename_i hpoint
    rw [hpoint] at h
    cases h
  · rfl

theorem deleted_other (s : Table) (x : Call) (k : Key) (h : ∀ k', x.point ≠ .deleting k') :
    deleted s x k = [] := by
  unfold deleted
  split
  · rename_i k' hpoint
    exact absurd hpoint (h k')
  · rfl

/-- A step with its entries. -/
inductive Records (cfg : Config) (done : ℕ → Bool) (s : Table) (k : Key) :
    Event Request → Table → List Entry → Prop
  | wait (e : Event Request) : Records cfg done s k e s.wait []
  | arrive (request : Request) : Records cfg done s k (.arrive request)
      { s.wait with txns := opened (program cfg) s.serial request :: s.txns } []
  | deletes (x y : Call) (k' : Key) (hmem : x ∈ s.txns) (hpoint : x.point = .deleting k')
      (hmoves : execute s x (.delete k' (.answered .reset)) = .moves y) :
      Records cfg done s k (.statement x.id) { s.wait with txns := s.put y }
        (if done x.id = true ∧ k' = k then [.reset x.id] else [])
  | moves (x y : Call) (q : Statement Key AuthThrottle Point) (hmem : x ∈ s.txns)
      (hother : ∀ k', x.point ≠ .deleting k') (hstand : stand cfg x.point = .inl q)
      (hmoves : execute s x q = .moves y) :
      Records cfg done s k (.statement x.id) { s.wait with txns := s.put y } []
  | drops (e : Event Request) (t : ℕ) : Records cfg done s k e { s.wait with txns := s.drop t } []
  | commit (x : Call) (a : Answer) (hmem : x ∈ s.txns) (hpoint : x.point = .answered a) :
      Records cfg done s k (.commit x.id)
        ⟨x.view s.rows, s.drop x.id, s.answers ++ [⟨x.id, x.request, a⟩], s.serial + 1⟩
        (failures x k)

theorem records_statement (cfg : Config) (done : ℕ → Bool) (s : Table) (x : Call) (k : Key)
    (htxn : s.txn x.id = some x) (q : Statement Key AuthThrottle Point)
    (hstand : stand cfg x.point = .inl q) :
    Records cfg done s k (.statement x.id) (step (program cfg) s (.statement x.id))
      (if done x.id then deleted s x k else []) := by
  obtain ⟨hmem, -⟩ := txn_some s x.id x htxn
  have hprogram : (program cfg).stand x.point = .inl q := hstand
  simp only [step, htxn, hprogram]
  by_cases hdeleting : ∃ k', x.point = .deleting k'
  · obtain ⟨k', hpoint⟩ := hdeleting
    rw [hpoint] at hstand
    obtain rfl := Sum.inl.inj hstand
    simp only [deleted, hpoint]
    cases hmoves : execute s x (.delete k' (.answered .reset)) with
    | waits => simpa using Records.wait (.statement x.id)
    | raises => simpa using Records.drops (.statement x.id) x.id
    | moves y =>
      have hentries : (if done x.id then (if k' = k then [Entry.reset x.id] else []) else []) =
          if done x.id = true ∧ k' = k then [.reset x.id] else [] := by
        by_cases hdone : done x.id = true <;> simp [hdone]
      simp only [hentries]
      exact .deletes x y k' hmem hpoint hmoves
  · have hother : ∀ k', x.point ≠ .deleting k' := fun k' hpoint => hdeleting ⟨k', hpoint⟩
    rw [deleted_other s x k hother, ite_self]
    cases hmoves : execute s x q with
    | waits => exact .wait _
    | raises => exact .drops _ x.id
    | moves y => exact .moves x y q hmem hother hstand hmoves

theorem records_step (cfg : Config) (done : ℕ → Bool) (s : Table) (e : Event Request) (k : Key) :
    Records cfg done s k e (step (program cfg) s e) (recorded done s e k) := by
  cases e with
  | arrive request => exact .arrive request
  | rollback t => exact .drops _ t
  | statement t =>
    simp only [recorded]
    cases hx : s.txn t with
    | none => simpa [step, hx] using Records.wait (.statement t)
    | some x =>
      obtain ⟨-, rfl⟩ := txn_some s t x hx
      simp only [Option.elim_some]
      cases hstand : (program cfg).stand x.point with
      | inl q => exact records_statement cfg done s x k hx q hstand
      | inr a =>
        have hpoint := stand_answer cfg x.point a hstand
        rw [deleted_other s x k (by simp [hpoint]), ite_self]
        simp only [step, hx, hstand]
        exact .wait _
  | commit t =>
    simp only [step, recorded]
    cases hx : s.txn t with
    | none => exact .wait _
    | some x =>
      obtain ⟨hmem, rfl⟩ := txn_some s t x hx
      simp only [Option.elim_some]
      cases hstand : (program cfg).stand x.point with
      | inl q =>
        rw [failures_unanswered cfg x q k hstand]
        exact .wait _
      | inr a => exact .commit x a hmem (stand_answer cfg x.point a hstand)

/-! ### The row is a function of the ledger -/

def replayStep (cfg : Config) (scope : Scope) (row : Option AuthThrottle) :
    Entry → Option AuthThrottle
  | .failure now => some (failedRow cfg scope now row)
  | .reset _ => none

def replay (cfg : Config) (scope : Scope) (log : List Entry) : Option AuthThrottle :=
  log.foldl (replayStep cfg scope) none

/-- The call is a reset of the key. -/
def resets (k : Key) : Request → Bool
  | .resetAccount account => k == (.account, account)
  | _ => false

theorem resets_inj {k k' : Key} {request : Request} (h : resets k request = true)
    (h' : resets k' request = true) : k = k' := by
  cases request with
  | resetAccount account =>
    rw [resets, beq_iff_eq] at h h'
    exact h.trans h'.symm
  | registerFailure ip account now => cases h
  | check ip account now => cases h

def Entry.resetBy : Entry → Option ℕ
  | .reset t => some t
  | .failure _ => none

/-- A call stands at its answer or deletes no row. -/
theorem reset_of_deletes {cfg : Config} {rows : Key → Option AuthThrottle} {x : Call}
    (h : Stands cfg rows x) (k : Key) (hhold : x.holds k = some (.wrote none)) :
    resets k x.request = true ∧ x.point = .answered .reset := by
  have hcounted : ∀ now done k', x.holds k' = countedHold cfg rows now done k' → k' ≠ k := by
    rintro now done k' hk rfl
    rw [hhold, countedHold] at hk
    split_ifs at hk
    cases hk
  cases h with
  | inserting ip account now done k' rest _ _ _ hholds =>
    exact absurd rfl (hcounted now done k (hholds k))
  | locking ip account now done k' rest _ _ _ hothers hown =>
    by_cases hk : k = k'
    · subst hk
      rw [hhold] at hown
      rcases hown with habsurd | ⟨habsurd, -⟩ <;> cases habsurd
    · exact absurd rfl (hcounted now done k (hothers k hk))
  | updating ip account now done k' row rest _ _ _ hothers _ hview _ =>
    by_cases hk : k = k'
    · subst hk
      rw [view_of_wrote x rows k none hhold] at hview
      cases hview
    · exact absurd rfl (hcounted now done k (hothers k hk))
  | registered ip account now _ _ hholds => exact absurd rfl (hcounted now _ k (hholds k))
  | deleting account _ _ hholds =>
    rw [hholds k] at hhold
    cases hhold
  | reset account hrequest hpoint hothers _ =>
    refine ⟨?_, hpoint⟩
    rw [hrequest, resets, beq_iff_eq]
    by_contra hk
    rw [hothers k hk] at hhold
    cases hhold
  | reading ip account now worst k' rest _ _ hholds =>
    rw [hholds k] at hhold
    cases hhold
  | decided ip account now decision _ _ hholds =>
    rw [hholds k] at hhold
    cases hhold

/-- A reset stands at its DELETE or at its answer. -/
theorem point_of_resets {cfg : Config} {rows : Key → Option AuthThrottle} {x : Call}
    (h : Stands cfg rows x) (k : Key) (hresets : resets k x.request = true) :
    x.point = .deleting k ∨ x.point = .answered .reset := by
  cases h with
  | deleting account hrequest hpoint _ =>
    rw [hrequest, resets, beq_iff_eq] at hresets
    exact .inl (hresets ▸ hpoint)
  | reset account _ hpoint => exact .inr hpoint
  | inserting ip account now done k' rest hrequest => simp [hrequest, resets] at hresets
  | locking ip account now done k' rest hrequest => simp [hrequest, resets] at hresets
  | updating ip account now done k' row rest hrequest => simp [hrequest, resets] at hresets
  | registered ip account now hrequest => simp [hrequest, resets] at hresets
  | reading ip account now worst k' rest hrequest => simp [hrequest, resets] at hresets
  | decided ip account now decision hrequest => simp [hrequest, resets] at hresets

theorem resets_of_deleting {cfg : Config} {rows : Key → Option AuthThrottle} {x : Call}
    (h : Stands cfg rows x) (k : Key) (hpoint : x.point = .deleting k) :
    resets k x.request = true ∧ x.holds k = none := by
  cases h with
  | deleting account hrequest hother hholds =>
    obtain rfl := Point.deleting.inj (hpoint.symm.trans hother)
    exact ⟨by rw [hrequest, resets, beq_self_eq_true], hholds _⟩
  | inserting ip account now done k' rest _ _ hother => simp [hpoint] at hother
  | locking ip account now done k' rest _ _ hother => simp [hpoint] at hother
  | updating ip account now done k' row rest _ _ hother => simp [hpoint] at hother
  | registered ip account now _ hother => simp [hpoint] at hother
  | reset account _ hother => simp [hpoint] at hother
  | reading ip account now worst k' rest _ hother => simp [hpoint] at hother
  | decided ip account now decision _ hother => simp [hpoint] at hother

/-- What the commit of a call makes of a row is what its entries make of it, unless the call has
deleted the row. -/
theorem view_failures (cfg : Config) (rows : Key → Option AuthThrottle) (x : Call) (a : Answer)
    (k : Key) (h : Stands cfg rows x) (hpoint : x.point = .answered a)
    (hkept : x.holds k ≠ some (.wrote none)) :
    x.view rows k = (failures x k).foldl (replayStep cfg k.1) (rows k) := by
  cases h with
  | registered ip account now hrequest _ hholds =>
    have hk := hholds k
    simp only [failures, hrequest, hpoint]
    split_ifs with hmem
    · rw [countedHold, if_pos hmem] at hk
      exact view_of_wrote x rows k _ hk
    · rw [countedHold, if_neg hmem] at hk
      exact view_of_free x rows k hk
  | reset account hrequest _ hothers hown =>
    have hk : x.holds k = none := by
      by_cases heq : k = (.account, account)
      · subst heq
        exact hown.resolve_right hkept
      · exact hothers k heq
    simp only [failures, hrequest]
    exact view_of_free x rows k hk
  | decided ip account now decision hrequest _ hholds =>
    simp only [failures, hrequest]
    exact view_of_free x rows k (hholds k)
  | inserting ip account now done k rest _ _ hother => simp [hpoint] at hother
  | locking ip account now done k rest _ _ hother => simp [hpoint] at hother
  | updating ip account now done k row rest _ _ hother => simp [hpoint] at hother
  | deleting account _ hother => simp [hpoint] at hother
  | reading ip account now worst k rest _ hother => simp [hpoint] at hother

/-- A call that holds no row of the key has no failure for it. -/
theorem failures_free {cfg : Config} {rows : Key → Option AuthThrottle} {x : Call}
    (h : Stands cfg rows x) (k : Key) (hfree : x.holds k = none) : failures x k = [] := by
  cases h with
  | registered ip account now hrequest hpoint hholds =>
    have hnot : k ∉ keys ip account := by
      intro hmem
      have hk := hholds k
      rw [hfree, countedHold, if_pos hmem] at hk
      cases hk
    simp only [failures, hrequest, hpoint, if_neg hnot]
  | reset account hrequest => simp only [failures, hrequest]
  | deleting account hrequest => simp only [failures, hrequest]
  | reading ip account now worst k' rest hrequest => simp only [failures, hrequest]
  | decided ip account now decision hrequest => simp only [failures, hrequest]
  | inserting ip account now done k' rest hrequest _ hpoint =>
    simp only [failures, hrequest, hpoint]
  | locking ip account now done k' rest hrequest _ hpoint => simp only [failures, hrequest, hpoint]
  | updating ip account now done k' row rest hrequest _ hpoint =>
    simp only [failures, hrequest, hpoint]

theorem failures_reset (x : Call) (k : Key) (h : resets k x.request = true) :
    failures x k = [] := by
  unfold failures
  split
  · rename_i ip account now _ hfailure _
    simp [hfailure, resets] at h
  · rfl

theorem failures_resetBy (x : Call) (k : Key) : (failures x k).filterMap Entry.resetBy = [] := by
  unfold failures
  split
  · split_ifs <;> rfl
  · rfl

/-! ### Runs and their prefixes -/

/-- What a step tells of the calls that will be committed: a call that it drops is none of them,
and one that it answers is. -/
structure Foretold (done : ℕ → Bool) (s s' : Table) : Prop where
  dropped : ∀ x ∈ s.txns, (∀ y ∈ s'.txns, y.id ≠ x.id) → (∀ a ∈ s'.answers, a.id ≠ x.id) →
    done x.id = false
  answered : ∀ a ∈ s'.answers, done a.id = true

theorem foretold_step (cfg : Config) (past rest : List (Event Request)) (e : Event Request) :
    Foretold (committed (after cfg (past ++ e :: rest))) (after cfg past)
      (step (program cfg) (after cfg past) e) := by
  have hevents : past ++ e :: rest = past ++ [e] ++ rest := by simp
  have hserial := serial_after (program cfg) (fun _ => none)
  rw [← after_append, hevents]
  refine ⟨fun x hx hopen hanswer => ?_, fun a ha => ?_⟩
  · by_contra hdone
    rw [Bool.not_eq_false, committed_iff] at hdone
    obtain ⟨a, ha, hid⟩ := hdone
    have hknown := (exclusive_after (program cfg) (fun _ => none) past).known x hx
    rcases answered_origin (program cfg) (fun _ => none) (past ++ [e]) rest a ha with
      hbefore | ⟨y, hy, heq⟩ | hlater
    · exact hanswer a hbefore hid
    · exact hopen y hy (heq.trans hid)
    · rw [hserial, List.length_append, List.length_singleton, hid] at hlater
      rw [hserial] at hknown
      omega
  · rw [committed_iff]
    exact ⟨a, answers_grow (program cfg) (fun _ => none) (past ++ [e]) rest ha, rfl⟩

/-- The row is what the ledger makes of it; while a call that will be committed has deleted it, the
ledger is ahead of the row. -/
structure Replayed (cfg : Config) (done : ℕ → Bool) (k : Key) (s : Table) (log : List Entry) :
    Prop where
  taken : ∀ x ∈ s.txns, done x.id = true → x.holds k = some (.wrote none) →
    replay cfg k.1 log = none
  free : (∀ x ∈ s.txns, done x.id = true → x.holds k ≠ some (.wrote none)) →
    replay cfg k.1 log = s.rows k

/-- The resets of the ledger are the calls that have run their DELETE and will be committed. -/
structure Listed (done : ℕ → Bool) (k : Key) (s : Table) (log : List Entry) : Prop where
  origin : ∀ t ∈ log.filterMap Entry.resetBy, done t = true ∧
    ((∃ a ∈ s.answers, a.id = t ∧ resets k a.request = true) ∨
      ∃ x ∈ s.txns, x.id = t ∧ resets k x.request = true ∧ x.point = .answered .reset)
  opened : ∀ x ∈ s.txns, done x.id = true → resets k x.request = true →
    x.point = .answered .reset → x.id ∈ log.filterMap Entry.resetBy
  closed : ∀ a ∈ s.answers, resets k a.request = true → a.id ∈ log.filterMap Entry.resetBy
  nodup : (log.filterMap Entry.resetBy).Nodup

theorem replay_append (cfg : Config) (scope : Scope) (past log : List Entry) :
    replay cfg scope (past ++ log) = log.foldl (replayStep cfg scope) (replay cfg scope past) := by
  rw [replay, replay, List.foldl_append]

/-- A call is open that will be committed and has deleted the row. -/
def Ahead (done : ℕ → Bool) (k : Key) (s : Table) : Prop :=
  ∃ x ∈ s.txns, done x.id = true ∧ x.holds k = some (.wrote none)

/-- The call with this number is open, and has run the DELETE of the key. -/
def Deleted (k : Key) (s : Table) (t : ℕ) : Prop :=
  ∃ x ∈ s.txns, x.id = t ∧ resets k x.request = true ∧ x.point = .answered .reset

section

variable {cfg : Config} {done : ℕ → Bool} {k : Key} {s s' : Table} {log : List Entry} {x y : Call}

theorem Replayed.carried (h : Replayed cfg done k s log) (hrows : s'.rows = s.rows)
    (hahead : Ahead done k s' ↔ Ahead done k s) : Replayed cfg done k s' log := by
  refine ⟨fun x hx hdone hhold => ?_, fun hfree => ?_⟩
  · obtain ⟨z, hz, hdone', hhold'⟩ := hahead.mp ⟨x, hx, hdone, hhold⟩
    exact h.taken z hz hdone' hhold'
  · rw [hrows]
    refine h.free fun z hz hdone hhold => ?_
    obtain ⟨x, hx, hdone', hhold'⟩ := hahead.mpr ⟨z, hz, hdone, hhold⟩
    exact hfree x hx hdone' hhold'

theorem Listed.carried (h : Listed done k s log) (hanswers : s'.answers = s.answers)
    (hdeleted : ∀ t, done t = true → (Deleted k s' t ↔ Deleted k s t)) : Listed done k s' log := by
  refine ⟨fun t ht => ?_, fun x hx hdone hresets hanswer => ?_, hanswers ▸ h.closed, h.nodup⟩
  · obtain ⟨hdone, horigin⟩ := h.origin t ht
    refine ⟨hdone, ?_⟩
    rw [hanswers]
    exact horigin.imp_right (hdeleted t hdone).mpr
  · obtain ⟨z, hz, hid, hresets', hanswer'⟩ :=
      (hdeleted x.id hdone).mp ⟨x, hx, rfl, hresets, hanswer⟩
    rw [← hid]
    exact h.opened z hz (hid ▸ hdone) hresets' hanswer'

theorem ahead_put (hs : Exclusive s) (hmem : x ∈ s.txns) (hid : y.id = x.id)
    (hsame : done x.id = true →
      (y.holds k = some (.wrote none) ↔ x.holds k = some (.wrote none))) :
    Ahead done k { s.wait with txns := s.put y } ↔ Ahead done k s := by
  constructor
  · rintro ⟨z, hz, hdone, hhold⟩
    rcases mem_put s y z hz with rfl | ⟨hz, -⟩
    · rw [hid] at hdone
      exact ⟨x, hmem, hdone, (hsame hdone).mp hhold⟩
    · exact ⟨z, hz, hdone, hhold⟩
  · rintro ⟨z, hz, hdone, hhold⟩
    by_cases heq : z.id = x.id
    · obtain rfl := hs.ids z hz x hmem heq
      exact ⟨y, self_mem_put s z y hmem hid, hid ▸ hdone, (hsame hdone).mpr hhold⟩
    · exact ⟨z, mem_put_of_ne s y z hz (hid ▸ heq), hdone, hhold⟩

theorem deleted_put (hs : Exclusive s) (hmem : x ∈ s.txns) (hid : y.id = x.id)
    (hpoint : x.point ≠ .answered .reset) (t : ℕ) :
    Deleted k { s.wait with txns := s.put y } t ↔ Deleted k s t ∨
      t = x.id ∧ resets k y.request = true ∧ y.point = .answered .reset := by
  constructor
  · rintro ⟨z, hz, heq, hresets, hanswer⟩
    rcases mem_put s y z hz with rfl | ⟨hz, -⟩
    · exact .inr ⟨heq ▸ hid, hresets, hanswer⟩
    · exact .inl ⟨z, hz, heq, hresets, hanswer⟩
  · rintro (⟨z, hz, heq, hresets, hanswer⟩ | ⟨rfl, hresets, hanswer⟩)
    · have hne : z.id ≠ x.id := by
        intro hsame
        obtain rfl := hs.ids z hz x hmem hsame
        exact hpoint hanswer
      exact ⟨z, mem_put_of_ne s y z hz (hid ▸ hne), heq, hresets, hanswer⟩
    · exact ⟨y, self_mem_put s x y hmem hid, hid, hresets, hanswer⟩

/-- A call that is rolled back is none of those that will be committed. -/
theorem undone_of_drop {t : ℕ} (hclosed : Closed s)
    (hforetold : Foretold done s { s.wait with txns := s.drop t }) (hx : x ∈ s.txns)
    (hid : x.id = t) : done x.id = false :=
  hforetold.dropped x hx (fun y hy => hid ▸ ((mem_drop s t y).mp hy).2)
    (fun a ha => (hclosed.shut a ha x hx).symm)

theorem ahead_drop {t : ℕ} (hclosed : Closed s)
    (hforetold : Foretold done s { s.wait with txns := s.drop t }) :
    Ahead done k { s.wait with txns := s.drop t } ↔ Ahead done k s := by
  constructor
  · rintro ⟨z, hz, hopen⟩
    exact ⟨z, ((mem_drop s t z).mp hz).1, hopen⟩
  · rintro ⟨z, hz, hdone, hhold⟩
    refine ⟨z, (mem_drop s t z).mpr ⟨hz, fun heq => ?_⟩, hdone, hhold⟩
    rw [undone_of_drop hclosed hforetold hz heq] at hdone
    cases hdone

theorem deleted_drop {t u : ℕ} (hclosed : Closed s)
    (hforetold : Foretold done s { s.wait with txns := s.drop t }) (hdone : done u = true) :
    Deleted k { s.wait with txns := s.drop t } u ↔ Deleted k s u := by
  constructor
  · rintro ⟨z, hz, hopen⟩
    exact ⟨z, ((mem_drop s t z).mp hz).1, hopen⟩
  · rintro ⟨z, hz, hid, hopen⟩
    refine ⟨z, (mem_drop s t z).mpr ⟨hz, fun heq => ?_⟩, hid, hopen⟩
    rw [← hid, undone_of_drop hclosed hforetold hz heq] at hdone
    cases hdone

/-- A statement other than a DELETE deletes no row. -/
theorem moves_other {q : Statement Key AuthThrottle Point} (hs : Exclusive s)
    (hx : Stands cfg s.rows x) (hmem : x ∈ s.txns) (hother : ∀ k', x.point ≠ .deleting k')
    (hstand : stand cfg x.point = .inl q) (hmoves : execute s x q = .moves y) (k : Key) :
    x.holds k ≠ some (.wrote none) ∧ y.holds k ≠ some (.wrote none) ∧
      x.point ≠ .answered .reset ∧ resets k y.request = false := by
  have hpoint : x.point ≠ .answered .reset := by
    intro hanswer
    rw [hanswer] at hstand
    cases hstand
  have hkept : resets k x.request = false := by
    by_contra hresets
    rcases point_of_resets hx k (by simpa using hresets) with hdeleting | hanswer
    · exact hother k hdeleting
    · exact hpoint hanswer
  have hrequest := (took_execute s x y q hs hmem hmoves).2.1
  refine ⟨fun hhold => hpoint (reset_of_deletes hx k hhold).2, fun hhold => ?_, hpoint,
    hrequest ▸ hkept⟩
  have hresets := (reset_of_deletes (stands_moves cfg s x y q hx hstand hmoves) k hhold).1
  rw [hrequest, hkept] at hresets
  cases hresets

/-- The row is gone for the ledger at the DELETE, and for the table when the call is committed. -/
theorem replayed_deletes {k' : Key} (hs : Exclusive s) (hx : Stands cfg s.rows x)
    (hmem : x ∈ s.txns) (hpoint : x.point = .deleting k')
    (hmoves : execute s x (.delete k' (.answered .reset)) = .moves y)
    (h : Replayed cfg done k s log) :
    Replayed cfg done k { s.wait with txns := s.put y }
      (log ++ if done x.id = true ∧ k' = k then [.reset x.id] else []) := by
  have hid := (took_execute s x y _ hs hmem hmoves).1
  have hy := moves_deleting cfg s x y _ k' hpoint (by rw [hpoint]; rfl) hmoves
  split_ifs with hnew
  · obtain ⟨hdone, rfl⟩ := hnew
    have hnone : replay cfg k'.1 (log ++ [Entry.reset x.id]) = none := by
      rw [replay_append]
      rfl
    refine ⟨fun _ _ _ _ => hnone, fun hfree => hnone.trans ?_⟩
    rcases hy with ⟨hview, rfl⟩ | ⟨-, rfl⟩
    · rw [view_of_free x s.rows k' (resets_of_deleting hx k' hpoint).2] at hview
      exact hview.symm
    · have hself := self_mem_put s x _ hmem hid
      exact absurd (Function.update_self ..) (hfree _ hself hdone)
  · -- a row of another key, or a call that will not be committed
    rw [List.append_nil]
    refine h.carried rfl (ahead_put hs hmem hid fun hdone => ?_)
    rcases hy with ⟨-, rfl⟩ | ⟨-, rfl⟩
    · exact Iff.rfl
    · have hk : k ≠ k' := fun heq => hnew ⟨hdone, heq.symm⟩
      simp only [Txn.write, Function.update_of_ne hk]

theorem replayed_commit {a : Answer} (hs : Exclusive s) (hx : Stands cfg s.rows x)
    (hmem : x ∈ s.txns) (hpoint : x.point = .answered a) (hdone : done x.id = true)
    (h : Replayed cfg done k s log) :
    Replayed cfg done k ⟨x.view s.rows, s.drop x.id, s.answers ++ [⟨x.id, x.request, a⟩],
      s.serial + 1⟩ (log ++ failures x k) := by
  by_cases hhold : x.holds k = some (.wrote none)
  · have hnone : replay cfg k.1 (log ++ failures x k) = none := by
      rw [failures_reset x k (reset_of_deletes hx k hhold).1, List.append_nil]
      exact h.taken x hmem hdone hhold
    refine ⟨fun _ _ _ _ => hnone, fun _ => hnone.trans ?_⟩
    exact (view_of_wrote x s.rows k none hhold).symm
  · refine ⟨fun z hz hdone' hhold' => ?_, fun hfree => ?_⟩
    · obtain ⟨hz, hne⟩ := (mem_drop s x.id z).mp hz
      have hfree : x.holds k = none :=
        (hs.rows z hz x hmem hne k).resolve_left (by simp [hhold'])
      rw [failures_free hx k hfree, List.append_nil]
      exact h.taken z hz hdone' hhold'
    · have hrow := h.free fun z hz hdone' hhold' => by
        by_cases heq : z.id = x.id
        · obtain rfl := hs.ids z hz x hmem heq
          exact hhold hhold'
        · exact hfree z ((mem_drop s x.id z).mpr ⟨hz, heq⟩) hdone' hhold'
      rw [replay_append, hrow]
      exact (view_failures cfg s.rows x a k hx hpoint hhold).symm

theorem listed_deletes {k' : Key} (hs : Exclusive s) (hclosed : Closed s)
    (hx : Stands cfg s.rows x) (hmem : x ∈ s.txns) (hpoint : x.point = .deleting k')
    (hmoves : execute s x (.delete k' (.answered .reset)) = .moves y)
    (h : Listed done k s log) :
    Listed done k { s.wait with txns := s.put y }
      (log ++ if done x.id = true ∧ k' = k then [.reset x.id] else []) := by
  obtain ⟨hid, hrequest, -⟩ := took_execute s x y _ hs hmem hmoves
  have hypoint : y.point = .answered .reset := by
    rcases moves_deleting cfg s x y _ k' hpoint (by rw [hpoint]; rfl) hmoves with
      ⟨-, rfl⟩ | ⟨-, rfl⟩
    · rfl
    · rfl
  have hopen : x.point ≠ .answered .reset := by simp [hpoint]
  have hput := deleted_put (k := k) hs hmem hid hopen
  have hresets := (resets_of_deleting hx k' hpoint).1
  split_ifs with hnew
  · obtain ⟨hdone, rfl⟩ := hnew
    have hlog : (log ++ [Entry.reset x.id]).filterMap Entry.resetBy =
        log.filterMap Entry.resetBy ++ [x.id] := by
      rw [List.filterMap_append]
      rfl
    have hfresh : x.id ∉ log.filterMap Entry.resetBy := by
      intro hlisted
      obtain ⟨-, ⟨a, ha, heq, -⟩ | ⟨z, hz, heq, -, hanswer⟩⟩ := h.origin x.id hlisted
      · exact hclosed.shut a ha x hmem heq.symm
      · obtain rfl := hs.ids z hz x hmem heq
        exact hopen hanswer
    refine ⟨fun t ht => ?_, fun z hz hdone' hresets' hanswer => ?_, fun a ha hresets' => ?_, ?_⟩
    · rw [hlog] at ht
      rcases List.mem_append.mp ht with ht | ht
      · obtain ⟨hdone', horigin⟩ := h.origin t ht
        exact ⟨hdone', horigin.imp_right fun hdeleted => (hput t).mpr (.inl hdeleted)⟩
      · rw [List.mem_singleton.mp ht]
        exact ⟨hdone, .inr ((hput x.id).mpr (.inr ⟨rfl, hrequest ▸ hresets, hypoint⟩))⟩
    · rw [hlog]
      rcases mem_put s y z hz with rfl | ⟨hz, -⟩
      · rw [hid]
        exact List.mem_append_right _ (List.mem_singleton_self _)
      · exact List.mem_append_left _ (h.opened z hz hdone' hresets' hanswer)
    · rw [hlog]
      exact List.mem_append_left _ (h.closed a ha hresets')
    · rw [hlog, List.nodup_append]
      refine ⟨h.nodup, List.nodup_singleton _, fun t ht u hu heq => ?_⟩
      rw [List.mem_singleton.mp hu] at heq
      exact hfresh (heq ▸ ht)
  · rw [List.append_nil]
    refine h.carried rfl fun t hdone => (hput t).trans (or_iff_left ?_)
    rintro ⟨rfl, hresets', -⟩
    rw [hrequest] at hresets'
    exact hnew ⟨hdone, resets_inj hresets hresets'⟩

theorem listed_commit {a : Answer} (hs : Exclusive s) (hx : Stands cfg s.rows x)
    (hmem : x ∈ s.txns) (hpoint : x.point = .answered a) (hdone : done x.id = true)
    (h : Listed done k s log) :
    Listed done k ⟨x.view s.rows, s.drop x.id, s.answers ++ [⟨x.id, x.request, a⟩],
      s.serial + 1⟩ (log ++ failures x k) := by
  have hlog : (log ++ failures x k).filterMap Entry.resetBy = log.filterMap Entry.resetBy := by
    rw [List.filterMap_append, failures_resetBy, List.append_nil]
  refine ⟨fun t ht => ?_, fun z hz => ?_, fun b hb hresets => ?_, hlog ▸ h.nodup⟩
  · rw [hlog] at ht
    obtain ⟨hdone', ⟨b, hb, hanswered⟩ | ⟨z, hz, heq, hresets, hanswer⟩⟩ := h.origin t ht
    · exact ⟨hdone', .inl ⟨b, List.mem_append_left _ hb, hanswered⟩⟩
    · by_cases hsame : z.id = x.id
      · obtain rfl := hs.ids z hz x hmem hsame
        exact ⟨hdone', .inl ⟨_, List.mem_append_right _ (List.mem_singleton_self _), heq, hresets⟩⟩
      · exact ⟨hdone', .inr ⟨z, (mem_drop s x.id z).mpr ⟨hz, hsame⟩, heq, hresets, hanswer⟩⟩
  · rw [hlog]
    exact h.opened z ((mem_drop s x.id z).mp hz).1
  · rw [hlog]
    rcases List.mem_append.mp hb with hb | hb
    · exact h.closed b hb hresets
    · rw [List.mem_singleton.mp hb] at hresets ⊢
      rcases point_of_resets hx k hresets with hdeleting | hanswer
      · rw [hdeleting] at hpoint
        cases hpoint
      · exact h.opened x hmem hdone hresets hanswer

end

theorem replayed_step {cfg : Config} {done : ℕ → Bool} {k : Key} {s s' : Table}
    {e : Event Request} {log entries : List Entry} (hs : Exclusive s) (hclosed : Closed s)
    (hstands : ∀ x ∈ s.txns, Stands cfg s.rows x) (hforetold : Foretold done s s')
    (hrecords : Records cfg done s k e s' entries) (h : Replayed cfg done k s log) :
    Replayed cfg done k s' (log ++ entries) := by
  cases hrecords with
  | wait =>
    rw [List.append_nil]
    exact h.carried rfl Iff.rfl
  | arrive request =>
    rw [List.append_nil]
    refine h.carried rfl ⟨fun hahead => ?_, fun hahead => ?_⟩
    · obtain ⟨x, hx, hdone, hhold⟩ := hahead
      rcases List.mem_cons.mp hx with rfl | hx
      · cases hhold
      · exact ⟨x, hx, hdone, hhold⟩
    · obtain ⟨x, hx, hopen⟩ := hahead
      exact ⟨x, List.mem_cons_of_mem _ hx, hopen⟩
  | deletes x y k' hmem hpoint hmoves =>
    exact replayed_deletes hs (hstands x hmem) hmem hpoint hmoves h
  | moves x y q hmem hother hstand hmoves =>
    have hid := (took_execute s x y q hs hmem hmoves).1
    obtain ⟨hbefore, hafter, -, -⟩ := moves_other hs (hstands x hmem) hmem hother hstand hmoves k
    rw [List.append_nil]
    exact h.carried rfl (ahead_put hs hmem hid fun _ => iff_of_false hafter hbefore)
  | drops _ t =>
    rw [List.append_nil]
    exact h.carried rfl (ahead_drop hclosed hforetold)
  | commit x a hmem hpoint =>
    have hdone : done x.id = true :=
      hforetold.answered ⟨x.id, x.request, a⟩ (List.mem_append_right _ (List.mem_singleton_self _))
    exact replayed_commit hs (hstands x hmem) hmem hpoint hdone h

theorem listed_step {cfg : Config} {done : ℕ → Bool} {k : Key} {s s' : Table}
    {e : Event Request} {log entries : List Entry} (hs : Exclusive s) (hclosed : Closed s)
    (hstands : ∀ x ∈ s.txns, Stands cfg s.rows x) (hforetold : Foretold done s s')
    (hrecords : Records cfg done s k e s' entries) (h : Listed done k s log) :
    Listed done k s' (log ++ entries) := by
  cases hrecords with
  | wait =>
    rw [List.append_nil]
    exact h.carried rfl fun _ _ => Iff.rfl
  | arrive request =>
    rw [List.append_nil]
    refine h.carried rfl fun t _ => ⟨fun hdeleted => ?_, fun hdeleted => ?_⟩
    · obtain ⟨x, hx, hid, hresets, hanswer⟩ := hdeleted
      rcases List.mem_cons.mp hx with rfl | hx
      · cases request <;> cases hanswer
      · exact ⟨x, hx, hid, hresets, hanswer⟩
    · obtain ⟨x, hx, hopen⟩ := hdeleted
      exact ⟨x, List.mem_cons_of_mem _ hx, hopen⟩
  | deletes x y k' hmem hpoint hmoves =>
    exact listed_deletes hs hclosed (hstands x hmem) hmem hpoint hmoves h
  | moves x y q hmem hother hstand hmoves =>
    have hid := (took_execute s x y q hs hmem hmoves).1
    obtain ⟨-, -, hpoint, hnone⟩ := moves_other hs (hstands x hmem) hmem hother hstand hmoves k
    rw [List.append_nil]
    refine h.carried rfl fun t _ => (deleted_put hs hmem hid hpoint t).trans (or_iff_left ?_)
    rintro ⟨-, hresets, -⟩
    rw [hnone] at hresets
    cases hresets
  | drops _ t =>
    rw [List.append_nil]
    exact h.carried rfl fun u hdone => deleted_drop hclosed hforetold hdone
  | commit x a hmem hpoint =>
    have hdone : done x.id = true :=
      hforetold.answered ⟨x.id, x.request, a⟩ (List.mem_append_right _ (List.mem_singleton_self _))
    exact listed_commit hs (hstands x hmem) hmem hpoint hdone h

/-- At each prefix of a run, for the calls that the whole run commits. -/
theorem replayed_listed (cfg : Config) (k : Key) (past rest : List (Event Request)) :
    Replayed cfg (committed (after cfg (past ++ rest))) k (after cfg past)
        (ledgerWith cfg (committed (after cfg (past ++ rest))) past k) ∧
      Listed (committed (after cfg (past ++ rest))) k (after cfg past)
        (ledgerWith cfg (committed (after cfg (past ++ rest))) past k) := by
  induction past using List.reverseRecOn generalizing rest with
  | nil =>
    refine ⟨⟨fun x hx => ?_, fun _ => rfl⟩, ⟨fun t ht => ?_, fun x hx => ?_, fun a ha => ?_,
      List.nodup_nil⟩⟩
    · exact absurd hx List.not_mem_nil
    · exact absurd ht List.not_mem_nil
    · exact absurd hx List.not_mem_nil
    · exact absurd ha List.not_mem_nil
  | append_singleton past e ih =>
    have hevents : past ++ [e] ++ rest = past ++ e :: rest := by simp
    rw [hevents, ledger_append, after_append]
    obtain ⟨hreplayed, hlisted⟩ := ih (e :: rest)
    have hs := exclusive_after (program cfg) (fun _ => none) past
    have hclosed := closed_after (program cfg) (fun _ => none) past
    have hforetold := foretold_step cfg past rest e
    have hrecords := records_step cfg (committed (after cfg (past ++ e :: rest))) (after cfg past) e k
    exact ⟨replayed_step hs hclosed (stands_after cfg past) hforetold hrecords hreplayed,
      listed_step hs hclosed (stands_after cfg past) hforetold hrecords hlisted⟩

/-- No call is open and committed. -/
theorem committed_open (cfg : Config) (events : List (Event Request)) (x : Call)
    (hx : x ∈ (after cfg events).txns) : committed (after cfg events) x.id = false := by
  by_contra hdone
  rw [Bool.not_eq_false, committed_iff] at hdone
  obtain ⟨a, ha, hid⟩ := hdone
  exact (closed_after (program cfg) (fun _ => none) events).shut a ha x hx hid.symm

theorem rows_replay (cfg : Config) (events : List (Event Request)) (k : Key) :
    (after cfg events).rows k = replay cfg k.1 (ledger cfg events k) := by
  have hreplayed := (replayed_listed cfg k events []).1
  rw [List.append_nil] at hreplayed
  refine (hreplayed.free fun x hx hdone => ?_).symm
  rw [committed_open cfg events x hx] at hdone
  cases hdone

/-- The resets of the ledger are the committed resets of the key, each once. -/
theorem ledger_resets (cfg : Config) (events : List (Event Request)) (k : Key) :
    ((ledger cfg events k).filterMap Entry.resetBy).Nodup ∧
      ∀ t, t ∈ (ledger cfg events k).filterMap Entry.resetBy ↔
        ∃ a ∈ (after cfg events).answers, a.id = t ∧ resets k a.request = true := by
  have hlisted := (replayed_listed cfg k events []).2
  rw [List.append_nil] at hlisted
  refine ⟨hlisted.nodup, fun t => ⟨fun ht => ?_, fun ⟨a, ha, hid, hresets⟩ => ?_⟩⟩
  · obtain ⟨hdone, hanswered | ⟨x, hx, hid, -⟩⟩ := hlisted.origin t ht
    · exact hanswered
    · rw [← hid, committed_open cfg events x hx] at hdone
      cases hdone
  · exact hid ▸ hlisted.closed a ha hresets

/-! ### The failures of the current window -/

/-- The times of the failures of the window, after one more entry: a reset ends it, and so does a
failure that comes more than its length after the first one. -/
def tally (cfg : Config) (times : List ℤ) : Entry → List ℤ
  | .reset _ => []
  | .failure now =>
    match times.head? with
    | none => [now]
    | some start => if cfg.throttleWindow < now - start then [now] else times ++ [now]

/-- The failures since the last reset or restart of the window. -/
def current (cfg : Config) (log : List Entry) : List ℤ := log.foldl (tally cfg) []

/-- The row counts these failures. -/
structure Counts (cfg : Config) (scope : Scope) (times : List ℤ) (row : AuthThrottle) : Prop where
  count : row.failureCount = times.length
  start : times.head? = some row.windowStartedAt
  next : ∃ last, times.getLast? = some last ∧
    row.nextAllowedAt = last + delaySeconds cfg scope times.length * 1000000

def Agrees (cfg : Config) (scope : Scope) (times : List ℤ) : Option AuthThrottle → Prop
  | none => times = []
  | some row => Counts cfg scope times row

theorem counts_restart (cfg : Config) (scope : Scope) (now : ℤ) (row : Option AuthThrottle)
    (h : ∀ old, row = some old → cfg.throttleWindow < now - old.windowStartedAt) :
    Counts cfg scope [now] (failedRow cfg scope now row) := by
  cases row with
  | none =>
    simp only [failedRow, Option.getD_none]
    split_ifs <;> exact ⟨rfl, rfl, now, rfl, rfl⟩
  | some old =>
    simp only [failedRow, Option.getD_some, if_pos (h old rfl)]
    exact ⟨rfl, rfl, now, rfl, rfl⟩

theorem agrees_step (cfg : Config) (scope : Scope) (times : List ℤ) (row : Option AuthThrottle)
    (e : Entry) (h : Agrees cfg scope times row) :
    Agrees cfg scope (tally cfg times e) (replayStep cfg scope row e) := by
  cases e with
  | reset t => rfl
  | failure now =>
    cases row with
    | none =>
      rw [Agrees] at h
      subst h
      exact counts_restart cfg scope now none (by simp)
    | some old =>
      simp only [tally, replayStep, h.start]
      split_ifs with hrestart
      · exact counts_restart cfg scope now (some old) fun _ heq => Option.some.inj heq ▸ hrestart
      · have hlength : (times ++ [now]).length = old.failureCount + 1 := by simp [h.count]
        have hrow : failedRow cfg scope now (some old) = ⟨old.failureCount + 1, old.windowStartedAt,
            now + delaySeconds cfg scope (old.failureCount + 1) * 1000000⟩ := by
          simp only [failedRow, Option.getD_some, if_neg hrestart]
        rw [hrow]
        refine ⟨hlength.symm, ?_, now, by simp, by rw [hlength]⟩
        rw [List.head?_append, h.start, Option.some_or]

theorem agrees_current (cfg : Config) (scope : Scope) (log : List Entry) :
    Agrees cfg scope (current cfg log) (replay cfg scope log) := by
  induction log using List.reverseRecOn with
  | nil => rfl
  | append_singleton past e ih =>
    rw [current, replay, List.foldl_append, List.foldl_append]
    exact agrees_step cfg scope _ _ e ih

def cap (cfg : Config) : Scope → ℕ
  | .account => cfg.accountCap
  | .ip => cfg.ipCap

theorem delaySeconds_le_cap (cfg : Config) (scope : Scope) (count : ℕ) :
    delaySeconds cfg scope count ≤ cap cfg scope := by
  have hcapped : ∀ free cap : ℕ,
      (if count ≤ free then 0 else min (2 ^ (count - free)) cap) ≤ cap := by
    intro free cap
    split_ifs
    · exact Nat.zero_le cap
    · exact Nat.min_le_right _ cap
  cases scope with
  | ip => exact hcapped cfg.ipFree cfg.ipCap
  | account => exact hcapped cfg.accountFree cfg.accountCap

/-! ### Failures that are committed -/

def Entry.failedAt : Entry → Option ℤ
  | .failure now => some now
  | .reset _ => none

/-- The time of a committed failure on a key. -/
def failedOn (k : Key) (a : Answered Request Answer) : Option ℤ :=
  match a.request with
  | .registerFailure ip account now => if k ∈ keys ip account then some now else none
  | _ => none

theorem failures_failedAt (x : Call) (a : Answer) (k : Key) (hpoint : x.point = .answered a) :
    (failures x k).filterMap Entry.failedAt = [⟨x.id, x.request, a⟩].filterMap (failedOn k) := by
  simp only [failures, hpoint, List.filterMap_cons, failedOn, List.filterMap_nil]
  cases x.request with
  | registerFailure ip account now => by_cases hk : k ∈ keys ip account <;> simp [hk, Entry.failedAt]
  | resetAccount account => rfl
  | check ip account now => rfl

/-- The failures of the ledger are those of the committed calls, in their order. -/
theorem ledger_failures (cfg : Config) (done : ℕ → Bool) (events : List (Event Request)) (k : Key) :
    (ledgerWith cfg done events k).filterMap Entry.failedAt =
      (after cfg events).answers.filterMap (failedOn k) := by
  induction events using List.reverseRecOn with
  | nil => rfl
  | append_singleton past e ih =>
    rw [ledger_append, List.filterMap_append, ih, after_append]
    have hrecords := records_step cfg done (after cfg past) e k
    generalize step (program cfg) (after cfg past) e = s' at hrecords ⊢
    generalize recorded done (after cfg past) e k = entries at hrecords ⊢
    cases hrecords with
    | wait => exact List.append_nil _
    | arrive request => exact List.append_nil _
    | deletes x y k' hmem hpoint hmoves => split_ifs <;> exact List.append_nil _
    | moves x y q hmem hother hstand hmoves => exact List.append_nil _
    | drops _ t => exact List.append_nil _
    | commit x a hmem hpoint => rw [failures_failedAt x a k hpoint, List.filterMap_append]

/-! ### What a check reads -/

/-- The rows of these keys, each in the state before the event with its number. -/
def rowsAt (cfg : Config) (events : List (Event Request)) (moments : List ℕ) (ks : List Key) :
    List (Option AuthThrottle) :=
  List.zipWith (fun m k => (after cfg (events.take m)).rows k) moments ks

/-- The rows that the statements of a transaction have selected, one after the other. -/
def Selected (cfg : Config) (events : List (Event Request)) (t : ℕ) (ks : List Key)
    (rows : List (Option AuthThrottle)) : Prop :=
  ∃ moments : List ℕ, moments.length = ks.length ∧ (t :: moments).Pairwise (· < ·) ∧
    (∀ m ∈ moments, events[m]? = some (.statement t)) ∧ rows = rowsAt cfg events moments ks

theorem rowsAt_append (cfg : Config) (past : List (Event Request)) (e : Event Request)
    (moments : List ℕ) (ks : List Key) (hlt : ∀ m ∈ moments, m < past.length) :
    rowsAt cfg (past ++ [e]) moments ks = rowsAt cfg past moments ks := by
  have htake : moments.map (fun m => (after cfg ((past ++ [e]).take m)).rows) =
      moments.map fun m => (after cfg (past.take m)).rows :=
    List.map_congr_left fun m hm => by rw [List.take_append_of_le_length (hlt m hm).le]
  have hzip := congrArg (fun tables => List.zipWith (fun rows k => rows k) tables ks) htake
  simpa only [rowsAt, List.zipWith_map_left] using hzip

theorem Selected.append {cfg : Config} {past : List (Event Request)} {t : ℕ} {ks : List Key}
    {rows : List (Option AuthThrottle)} (h : Selected cfg past t ks rows) (e : Event Request) :
    Selected cfg (past ++ [e]) t ks rows := by
  obtain ⟨moments, hlength, horder, hread, rfl⟩ := h
  have hlt : ∀ m ∈ moments, m < past.length := fun m hm =>
    (List.getElem?_eq_some_iff.mp (hread m hm)).1
  refine ⟨moments, hlength, horder, fun m hm => ?_, (rowsAt_append cfg past e moments ks hlt).symm⟩
  rw [List.getElem?_append_left (hlt m hm)]
  exact hread m hm

/-- The next SELECT of a transaction. -/
theorem Selected.next {cfg : Config} {past : List (Event Request)} {t : ℕ} {ks : List Key}
    {rows : List (Option AuthThrottle)} (h : Selected cfg past t ks rows) (ht : t < past.length)
    (k : Key) :
    Selected cfg (past ++ [.statement t]) t (ks ++ [k]) (rows ++ [(after cfg past).rows k]) := by
  obtain ⟨moments, hlength, horder, hread, rfl⟩ := h
  have hlt : ∀ m ∈ moments, m < past.length := fun m hm =>
    (List.getElem?_eq_some_iff.mp (hread m hm)).1
  refine ⟨moments ++ [past.length], by simp [hlength], ?_, ?_, ?_⟩
  · rw [← List.cons_append, List.pairwise_append]
    refine ⟨horder, List.pairwise_singleton _ _, fun m hm n hn => ?_⟩
    rw [List.mem_singleton.mp hn]
    rcases List.mem_cons.mp hm with rfl | hm
    · exact ht
    · exact hlt m hm
  · intro m hm
    rcases List.mem_append.mp hm with hm | hm
    · rw [List.getElem?_append_left (hlt m hm)]
      exact hread m hm
    · rw [List.mem_singleton.mp hm]
      simp
  · rw [← rowsAt_append cfg past (.statement t) moments ks hlt]
    simp only [rowsAt, List.zipWith_append hlength, List.zipWith_cons_cons, List.zipWith_nil_left,
      List.take_left]

/-- A check has judged the rows that it has selected so far. -/
def Checking (cfg : Config) (past : List (Event Request)) (x : Call) : Prop :=
  ∀ ip account now, x.request = .check ip account now → ∃ done rest rows,
    keys ip account = done ++ rest ∧ Selected cfg past x.id done rows ∧
      x.point = checkFrom now (rows.foldl (worse now) ⟨true, 0⟩) rest

/-- What a check has answered. -/
def Decided (cfg : Config) (events : List (Event Request)) (a : Answered Request Answer) : Prop :=
  ∀ ip account now, a.request = .check ip account now → ∃ rows,
    Selected cfg events a.id (keys ip account) rows ∧
      a.answer = .decided (rows.foldl (worse now) ⟨true, 0⟩)

theorem checking_local (cfg : Config) : Local (program cfg) (fun _ => none) (Checking cfg) where
  opens := by
    intro past request ip account now hrequest
    obtain rfl : request = .check ip account now := hrequest
    exact ⟨[], keys ip account, [], rfl, ⟨[], rfl, List.pairwise_singleton _ _, by simp, rfl⟩, rfl⟩
  moves := by
    intro past x y q hx h hstand hmoves ip account now hrequest
    have hexclusive := exclusive_after (program cfg) (fun _ => none) past
    obtain ⟨hid, hkept, -⟩ := took_execute _ x y q hexclusive hx hmoves
    obtain ⟨done, rest, rows, hkeys, hselected, hpoint⟩ := h ip account now (hkept ▸ hrequest)
    cases rest with
    | nil =>
      rw [hpoint] at hstand
      cases hstand
    | cons k rest =>
      have hlt : x.id < past.length := by
        rw [← serial_after (program cfg) (fun _ => none) past]
        exact hexclusive.known x hx
      have hview : x.view (after cfg past).rows k = (after cfg past).rows k := by
        have hfree := (stands_after cfg past x hx).held
        rw [hpoint] at hfree
        exact view_of_free x _ k (hfree k)
      obtain rfl := moves_reading cfg (after cfg past) x y q now _ k rest hpoint hstand hmoves
      refine ⟨done ++ [k], rest, _, by simp [hkeys], hselected.next hlt k, ?_⟩
      rw [hview, List.foldl_append]
      rfl
  frame := by
    intro past e x _ h _ ip account now hrequest
    obtain ⟨done, rest, rows, hkeys, hselected, hpoint⟩ := h ip account now hrequest
    exact ⟨done, rest, rows, hkeys, hselected.append e, hpoint⟩

theorem decided_after (cfg : Config) (events : List (Event Request)) :
    ∀ a ∈ (after cfg events).answers, Decided cfg events a := by
  refine (checking_local cfg).answers (Decided cfg) ?_ ?_ events
  · intro past x r h hstand ip account now hrequest
    obtain ⟨done, rest, rows, hkeys, hselected, hpoint⟩ := h ip account now hrequest
    have hanswer := stand_answer cfg x.point r hstand
    cases rest with
    | nil =>
      rw [List.append_nil] at hkeys
      rw [hkeys]
      rw [hpoint] at hanswer
      exact ⟨rows, hselected.append _, (Point.answered.inj hanswer).symm⟩
    | cons k rest =>
      rw [hpoint] at hanswer
      cases hanswer
  · intro past e a h ip account now hrequest
    obtain ⟨rows, hselected, hanswer⟩ := h ip account now hrequest
    exact ⟨rows, hselected.append e, hanswer⟩

/-! ### The decision -/

/-- A decision denies by the rows that it has seen, and its delay is enough for all of them. -/
structure Fair (now : ℤ) (rows : List (Option AuthThrottle)) (d : ThrottleDecision) : Prop where
  denies : d.allowed = false ↔ ∃ row, some row ∈ rows ∧ now < row.nextAllowedAt
  permits : ∀ row, some row ∈ rows → row.nextAllowedAt ≤ now + d.retryAfter * 1000000
  delay : 0 ≤ d.retryAfter ∧ (0 < d.retryAfter → d.allowed = false)

theorem fair_worse (now : ℤ) (rows : List (Option AuthThrottle)) (d : ThrottleDecision)
    (row : Option AuthThrottle) (h : Fair now rows d) :
    Fair now (rows ++ [row]) (worse now d row) := by
  obtain ⟨hdenies, hpermits, hnonneg, hdelay⟩ := h
  have hmem : ∀ old, some old ∈ rows ++ [row] ↔ some old ∈ rows ∨ row = some old := by
    simp [eq_comm]
  cases row with
  | none => exact ⟨by simpa [worse] using hdenies, by simpa [worse] using hpermits, hnonneg, hdelay⟩
  | some new =>
    simp only [worse]
    split_ifs with hlate hretry
    · refine ⟨⟨fun _ => ⟨new, by simp, hlate⟩, fun _ => rfl⟩, fun old hold => ?_,
        Int.le_of_lt (Int.lt_of_le_of_lt hnonneg hretry), fun _ => rfl⟩
      rcases (hmem old).mp hold with hold | hold
      · have hpermit := hpermits old hold
        simp only
        omega
      · obtain rfl := Option.some.inj hold
        simp only
        omega
    · have hdenied : d.allowed = false := hdelay (by omega)
      refine ⟨⟨fun _ => ⟨new, by simp, hlate⟩, fun _ => hdenied⟩, fun old hold => ?_, hnonneg,
        hdelay⟩
      rcases (hmem old).mp hold with hold | hold
      · exact hpermits old hold
      · obtain rfl := Option.some.inj hold
        omega
    · refine ⟨hdenies.trans ⟨?_, ?_⟩, fun old hold => ?_, hnonneg, hdelay⟩
      · rintro ⟨old, hold, hnow⟩
        exact ⟨old, (hmem old).mpr (Or.inl hold), hnow⟩
      · rintro ⟨old, hold, hnow⟩
        rcases (hmem old).mp hold with hold | hold
        · exact ⟨old, hold, hnow⟩
        · exact absurd (Option.some.inj hold ▸ hnow) hlate
      · rcases (hmem old).mp hold with hold | hold
        · exact hpermits old hold
        · obtain rfl := Option.some.inj hold
          omega

theorem fair_check (now : ℤ) (rows : List (Option AuthThrottle)) :
    Fair now rows (rows.foldl (worse now) ⟨true, 0⟩) := by
  induction rows using List.reverseRecOn with
  | nil => exact ⟨by simp, by simp, Int.le_refl 0, by simp⟩
  | append_singleton rows row ih =>
    rw [List.foldl_append]
    exact fair_worse now rows _ row ih

/-- In every state that calls reach in any order: each row counts the failures of its window, those
of committed calls since the last committed reset, which stands where its DELETE has run; its delay
starts at the last one; delays grow with the count; and each check has denied by the rows that it
has read, with a delay after which they permit. -/
theorem throttle_accounting (cfg : Config) (events : List (Event Request)) :
    (∀ k, (ledger cfg events k).filterMap Entry.failedAt =
        (after cfg events).answers.filterMap (failedOn k) ∧
      ((ledger cfg events k).filterMap Entry.resetBy).Nodup ∧
      (∀ t, t ∈ (ledger cfg events k).filterMap Entry.resetBy ↔
        ∃ a ∈ (after cfg events).answers, a.id = t ∧ resets k a.request = true) ∧
      match (after cfg events).rows k with
      | none => current cfg (ledger cfg events k) = []
      | some row => row.failureCount = (current cfg (ledger cfg events k)).length ∧
        ∃ last, (current cfg (ledger cfg events k)).getLast? = some last ∧
          row.nextAllowedAt = last + delaySeconds cfg k.1 row.failureCount * 1000000 ∧
          row.nextAllowedAt ≤ last + cap cfg k.1 * 1000000) ∧
    (∀ scope n m, n ≤ m → delaySeconds cfg scope n ≤ delaySeconds cfg scope m) ∧
    ∀ a ∈ (after cfg events).answers, ∀ ip account now, a.request = .check ip account now →
      ∃ decision rows, a.answer = .decided decision ∧
        Selected cfg events a.id (keys ip account) rows ∧
        (decision.allowed = false ↔ ∃ row, some row ∈ rows ∧ now < row.nextAllowedAt) ∧
        ∀ row, some row ∈ rows → row.nextAllowedAt ≤ now + decision.retryAfter * 1000000 := by
  refine ⟨fun k => ?_, delaySeconds_mono cfg, ?_⟩
  · obtain ⟨hnodup, hresets⟩ := ledger_resets cfg events k
    refine ⟨ledger_failures cfg _ events k, hnodup, hresets, ?_⟩
    have hagrees := agrees_current cfg k.1 (ledger cfg events k)
    rw [← rows_replay cfg events k] at hagrees
    cases hrow : (after cfg events).rows k with
    | none =>
      rw [hrow] at hagrees
      exact hagrees
    | some row =>
      rw [hrow] at hagrees
      obtain ⟨hcount, -, last, hlast, hnext⟩ := hagrees
      have hcap := delaySeconds_le_cap cfg k.1 (current cfg (ledger cfg events k)).length
      refine ⟨hcount, last, hlast, by rw [hcount, hnext], ?_⟩
      rw [hnext]
      omega
  · intro a ha ip account now hrequest
    obtain ⟨rows, hselected, hanswer⟩ := decided_after cfg events a ha ip account now hrequest
    have hfair := fair_check now rows
    exact ⟨_, rows, hanswer, hselected, hfair.denies, hfair.permits⟩

/-- The entry of a call in the order of the commits. -/
def committedEntry (k : Key) (a : Answered Request Answer) : Option Entry :=
  if resets k a.request then some (.reset a.id) else (failedOn k a).map .failure

/-- A reset finds no row, a failure inserts one and is committed, and then the reset is. -/
def resetBeforeFailure : List (Event Request) :=
  [.arrive (.resetAccount "ann@example.org".toList), .statement 0, .arrive (sampleFailure 5),
    .statement 2, .statement 2, .statement 2, .statement 2, .statement 2, .statement 2, .commit 2,
    .commit 0]

/-- Since the reset that was committed last no failure was, and the row counts one. -/
theorem reset_outlived :
    ¬ (∀ cfg events k row, (after cfg events).rows k = some row → row.failureCount =
        (current cfg ((after cfg events).answers.filterMap (committedEntry k))).length) ∧
      (after throttleLimits resetBeforeFailure).answers.filterMap
          (committedEntry (.account, "ann@example.org".toList)) = [.failure 5, .reset 0] ∧
      ((after throttleLimits resetBeforeFailure).rows (.account, "ann@example.org".toList)).map
        AuthThrottle.failureCount = some 1 := by
  have hlog : (after throttleLimits resetBeforeFailure).answers.filterMap
      (committedEntry (.account, "ann@example.org".toList)) = [.failure 5, .reset 0] := by rfl
  have hrow : (after throttleLimits resetBeforeFailure).rows
      (.account, "ann@example.org".toList) = some ⟨1, 5, 5⟩ := by rfl
  refine ⟨fun h => ?_, hlog, by rw [hrow]; rfl⟩
  have hcount := h throttleLimits resetBeforeFailure _ _ hrow
  rw [hlog] at hcount
  cases hcount

end Hyproxy.ThrottleLedger

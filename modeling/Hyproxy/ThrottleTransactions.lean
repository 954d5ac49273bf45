import Hyproxy.Accounts
import Hyproxy.RowLocks

/-!
The throttle table under concurrent transactions, each of them one call of the rate
limiter. A failure inserts the row of each of its keys unless there is one, selects it
for update and updates it; a reset deletes the row of an account; a check selects the
rows of its keys.
-/

namespace Hyproxy.ThrottleTransactions

open Accounts RowLocks

abbrev Key := Scope × List Char

instance lawfulKey : LawfulBEq Key := inferInstance

inductive Request
  | registerFailure (ip : List Char) (account : Option (List Char)) (now : ℤ)
  | resetAccount (account : List Char)
  | check (ip : List Char) (account : Option (List Char)) (now : ℤ)
  deriving Repr, DecidableEq

inductive Answer
  | registered
  | reset
  | decided (decision : ThrottleDecision)
  deriving Repr, DecidableEq

/-- The statement that a call is at, with the keys that its loop has still to visit. -/
inductive Point
  | inserting (now : ℤ) (k : Key) (rest : List Key)
  | locking (now : ℤ) (k : Key) (rest : List Key)
  | updating (now : ℤ) (k : Key) (row : AuthThrottle) (rest : List Key)
  | deleting (k : Key)
  | reading (now : ℤ) (worst : ThrottleDecision) (k : Key) (rest : List Key)
  | answered (a : Answer)
  deriving Repr, DecidableEq

def keys (ip : List Char) (account : Option (List Char)) : List Key :=
  (.ip, ip) :: account.toList.map fun key => (.account, key)

/-- The row that `register_failure` inserts. -/
def freshRow (now : ℤ) : AuthThrottle := ⟨0, now, now⟩

/-- The loop of `register_failure`. -/
def registerFrom (now : ℤ) : List Key → Point
  | [] => .answered .registered
  | k :: rest => .inserting now k rest

/-- The loop of `check`. -/
def checkFrom (now : ℤ) (worst : ThrottleDecision) : List Key → Point
  | [] => .answered (.decided worst)
  | k :: rest => .reading now worst k rest

def start : Request → Point
  | .registerFailure ip account now => registerFrom now (keys ip account)
  | .resetAccount account => .deleting (.account, account)
  | .check ip account now => checkFrom now ⟨true, 0⟩ (keys ip account)

/-- `assert row is not None` raises when the row is gone. -/
def stand (cfg : Config) : Point → Statement Key AuthThrottle Point ⊕ Answer
  | .inserting now k rest => .inl (.insert k (freshRow now) (.locking now k rest))
  | .locking now k rest => .inl (.lock k fun row => row.map fun r => .updating now k r rest)
  | .updating now k row rest =>
    .inl (.update k (failedRow cfg k.1 now (some row)) (registerFrom now rest))
  | .deleting k => .inl (.delete k (.answered .reset))
  | .reading now worst k rest =>
    .inl (.select k fun row => checkFrom now (worse now worst row) rest)
  | .answered a => .inr a

def program (cfg : Config) : Program Request Key AuthThrottle Point Answer := ⟨start, stand cfg⟩

abbrev Call := Txn Key AuthThrottle Request Point

/-- The table and the open calls after a run, from an empty table. -/
def after (cfg : Config) (events : List (Event Request)) :
    State Key AuthThrottle Request Point Answer :=
  RowLocks.after (program cfg) (fun _ => none) events

theorem after_append (cfg : Config) (past : List (Event Request)) (e : Event Request) :
    after cfg (past ++ [e]) = step (program cfg) (after cfg past) e :=
  RowLocks.after_append _ _ past e

theorem keys_nodup (ip : List Char) (account : Option (List Char)) : (keys ip account).Nodup := by
  cases account <;> simp [keys]

theorem failedRow_fresh (cfg : Config) (scope : Scope) (now : ℤ) (old : Option AuthThrottle) :
    failedRow cfg scope now (some (old.getD (freshRow now))) = failedRow cfg scope now old := by
  cases old <;> rfl

/-! ### What the statements of a call do -/

abbrev Table := State Key AuthThrottle Request Point Answer

/-- The insertion finds a row, or it inserts one. -/
theorem moves_inserting (cfg : Config) (s : Table) (x y : Call)
    (q : Statement Key AuthThrottle Point)
    (now : ℤ) (k : Key) (rest : List Key) (hpoint : x.point = .inserting now k rest)
    (hstand : stand cfg x.point = .inl q) (hmoves : execute s x q = .moves y) :
    (x.view s.rows k ≠ none ∧ y = { x with point := .locking now k rest }) ∨
      (x.view s.rows k = none ∧ y = x.write k (some (freshRow now)) (.locking now k rest)) := by
  rw [hpoint] at hstand
  obtain rfl := Sum.inl.inj hstand
  simp only [execute] at hmoves
  split_ifs at hmoves
  split at hmoves
  · rename_i hview
    exact Or.inr ⟨hview, (Outcome.moves.inj hmoves).symm⟩
  · rename_i row hview
    exact Or.inl ⟨by simp [hview], (Outcome.moves.inj hmoves).symm⟩

theorem moves_locking (cfg : Config) (s : Table) (x y : Call) (q : Statement Key AuthThrottle Point)
    (now : ℤ) (k : Key) (rest : List Key) (hpoint : x.point = .locking now k rest)
    (hstand : stand cfg x.point = .inl q) (hmoves : execute s x q = .moves y) :
    ∃ row, x.view s.rows k = some row ∧ y = x.lock k (.updating now k row rest) := by
  rw [hpoint] at hstand
  obtain rfl := Sum.inl.inj hstand
  simp only [execute] at hmoves
  split at hmoves
  · cases hmoves
  · rename_i row hview
    split_ifs at hmoves
    exact ⟨row, hview, (Outcome.moves.inj hmoves).symm⟩

theorem moves_updating (cfg : Config) (s : Table) (x y : Call)
    (q : Statement Key AuthThrottle Point)
    (now : ℤ) (k : Key) (row : AuthThrottle) (rest : List Key)
    (hpoint : x.point = .updating now k row rest) (hview : x.view s.rows k ≠ none)
    (hstand : stand cfg x.point = .inl q) (hmoves : execute s x q = .moves y) :
    y = x.write k (some (failedRow cfg k.1 now (some row))) (registerFrom now rest) := by
  rw [hpoint] at hstand
  obtain rfl := Sum.inl.inj hstand
  simp only [execute, rewrite] at hmoves
  split at hmoves
  · rename_i hnone
    exact absurd hnone hview
  · split_ifs at hmoves
    exact (Outcome.moves.inj hmoves).symm

theorem moves_deleting (cfg : Config) (s : Table) (x y : Call)
    (q : Statement Key AuthThrottle Point)
    (k : Key) (hpoint : x.point = .deleting k) (hstand : stand cfg x.point = .inl q)
    (hmoves : execute s x q = .moves y) :
    (x.view s.rows k = none ∧ y = { x with point := .answered .reset }) ∨
      (x.view s.rows k ≠ none ∧ y = x.write k none (.answered .reset)) := by
  rw [hpoint] at hstand
  obtain rfl := Sum.inl.inj hstand
  simp only [execute, rewrite] at hmoves
  split at hmoves
  · rename_i hview
    exact Or.inl ⟨hview, (Outcome.moves.inj hmoves).symm⟩
  · rename_i row hview
    split_ifs at hmoves
    exact Or.inr ⟨by simp [hview], (Outcome.moves.inj hmoves).symm⟩

theorem moves_reading (cfg : Config) (s : Table) (x y : Call) (q : Statement Key AuthThrottle Point)
    (now : ℤ) (worst : ThrottleDecision) (k : Key) (rest : List Key)
    (hpoint : x.point = .reading now worst k rest) (hstand : stand cfg x.point = .inl q)
    (hmoves : execute s x q = .moves y) :
    y = { x with point := checkFrom now (worse now worst (x.view s.rows k)) rest } := by
  rw [hpoint] at hstand
  obtain rfl := Sum.inl.inj hstand
  exact (Outcome.moves.inj hmoves).symm

/-! ### What a call holds -/

/-- The rows of the keys that a failure has counted are written, the others are free. -/
def countedHold (cfg : Config) (rows : Key → Option AuthThrottle) (now : ℤ) (done : List Key)
    (k : Key) : Option (Hold AuthThrottle) :=
  if k ∈ done then some (.wrote (some (failedRow cfg k.1 now (rows k)))) else none

/-- How a call stands to the committed rows. -/
inductive Stands (cfg : Config) (rows : Key → Option AuthThrottle) (x : Call) : Prop
  | inserting (ip : List Char) (account : Option (List Char)) (now : ℤ) (done : List Key) (k : Key)
    (rest : List Key) (hrequest : x.request = .registerFailure ip account now)
    (hkeys : keys ip account = done ++ k :: rest) (hpoint : x.point = .inserting now k rest)
    (hholds : ∀ k', x.holds k' = countedHold cfg rows now done k')
  | locking (ip : List Char) (account : Option (List Char)) (now : ℤ) (done : List Key) (k : Key)
    (rest : List Key) (hrequest : x.request = .registerFailure ip account now)
    (hkeys : keys ip account = done ++ k :: rest) (hpoint : x.point = .locking now k rest)
    (hothers : ∀ k', k' ≠ k → x.holds k' = countedHold cfg rows now done k')
    (hown : x.holds k = none ∨
      (x.holds k = some (.wrote (some (freshRow now))) ∧ rows k = none))
  | updating (ip : List Char) (account : Option (List Char)) (now : ℤ) (done : List Key) (k : Key)
    (row : AuthThrottle) (rest : List Key) (hrequest : x.request = .registerFailure ip account now)
    (hkeys : keys ip account = done ++ k :: rest) (hpoint : x.point = .updating now k row rest)
    (hothers : ∀ k', k' ≠ k → x.holds k' = countedHold cfg rows now done k')
    (hown : x.holds k ≠ none) (hview : x.view rows k = some row)
    (hrow : row = (rows k).getD (freshRow now))
  | registered (ip : List Char) (account : Option (List Char)) (now : ℤ)
    (hrequest : x.request = .registerFailure ip account now)
    (hpoint : x.point = .answered .registered)
    (hholds : ∀ k', x.holds k' = countedHold cfg rows now (keys ip account) k')
  | deleting (account : List Char) (hrequest : x.request = .resetAccount account)
    (hpoint : x.point = .deleting (.account, account)) (hholds : ∀ k', x.holds k' = none)
  | reset (account : List Char) (hrequest : x.request = .resetAccount account)
    (hpoint : x.point = .answered .reset)
    (hothers : ∀ k', k' ≠ (Scope.account, account) → x.holds k' = none)
    (hown : x.holds (.account, account) = none ∨ x.holds (.account, account) = some (.wrote none))
  | reading (ip : List Char) (account : Option (List Char)) (now : ℤ) (worst : ThrottleDecision)
    (k : Key) (rest : List Key) (hrequest : x.request = .check ip account now)
    (hpoint : x.point = .reading now worst k rest) (hholds : ∀ k', x.holds k' = none)
  | decided (ip : List Char) (account : Option (List Char)) (now : ℤ) (decision : ThrottleDecision)
    (hrequest : x.request = .check ip account now)
    (hpoint : x.point = .answered (.decided decision)) (hholds : ∀ k', x.holds k' = none)

/-- What this says of the rows that the call holds, by its point. -/
def HeldAt (rows : Key → Option AuthThrottle) (x : Call) : Point → Prop
  | .locking now k _ => x.holds k = none ∨ x.holds k = some (.wrote (some (freshRow now)))
  | .updating _ k row _ => x.view rows k = some row
  | .deleting k => x.holds k = none
  | .reading .. => ∀ k, x.holds k = none
  | .inserting .. | .answered _ => True

theorem Stands.held {cfg : Config} {rows : Key → Option AuthThrottle} {x : Call}
    (h : Stands cfg rows x) : HeldAt rows x x.point := by
  cases h with
  | inserting ip account now done k rest _ _ hpoint => rw [hpoint]; trivial
  | locking ip account now done k rest _ _ hpoint _ hown =>
    rw [hpoint]
    exact hown.imp_right And.left
  | updating ip account now done k row rest _ _ hpoint _ _ hview => rw [hpoint]; exact hview
  | registered ip account now _ hpoint => rw [hpoint]; trivial
  | deleting account _ hpoint hholds => rw [hpoint]; exact hholds _
  | reset account _ hpoint => rw [hpoint]; trivial
  | reading ip account now worst k rest _ hpoint hholds => rw [hpoint]; exact hholds
  | decided ip account now decision _ hpoint => rw [hpoint]; trivial

theorem countedHold_congr (cfg : Config) (rows rows' : Key → Option AuthThrottle) (x : Call)
    (now : ℤ) (done : List Key) (k : Key)
    (h : x.holds k = countedHold cfg rows now done k)
    (hkept : x.holds k ≠ none → rows' k = rows k) :
    x.holds k = countedHold cfg rows' now done k := by
  rw [h, countedHold, countedHold]
  split_ifs with hk
  · rw [hkept (by simp [h, countedHold, hk])]
  · rfl

theorem view_congr (rows rows' : Key → Option AuthThrottle) (x : Call) (k : Key)
    (h : rows' k = rows k) : x.view rows' k = x.view rows k := by
  unfold Txn.view
  rw [h]

theorem Stands.frame {cfg : Config} {rows rows' : Key → Option AuthThrottle} {x : Call}
    (h : Stands cfg rows x) (hkept : ∀ k, x.holds k ≠ none → rows' k = rows k) :
    Stands cfg rows' x := by
  cases h with
  | inserting ip account now done k rest hrequest hkeys hpoint hholds =>
    exact .inserting ip account now done k rest hrequest hkeys hpoint
      fun k' => countedHold_congr cfg rows rows' x now done k' (hholds k') (hkept k')
  | locking ip account now done k rest hrequest hkeys hpoint hothers hown =>
    refine .locking ip account now done k rest hrequest hkeys hpoint
      (fun k' hk => countedHold_congr cfg rows rows' x now done k' (hothers k' hk) (hkept k')) ?_
    rcases hown with hfree | ⟨hfresh, hnone⟩
    · exact Or.inl hfree
    · exact Or.inr ⟨hfresh, (hkept k (by simp [hfresh])).trans hnone⟩
  | updating ip account now done k row rest hrequest hkeys hpoint hothers hown hview hrow =>
    exact .updating ip account now done k row rest hrequest hkeys hpoint
      (fun k' hk => countedHold_congr cfg rows rows' x now done k' (hothers k' hk) (hkept k')) hown
      ((view_congr rows rows' x k (hkept k hown)).trans hview) (by rw [hkept k hown, hrow])
  | registered ip account now hrequest hpoint hholds =>
    exact .registered ip account now hrequest hpoint
      fun k' => countedHold_congr cfg rows rows' x now _ k' (hholds k') (hkept k')
  | deleting account hrequest hpoint hholds => exact .deleting account hrequest hpoint hholds
  | reset account hrequest hpoint hothers hown => exact .reset account hrequest hpoint hothers hown
  | reading ip account now worst k rest hrequest hpoint hholds =>
    exact .reading ip account now worst k rest hrequest hpoint hholds
  | decided ip account now decision hrequest hpoint hholds =>
    exact .decided ip account now decision hrequest hpoint hholds

theorem stands_opened (cfg : Config) (rows : Key → Option AuthThrottle) (t : ℕ)
    (request : Request) :
    Stands cfg rows (opened (program cfg) t request) := by
  cases request with
  | registerFailure ip account now =>
    exact .inserting ip account now [] (.ip, ip) _ rfl rfl rfl
      fun k' => by simp [countedHold, opened]
  | resetAccount account => exact .deleting account rfl rfl fun _ => rfl
  | check ip account now => exact .reading ip account now ⟨true, 0⟩ (.ip, ip) _ rfl rfl fun _ => rfl

theorem notMem_done (ip : List Char) (account : Option (List Char)) (done : List Key) (k : Key)
    (rest : List Key) (h : keys ip account = done ++ k :: rest) : k ∉ done := by
  have hnodup := keys_nodup ip account
  rw [h, List.nodup_append] at hnodup
  exact fun hk => hnodup.2.2 k hk k (List.mem_cons_self ..) rfl

/-- After the update of a key, the call holds the rows of the keys up to this one. -/
theorem countedHold_write (cfg : Config) (rows : Key → Option AuthThrottle) (x : Call) (now : ℤ)
    (done : List Key) (k : Key) (next : Point)
    (hothers : ∀ k', k' ≠ k → x.holds k' = countedHold cfg rows now done k') (k' : Key) :
    (x.write k (some (failedRow cfg k.1 now (rows k))) next).holds k' =
      countedHold cfg rows now (done ++ [k]) k' := by
  by_cases hk : k' = k
  · subst hk
    simp [Txn.write, countedHold]
  · simp [Txn.write, hothers k' hk, countedHold, hk]

theorem stands_moves (cfg : Config) (s : Table) (x y : Call) (q : Statement Key AuthThrottle Point)
    (h : Stands cfg s.rows x) (hstand : stand cfg x.point = .inl q)
    (hmoves : execute s x q = .moves y) : Stands cfg s.rows y := by
  cases h with
  | inserting ip account now done k rest hrequest hkeys hpoint hholds =>
    have hfree : x.holds k = none := by
      rw [hholds k, countedHold, if_neg (notMem_done ip account done k rest hkeys)]
    rcases moves_inserting cfg s x y q now k rest hpoint hstand hmoves with
      ⟨-, rfl⟩ | ⟨hview, rfl⟩
    · exact .locking ip account now done k rest hrequest hkeys rfl (fun k' _ => hholds k')
        (Or.inl hfree)
    · rw [view_of_free x s.rows k hfree] at hview
      refine .locking ip account now done k rest hrequest hkeys rfl (fun k' hk => ?_)
        (Or.inr ⟨Function.update_self .., hview⟩)
      exact (Function.update_of_ne hk ..).trans (hholds k')
  | locking ip account now done k rest hrequest hkeys hpoint hothers hown =>
    obtain ⟨row, hview, rfl⟩ := moves_locking cfg s x y q now k rest hpoint hstand hmoves
    have hlocked : (x.lock k (.updating now k row rest)).holds k =
        some ((x.holds k).getD .locked) := Function.update_self ..
    refine .updating ip account now done k row rest hrequest hkeys rfl
      (fun k' hk => (Function.update_of_ne hk ..).trans (hothers k' hk)) (by simp [hlocked]) ?_ ?_
    · unfold Txn.view at hview ⊢
      rw [hlocked]
      rcases hown with hfree | ⟨hfresh, -⟩
      · rw [hfree] at hview ⊢
        exact hview
      · rw [hfresh] at hview ⊢
        exact hview
    · rcases hown with hfree | ⟨hfresh, hnone⟩
      · rw [view_of_free x s.rows k hfree] at hview
        rw [hview, Option.getD_some]
      · rw [view_of_wrote x s.rows k _ hfresh] at hview
        rw [hnone, Option.getD_none, ← Option.some.inj hview]
  | updating ip account now done k row rest hrequest hkeys hpoint hothers hown hview hrow =>
    obtain rfl := moves_updating cfg s x y q now k row rest hpoint (by simp [hview]) hstand hmoves
    rw [hrow, failedRow_fresh]
    have hholds := countedHold_write cfg s.rows x now done k (registerFrom now rest) hothers
    cases rest with
    | nil => exact .registered ip account now hrequest rfl fun k' => by rw [hkeys]; exact hholds k'
    | cons k' rest =>
      exact .inserting ip account now (done ++ [k]) k' rest hrequest (by simp [hkeys]) rfl hholds
  | registered ip account now hrequest hpoint hholds =>
    rw [hpoint] at hstand
    cases hstand
  | deleting account hrequest hpoint hholds =>
    rcases moves_deleting cfg s x y q _ hpoint hstand hmoves with ⟨-, rfl⟩ | ⟨-, rfl⟩
    · exact .reset account hrequest rfl (fun k' _ => hholds k') (Or.inl (hholds _))
    · exact .reset account hrequest rfl
        (fun k' hk => (Function.update_of_ne hk ..).trans (hholds k'))
        (Or.inr (Function.update_self ..))
  | reset account hrequest hpoint hothers hown =>
    rw [hpoint] at hstand
    cases hstand
  | reading ip account now worst k rest hrequest hpoint hholds =>
    obtain rfl := moves_reading cfg s x y q now worst k rest hpoint hstand hmoves
    cases rest with
    | nil => exact .decided ip account now _ hrequest rfl hholds
    | cons k' rest => exact .reading ip account now _ k' rest hrequest rfl hholds
  | decided ip account now decision hrequest hpoint hholds =>
    rw [hpoint] at hstand
    cases hstand

theorem stands_after (cfg : Config) (events : List (Event Request)) :
    ∀ x ∈ (after cfg events).txns, Stands cfg (after cfg events).rows x := by
  have hlocal : Local (program cfg) (fun _ => none)
      fun past x => Stands cfg (after cfg past).rows x := by
    refine ⟨fun past request => stands_opened cfg _ _ request, ?_, fun past e x _ h => h.frame⟩
    intro past x y q _ h hstand hmoves
    rw [after_append, rows_statement]
    exact stands_moves cfg (after cfg past) x y q h hstand hmoves
  exact hlocal.run events

/-- The limits that the settings have by default; the rest is not used here. -/
def throttleLimits : Config where
  loginFlowTtl := 0
  refreshAbsTtl := 0
  idleTtl := 0
  sessionTouchInterval := 0
  throttleWindow := 900000000
  accountFree := 3
  accountCap := 60
  ipFree := 10
  ipCap := 30
  lower key := key
  citext key := key
  sha256Hex key := key
  verifyPassword _ _ := false
  verifyCode _ _ _ := false
  upper key := key
  verifyAssertion _ _ _ := none
  verifyRegistration _ _ := none

def sampleFailure (now : ℤ) : Request :=
  .registerFailure "198.51.100.7".toList (some "ann@example.org".toList) now

end Hyproxy.ThrottleTransactions

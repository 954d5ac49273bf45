import Hyproxy.Runs
import Hyproxy.ThrottleTransactions

/-!
The assertion of the rate limiter that the row which it has locked exists. It fails exactly
when a reset is committed between the two statements of a failure: the insertion has found the
row and holds nothing, and the selection for update finds it no more.
-/

namespace Hyproxy.ThrottleAssertion

open Accounts RowLocks Runs ThrottleTransactions

/-- The commit deletes a row that a failure stands before locking. -/
def ResetBetween (s : Table) (e : Event Request) : Prop :=
  ∃ x ∈ s.txns, e = .commit x.id ∧ ∃ y ∈ s.txns, ∃ now k rest,
    y.point = .locking now k rest ∧ x.holds k = some (.wrote none)

/-- No open call is at a statement that raises. -/
def Safe (cfg : Config) (s : Table) : Prop :=
  ∀ x ∈ s.txns, ∀ q, stand cfg x.point = .inl q → execute s x q ≠ .raises

/-- The failures that are about to lock a row will find it. -/
def Found (s : Table) : Prop :=
  ∀ x ∈ s.txns, ∀ now k rest, x.point = .locking now k rest → x.view s.rows k ≠ none

theorem rewrite_not_raises (s : Table) (x : Call) (k : Key) (row : Option AuthThrottle)
    (next : Point) : rewrite s x k row next ≠ .raises := by
  unfold rewrite
  split
  · simp
  · split_ifs <;> simp

/-- Only the assertion raises. -/
theorem raises_iff (cfg : Config) (s : Table) (x : Call) (q : Statement Key AuthThrottle Point)
    (hstand : stand cfg x.point = .inl q) :
    execute s x q = .raises ↔ ∃ now k rest, x.point = .locking now k rest ∧
      x.view s.rows k = none := by
  cases hpoint : x.point with
  | answered a =>
    rw [hpoint] at hstand
    cases hstand
  | inserting now k rest =>
    rw [hpoint] at hstand
    obtain rfl := Sum.inl.inj hstand
    refine iff_of_false ?_ (by simp)
    simp only [execute]
    split_ifs
    · simp
    · split <;> simp
  | locking now k rest =>
    rw [hpoint] at hstand
    obtain rfl := Sum.inl.inj hstand
    simp only [execute, Point.locking.injEq]
    cases hview : x.view s.rows k with
    | none => simp [hview]
    | some row =>
      simp only [Option.map_some]
      refine iff_of_false (by split_ifs <;> simp) ?_
      rintro ⟨_, _, _, ⟨-, rfl, -⟩, hnone⟩
      rw [hview] at hnone
      cases hnone
  | updating now k row rest =>
    rw [hpoint] at hstand
    obtain rfl := Sum.inl.inj hstand
    exact iff_of_false (rewrite_not_raises s x k _ _) (by simp)
  | deleting k =>
    rw [hpoint] at hstand
    obtain rfl := Sum.inl.inj hstand
    exact iff_of_false (rewrite_not_raises s x k _ _) (by simp)
  | reading now worst k rest =>
    rw [hpoint] at hstand
    obtain rfl := Sum.inl.inj hstand
    exact iff_of_false (by simp [execute]) (by simp)

theorem safe_iff (cfg : Config) (s : Table) : Safe cfg s ↔ Found s := by
  constructor
  · intro h x hx now k rest hpoint hview
    have hstand : stand cfg x.point = .inl (.lock k fun row => row.map fun r =>
        .updating now k r rest) := by rw [hpoint, stand]
    exact h x hx _ hstand ((raises_iff cfg s x _ hstand).mpr ⟨now, k, rest, hpoint, hview⟩)
  · intro h x hx q hstand hraises
    obtain ⟨now, k, rest, hpoint, hview⟩ := (raises_iff cfg s x q hstand).mp hraises
    exact h x hx now k rest hpoint hview

/-- A failure before its lock holds nothing of the row, or it has inserted it. -/
theorem own_locking (cfg : Config) (rows : Key → Option AuthThrottle) (x : Call) (now : ℤ) (k : Key)
    (rest : List Key) (h : Stands cfg rows x) (hpoint : x.point = .locking now k rest) :
    x.holds k = none ∨ x.holds k = some (.wrote (some (freshRow now))) := by
  have hheld := h.held
  rw [hpoint] at hheld
  exact hheld

theorem view_updating (cfg : Config) (rows : Key → Option AuthThrottle) (x : Call) (now : ℤ)
    (k : Key) (row : AuthThrottle) (rest : List Key) (h : Stands cfg rows x)
    (hpoint : x.point = .updating now k row rest) : x.view rows k ≠ none := by
  have hview : x.view rows k = some row := by
    have hheld := h.held
    rw [hpoint] at hheld
    exact hheld
  simp [hview]

/-- A statement that leads to the lock has found the row, or inserted it. -/
theorem found_moves (cfg : Config) (s : Table) (x y : Call) (q : Statement Key AuthThrottle Point)
    (now : ℤ) (k : Key) (rest : List Key) (h : Stands cfg s.rows x)
    (hstand : stand cfg x.point = .inl q) (hmoves : execute s x q = .moves y)
    (hpoint : y.point = .locking now k rest) : y.view s.rows k ≠ none := by
  cases hx : x.point with
  | inserting now' k' rest' =>
    rcases moves_inserting cfg s x y q now' k' rest' hx hstand hmoves with
      ⟨hview, rfl⟩ | ⟨hview, rfl⟩
    · obtain ⟨-, rfl, -⟩ := Point.locking.inj hpoint
      exact hview
    · obtain ⟨-, rfl, -⟩ := Point.locking.inj hpoint
      rw [view_of_wrote _ s.rows k' (some (freshRow now')) (Function.update_self ..)]
      simp
  | locking now' k' rest' =>
    obtain ⟨row, -, rfl⟩ := moves_locking cfg s x y q now' k' rest' hx hstand hmoves
    cases hpoint
  | updating now' k' row rest' =>
    obtain rfl := moves_updating cfg s x y q now' k' row rest' hx
      (view_updating cfg s.rows x now' k' row rest' h hx) hstand hmoves
    cases rest' <;> cases hpoint
  | deleting k' =>
    rcases moves_deleting cfg s x y q k' hx hstand hmoves with ⟨-, rfl⟩ | ⟨-, rfl⟩ <;> cases hpoint
  | reading now' worst k' rest' =>
    obtain rfl := moves_reading cfg s x y q now' worst k' rest' hx hstand hmoves
    cases rest' <;> cases hpoint
  | answered a =>
    rw [hx] at hstand
    cases hstand

theorem point_opened (cfg : Config) (t : ℕ) (request : Request) (now : ℤ) (k : Key)
    (rest : List Key) : (opened (program cfg) t request).point ≠ .locking now k rest := by
  cases request <;> exact fun h => by cases h

/-- A commit that is no such reset leaves what the failures before their lock have found. -/
theorem found_commit (cfg : Config) (s : Table) (x y : Call) (now : ℤ) (k : Key) (rest : List Key)
    (hx : x ∈ s.txns) (hy : y ∈ s.txns) (hstands : Stands cfg s.rows y)
    (hguard : ¬ ResetBetween s (.commit x.id))
    (hpoint : y.point = .locking now k rest) (hfound : y.view s.rows k ≠ none) :
    y.view (x.view s.rows) k ≠ none := by
  rcases own_locking cfg s.rows y now k rest hstands hpoint with hfree | hfresh
  · rw [view_of_free y _ k hfree] at hfound ⊢
    cases hhold : x.holds k with
    | none => rwa [view_of_free x s.rows k hhold]
    | some hold =>
      cases hold with
      | locked => rwa [view_of_not_wrote x s.rows k (by rw [hhold]; rfl)]
      | wrote row =>
        rw [view_of_wrote x s.rows k row hhold]
        rintro rfl
        exact hguard ⟨x, hx, rfl, y, hy, now, k, rest, hpoint, hhold⟩
  · rw [view_of_wrote y _ k _ hfresh]
    simp

theorem found_step (cfg : Config) (past : List (Event Request)) (e : Event Request)
    (h : Found (after cfg past)) (hguard : ¬ ResetBetween (after cfg past) e) :
    Found (after cfg (past ++ [e])) := by
  have hstands := stands_after cfg past
  have hs : Exclusive (after cfg past) := exclusive_after (program cfg) _ past
  rw [after_append]
  generalize after cfg past = s at h hguard hstands hs ⊢
  generalize ht : step (program cfg) s e = s'
  have heffect := ht ▸ step_effect (program cfg) s e
  cases heffect with
  | wait => exact h
  | arrive request =>
    intro y hy now k rest hpoint
    rcases List.mem_cons.mp hy with rfl | hy
    · exact absurd hpoint (point_opened cfg _ request now k rest)
    · exact h y hy now k rest hpoint
  | moves x z q hmem hstand hmoves =>
    intro y hy now k rest hpoint
    rcases mem_put s z y hy with rfl | ⟨hy, -⟩
    · exact found_moves cfg s x y q now k rest (hstands x hmem) hstand hmoves hpoint
    · exact h y hy now k rest hpoint
  | raises x q hmem hstand hraises => exact fun y hy => h y ((mem_drop s x.id y).mp hy).1
  | commit x r hmem hstand =>
    intro y hy now k rest hpoint
    obtain ⟨hy, -⟩ := (mem_drop s x.id y).mp hy
    exact found_commit cfg s x y now k rest hmem hy (hstands y hy) hguard hpoint
      (h y hy now k rest hpoint)
  | rollback t => exact fun y hy => h y ((mem_drop s t y).mp hy).1

/-- Only a reset deletes, and it is ready to commit then. -/
theorem stand_deleted (cfg : Config) (rows : Key → Option AuthThrottle) (x : Call) (k : Key)
    (h : Stands cfg rows x) (hdeleted : x.holds k = some (.wrote none)) :
    stand cfg x.point = .inr .reset := by
  have hcounted : ∀ now done, x.holds k ≠ countedHold cfg rows now done k := by
    intro now done heq
    rw [hdeleted, countedHold] at heq
    split_ifs at heq
    simp at heq
  have hfree : x.holds k ≠ none := by simp [hdeleted]
  cases h with
  | reset account _ hpoint hothers hown => rw [hpoint, stand]
  | inserting ip account now done k' rest _ _ _ hholds =>
    exact absurd (hholds k) (hcounted now done)
  | locking ip account now done k' rest _ _ _ hothers hown =>
    by_cases hk : k = k'
    · subst hk
      rcases hown with hown | ⟨hown, -⟩
      · exact absurd hown hfree
      · rw [hdeleted] at hown
        simp at hown
    · exact absurd (hothers k hk) (hcounted now done)
  | updating ip account now done k' row rest _ _ _ hothers hown hview _ =>
    by_cases hk : k = k'
    · subst hk
      rw [view_of_wrote x rows k none hdeleted] at hview
      cases hview
    · exact absurd (hothers k hk) (hcounted now done)
  | registered ip account now _ _ hholds => exact absurd (hholds k) (hcounted now _)
  | deleting account _ _ hholds => exact absurd (hholds k) hfree
  | reading ip account now worst k' rest _ _ hholds => exact absurd (hholds k) hfree
  | decided ip account now decision _ _ hholds => exact absurd (hholds k) hfree

/-- After such a reset the failure finds no row to lock. -/
theorem lost_row (cfg : Config) (past : List (Event Request)) (e : Event Request)
    (h : ResetBetween (after cfg past) e) : ¬ Found (after cfg (past ++ [e])) := by
  obtain ⟨x, hx, rfl, y, hy, now, k, rest, hpoint, hdeleted⟩ := h
  have hstands := stands_after cfg past
  have hs : Exclusive (after cfg past) := exclusive_after (program cfg) _ past
  rw [after_append]
  generalize after cfg past = s at hx hy hstands hs ⊢
  have hown := own_locking cfg s.rows y now k rest (hstands y hy) hpoint
  have hne : y.id ≠ x.id := by
    intro heq
    obtain rfl := hs.ids y hy x hx heq
    rw [hdeleted] at hown
    simp at hown
  have hfree : y.holds k = none :=
    (hs.rows y hy x hx hne k).resolve_right (by simp [hdeleted])
  have hready := stand_deleted cfg s.rows x k (hstands x hx) hdeleted
  rw [step_commit (program cfg) s x .reset hs hx hready]
  intro hfound
  refine hfound y ((mem_drop s x.id y).mpr ⟨hy, hne⟩) now k rest hpoint ?_
  exact (view_of_free y _ k hfree).trans (view_of_wrote x s.rows k none hdeleted)

/-- In a run no assertion fails, wherever it is cut, exactly when no reset is committed between the
insertion of a failure and its selection of the row. -/
theorem assertion_holds_iff (cfg : Config) (events : List (Event Request)) :
    (∀ past rest, events = past ++ rest → Safe cfg (after cfg past)) ↔
      Along (step (program cfg)) (fun s e => ¬ ResetBetween s e) (after cfg []) events := by
  constructor
  · intro h
    refine (along_iff_cut _ _ _ _).mpr fun past e rest heq hbetween => ?_
    refine lost_row cfg past e hbetween ((safe_iff cfg _).mp (h (past ++ [e]) rest ?_))
    rw [heq, List.append_assoc, List.singleton_append]
  · rintro h past rest rfl
    have hpast := ((along_append _ _ _ _ _).mp h).1
    have hfound := hpast.history (fun past s => s = after cfg past ∧ Found s)
      ⟨rfl, fun x hx => by cases hx⟩ ?_
    · exact (safe_iff cfg _).mpr hfound.2
    · rintro past s e ⟨rfl, h⟩ hguard
      have hfound := found_step cfg past e h hguard
      exact ⟨(after_append cfg past e).symm, after_append cfg past e ▸ hfound⟩

/-- A failure is committed; a second one finds the row of the account, and a reset is committed
before it selects the row. -/
def resetBetweenRun : List (Event Request) :=
  [.arrive (sampleFailure 0), .statement 0, .statement 0, .statement 0, .statement 0, .statement 0,
    .statement 0, .commit 0, .arrive (sampleFailure 5), .statement 8, .statement 8, .statement 8,
    .statement 8, .arrive (.resetAccount "ann@example.org".toList), .statement 13, .commit 13]

/-- The assertion fails, and the failure is lost for the address as well. -/
theorem failure_lost :
    ¬ (∀ cfg events, Safe cfg (after cfg events)) ∧
      ¬ Safe throttleLimits (after throttleLimits resetBetweenRun) ∧
      ((after throttleLimits (resetBetweenRun ++ [.statement 8, .commit 8])).rows
        (.ip, "198.51.100.7".toList)).map AuthThrottle.failureCount = some 1 ∧
      (after throttleLimits (resetBetweenRun ++ [.statement 8, .commit 8])).answers.map
        Answered.id = [0, 13] := by
  have hlost : ¬ Safe throttleLimits (after throttleLimits resetBetweenRun) := by
    rw [safe_iff]
    intro h
    exact h _ (List.mem_cons_self ..) 5 (.account, "ann@example.org".toList) [] (by rfl) (by rfl)
  exact ⟨fun h => hlost (h _ _), hlost, by decide, by decide⟩

end Hyproxy.ThrottleAssertion

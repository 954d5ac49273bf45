import Hyproxy.OutsideCalls

/-!
Programs whose transactions take their row before they call outside about it. What such a program
keeps of one row at a time holds in every run: no two transactions hold a row, and what is called
about a row is called by who holds it.
-/
namespace Hyproxy.RowDiscipline

open OutsideCalls

variable {κ ν ι σ ω π ρ : Type} [DecidableEq κ]

/-- What holds of a row that nobody holds, of a transaction that holds no row, and of one that
does: of what is committed of its row, of its own version, and of the calls about the row. -/
structure Discipline (P : Program κ ν ι σ ω π ρ) where
  Open : κ → Option ν → List (Call κ σ ω) → Prop
  Idle : ι → π → Prop
  Held : ℕ → ι → π → Option ν → ν → List (Call κ σ ω) → Prop
  empty : ∀ k, Open k none []
  start : ∀ request, Idle request (P.start request)
  idleWrite : ∀ {request p}, Idle request p → ∀ row next, P.stand request p ≠ .write row next
  idleCall : ∀ {request p}, Idle request p → ∀ sent next, P.stand request p ≠ .call sent next
  heldLock : ∀ {t request p row mine calls}, Held t request p row mine calls →
    ∀ next, P.stand request p ≠ .lock next
  heldInsert : ∀ {t request p row mine calls}, Held t request p row mine calls →
    ∀ new next, P.stand request p ≠ .insert new next
  miss : ∀ {request p next}, Idle request p → P.stand request p = .lock next →
    Idle request (next none)
  lock : ∀ {t request p next row calls}, Idle request p → P.stand request p = .lock next →
    Open (P.key request) (some row) calls → (∀ c ∈ calls, c.txn ≠ t) →
      Held t request (next (some row)) (some row) row calls
  insert : ∀ {t request p new next calls}, Idle request p →
    P.stand request p = .insert new next → Open (P.key request) none calls →
      (∀ c ∈ calls, c.txn ≠ t) → Held t request next none new calls
  write : ∀ {t request p new next row mine calls}, Held t request p row mine calls →
    P.stand request p = .write new next →
      ∃ p', next = some p' ∧ Held t request p' row new calls
  call : ∀ {t request p sent next row mine calls outcome p'}, Held t request p row mine calls →
    P.stand request p = .call sent next → next outcome = some p' →
      Held t request p' row mine (calls ++ [⟨t, P.key request, sent, outcome⟩])
  raise : ∀ {t request p sent next row mine calls outcome}, Held t request p row mine calls →
    P.stand request p = .call sent next → next outcome = none → (∀ c ∈ calls, c.txn ≠ t) ∧
      Open (P.key request) row (calls ++ [⟨t, P.key request, sent, outcome⟩])
  commit : ∀ {t request p r row mine calls}, Held t request p row mine calls →
    P.stand request p = .answer r → Open (P.key request) (some mine) calls
  rollback : ∀ {t request p row mine calls}, Held t request p row mine calls →
    (∀ c ∈ calls, c.txn ≠ t) → Open (P.key request) row calls

variable {P : Program κ ν ι σ ω π ρ} (D : Discipline P)

/-- No row is held twice, and only who holds a row has called outside about it. -/
structure Sound (s : State κ ν ι σ ω π) : Prop where
  ids : ∀ x ∈ s.txns, ∀ y ∈ s.txns, x.id = y.id → x = y
  known : ∀ x ∈ s.txns, x.id < s.serial
  callers : ∀ c ∈ s.calls, c.txn < s.serial ∧
    ∀ x ∈ s.txns, x.id = c.txn → P.key x.request = c.key ∧ x.mine ≠ none
  alone : ∀ x ∈ s.txns, x.mine ≠ none → Free P s x.id (P.key x.request)
  idle : ∀ x ∈ s.txns, x.mine = none → D.Idle x.request x.point
  held : ∀ x ∈ s.txns, ∀ mine, x.mine = some mine →
    D.Held x.id x.request x.point (s.rows (P.key x.request)) mine (s.about (P.key x.request))
  free : ∀ k, (∀ x ∈ s.txns, P.key x.request = k → x.mine = none) →
    D.Open k (s.rows k) (s.about k)

theorem Sound.wait {s : State κ ν ι σ ω π} (hs : Sound D s) : Sound D s.wait where
  ids := hs.ids
  known x hx := Nat.lt_succ_of_lt (hs.known x hx)
  callers c hc := ⟨Nat.lt_succ_of_lt (hs.callers c hc).1, (hs.callers c hc).2⟩
  alone := hs.alone
  idle := hs.idle
  held := hs.held
  free := hs.free

theorem Sound.ids_proceed {s s' : State κ ν ι σ ω π} (hs : Sound D s) {x : Txn ν ι π}
    (x' : Option (Txn ν ι π))
    (htxns : ∀ y, y ∈ s'.txns ↔ (y ∈ s.txns ∧ y.id ≠ x.id) ∨ x' = some y)
    (hid : ∀ y, x' = some y → y.id = x.id) :
    ∀ y ∈ s'.txns, ∀ z ∈ s'.txns, y.id = z.id → y = z := by
  intro y hy z hz hsame
  rcases (htxns y).mp hy with ⟨hy, hney⟩ | hy <;> rcases (htxns z).mp hz with ⟨hz, hnez⟩ | hz
  · exact hs.ids y hy z hz hsame
  · exact absurd (hsame.trans (hid z hz)) hney
  · exact absurd (hsame.symm.trans (hid y hy)) hnez
  · exact Option.some.inj (hy.symm.trans hz)

theorem Sound.known_proceed {s s' : State κ ν ι σ ω π} (hs : Sound D s) {x : Txn ν ι π}
    (hx : x ∈ s.txns) (x' : Option (Txn ν ι π)) (hserial : s'.serial = s.serial + 1)
    (htxns : ∀ y, y ∈ s'.txns ↔ (y ∈ s.txns ∧ y.id ≠ x.id) ∨ x' = some y)
    (hid : ∀ y, x' = some y → y.id = x.id) : ∀ y ∈ s'.txns, y.id < s'.serial := by
  intro y hy
  rw [hserial]
  rcases (htxns y).mp hy with ⟨hy, -⟩ | hy
  · exact Nat.lt_succ_of_lt (hs.known y hy)
  · rw [hid y hy]
    exact Nat.lt_succ_of_lt (hs.known x hx)

/-- A transaction that holds its row, or that takes it while it is free, goes on or ends. -/
theorem Sound.change {s s' : State κ ν ι σ ω π} (hs : Sound D s) {x : Txn ν ι π}
    (hx : x ∈ s.txns) (x' : Option (Txn ν ι π)) (more : List (Call κ σ ω))
    (hfree : Free P s x.id (P.key x.request)) (hserial : s'.serial = s.serial + 1)
    (hrows : ∀ k, k ≠ P.key x.request → s'.rows k = s.rows k)
    (hcalls : s'.calls = s.calls ++ more)
    (hmore : ∀ c ∈ more, c.txn = x.id ∧ c.key = P.key x.request)
    (htxns : ∀ y, y ∈ s'.txns ↔ (y ∈ s.txns ∧ y.id ≠ x.id) ∨ x' = some y)
    (hnone : x' = none →
      D.Open (P.key x.request) (s'.rows (P.key x.request)) (s'.about (P.key x.request)))
    (hsome : ∀ y, x' = some y → y.id = x.id ∧ y.request = x.request ∧ ∃ mine, y.mine = some mine ∧
      D.Held x.id x.request y.point (s'.rows (P.key x.request)) mine
        (s'.about (P.key x.request))) : Sound D s' := by
  have habout : ∀ k, k ≠ P.key x.request → s'.about k = s.about k := by
    intro k hk
    have hother : more.filter (fun c => c.key == k) = [] := by
      refine List.filter_eq_nil_iff.mpr fun c hc heq => hk ?_
      rw [← (hmore c hc).2]
      exact (beq_iff_eq.mp heq).symm
    rw [State.about, State.about, hcalls, List.filter_append, hother, List.append_nil]
  refine ⟨?_, ?_, ?_, ?_, ?_, ?_, ?_⟩
  · exact hs.ids_proceed D x' htxns fun y hy => (hsome y hy).1
  · exact hs.known_proceed D hx x' hserial htxns fun y hy => (hsome y hy).1
  · intro c hc
    rw [hcalls] at hc
    rw [hserial]
    rcases List.mem_append.mp hc with hold | hnew
    · refine ⟨Nat.lt_succ_of_lt (hs.callers c hold).1, fun y hy hid => ?_⟩
      rcases (htxns y).mp hy with ⟨hy, -⟩ | hy
      · exact (hs.callers c hold).2 y hy hid
      · obtain ⟨hyid, hrequest, mine, hmine, -⟩ := hsome y hy
        rw [hrequest, hmine]
        exact ⟨((hs.callers c hold).2 x hx (hyid.symm.trans hid)).1, Option.some_ne_none _⟩
    · obtain ⟨htxn, hkey⟩ := hmore c hnew
      rw [htxn, hkey]
      refine ⟨Nat.lt_succ_of_lt (hs.known x hx), fun y hy hid => ?_⟩
      rcases (htxns y).mp hy with ⟨-, hne⟩ | hy
      · exact absurd hid hne
      · obtain ⟨-, hrequest, mine, hmine, -⟩ := hsome y hy
        rw [hrequest, hmine]
        exact ⟨rfl, Option.some_ne_none _⟩
  · intro y hy hmine z hz hne hkey
    rcases (htxns y).mp hy with ⟨hy, hney⟩ | hy <;> rcases (htxns z).mp hz with ⟨hz, hnez⟩ | hz
    · exact hs.alone y hy hmine z hz hne hkey
    · obtain ⟨-, hrequest, -⟩ := hsome z hz
      rw [hrequest] at hkey
      exact absurd (hfree y hy hney hkey.symm) hmine
    · obtain ⟨-, hrequest, -⟩ := hsome y hy
      rw [hrequest] at hkey
      exact hfree z hz hnez hkey
    · exact absurd (congrArg Txn.id (Option.some.inj (hz.symm.trans hy))) hne
  · intro y hy hmine
    rcases (htxns y).mp hy with ⟨hy, -⟩ | hy
    · exact hs.idle y hy hmine
    · obtain ⟨-, -, mine, hsome, -⟩ := hsome y hy
      rw [hmine] at hsome
      cases hsome
  · intro y hy mine hmine
    rcases (htxns y).mp hy with ⟨hy, hne⟩ | hy
    · have hkey : P.key y.request ≠ P.key x.request := by
        intro hkey
        rw [hfree y hy hne hkey] at hmine
        cases hmine
      rw [hrows _ hkey, habout _ hkey]
      exact hs.held y hy mine hmine
    · obtain ⟨hid, hrequest, mine', hmine', hheld⟩ := hsome y hy
      obtain rfl := Option.some.inj (hmine.symm.trans hmine')
      rw [hid, hrequest]
      exact hheld
  · intro k hk
    by_cases hkey : k = P.key x.request
    · subst hkey
      cases hx' : x' with
      | none => exact hnone hx'
      | some y =>
        obtain ⟨-, hrequest, mine, hmine, -⟩ := hsome y hx'
        rw [hk y ((htxns y).mpr (Or.inr hx')) (by rw [hrequest])] at hmine
        cases hmine
    · rw [hrows k hkey, habout k hkey]
      refine hs.free k fun y hy hykey => hk y ((htxns y).mpr (Or.inl ⟨hy, ?_⟩)) hykey
      intro hid
      rw [hs.ids y hy x hx hid] at hykey
      exact hkey hykey.symm

/-- A transaction that holds no row goes on without one, or ends. -/
theorem Sound.keep {s s' : State κ ν ι σ ω π} (hs : Sound D s) {x : Txn ν ι π}
    (hx : x ∈ s.txns) (x' : Option (Txn ν ι π)) (hmine : x.mine = none)
    (hserial : s'.serial = s.serial + 1) (hrows : s'.rows = s.rows) (hcalls : s'.calls = s.calls)
    (htxns : ∀ y, y ∈ s'.txns ↔ (y ∈ s.txns ∧ y.id ≠ x.id) ∨ x' = some y)
    (hsome : ∀ y, x' = some y → y.id = x.id ∧ y.request = x.request ∧ y.mine = none ∧
      D.Idle x.request y.point) : Sound D s' := by
  have habout : s'.about = s.about := by
    funext k
    rw [State.about, State.about, hcalls]
  refine ⟨?_, ?_, ?_, ?_, ?_, ?_, ?_⟩
  · exact hs.ids_proceed D x' htxns fun y hy => (hsome y hy).1
  · exact hs.known_proceed D hx x' hserial htxns fun y hy => (hsome y hy).1
  · intro c hc
    rw [hcalls] at hc
    rw [hserial]
    refine ⟨Nat.lt_succ_of_lt (hs.callers c hc).1, fun y hy hid => ?_⟩
    rcases (htxns y).mp hy with ⟨hy, -⟩ | hy
    · exact (hs.callers c hc).2 y hy hid
    · exact absurd hmine ((hs.callers c hc).2 x hx ((hsome y hy).1.symm.trans hid)).2
  · intro y hy hheld z hz hne hkey
    rcases (htxns y).mp hy with ⟨hy, -⟩ | hy
    · rcases (htxns z).mp hz with ⟨hz, -⟩ | hz
      · exact hs.alone y hy hheld z hz hne hkey
      · exact (hsome z hz).2.2.1
    · exact absurd (hsome y hy).2.2.1 hheld
  · intro y hy hnone
    rcases (htxns y).mp hy with ⟨hy, -⟩ | hy
    · exact hs.idle y hy hnone
    · rw [(hsome y hy).2.1]
      exact (hsome y hy).2.2.2
  · intro y hy mine hsomeMine
    rw [hrows, habout]
    rcases (htxns y).mp hy with ⟨hy, -⟩ | hy
    · exact hs.held y hy mine hsomeMine
    · rw [(hsome y hy).2.2.1] at hsomeMine
      cases hsomeMine
  · intro k hk
    rw [hrows, habout]
    refine hs.free k fun y hy hkey => ?_
    by_cases hid : y.id = x.id
    · rw [hs.ids y hy x hx hid, hmine]
    · exact hk y ((htxns y).mpr (Or.inl ⟨hy, hid⟩)) hkey

theorem Sound.arrive {s : State κ ν ι σ ω π} (hs : Sound D s) (request : ι) :
    Sound D { s.wait with txns := ⟨s.serial, request, P.start request, none⟩ :: s.txns } := by
  refine ⟨?_, ?_, ?_, ?_, ?_, ?_, ?_⟩
  · intro y hy z hz hid
    rcases List.mem_cons.mp hy with rfl | hy <;> rcases List.mem_cons.mp hz with rfl | hz
    · rfl
    · exact absurd (hs.known z hz) (hid ▸ Nat.lt_irrefl _)
    · exact absurd (hs.known y hy) (hid ▸ Nat.lt_irrefl _)
    · exact hs.ids y hy z hz hid
  · intro y hy
    rcases List.mem_cons.mp hy with rfl | hy
    · exact Nat.lt_succ_self _
    · exact Nat.lt_succ_of_lt (hs.known y hy)
  · intro c hc
    refine ⟨Nat.lt_succ_of_lt (hs.callers c hc).1, fun y hy hid => ?_⟩
    rcases List.mem_cons.mp hy with rfl | hy
    · exact absurd (hs.callers c hc).1 (hid ▸ Nat.lt_irrefl _)
    · exact (hs.callers c hc).2 y hy hid
  · intro y hy hheld z hz hne hkey
    rcases List.mem_cons.mp hy with rfl | hy
    · exact absurd rfl hheld
    · rcases List.mem_cons.mp hz with rfl | hz
      · rfl
      · exact hs.alone y hy hheld z hz hne hkey
  · intro y hy hnone
    rcases List.mem_cons.mp hy with rfl | hy
    · exact D.start request
    · exact hs.idle y hy hnone
  · intro y hy mine hmine
    rcases List.mem_cons.mp hy with rfl | hy
    · cases hmine
    · exact hs.held y hy mine hmine
  · intro k hk
    exact hs.free k fun y hy hkey => hk y (List.mem_cons_of_mem _ hy) hkey

theorem Sound.uncalled {s : State κ ν ι σ ω π} (hs : Sound D s) {x : Txn ν ι π}
    (hx : x ∈ s.txns) (hmine : x.mine = none) :
    ∀ c ∈ s.about (P.key x.request), c.txn ≠ x.id := by
  intro c hc hid
  exact ((hs.callers c (List.mem_filter.mp hc).1).2 x hx hid.symm).2 hmine

/-- What a transaction finds when it takes its row. -/
theorem Sound.before {s : State κ ν ι σ ω π} (hs : Sound D s) {x : Txn ν ι π} (hx : x ∈ s.txns)
    (hmine : x.mine = none) (hfree : Free P s x.id (P.key x.request)) :
    D.Open (P.key x.request) (s.rows (P.key x.request)) (s.about (P.key x.request)) ∧
      ∀ c ∈ s.about (P.key x.request), c.txn ≠ x.id := by
  constructor
  · refine hs.free _ fun y hy hkey => ?_
    by_cases hid : y.id = x.id
    · rw [hs.ids y hy x hx hid, hmine]
    · exact hfree y hy hid hkey
  · exact hs.uncalled D hx hmine

theorem Sound.drop {s : State κ ν ι σ ω π} (hs : Sound D s) {x : Txn ν ι π} (hx : x ∈ s.txns)
    (hcalled : ∀ c ∈ s.about (P.key x.request), c.txn ≠ x.id) :
    Sound D { s.wait with txns := s.drop x.id } := by
  have htxns := fun y => mem_proceed s x y x.mine none hx
  cases hmine : x.mine with
  | none => exact hs.keep D hx none hmine rfl rfl rfl htxns (by simp)
  | some mine =>
    have hheld := hs.held x hx mine hmine
    refine hs.change D hx none [] (hs.alone x hx (by simp [hmine])) rfl (fun _ _ => rfl)
      (List.append_nil _).symm (by simp) htxns (fun _ => ?_) (by simp)
    exact D.rollback hheld hcalled

theorem Sound.idle_of_lock {s : State κ ν ι σ ω π} (hs : Sound D s) {x : Txn ν ι π}
    (hx : x ∈ s.txns) {next : Option ν → π} (hstand : P.stand x.request x.point = .lock next) :
    x.mine = none := by
  cases hmine : x.mine with
  | none => rfl
  | some mine => exact absurd hstand (D.heldLock (hs.held x hx mine hmine) next)

theorem Sound.idle_of_insert {s : State κ ν ι σ ω π} (hs : Sound D s) {x : Txn ν ι π}
    (hx : x ∈ s.txns) {row : ν} {next : π} (hstand : P.stand x.request x.point = .insert row next) :
    x.mine = none := by
  cases hmine : x.mine with
  | none => rfl
  | some mine => exact absurd hstand (D.heldInsert (hs.held x hx mine hmine) row next)

theorem Sound.mine_of_write {s : State κ ν ι σ ω π} (hs : Sound D s) {x : Txn ν ι π}
    (hx : x ∈ s.txns) {row : ν} {next : Option π}
    (hstand : P.stand x.request x.point = .write row next) : ∃ mine, x.mine = some mine := by
  cases hmine : x.mine with
  | none => exact absurd hstand (D.idleWrite (hs.idle x hx hmine) row next)
  | some mine => exact ⟨mine, rfl⟩

theorem Sound.mine_of_call {s : State κ ν ι σ ω π} (hs : Sound D s) {x : Txn ν ι π}
    (hx : x ∈ s.txns) {sent : σ} {next : ω → Option π}
    (hstand : P.stand x.request x.point = .call sent next) : ∃ mine, x.mine = some mine := by
  cases hmine : x.mine with
  | none => exact absurd hstand (D.idleCall (hs.idle x hx hmine) sent next)
  | some mine => exact ⟨mine, rfl⟩

/-- The transaction takes its row. -/
theorem Sound.take {s : State κ ν ι σ ω π} (hs : Sound D s) {x : Txn ν ι π} (hx : x ∈ s.txns)
    (row : ν) (p : π) (hfree : Free P s x.id (P.key x.request))
    (hheld : D.Held x.id x.request p (s.rows (P.key x.request)) row
      (s.about (P.key x.request))) : Sound D (s.proceed x (some row) (some p)) := by
  refine hs.change D hx (some ⟨x.id, x.request, p, some row⟩) [] hfree rfl (fun _ _ => rfl)
    (List.append_nil _).symm (by simp) (fun y => mem_proceed s x y (some row) (some p) hx)
    (by simp) ?_
  rintro y ⟨⟩
  exact ⟨rfl, rfl, row, rfl, hheld⟩

theorem Sound.call {s : State κ ν ι σ ω π} (hs : Sound D s) {x : Txn ν ι π} (hx : x ∈ s.txns)
    {sent : σ} {next : ω → Option π} {mine : ν} (outcome : ω) (hmine : x.mine = some mine)
    (hstand : P.stand x.request x.point = .call sent next) :
    Sound D (State.proceed { s with calls := s.calls ++ [⟨x.id, P.key x.request, sent, outcome⟩] }
      x x.mine (next outcome)) := by
  have hheld := hs.held x hx mine hmine
  have hfree := hs.alone x hx (by simp [hmine])
  have habout : ∀ s' : State κ ν ι σ ω π,
      s'.calls = s.calls ++ [⟨x.id, P.key x.request, sent, outcome⟩] →
        s'.about (P.key x.request) =
          s.about (P.key x.request) ++ [⟨x.id, P.key x.request, sent, outcome⟩] := by
    intro s' hs'
    simp [State.about, hs']
  cases hnext : next outcome with
  | none =>
    refine hs.change D hx none [⟨x.id, P.key x.request, sent, outcome⟩] hfree rfl
      (fun _ _ => rfl) rfl (by simp) (fun y => mem_proceed s x y none none hx) (fun _ => ?_)
      (by simp)
    rw [habout _ rfl]
    exact (D.raise hheld hstand hnext).2
  | some p =>
    refine hs.change D hx (some ⟨x.id, x.request, p, x.mine⟩)
      [⟨x.id, P.key x.request, sent, outcome⟩] hfree rfl (fun _ _ => rfl) rfl (by simp)
      (fun y => mem_proceed s x y x.mine (some p) hx) (by simp) ?_
    rintro y ⟨⟩
    refine ⟨rfl, rfl, mine, hmine, ?_⟩
    rw [habout _ rfl]
    exact D.call hheld hstand hnext

theorem Sound.step {s : State κ ν ι σ ω π} (hs : Sound D s) (e : Event ι ω) :
    Sound D (step P s e) := by
  have heffect := step_effect P s e
  generalize OutsideCalls.step P s e = s' at heffect
  cases heffect with
  | wait => exact hs.wait
  | arrive request => exact hs.arrive D request
  | miss x next hx hstand hview =>
    have hmine := hs.idle_of_lock D hx hstand
    refine hs.keep D hx (some ⟨x.id, x.request, next none, none⟩) hmine rfl rfl rfl ?_ ?_
    · intro y
      simpa [hmine] using mem_proceed s x y x.mine (some (next none)) hx
    · rintro y ⟨⟩
      exact ⟨rfl, rfl, rfl, D.miss (hs.idle x hx hmine) hstand⟩
  | lock x next row hx hstand hview hfree =>
    have hmine := hs.idle_of_lock D hx hstand
    obtain ⟨hopen, hcalls⟩ := hs.before D hx hmine hfree
    rw [view_of_idle P s x hmine] at hview
    refine hs.take D hx row _ hfree ?_
    rw [hview] at hopen ⊢
    exact D.lock (hs.idle x hx hmine) hstand hopen hcalls
  | insert x row next hx hstand hview hfree =>
    have hmine := hs.idle_of_insert D hx hstand
    obtain ⟨hopen, hcalls⟩ := hs.before D hx hmine hfree
    rw [view_of_idle P s x hmine] at hview
    refine hs.take D hx row _ hfree ?_
    rw [hview] at hopen ⊢
    exact D.insert (hs.idle x hx hmine) hstand hopen hcalls
  | conflict x row next hx hstand =>
    exact hs.drop D hx (hs.uncalled D hx (hs.idle_of_insert D hx hstand))
  | missing x row next hx hstand hview =>
    obtain ⟨mine, hmine⟩ := hs.mine_of_write D hx hstand
    simp [view_of_held P s x mine hmine] at hview
  | write x row next hx hstand hfree =>
    obtain ⟨mine, hmine⟩ := hs.mine_of_write D hx hstand
    obtain ⟨p, rfl, hheld⟩ := D.write (hs.held x hx mine hmine) hstand
    exact hs.take D hx row p hfree hheld
  | call x sent next outcome hx hstand =>
    obtain ⟨mine, hmine⟩ := hs.mine_of_call D hx hstand
    exact hs.call D hx outcome hmine hstand
  | commit x r hx hstand =>
    cases hmine : x.mine with
    | none =>
      refine hs.keep D hx none hmine rfl ?_ rfl (fun y => mem_proceed s x y none none hx) (by simp)
      rw [view_of_idle P s x hmine]
      exact Function.update_eq_self _ _
    | some mine =>
      have hheld := hs.held x hx mine hmine
      refine hs.change D hx none [] (hs.alone x hx (by simp [hmine])) rfl
        (fun k hk => Function.update_of_ne hk _ _) (List.append_nil _).symm (by simp)
        (fun y => mem_proceed s x y none none hx) (fun _ => ?_) (by simp)
      have hrow : Function.update s.rows (P.key x.request) (x.view P s) (P.key x.request) =
          some mine := by
        rw [Function.update_self, view_of_held P s x mine hmine]
      exact hrow.symm ▸ D.commit hheld hstand
  | rollback t hcalled =>
    by_cases hopen : ∃ x ∈ s.txns, x.id = t
    · obtain ⟨x, hx, rfl⟩ := hopen
      refine hs.drop D hx fun c hc hid => ?_
      have hnone := List.any_eq_false.mp hcalled c (List.mem_filter.mp hc).1
      exact hnone (beq_iff_eq.mpr hid)
    · have hsame : s.drop t = s.txns := by
        refine List.filter_eq_self.mpr fun x hx => bne_iff_ne.mpr fun hid => hopen ⟨x, hx, hid⟩
      rw [hsame]
      exact hs.wait

theorem sound_after (events : List (Event ι ω)) : Sound D (after P events) := by
  induction events using List.reverseRecOn with
  | nil => exact ⟨by simp [after], by simp [after], by simp [after], by simp [after],
      by simp [after], by simp [after], fun k _ => D.empty k⟩
  | append_singleton past e ih =>
    rw [after_concat]
    exact ih.step D e

/-! ### Runs -/

theorem rows_step {s : State κ ν ι σ ω π} (hs : Sound D s) (e : Event ι ω) (k : κ) :
    (step P s e).rows k = s.rows k ∨ ∃ t request p r mine, P.stand request p = .answer r ∧
      D.Held t request p (s.rows k) mine (s.about k) ∧ (step P s e).rows k = some mine := by
  have heffect := step_effect P s e
  generalize step P s e = s' at heffect
  cases heffect with
  | wait | arrive | rollback => exact Or.inl rfl
  | miss | lock | insert | conflict | missing | write | call => exact Or.inl (by simp)
  | commit x r hx hstand =>
    rw [proceed_rows]
    by_cases hk : k = P.key x.request
    · subst hk
      dsimp only
      rw [Function.update_self]
      cases hmine : x.mine with
      | none => exact Or.inl (view_of_idle P s x hmine)
      | some mine =>
        refine Or.inr ⟨x.id, x.request, x.point, r, mine, hstand, hs.held x hx mine hmine, ?_⟩
        exact view_of_held P s x mine hmine
    · exact Or.inl (Function.update_of_ne hk _ _)

/-- What a commit keeps of a row is kept by every run. -/
theorem rows_related (R : Option ν → Option ν → Prop) (hrefl : ∀ row, R row row)
    (htrans : ∀ a b c, R a b → R b c → R a c)
    (hcommit : ∀ {t request p r row mine calls}, D.Held t request p row mine calls →
      P.stand request p = .answer r → R row (some mine))
    (first more : List (Event ι ω)) (k : κ) :
    R ((after P first).rows k) ((after P (first ++ more)).rows k) := by
  induction more using List.reverseRecOn with
  | nil =>
    rw [List.append_nil]
    exact hrefl _
  | append_singleton past e ih =>
    rw [← List.append_assoc, after_concat]
    refine htrans _ _ _ ih ?_
    rcases rows_step D (sound_after D (first ++ past)) e k with hsame | ⟨_, _, _, _, _, hstand,
      hheld, hrow⟩
    · rw [hsame]
      exact hrefl _
    · rw [hrow]
      exact hcommit hheld hstand

/-- A transaction that has called outside stays open in a step, unless it commits. -/
theorem call_step {s : State κ ν ι σ ω π} (hs : Sound D s) (e : Event ι ω) (c : Call κ σ ω)
    (hc : c ∈ s.calls) (x : Txn ν ι π) (hx : x ∈ s.txns) (hid : x.id = c.txn) :
    (∃ y ∈ (step P s e).txns, y.id = c.txn) ∨ ∃ r mine, e = .commit c.txn ∧
      P.stand x.request x.point = .answer r ∧ x.mine = some mine ∧
        (step P s e).rows c.key = some mine := by
  obtain ⟨hkey, hmine⟩ := (hs.callers c hc).2 x hx hid
  have hstays : ∀ (s' : State κ ν ι σ ω π) (y : Txn ν ι π) (mine : Option ν) (next : Option π),
      s'.txns = s.txns → y ∈ s.txns → (y.id = c.txn → next ≠ none) →
        ∃ z ∈ (s'.proceed y mine next).txns, z.id = c.txn := by
    intro s' y mine next htxns hy hnext
    have hmem := fun z => mem_proceed s' y z mine next (htxns ▸ hy)
    by_cases hyid : y.id = c.txn
    · obtain ⟨p, rfl⟩ := Option.ne_none_iff_exists'.mp (hnext hyid)
      exact ⟨_, (hmem _).mpr (Or.inr rfl), hyid⟩
    · refine ⟨x, (hmem x).mpr (Or.inl ⟨htxns ▸ hx, fun h => hyid ?_⟩), hid⟩
      exact h.symm.trans hid
  have heffect := step_effect P s e
  generalize step P s e = s' at heffect
  cases heffect with
  | wait => exact Or.inl ⟨x, hx, hid⟩
  | arrive => exact Or.inl ⟨x, List.mem_cons_of_mem _ hx, hid⟩
  | miss y next hy => exact Or.inl (hstays s y _ _ rfl hy (by simp))
  | lock y next row hy => exact Or.inl (hstays s y _ _ rfl hy (by simp))
  | insert y row next hy => exact Or.inl (hstays s y _ _ rfl hy (by simp))
  | conflict y row next hy hstand =>
    refine Or.inl (hstays s y _ _ rfl hy fun hyid => ?_)
    rw [hs.ids y hy x hx (hyid.trans hid.symm)] at hstand
    exact absurd (hs.idle_of_insert D hx hstand) hmine
  | missing y row next hy hstand hview =>
    obtain ⟨mine, hymine⟩ := hs.mine_of_write D hy hstand
    simp [view_of_held P s y mine hymine] at hview
  | write y row next hy hstand =>
    obtain ⟨mine, hymine⟩ := hs.mine_of_write D hy hstand
    obtain ⟨p, rfl, -⟩ := D.write (hs.held y hy mine hymine) hstand
    exact Or.inl (hstays s y _ _ rfl hy (by simp))
  | call y sent next outcome hy hstand =>
    refine Or.inl (hstays _ y _ _ rfl hy fun hyid hnone => ?_)
    obtain ⟨mine, hymine⟩ := Option.ne_none_iff_exists'.mp hmine
    rw [hs.ids y hy x hx (hyid.trans hid.symm)] at hstand
    refine (D.raise (hs.held x hx mine hymine) hstand hnone).1 c ?_ hid.symm
    exact List.mem_filter.mpr ⟨hc, beq_iff_eq.mpr hkey.symm⟩
  | commit y r hy hstand =>
    by_cases hyid : y.id = c.txn
    · obtain rfl := hs.ids y hy x hx (hyid.trans hid.symm)
      obtain ⟨mine, hymine⟩ := Option.ne_none_iff_exists'.mp hmine
      refine Or.inr ⟨r, mine, congrArg Event.commit hyid, hstand, hymine, ?_⟩
      rw [proceed_rows, ← hkey]
      dsimp only
      rw [Function.update_self, view_of_held P s y mine hymine]
    · exact Or.inl (hstays _ y _ _ rfl hy fun h => absurd h hyid)
  | rollback t hcalled =>
    refine Or.inl ⟨x, (mem_drop s t x).mpr ⟨hx, fun ht => ?_⟩, hid⟩
    have hnone := List.any_eq_false.mp hcalled c hc
    exact hnone (beq_iff_eq.mpr (hid.symm.trans ht))

/-- A transaction that has called outside is open, or it has committed. -/
theorem call_ends (events : List (Event ι ω)) (c : Call κ σ ω) (hc : c ∈ (after P events).calls)
    (hanswer : ∀ {request p sent next}, P.stand request p = .call sent next →
      next c.outcome ≠ none) :
    (∃ x ∈ (after P events).txns, x.id = c.txn) ∨
      ∃ past rest request p r row mine, events = past ++ .commit c.txn :: rest ∧
        P.stand request p = .answer r ∧ c ∈ (after P past).about c.key ∧
          D.Held c.txn request p row mine ((after P past).about c.key) ∧
            (after P (past ++ [.commit c.txn])).rows c.key = some mine := by
  induction events using List.reverseRecOn with
  | nil => cases hc
  | append_singleton past e ih =>
    have hs := sound_after D past
    by_cases hold : c ∈ (after P past).calls
    · rcases ih hold with ⟨x, hx, hid⟩ | ⟨past', rest, request, p, r, row, mine, rfl, hrest⟩
      · rcases call_step D hs e c hold x hx hid with hopen | ⟨r, mine, rfl, hstand, hmine, hrow⟩
        · rw [after_concat]
          exact Or.inl hopen
        · have hkey := ((hs.callers c hold).2 x hx hid).1
          refine Or.inr ⟨past, [], x.request, x.point, r,
            (after P past).rows c.key, mine, rfl, hstand, ?_, ?_, ?_⟩
          · exact List.mem_filter.mpr ⟨hold, beq_self_eq_true _⟩
          · rw [← hid, ← hkey]
            exact hs.held x hx mine hmine
          · rw [after_concat]
            exact hrow
      · refine Or.inr ⟨past', rest ++ [e], request, p, r, row, mine, ?_, hrest⟩
        rw [List.append_assoc, List.cons_append]
    · left
      rw [after_concat] at hc ⊢
      have heffect := step_effect P (after P past) e
      generalize step P (after P past) e = s' at heffect hc
      cases heffect with
      | wait | arrive | rollback => exact absurd hc hold
      | miss | lock | insert | conflict | missing | write | commit =>
        rw [proceed_calls] at hc
        exact absurd hc hold
      | call x sent next outcome hx hstand =>
        rw [proceed_calls, List.mem_append, List.mem_singleton] at hc
        obtain rfl := hc.resolve_left hold
        cases hnext : next outcome with
        | none => exact absurd hnext (hanswer hstand)
        | some p =>
          exact ⟨_, (mem_proceed _ x _ x.mine (some p) hx).mpr (Or.inr rfl), rfl⟩

end Hyproxy.RowDiscipline

import Mathlib.Data.List.Induction
import Mathlib.Data.Nat.Notation
import Mathlib.Logic.Function.Basic
import Mathlib.Tactic.SplitIfs

/-!
Transactions that work on one row each and may call something outside the database while they hold
it. A row is held from the statement that locks or writes it to the end of the transaction, and
the others do not see what is written before the commit. A transaction that has got an answer from
outside is not rolled back any more, unless it raises.
-/
namespace Hyproxy.OutsideCalls

variable {κ ν ι σ ω π ρ : Type}

/-- What a transaction does next: SELECT FOR UPDATE, INSERT or UPDATE of its row, a call, or the
answer that it commits with. An update and a call may be followed by an exception. -/
inductive Stand (ν σ ω π ρ : Type)
  | lock (next : Option ν → π)
  | insert (row : ν) (next : π)
  | write (row : ν) (next : Option π)
  | call (sent : σ) (next : ω → Option π)
  | answer (r : ρ)

structure Program (κ ν ι σ ω π ρ : Type) where
  key : ι → κ
  start : ι → π
  stand : ι → π → Stand ν σ ω π ρ

/-- `mine` is the row as the transaction sees it, when it holds the row. -/
structure Txn (ν ι π : Type) where
  id : ℕ
  request : ι
  point : π
  mine : Option ν

structure Call (κ σ ω : Type) where
  txn : ℕ
  key : κ
  sent : σ
  outcome : ω
  deriving Repr, DecidableEq

structure State (κ ν ι σ ω π : Type) where
  rows : κ → Option ν
  txns : List (Txn ν ι π)
  calls : List (Call κ σ ω)
  serial : ℕ

inductive Event (ι ω : Type)
  | arrive (request : ι)
  | statement (t : ℕ)
  | call (t : ℕ) (outcome : ω)
  | commit (t : ℕ)
  | rollback (t : ℕ)
  deriving Repr, DecidableEq

def State.txn (s : State κ ν ι σ ω π) (t : ℕ) : Option (Txn ν ι π) :=
  s.txns.find? fun x => x.id == t

def State.put (s : State κ ν ι σ ω π) (x : Txn ν ι π) : List (Txn ν ι π) :=
  s.txns.map fun y => if y.id = x.id then x else y

def State.drop (s : State κ ν ι σ ω π) (t : ℕ) : List (Txn ν ι π) :=
  s.txns.filter fun y => y.id != t

def State.wait (s : State κ ν ι σ ω π) : State κ ν ι σ ω π := { s with serial := s.serial + 1 }

def State.called (s : State κ ν ι σ ω π) (t : ℕ) : Bool := s.calls.any fun c => c.txn == t

/-- The calls about a row. -/
def State.about [DecidableEq κ] (s : State κ ν ι σ ω π) (k : κ) : List (Call κ σ ω) :=
  s.calls.filter fun c => c.key == k

/-- The transaction goes on at a point, or it ends. -/
def State.proceed (s : State κ ν ι σ ω π) (x : Txn ν ι π) (mine : Option ν) :
    Option π → State κ ν ι σ ω π
  | none => { s.wait with txns := s.drop x.id }
  | some p => { s.wait with txns := s.put ⟨x.id, x.request, p, mine⟩ }

section Step

variable [DecidableEq κ] (P : Program κ ν ι σ ω π ρ) (s : State κ ν ι σ ω π)

/-- Another open transaction holds the row. -/
def held (t : ℕ) (k : κ) : Bool :=
  s.txns.any fun y => y.id != t && (P.key y.request == k && y.mine.isSome)

def take (x : Txn ν ι π) (row : ν) (next : Option π) : State κ ν ι σ ω π :=
  if held P s x.id (P.key x.request) then s.wait else s.proceed x (some row) next

def Txn.view (x : Txn ν ι π) : Option ν := x.mine.or (s.rows (P.key x.request))

def runStatement (x : Txn ν ι π) : State κ ν ι σ ω π :=
  match P.stand x.request x.point with
  | .lock next =>
    match x.view P s with
    | none => s.proceed x x.mine (some (next none))
    | some row => take P s x row (some (next (some row)))
  | .insert row next =>
    match x.view P s with
    | none => take P s x row (some next)
    | some _ => s.proceed x x.mine none
  | .write row next =>
    match x.view P s with
    | none => s.proceed x x.mine next
    | some _ => take P s x row next
  | _ => s.wait

def runCall (x : Txn ν ι π) (outcome : ω) : State κ ν ι σ ω π :=
  match P.stand x.request x.point with
  | .call sent next =>
    State.proceed { s with calls := s.calls ++ [⟨x.id, P.key x.request, sent, outcome⟩] } x x.mine
      (next outcome)
  | _ => s.wait

def runCommit (x : Txn ν ι π) : State κ ν ι σ ω π :=
  match P.stand x.request x.point with
  | .answer _ =>
    State.proceed { s with rows := Function.update s.rows (P.key x.request) (x.view P s) } x x.mine
      none
  | _ => s.wait

/-- The number of the step in which a transaction arrives is its identifier. -/
def step : Event ι ω → State κ ν ι σ ω π
  | .arrive request =>
    { s.wait with txns := ⟨s.serial, request, P.start request, none⟩ :: s.txns }
  | .statement t => ((s.txn t).map (runStatement P s)).getD s.wait
  | .call t outcome => ((s.txn t).map fun x => runCall P s x outcome).getD s.wait
  | .commit t => ((s.txn t).map (runCommit P s)).getD s.wait
  | .rollback t => if s.called t then s.wait else { s.wait with txns := s.drop t }

end Step

def after [DecidableEq κ] (P : Program κ ν ι σ ω π ρ) (events : List (Event ι ω)) :
    State κ ν ι σ ω π :=
  events.foldl (step P) ⟨fun _ => none, [], [], 0⟩

theorem after_concat [DecidableEq κ] (P : Program κ ν ι σ ω π ρ) (events : List (Event ι ω))
    (e : Event ι ω) : after P (events ++ [e]) = step P (after P events) e := by
  rw [after, List.foldl_append]
  rfl

/-! ### What a step can do -/

theorem txn_some (s : State κ ν ι σ ω π) (t : ℕ) (x : Txn ν ι π) (h : s.txn t = some x) :
    x ∈ s.txns ∧ x.id = t := by
  refine ⟨List.mem_of_find?_eq_some h, ?_⟩
  simpa using List.find?_some h

theorem mem_drop (s : State κ ν ι σ ω π) (t : ℕ) (y : Txn ν ι π) :
    y ∈ s.drop t ↔ y ∈ s.txns ∧ y.id ≠ t := by
  simp [State.drop]

theorem mem_put (s : State κ ν ι σ ω π) (x z y : Txn ν ι π) (hx : x ∈ s.txns) (hid : z.id = x.id) :
    y ∈ s.put z ↔ (y ∈ s.txns ∧ y.id ≠ x.id) ∨ z = y := by
  rw [State.put, List.mem_map]
  constructor
  · rintro ⟨w, hw, rfl⟩
    split_ifs with hsame
    · exact Or.inr rfl
    · exact Or.inl ⟨hw, hid ▸ hsame⟩
  · rintro (⟨hy, hne⟩ | rfl)
    · exact ⟨y, hy, if_neg (hid ▸ hne)⟩
    · exact ⟨x, hx, if_pos hid.symm⟩

theorem mem_proceed (s : State κ ν ι σ ω π) (x y : Txn ν ι π) (mine : Option ν) (next : Option π)
    (hx : x ∈ s.txns) : y ∈ (s.proceed x mine next).txns ↔ (y ∈ s.txns ∧ y.id ≠ x.id) ∨
      next.map (fun p => ⟨x.id, x.request, p, mine⟩) = some y := by
  cases next with
  | none => simp [State.proceed, mem_drop]
  | some p => simp [State.proceed, mem_put s x ⟨x.id, x.request, p, mine⟩ y hx rfl]

@[simp] theorem proceed_rows (s : State κ ν ι σ ω π) (x : Txn ν ι π) (mine : Option ν)
    (next : Option π) : (s.proceed x mine next).rows = s.rows := by
  cases next <;> rfl

@[simp] theorem proceed_calls (s : State κ ν ι σ ω π) (x : Txn ν ι π) (mine : Option ν)
    (next : Option π) : (s.proceed x mine next).calls = s.calls := by
  cases next <;> rfl

theorem view_of_idle (P : Program κ ν ι σ ω π ρ) (s : State κ ν ι σ ω π) (x : Txn ν ι π)
    (h : x.mine = none) : x.view P s = s.rows (P.key x.request) := by
  rw [Txn.view, h, Option.none_or]

theorem view_of_held (P : Program κ ν ι σ ω π ρ) (s : State κ ν ι σ ω π) (x : Txn ν ι π)
    (mine : ν) (h : x.mine = some mine) : x.view P s = some mine := by
  rw [Txn.view, h, Option.some_or]

section Effects

variable [DecidableEq κ] (P : Program κ ν ι σ ω π ρ)

/-- Nobody but this transaction holds the row. -/
def Free (s : State κ ν ι σ ω π) (t : ℕ) (k : κ) : Prop :=
  ∀ y ∈ s.txns, y.id ≠ t → P.key y.request = k → y.mine = none

inductive Effect (s : State κ ν ι σ ω π) : Event ι ω → State κ ν ι σ ω π → Prop
  | wait (e : Event ι ω) : Effect s e s.wait
  | arrive (request : ι) :
    Effect s (.arrive request)
      { s.wait with txns := ⟨s.serial, request, P.start request, none⟩ :: s.txns }
  | miss (x : Txn ν ι π) (next : Option ν → π) (hx : x ∈ s.txns)
      (hstand : P.stand x.request x.point = .lock next) (hview : x.view P s = none) :
    Effect s (.statement x.id) (s.proceed x x.mine (some (next none)))
  | lock (x : Txn ν ι π) (next : Option ν → π) (row : ν) (hx : x ∈ s.txns)
      (hstand : P.stand x.request x.point = .lock next) (hview : x.view P s = some row)
      (hfree : Free P s x.id (P.key x.request)) :
    Effect s (.statement x.id) (s.proceed x (some row) (some (next (some row))))
  | insert (x : Txn ν ι π) (row : ν) (next : π) (hx : x ∈ s.txns)
      (hstand : P.stand x.request x.point = .insert row next) (hview : x.view P s = none)
      (hfree : Free P s x.id (P.key x.request)) :
    Effect s (.statement x.id) (s.proceed x (some row) (some next))
  | conflict (x : Txn ν ι π) (row : ν) (next : π) (hx : x ∈ s.txns)
      (hstand : P.stand x.request x.point = .insert row next) :
    Effect s (.statement x.id) (s.proceed x x.mine none)
  | missing (x : Txn ν ι π) (row : ν) (next : Option π) (hx : x ∈ s.txns)
      (hstand : P.stand x.request x.point = .write row next) (hview : x.view P s = none) :
    Effect s (.statement x.id) (s.proceed x x.mine next)
  | write (x : Txn ν ι π) (row : ν) (next : Option π) (hx : x ∈ s.txns)
      (hstand : P.stand x.request x.point = .write row next)
      (hfree : Free P s x.id (P.key x.request)) :
    Effect s (.statement x.id) (s.proceed x (some row) next)
  | call (x : Txn ν ι π) (sent : σ) (next : ω → Option π) (outcome : ω) (hx : x ∈ s.txns)
      (hstand : P.stand x.request x.point = .call sent next) :
    Effect s (.call x.id outcome)
      (State.proceed { s with calls := s.calls ++ [⟨x.id, P.key x.request, sent, outcome⟩] } x
        x.mine (next outcome))
  | commit (x : Txn ν ι π) (r : ρ) (hx : x ∈ s.txns)
      (hstand : P.stand x.request x.point = .answer r) :
    Effect s (.commit x.id)
      (State.proceed { s with rows := Function.update s.rows (P.key x.request) (x.view P s) } x
        x.mine none)
  | rollback (t : ℕ) (hcalled : s.called t = false) :
    Effect s (.rollback t) { s.wait with txns := s.drop t }

theorem free_of_held (s : State κ ν ι σ ω π) (t : ℕ) (k : κ) (h : held P s t k = false) :
    Free P s t k := by
  intro y hy hne hkey
  simpa [hne, hkey] using List.any_eq_false.mp h y hy

theorem runStatement_effect (s : State κ ν ι σ ω π) (x : Txn ν ι π) (hx : x ∈ s.txns) :
    Effect P s (.statement x.id) (runStatement P s x) := by
  have hfree := free_of_held P s x.id (P.key x.request)
  cases hstand : P.stand x.request x.point with
  | lock next =>
    cases hview : x.view P s with
    | none =>
      simp only [runStatement, hstand, hview]
      exact .miss x next hx hstand hview
    | some row =>
      simp only [runStatement, hstand, hview, take]
      split_ifs with hheld
      · exact .wait _
      · exact .lock x next row hx hstand hview (hfree (Bool.not_eq_true _ ▸ hheld))
  | insert row next =>
    cases hview : x.view P s with
    | none =>
      simp only [runStatement, hstand, hview, take]
      split_ifs with hheld
      · exact .wait _
      · exact .insert x row next hx hstand hview (hfree (Bool.not_eq_true _ ▸ hheld))
    | some old =>
      simp only [runStatement, hstand, hview]
      exact .conflict x row next hx hstand
  | write row next =>
    cases hview : x.view P s with
    | none =>
      simp only [runStatement, hstand, hview]
      exact .missing x row next hx hstand hview
    | some old =>
      simp only [runStatement, hstand, hview, take]
      split_ifs with hheld
      · exact .wait _
      · exact .write x row next hx hstand (hfree (Bool.not_eq_true _ ▸ hheld))
  | call sent next =>
    simp only [runStatement, hstand]
    exact .wait _
  | answer r =>
    simp only [runStatement, hstand]
    exact .wait _

/-- An event of a transaction that is not open does nothing. -/
theorem found_effect (s : State κ ν ι σ ω π) (t : ℕ) (e : Event ι ω)
    (next : Txn ν ι π → State κ ν ι σ ω π)
    (h : ∀ x ∈ s.txns, x.id = t → Effect P s e (next x)) :
    Effect P s e (((s.txn t).map next).getD s.wait) := by
  cases hfound : s.txn t with
  | none => exact .wait _
  | some x =>
    obtain ⟨hx, hid⟩ := txn_some s t x hfound
    exact h x hx hid

theorem step_effect (s : State κ ν ι σ ω π) (e : Event ι ω) : Effect P s e (step P s e) := by
  cases e with
  | arrive request => exact .arrive request
  | statement t =>
    refine found_effect P s t _ _ fun x hx hid => ?_
    subst hid
    exact runStatement_effect P s x hx
  | call t outcome =>
    refine found_effect P s t _ _ fun x hx hid => ?_
    subst hid
    unfold runCall
    split
    · rename_i sent next hstand
      exact .call x sent next outcome hx hstand
    · exact .wait _
  | commit t =>
    refine found_effect P s t _ _ fun x hx hid => ?_
    subst hid
    unfold runCommit
    split
    · rename_i r hstand
      exact .commit x r hx hstand
    · exact .wait _
  | rollback t =>
    simp only [step]
    split_ifs with hcalled
    · exact .wait _
    · exact .rollback t (Bool.not_eq_true _ ▸ hcalled)

end Effects

end Hyproxy.OutsideCalls

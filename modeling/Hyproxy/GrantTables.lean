import Hyproxy.ReadCommitted
import Hyproxy.SessionArtifacts
import Hyproxy.SingleUse

/-!
The grants of the two brokers (`guac/broker.py`, `rtsp/broker.py`) under concurrent
requests. A consumer runs one `UPDATE` with all its conditions, which waits for the
other consumers of the row, and looks at the number of rows that it changed.
-/
namespace Hyproxy.GrantTables

open ReadCommitted (Event Locked Program State Txn)
open SessionArtifacts (Broker Config Consumable Grant)
open SingleUse

/-- A call of `consume_grant` by the user of a gateway session. -/
structure Consumption where
  broker : Broker
  token : List Char
  ip : List Char
  user : ℕ
  now : ℤ
  deriving Repr, DecidableEq

def grantTable (cfg : Config) : Table Grant Consumption (Broker × List Char) where
  key g := (g.broker, g.tokenHash)
  consumedAt := Grant.consumedAt
  keyOf c := (c.broker, cfg.authz.sha256Hex c.token)
  time := Consumption.now
  allows c g := c.now < g.expiresAt ∧ g.sourceIp = c.ip ∧ g.user = c.user
  consume now g := { g with consumedAt := some now }
  key_consume _ _ := rfl
  consumedAt_consume _ _ := rfl
  allows_consume _ _ _ h := h

inductive Request
  | issue (row : Grant)
  | consume (c : Consumption)
  deriving Repr, DecidableEq

inductive Reply
  | issued
  | allowed (c : Consumption)
  | invalidGrant
  deriving Repr, DecidableEq

inductive Point
  | insert (row : Grant)
  | update (c : Consumption)
  | answered (reply : Reply)
  deriving Repr, DecidableEq

abbrev Write := Change Grant Consumption

/-- A token hash that is taken raises. -/
def statement (cfg : Config) (rows : List Grant) : Point → Option (List Write × Point)
  | .insert row =>
    if rows.any fun g => g.broker == row.broker && g.tokenHash == row.tokenHash then none
    else some ([.mint { row with consumedAt := none }], .answered .issued)
  | .update c =>
    let rows := rows.filter (Consumable cfg c.broker c.token c.ip c.now c.user)
    some (if rows = [] then [] else [.spend c],
      .answered (if rows.length = 1 then .allowed c else .invalidGrant))
  | .answered _ => none

def start : Request → Point
  | .issue row => .insert row
  | .consume c => .update c

def program (cfg : Config) :
    Program Request (List Grant) (Broker × List Char) Write Point Reply where
  start request _ := start request
  statement rows _ _ p := statement cfg rows p
  answer
    | .answered reply => some reply
    | _ => none
  apply := SingleUse.apply (grantTable cfg)
  row := Change.key (grantTable cfg)

abbrev Grants := State (List Grant) Write Point Reply

def initial : Grants := ⟨[], [], [], 0⟩

def after (cfg : Config) (events : List (Event Request)) : Grants :=
  events.foldl (ReadCommitted.step (program cfg)) initial

/-- The consumptions that succeeded, in the order of their commits. -/
def consumptions (answers : List Reply) : List Consumption :=
  answers.filterMap fun
    | .allowed c => some c
    | _ => none

variable (cfg : Config)

/-- What a transaction will have consumed. -/
def Tells (writes : List Write) : Point → Prop
  | .answered reply => spendings writes = consumptions [reply]
  | _ => writes = []

structure Inv (s : Grants) : Prop where
  locked : Locked (program cfg) s
  spent : Spent (grantTable cfg) s.db (consumptions s.answers)
  ready : ∀ x ∈ s.txns, Ready (grantTable cfg) s.db x.writes
  tells : ∀ x ∈ s.txns, Tells x.writes x.point

theorem rowsAt_of_free (rows : List Grant) (row : Grant)
    (h : (rows.any fun g => g.broker == row.broker && g.tokenHash == row.tokenHash) = false) :
    rowsAt (grantTable cfg) (row.broker, row.tokenHash) rows = [] := by
  rw [rowsAt, List.filter_eq_nil_iff]
  intro g hg
  have hne := List.any_eq_false.mp h g hg
  simp only [grantTable, decide_eq_true_eq, Prod.mk.injEq]
  rintro ⟨hbroker, hhash⟩
  rw [hbroker, hhash] at hne
  simp at hne

/-- What the `UPDATE` finds is one row at most, as its key is. -/
theorem update_matches (rows : List Grant) (c : Consumption) (log : List Consumption)
    (h : Spent (grantTable cfg) rows log) :
    rows.filter (Consumable cfg c.broker c.token c.ip c.now c.user) = [] ∨
      ((rows.filter (Consumable cfg c.broker c.token c.ip c.now c.user)).length = 1 ∧
        Finds (grantTable cfg) (rowsAt (grantTable cfg) ((grantTable cfg).keyOf c) rows)
          (.spend c)) := by
  have hsub : (rows.filter (Consumable cfg c.broker c.token c.ip c.now c.user)).Sublist
      (rowsAt (grantTable cfg) ((grantTable cfg).keyOf c) rows) := by
    refine List.monotone_filter_right rows fun g hg => ?_
    obtain ⟨hbroker, hhash, -⟩ := of_decide_eq_true hg
    exact decide_eq_true (Prod.ext hbroker hhash)
  cases hfound : rows.filter (Consumable cfg c.broker c.token c.ip c.now c.user) with
  | nil => exact Or.inl rfl
  | cons g rest =>
    have hlength := le_trans hsub.length_le (h.keys ((grantTable cfg).keyOf c))
    rw [hfound, List.length_cons] at hlength
    have hmem : g ∈ rows.filter (Consumable cfg c.broker c.token c.ip c.now c.user) := by
      rw [hfound]
      exact List.mem_cons_self ..
    obtain ⟨-, -, hfree, hexpires, hip, huser⟩ := of_decide_eq_true (List.mem_filter.mp hmem).2
    refine Or.inr ⟨by rw [List.length_cons]; omega, g, hsub.subset hmem, hfree, ?_⟩
    exact ⟨hexpires, hip, huser⟩

theorem statement_tells (s : Grants) (x : Txn Write Point) (new : List Write) (p : Point)
    (h : Inv cfg s) (hx : x ∈ s.txns) (hanswer : (program cfg).answer x.point = none)
    (hstatement : statement cfg (x.view (program cfg) s.db) x.point = some (new, p)) :
    Ready (grantTable cfg) s.db (x.writes ++ new) ∧ Tells (x.writes ++ new) p := by
  have htells := h.tells x hx
  cases hpoint : x.point with
  | answered reply =>
    rw [hpoint] at hanswer
    cases hanswer
  | insert row =>
    rw [hpoint] at htells hstatement
    have hnil : x.writes = [] := htells
    simp only [statement, Txn.view, hnil, List.foldl_nil] at hstatement
    split_ifs at hstatement with htaken
    obtain ⟨rfl, rfl⟩ := Prod.mk.inj (Option.some.inj hstatement)
    rw [hnil, List.nil_append, ready_cons]
    exact ⟨⟨rowsAt_of_free cfg s.db row (Bool.eq_false_iff.mpr htaken), ready_nil _ _⟩, rfl⟩
  | update c =>
    rw [hpoint] at htells hstatement
    have hnil : x.writes = [] := htells
    simp only [statement, Txn.view, hnil, List.foldl_nil] at hstatement
    obtain ⟨rfl, rfl⟩ := Prod.mk.inj (Option.some.inj hstatement)
    rw [hnil, List.nil_append]
    rcases update_matches cfg s.db c _ h.spent with hnone | ⟨hone, hfinds⟩
    · rw [if_pos hnone, hnone]
      exact ⟨ready_nil _ _, rfl⟩
    · have hne : s.db.filter (Consumable cfg c.broker c.token c.ip c.now c.user) ≠ [] := by
        intro hnil
        rw [hnil] at hone
        cases hone
      rw [if_neg hne, if_pos hone, ready_cons]
      exact ⟨⟨hfinds, ready_nil _ _⟩, rfl⟩

theorem step_inv (s : Grants) (e : Event Request) (h : Inv cfg s) :
    Inv cfg (ReadCommitted.step (program cfg) s e) := by
  have hlocked := ReadCommitted.locked_step (program cfg) s e h.locked
  generalize ht : ReadCommitted.step (program cfg) s e = s' at hlocked ⊢
  have heffect := ht ▸ ReadCommitted.step_effect (program cfg) s e
  cases heffect with
  | wait => exact ⟨hlocked, h.spent, h.ready, h.tells⟩
  | arrive t request now hnew =>
    refine ⟨hlocked, h.spent, fun x hx => ?_, fun x hx => ?_⟩
    · rcases List.mem_cons.mp hx with rfl | hx
      · exact ready_nil _ _
      · exact h.ready x hx
    · rcases List.mem_cons.mp hx with rfl | hx
      · cases request <;> rfl
      · exact h.tells x hx
  | statement x now writes p hmem hanswer hstatement hfree =>
    obtain ⟨hready, htells⟩ := statement_tells cfg s x writes p h hmem hanswer hstatement
    refine ⟨hlocked, h.spent, fun y hy => ?_, fun y hy => ?_⟩
    · rcases ReadCommitted.mem_put s _ y hy with rfl | ⟨hy, -⟩
      · exact hready
      · exact h.ready y hy
    · rcases ReadCommitted.mem_put s _ y hy with rfl | ⟨hy, -⟩
      · exact htells
      · exact h.tells y hy
  | commit x reply hmem hanswer =>
    have htells := h.tells x hmem
    have hpoint : x.point = .answered reply := by
      cases hp : x.point with
      | answered other =>
        rw [hp] at hanswer
        rw [Option.some.inj hanswer]
      | _ =>
        rw [hp] at hanswer
        cases hanswer
    rw [hpoint] at htells
    refine ⟨hlocked, ?_, fun y hy => ?_, fun y hy => ?_⟩
    · have hall := spent_all (grantTable cfg) s.db _ x.writes h.spent (h.ready x hmem)
      have hlog : consumptions (s.answers ++ [reply]) =
          consumptions s.answers ++ spendings x.writes := by
        rw [consumptions, List.filterMap_append]
        exact congrArg _ htells.symm
      rw [hlog]
      exact hall
    · obtain ⟨hy, hne⟩ := (ReadCommitted.mem_drop s x.id y).mp hy
      exact ready_other (grantTable cfg) s.db y.writes x.writes (h.ready y hy)
        (h.locked.rows y hy x hmem hne)
    · exact h.tells y ((ReadCommitted.mem_drop s x.id y).mp hy).1
  | abandon _ t =>
    exact ⟨hlocked, h.spent,
      fun y hy => h.ready y ((ReadCommitted.mem_drop s t y).mp hy).1,
      fun y hy => h.tells y ((ReadCommitted.mem_drop s t y).mp hy).1⟩

/-- No grant is consumed twice, and each was consumed before its expiry, from its address and by its
user. -/
theorem grants_spent (events : List (Event Request)) :
    Spent (grantTable cfg) (after cfg events).db (consumptions (after cfg events).answers) := by
  suffices hinv : Inv cfg (after cfg events) from hinv.spent
  induction events using List.reverseRecOn with
  | nil =>
    exact ⟨⟨fun x hx => (by cases hx), fun x hx => (by cases hx)⟩, spent_nil _,
      fun x hx => (by cases hx), fun x hx => (by cases hx)⟩
  | append_singleton events e ih =>
    rw [after, List.foldl_append]
    exact step_inv cfg _ e ih

end Hyproxy.GrantTables

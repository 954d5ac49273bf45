import Hyproxy.KeysetPages
import Mathlib.Data.Int.Order.Basic

/-!
The viewers of the audit trail and of the changes to the policy. Each lists the rows of one table
that pass its filter, the newest first and a page at a time; a change is shown with the address of
the user who made it.
-/
namespace Hyproxy.Viewers

open KeysetPages

abbrev Text := List Char

variable {J : Type}

/-- The address is the text it is shown as. -/
structure AuditLog where
  id : ℤ
  ts : ℤ
  userId : Option ℕ
  resourceId : Option ℕ
  port : Option ℤ
  decision : Text
  reason : Option Text
  sourceIp : Text
  deriving Repr, DecidableEq

/-- `J` is what the JSON columns hold. -/
structure AuthEvent (J : Type) where
  id : ℤ
  ts : ℤ
  eventType : Text
  userId : Option ℕ
  sessionId : Option ℕ
  clientId : Option Text
  sourceIp : Text
  success : Bool
  detail : J
  deriving Repr, DecidableEq

structure PolicyChange (J : Type) where
  id : ℤ
  ts : ℤ
  actorId : ℕ
  entityType : Text
  entityId : Option ℕ
  action : Text
  changeJson : J
  deriving Repr, DecidableEq

structure User where
  id : ℕ
  email : Text
  deriving Repr, DecidableEq

structure Db (J : Type) where
  auditLog : List AuditLog
  authEvents : List (AuthEvent J)
  policyChanges : List (PolicyChange J)
  users : List User
  deriving Repr, DecidableEq

/-- `Query(ge=1, le=200)` -/
structure Limit where
  value : ℕ
  bounds : 1 ≤ value ∧ value ≤ 200

structure AuditAccessOut where
  id : ℤ
  ts : ℤ
  userId : Option ℕ
  resourceId : Option ℕ
  port : Option ℤ
  decision : Text
  reason : Option Text
  sourceIp : Text
  deriving Repr, DecidableEq

structure AuthEventOut (J : Type) where
  id : ℤ
  ts : ℤ
  eventType : Text
  userId : Option ℕ
  sessionId : Option ℕ
  clientId : Option Text
  sourceIp : Text
  success : Bool
  detail : J
  deriving Repr, DecidableEq

structure PolicyChangeOut (J : Type) where
  id : ℤ
  ts : ℤ
  actorId : ℕ
  actorEmail : Option Text
  entityType : Text
  entityId : Option ℕ
  action : Text
  changeJson : J
  deriving Repr, DecidableEq

def accessOut (r : AuditLog) : AuditAccessOut :=
  ⟨r.id, r.ts, r.userId, r.resourceId, r.port, r.decision, r.reason, r.sourceIp⟩

def eventOut (r : AuthEvent J) : AuthEventOut J :=
  ⟨r.id, r.ts, r.eventType, r.userId, r.sessionId, r.clientId, r.sourceIp, r.success, r.detail⟩

def changeOut (change : PolicyChange J) (email : Option Text) : PolicyChangeOut J :=
  ⟨change.id, change.ts, change.actorId, email, change.entityType, change.entityId, change.action,
    change.changeJson⟩

/-! ### Filters -/

structure AccessFilter where
  userId : Option ℕ
  resourceId : Option ℕ
  decision : Option Text
  since : Option ℤ
  until_ : Option ℤ
  deriving Repr, DecidableEq

structure EventFilter where
  userId : Option ℕ
  eventType : Option Text
  success : Option Bool
  since : Option ℤ
  until_ : Option ℤ
  deriving Repr, DecidableEq

structure ChangeFilter where
  actorId : Option ℕ
  entityType : Option Text
  entityId : Option ℕ
  deriving Repr, DecidableEq

/-- A column that is null equals nothing. -/
def AccessFilter.keeps (f : AccessFilter) (r : AuditLog) : Bool :=
  (f.userId.all fun id => r.userId == some id) &&
    (f.resourceId.all fun id => r.resourceId == some id) &&
    (f.decision.all fun decision => r.decision == decision) &&
    (f.since.all fun since => since ≤ r.ts) && f.until_.all fun last => r.ts < last

def EventFilter.keeps (f : EventFilter) (r : AuthEvent J) : Bool :=
  (f.userId.all fun id => r.userId == some id) &&
    (f.eventType.all fun type => r.eventType == type) &&
    (f.success.all fun success => r.success == success) &&
    (f.since.all fun since => since ≤ r.ts) && f.until_.all fun last => r.ts < last

def ChangeFilter.keeps (f : ChangeFilter) (r : PolicyChange J) : Bool :=
  (f.actorId.all fun id => r.actorId == id) &&
    (f.entityType.all fun type => r.entityType == type) &&
    f.entityId.all fun id => r.entityId == some id

/-! ### Pages -/

def listAccessAudit (db : Db J) (f : AccessFilter) (limit : Limit) (cursor : Option ℤ) :
    Page AuditAccessOut ℤ :=
  pageOf AuditLog.id accessOut limit.value
    (query AuditLog.id f.keeps cursor limit.value db.auditLog)

def listAuthEvents (db : Db J) (f : EventFilter) (limit : Limit) (cursor : Option ℤ) :
    Page (AuthEventOut J) ℤ :=
  pageOf AuthEvent.id eventOut limit.value
    (query AuthEvent.id f.keeps cursor limit.value db.authEvents)

/-- `JOIN users ON policy_changes.actor_id = users.id` -/
def joined (db : Db J) : List (PolicyChange J × Text) :=
  db.policyChanges.flatMap fun change =>
    (db.users.filter fun u => change.actorId == u.id).map fun u => (change, u.email)

def joinedId (row : PolicyChange J × Text) : ℤ := row.1.id

def joinedOut (row : PolicyChange J × Text) : PolicyChangeOut J := changeOut row.1 (some row.2)

def listPolicyChanges (db : Db J) (f : ChangeFilter) (limit : Limit) (cursor : Option ℤ) :
    Page (PolicyChangeOut J) ℤ :=
  pageOf joinedId joinedOut limit.value
    (query joinedId (fun row => f.keeps row.1) cursor limit.value (joined db))

/-! ### What happens between the requests -/

inductive Insertion (J : Type)
  | auditLog (row : AuditLog)
  | authEvent (row : AuthEvent J)
  | policyChange (row : PolicyChange J)
  | user (row : User)

def Db.insert (db : Db J) : Insertion J → Db J
  | .auditLog row => { db with auditLog := db.auditLog ++ [row] }
  | .authEvent row => { db with authEvents := db.authEvents ++ [row] }
  | .policyChange row => { db with policyChanges := db.policyChanges ++ [row] }
  | .user row => { db with users := db.users ++ [row] }

/-- The database that the request with this number finds. -/
def after (first : Db J) (inserts : ℕ → List (Insertion J)) (i : ℕ) : Db J :=
  ((List.range i).flatMap inserts).foldl Db.insert first

/-- A row with a larger identifier than those of the first request, or another user. -/
def Insertion.Larger (first : Db J) : Insertion J → Prop
  | .auditLog row => ∀ old ∈ first.auditLog, old.id < row.id
  | .authEvent row => ∀ old ∈ first.authEvents, old.id < row.id
  | .policyChange row => ∀ old ∈ first.policyChanges, old.id < row.id
  | .user row => ∀ old ∈ first.users, old.id ≠ row.id

/-- The primary keys and the reference to the users. -/
structure WellFormed (db : Db J) : Prop where
  auditLog : (db.auditLog.map AuditLog.id).Nodup
  authEvents : (db.authEvents.map AuthEvent.id).Nodup
  policyChanges : (db.policyChanges.map PolicyChange.id).Nodup
  users : (db.users.map User.id).Nodup
  actors : ∀ change ∈ db.policyChanges, ∃ u ∈ db.users, u.id = change.actorId

def Db.email (db : Db J) (user : ℕ) : Option Text :=
  (db.users.find? fun u => u.id == user).map User.email

/-- Who follows the cursors gets these rows, each once, by decreasing identifiers. -/
def Exhausts {Row Item : Type} (page : ℕ → Option ℤ → Page Item ℤ) (id : Row → ℤ)
    (out : Row → Item) (rows : List Row) : Prop :=
  ∃ fuel pages found, follow page fuel 0 none = some pages ∧ found.Perm rows ∧
    Decreasing id found ∧ pages.flatMap Page.items = found.map out

/-! ### What was inserted -/

def Insertion.auditRow : Insertion J → Option AuditLog
  | .auditLog row => some row
  | _ => none

def Insertion.eventRow : Insertion J → Option (AuthEvent J)
  | .authEvent row => some row
  | _ => none

def Insertion.changeRow : Insertion J → Option (PolicyChange J)
  | .policyChange row => some row
  | _ => none

def Insertion.userRow : Insertion J → Option User
  | .user row => some row
  | _ => none

theorem foldl_insert (db : Db J) (inserts : List (Insertion J)) :
    inserts.foldl Db.insert db = ⟨db.auditLog ++ inserts.filterMap Insertion.auditRow,
      db.authEvents ++ inserts.filterMap Insertion.eventRow,
      db.policyChanges ++ inserts.filterMap Insertion.changeRow,
      db.users ++ inserts.filterMap Insertion.userRow⟩ := by
  induction inserts generalizing db with
  | nil => simp
  | cons insert rest ih =>
    rw [List.foldl_cons, ih]
    cases insert <;> simp [Db.insert, List.filterMap_cons, Insertion.auditRow, Insertion.eventRow,
      Insertion.changeRow, Insertion.userRow]

variable (first : Db J) (inserts : ℕ → List (Insertion J))

theorem mem_inserted {Row : Type} (row? : Insertion J → Option Row) (i : ℕ) (row : Row)
    (h : row ∈ ((List.range i).flatMap inserts).filterMap row?) :
    ∃ j, ∃ insert ∈ inserts j, row? insert = some row := by
  obtain ⟨insert, hinsert, hrow⟩ := List.mem_filterMap.mp h
  obtain ⟨j, -, hj⟩ := List.mem_flatMap.mp hinsert
  exact ⟨j, insert, hj, hrow⟩

theorem auditLog_grows (hfirst : WellFormed first)
    (hlarger : ∀ i, ∀ insert ∈ inserts i, insert.Larger first) :
    Grows AuditLog.id fun i => (after first inserts i).auditLog := by
  refine ⟨hfirst.auditLog, fun i => ⟨_, List.Perm.of_eq (by rw [after, foldl_insert]; rfl), ?_⟩⟩
  intro row hrow
  obtain ⟨j, insert, hinsert, hsome⟩ := mem_inserted inserts Insertion.auditRow i row hrow
  have hinserted := hlarger j insert hinsert
  cases insert with
  | auditLog new =>
    obtain rfl := Option.some.inj hsome
    exact hinserted
  | authEvent | policyChange | user => cases hsome

theorem authEvents_grows (hfirst : WellFormed first)
    (hlarger : ∀ i, ∀ insert ∈ inserts i, insert.Larger first) :
    Grows AuthEvent.id fun i => (after first inserts i).authEvents := by
  refine ⟨hfirst.authEvents, fun i => ⟨_, List.Perm.of_eq (by rw [after, foldl_insert]; rfl), ?_⟩⟩
  intro row hrow
  obtain ⟨j, insert, hinsert, hsome⟩ := mem_inserted inserts Insertion.eventRow i row hrow
  have hinserted := hlarger j insert hinsert
  cases insert with
  | authEvent new =>
    obtain rfl := Option.some.inj hsome
    exact hinserted
  | auditLog | policyChange | user => cases hsome

/-! ### Changes with their actors -/

theorem filter_user (users : List User) (u : User) (hu : u ∈ users)
    (h : (users.map User.id).Nodup) : users.filter (fun v => u.id == v.id) = [u] := by
  induction users with
  | nil => cases hu
  | cons v rest ih =>
    rw [List.map_cons, List.nodup_cons] at h
    rcases List.mem_cons.mp hu with rfl | hmem
    · have hnone : rest.filter (fun v => u.id == v.id) = [] := by
        refine List.filter_eq_nil_iff.mpr fun v hv heq => h.1 ?_
        rw [beq_iff_eq] at heq
        exact List.mem_map.mpr ⟨v, hv, heq.symm⟩
      rw [List.filter_cons, if_pos (beq_self_eq_true _), hnone]
    · have hne : ¬ (u.id == v.id) = true := by
        rw [beq_iff_eq]
        exact fun heq => h.1 (List.mem_map.mpr ⟨u, hmem, heq⟩)
      rw [List.filter_cons, if_neg hne, ih hmem h.2]

theorem actor (hfirst : WellFormed first) (change : PolicyChange J)
    (h : change ∈ first.policyChanges) : ∃ u ∈ first.users, u.id = change.actorId ∧
      first.users.filter (fun v => change.actorId == v.id) = [u] := by
  obtain ⟨u, hu, hid⟩ := hfirst.actors change h
  refine ⟨u, hu, hid, ?_⟩
  rw [← hid]
  exact filter_user first.users u hu hfirst.users

theorem joined_changes (hfirst : WellFormed first) :
    (joined first).map Prod.fst = first.policyChanges := by
  rw [joined, List.map_flatMap]
  have hone : ∀ change ∈ first.policyChanges, ((first.users.filter fun u =>
      change.actorId == u.id).map fun u => (change, u.email)).map Prod.fst = [change] := by
    intro change hchange
    obtain ⟨u, -, -, hfilter⟩ := actor first hfirst change hchange
    rw [hfilter]
    rfl
  rw [List.flatMap_congr hone]
  exact List.flatMap_singleton' _

theorem joined_email (hfirst : WellFormed first) (row : PolicyChange J × Text)
    (h : row ∈ joined first) : first.email row.1.actorId = some row.2 := by
  obtain ⟨change, hchange, hrow⟩ := List.mem_flatMap.mp h
  obtain ⟨u, -, -, hfilter⟩ := actor first hfirst change hchange
  rw [hfilter, List.map_singleton, List.mem_singleton] at hrow
  have hfind : first.users.find? (fun v => v.id == change.actorId) = some u := by
    rw [← List.head?_filter]
    simp only [BEq.comm (b := change.actorId), hfilter]
    rfl
  rw [hrow, Db.email, hfind]
  rfl

/-- New users and changes leave the rows of the old changes as they are. -/
theorem joined_append (hfirst : WellFormed first) (db : Db J) (changes : List (PolicyChange J))
    (users : List User) (hchanges : db.policyChanges = first.policyChanges ++ changes)
    (husers : db.users = first.users ++ users)
    (hother : ∀ u ∈ users, ∀ old ∈ first.users, old.id ≠ u.id) :
    joined db = joined first ++ changes.flatMap fun change =>
      (db.users.filter fun u => change.actorId == u.id).map fun u => (change, u.email) := by
  rw [joined, hchanges, List.flatMap_append]
  congr 1
  refine List.flatMap_congr fun change hchange => ?_
  obtain ⟨u, hu, hid, -⟩ := actor first hfirst change hchange
  have hnone : users.filter (fun v => change.actorId == v.id) = [] := by
    refine List.filter_eq_nil_iff.mpr fun v hv heq => ?_
    rw [beq_iff_eq] at heq
    exact hother v hv u hu (hid.trans heq)
  rw [husers, List.filter_append, hnone, List.append_nil]

theorem joined_grows (hfirst : WellFormed first)
    (hlarger : ∀ i, ∀ insert ∈ inserts i, insert.Larger first) :
    Grows joinedId fun i => joined (after first inserts i) := by
  refine ⟨?_, fun i => ?_⟩
  · have hids : (joined first).map joinedId = first.policyChanges.map PolicyChange.id := by
      rw [← joined_changes first hfirst, List.map_map]
      rfl
    exact hids ▸ hfirst.policyChanges
  · have hafter := foldl_insert first ((List.range i).flatMap inserts)
    have hother : ∀ u ∈ ((List.range i).flatMap inserts).filterMap Insertion.userRow,
        ∀ old ∈ first.users, old.id ≠ u.id := by
      intro u hu
      obtain ⟨j, insert, hinsert, hsome⟩ := mem_inserted inserts Insertion.userRow i u hu
      have hinserted := hlarger j insert hinsert
      cases insert with
      | user new =>
        obtain rfl := Option.some.inj hsome
        exact hinserted
      | auditLog | authEvent | policyChange => cases hsome
    have hjoined := joined_append first hfirst (after first inserts i) _ _
      (congrArg Db.policyChanges hafter) (congrArg Db.users hafter) hother
    refine ⟨_, List.Perm.of_eq hjoined, fun row hrow old hold => ?_⟩
    obtain ⟨change, hchange, hrow⟩ := List.mem_flatMap.mp hrow
    obtain ⟨u, -, rfl⟩ := List.mem_map.mp hrow
    have hold : old.1 ∈ first.policyChanges :=
      joined_changes first hfirst ▸ List.mem_map_of_mem hold
    obtain ⟨j, insert, hinsert, hsome⟩ := mem_inserted inserts Insertion.changeRow i change hchange
    have hinserted := hlarger j insert hinsert
    cases insert with
    | policyChange new =>
      obtain rfl := Option.some.inj hsome
      exact hinserted old.1 hold
    | auditLog | authEvent | user => cases hsome

/-- Each viewer shows to who follows its cursors all rows of the first request, once each, however
many rows are inserted on the way. -/
theorem viewers_exhaust (hfirst : WellFormed first)
    (hlarger : ∀ i, ∀ insert ∈ inserts i, insert.Larger first) (limit : Limit) :
    (∀ f : AccessFilter, Exhausts (fun i => listAccessAudit (after first inserts i) f limit)
      AuditLog.id accessOut (first.auditLog.filter f.keeps)) ∧
    (∀ f : EventFilter, Exhausts (fun i => listAuthEvents (after first inserts i) f limit)
      AuthEvent.id eventOut (first.authEvents.filter f.keeps)) ∧
    ∀ f : ChangeFilter, Exhausts (fun i => listPolicyChanges (after first inserts i) f limit)
      PolicyChange.id (fun change => changeOut change (first.email change.actorId))
      (first.policyChanges.filter f.keeps) := by
  have hlimit := limit.bounds.1
  refine ⟨fun f => ?_, fun f => ?_, fun f => ?_⟩
  · exact (auditLog_grows first inserts hfirst hlarger).follow AuditLog.id f.keeps accessOut
      limit.value _ hlimit
  · exact (authEvents_grows first inserts hfirst hlarger).follow AuthEvent.id f.keeps eventOut
      limit.value _ hlimit
  · obtain ⟨fuel, pages, rows, hpages, hperm, hdecreasing, hitems⟩ :=
      (joined_grows first inserts hfirst hlarger).follow joinedId (fun row => f.keeps row.1)
        joinedOut limit.value _ hlimit
    refine ⟨fuel, pages, rows.map Prod.fst, hpages, ?_, List.pairwise_map.mpr hdecreasing, ?_⟩
    · refine (hperm.map Prod.fst).trans (List.Perm.of_eq ?_)
      conv_rhs => rw [← joined_changes first hfirst, List.filter_map]
      rfl
    · rw [hitems, List.map_map]
      refine List.map_congr_left fun row hrow => ?_
      have hjoined : row ∈ joined first := (List.mem_filter.mp (hperm.mem_iff.mp hrow)).1
      rw [Function.comp_apply, joined_email first hfirst row hjoined]
      rfl

def sampleChange (id : ℤ) : PolicyChange Unit :=
  ⟨id, 0, 7, "user".toList, none, "create".toList, ()⟩

def sampleDb : Db Unit :=
  { auditLog := []
    authEvents := []
    policyChanges := [sampleChange 1, sampleChange 2]
    users := [⟨7, "a@b.c".toList⟩] }

/-- One more change before each of the next requests. -/
def sampleInserts (i : ℕ) : List (Insertion Unit) := [.policyChange (sampleChange (3 + (i : ℤ)))]

theorem viewers_exhaust_sample :
    Exhausts (fun i => listPolicyChanges (after sampleDb sampleInserts i) ⟨some 7, none, none⟩
        ⟨1, by decide⟩)
      PolicyChange.id (fun change => changeOut change (sampleDb.email change.actorId))
      [sampleChange 1, sampleChange 2] := by
  have hwell : WellFormed sampleDb :=
    ⟨by decide, by decide, by decide, by decide, by decide⟩
  have hlarger : ∀ i, ∀ insert ∈ sampleInserts i, insert.Larger sampleDb := by
    intro i insert hinsert
    obtain rfl := List.mem_singleton.mp hinsert
    intro old hold
    have hids : old.id = 1 ∨ old.id = 2 := by
      simp only [sampleDb, List.mem_cons, List.not_mem_nil, or_false] at hold
      exact hold.imp (congrArg PolicyChange.id) (congrArg PolicyChange.id)
    have hnew : (sampleChange (3 + (i : ℤ))).id = 3 + i := rfl
    omega
  exact (viewers_exhaust sampleDb sampleInserts hwell hlarger ⟨1, by decide⟩).2.2
    ⟨some 7, none, none⟩

end Hyproxy.Viewers

import Hyproxy.AccountEffects
import Hyproxy.AccountKeys
import Hyproxy.Administration
import Hyproxy.MirroredConnections

/-!
The change log as a journal. It says enough to rebuild the accounts, the roles with their
assignment, the policies, and the resources up to their targets, and with them every decision on
access; what a record gives as the state before is what the records before it lead to.
-/
namespace Hyproxy.ChangeJournal

open Administration
open AuthzCheck (evaluateAccess)
open Connections (Failure bind_ok)
open Journals
open Runs (Along)
open SealedBlobs

variable {σ τ Key : Type} {vault : SecretsBackend Key} (cfg : Config) (A : Aead Key)

/-! ### The users that a request leaves -/

/-- What a request does to the rows of the users; the row of the actor is not deleted, nor is one
that a record refers to. -/
inductive Users (actor : ℕ) (db : Db σ τ) : List Accounts.User → Prop
  | same : Users actor db db.accounts.users
  | added (user : Accounts.User) (hnew : db.accounts.user user.id = none) :
    Users actor db (user :: db.accounts.users)
  | updated (user new : Accounts.User) (hfound : db.accounts.user user.id = some user)
    (hid : new.id = user.id) (hprotected : user.isProtected = true → new.isProtected = true ∧
      (user.tier = .admin → new.tier = .admin) ∧ (user.status = .active → new.status = .active)) :
    Users actor db (db.accounts.users.map fun u => if u.id = user.id then new else u)
  | deleted (user : Accounts.User) (hfound : db.accounts.user user.id = some user)
    (hprotected : user.isProtected = false) (hactor : user.id ≠ actor)
    (hrecords : ∀ c ∈ db.changes, c.actor ≠ user.id) :
    Users actor db (db.accounts.users.filter fun u => u.id ≠ user.id)

theorem require_ok {condition : Bool} {e : Failure} {u : Unit}
    (h : Connections.require condition e = .ok u) : condition = true := by
  cases condition with
  | true => rfl
  | false => cases h

theorem user_some (s : Accounts.State) (id : ℕ) (user : Accounts.User)
    (h : s.user id = some user) : user ∈ s.users ∧ user.id = id :=
  ⟨List.mem_of_find?_eq_some h, by simpa using List.find?_some h⟩

theorem user_none (s : Accounts.State) (id : ℕ) (h : s.user id = none) :
    ∀ u ∈ s.users, u.id ≠ id := fun u hu => by simpa using List.find?_eq_none.mp h u hu

theorem userOr404_ok (db : Db σ τ) (id : ℕ) (user : Accounts.User)
    (h : userOr404 db id = .ok user) : db.accounts.user id = some user := by
  unfold userOr404 at h
  cases hfound : db.accounts.user id with
  | none =>
    rw [hfound] at h
    cases h
  | some found =>
    rw [hfound] at h
    rw [Except.ok.inj h]

theorem settled_createUser (s accounts : Accounts.State) (user : Accounts.User)
    (h : settled (Passkeys.createUser cfg.toConfig s user) = .ok accounts) :
    s.user user.id = none ∧ accounts.users = { user with status := .active } :: s.users := by
  unfold settled Passkeys.createUser at h
  split_ifs at h with hemail hid
  obtain rfl := Except.ok.inj h
  exact ⟨by simpa using hid, rfl⟩

theorem settled_patchUser (s accounts : Accounts.State) (id : ℕ) (tier : Option Accounts.Tier)
    (status : Option Accounts.Status) (now : ℤ) (user : Accounts.User)
    (hfound : s.user id = some user)
    (h : settled (Passkeys.patchUser s id tier status now) = .ok accounts) :
    (user.isProtected = true → status.getD user.status ≠ .disabled ∧
      tier.getD user.tier = .admin) ∧
    accounts.users = s.users.map fun u => if u.id = id then
      { user with tier := tier.getD user.tier, status := status.getD user.status } else u := by
  have hid := (user_some s id user hfound).2
  unfold settled Passkeys.patchUser at h
  simp only [hfound] at h
  split_ifs at h with hprotected hpasskeys hdisabled
  · obtain rfl := Except.ok.inj h
    refine ⟨fun hp => ?_, by rw [← hid]; rfl⟩
    simpa [hp, not_or] using hprotected
  · obtain rfl := Except.ok.inj h
    refine ⟨fun hp => ?_, by rw [← hid]; rfl⟩
    simpa [hp, not_or] using hprotected

theorem settled_deleteUser (s accounts : Accounts.State) (id : ℕ) (user : Accounts.User)
    (hfound : s.user id = some user) (h : settled (Passkeys.deleteUser s id) = .ok accounts) :
    user.isProtected = false ∧ accounts.users = s.users.filter fun u => u.id ≠ id := by
  unfold settled Passkeys.deleteUser at h
  simp only [hfound] at h
  split_ifs at h with hprotected
  obtain rfl := Except.ok.inj h
  exact ⟨by simpa using hprotected, rfl⟩

theorem settled_deleteCredential (s accounts : Accounts.State) (id : ℕ) (credential : Text)
    (h : settled (Passkeys.deleteCredential s id credential) = .ok accounts) :
    accounts.users = s.users := by
  unfold settled Passkeys.deleteCredential at h
  cases huser : s.user id with
  | none =>
    rw [huser] at h
    cases h
  | some user =>
    simp only [huser] at h
    cases hrow : s.credentials.find? fun c => c.credentialId == credential with
    | none =>
      rw [hrow] at h
      cases h
    | some row =>
      simp only [hrow] at h
      split_ifs at h
      exact Except.ok.inj h ▸ rfl

theorem settled_resetTotp (s accounts : Accounts.State) (id : ℕ) (now : ℤ)
    (h : settled (Passkeys.resetTotp s id now) = .ok accounts) : accounts.users = s.users := by
  unfold settled Passkeys.resetTotp at h
  cases huser : s.user id with
  | none =>
    rw [huser] at h
    cases h
  | some user =>
    simp only [huser] at h
    split_ifs at h
    exact Except.ok.inj h ▸ rfl

theorem settled_resetPassword (s accounts : Accounts.State) (id : ℕ) (hash : Text) (now : ℤ)
    (h : settled (Passkeys.resetPassword s id hash now) = .ok accounts) :
    ∃ user, s.user id = some user ∧ accounts.users =
      s.users.map fun u => if u.id = user.id then { user with passwordHash := hash } else u := by
  unfold settled Passkeys.resetPassword at h
  cases huser : s.user id with
  | none =>
    rw [huser] at h
    cases h
  | some user =>
    simp only [huser] at h
    obtain rfl := Except.ok.inj h
    exact ⟨user, rfl, rfl⟩

/-- No request of the identity provider but those of the user administration changes a user. -/
theorem signIn_users (s : Accounts.State) (e : SignIn) :
    (Passkeys.step cfg.toConfig s e.1).users = s.users := by
  obtain ⟨e, he⟩ := e
  have heffect := AccountEffects.step_effect cfg.toConfig s e
  change (Passkeys.step cfg.toConfig s e).users = s.users
  generalize Passkeys.step cfg.toConfig s e = t at heffect
  cases heffect with
  | quiet _ _ h _ => exact h.users
  | opened _ t r dbNow h _ => exact h.users
  | passwordFailed => rfl
  | passwordPassed => rfl
  | factorFailed _ _ _ _ _ _ _ _ _ _ h _ => exact h.users
  | totpPassed => rfl
  | totpDrawn => rfl
  | totpEnrolled => rfl
  | recovered => rfl
  | asserted r a id f user row count _ _ _ =>
    unfold Passkeys.assertionSuccess
    cases row.breakGlass <;> rfl
  | passkeyAdded => rfl
  | administered _ _ hadmin _ => exact absurd hadmin (by rw [he]; decide)

/-! ### The view of the tables -/

structure View where
  users : List (ℕ × UserSnapshot)
  roles : List (ℕ × Text)
  userRoles : List (ℕ × ℕ)
  policies : List (ℕ × PolicySnapshot)
  resources : List (ℕ × Published)

def view (db : Db σ τ) : View where
  users := shown Accounts.User.id (userSnapshot db) db.accounts.users
  roles := shown Role.id Role.name db.roles
  userRoles := db.userRoles
  policies := shown Policy.id policySnapshot db.policies
  resources := shown Connections.Resource.id published db.store.resources

def View.replayUser (v : View) (id : ℕ) : Change → Option Snapshot → View
  | .create, some (.user s) => { v with users := (id, s) :: v.users }
  | .update, some (.user s) => { v with users := put v.users id s }
  | .delete, _ =>
    { v with users := drop v.users id, userRoles := v.userRoles.filter fun row => row.1 ≠ id }
  | _, _ => v

def View.replayRole (v : View) (id : ℕ) : Change → Option Snapshot → View
  | .create, some (.role name) => { v with roles := v.roles ++ [(id, name)] }
  | .delete, _ => { v with
      roles := drop v.roles id
      userRoles := v.userRoles.filter fun row => row.2 ≠ id
      policies := v.policies.filter fun row => row.2.roleId ≠ id }
  | _, _ => v

def View.replayUserRole (v : View) (id : ℕ) : Change → Option Snapshot → Option Snapshot → View
  | .create, _, some (.userRole role) => { v with userRoles := v.userRoles ++ [(id, role)] }
  | .delete, some (.userRole role), _ =>
    { v with userRoles := v.userRoles.filter fun row => row ≠ (id, role) }
  | _, _, _ => v

def View.replayPolicy (v : View) (id : ℕ) : Change → Option Snapshot → View
  | .create, some (.policy s) => { v with policies := v.policies ++ [(id, s)] }
  | .update, some (.policy s) => { v with policies := put v.policies id s }
  | .delete, _ => { v with policies := drop v.policies id }
  | _, _ => v

def View.replayResource (v : View) (id : ℕ) : Change → Option Snapshot → View
  | .create, some (.resource s) => { v with resources := v.resources ++ [(id, s.toPublished)] }
  | .update, some (.resource s) => { v with resources := put v.resources id s.toPublished }
  | .rotatePublicPassword, _ => { v with
      resources := v.resources.map fun row =>
        (row.1, if row.1 = id then { row.2 with publicPasswordSet := true } else row.2) }
  | .delete, _ => { v with
      resources := drop v.resources id
      policies := v.policies.filter fun row => row.2.resourceId ≠ id }
  | _, _ => v

/-- What a record makes of the view; the rows that go with a row that is deleted go as well. -/
def View.replay (v : View) (c : PolicyChange) : View :=
  match c.entityType with
  | .user => v.replayUser c.entityId c.action c.after
  | .role => v.replayRole c.entityId c.action c.after
  | .userRole => v.replayUserRole c.entityId c.action c.before c.after
  | .policy => v.replayPolicy c.entityId c.action c.after
  | .resource => v.replayResource c.entityId c.action c.after
  | _ => v

/-- What the record gives as the state before is what the view shows. -/
def View.Tells (v : View) (c : PolicyChange) : Prop :=
  match c.entityType, c.before with
  | .user, some (.user s) => (c.entityId, s) ∈ v.users
  | .role, some (.role name) => (c.entityId, name) ∈ v.roles
  | .userRole, some (.userRole role) => (c.entityId, role) ∈ v.userRoles
  | .policy, some (.policy s) => (c.entityId, s) ∈ v.policies
  | .resource, some (.resource s) => (c.entityId, s.toPublished) ∈ v.resources
  | _, _ => True

def journal : Journal (Db σ τ) PolicyChange View := ⟨Db.changes, view, View.replay⟩

/-! ### Requests -/

/-- What holds in every state: keys are not used twice. -/
structure Keyed (db : Db σ τ) : Prop where
  users : (db.accounts.users.map Accounts.User.id).Nodup
  store : MirroredConnections.Keyed db.store

/-- What a request leaves that succeeds. -/
structure Result (actor : ℕ) (db db' : Db σ τ) : Prop where
  leads : Leads journal View.Tells db db'
  users : Users actor db db'.accounts.users
  store : MirroredConnections.Keyed db'.store
  actors : ∀ c ∈ db'.changes, c ∈ db.changes ∨ c.actor = actor

theorem result_record (actor : ℕ) (db db' : Db σ τ) (c : PolicyChange) (hactor : c.actor = actor)
    (hchanges : db'.changes = db.changes) (hview : view db' = (view db).replay c)
    (htells : (view db).Tells c) (husers : Users actor db db'.accounts.users)
    (hstore : MirroredConnections.Keyed db'.store) : Result actor db (db'.record c) where
  leads := Leads.one journal View.Tells db _ c (congrArg (· ++ [c]) hchanges) hview htells
  users := husers
  store := hstore
  actors := fun d hd => by
    rw [Db.record, hchanges, List.mem_append, List.mem_singleton] at hd
    rcases hd with hd | rfl
    · exact Or.inl hd
    · exact Or.inr hactor

/-- A row is shown as before when neither it nor the name of its user has changed. -/
theorem shown_users (db db' : Db σ τ) (id : ℕ) (users : List Accounts.User)
    (hnames : ∀ n, n ≠ id → db'.displayNames n = db.displayNames n)
    (hother : ∀ u ∈ users, u.id ≠ id) :
    shown Accounts.User.id (userSnapshot db') users =
      shown Accounts.User.id (userSnapshot db) users :=
  List.map_congr_left fun u hu => by rw [userSnapshot, userSnapshot, hnames u.id (hother u hu)]

theorem createUser_result (m : Moment) (actor : ℕ) (db db' : Db σ τ) (body : UserCreate)
    (hkeyed : Keyed db) (h : createUser cfg m actor db body = .ok db') : Result actor db db' := by
  obtain ⟨email, -, h⟩ := bind_ok h
  obtain ⟨-, -, h⟩ := bind_ok h
  obtain ⟨accounts, haccounts, h⟩ := bind_ok h
  obtain rfl := Except.ok.inj h
  obtain ⟨hnew, husers⟩ := settled_createUser cfg _ _ _ haccounts
  refine result_record actor db _ _ rfl rfl ?_ trivial ?_ hkeyed.store
  · simp only [view, View.replay, View.replayUser, husers]
    refine congrArg (fun rows => View.mk (_ :: rows) _ _ _ _) (shown_users db _ m.newId _ ?_ ?_)
    · exact fun n hn => Function.update_of_ne hn body.displayName db.displayNames
    · exact user_none _ _ hnew
  · simp only [husers]
    exact .added _ hnew

theorem patchUser_result (m : Moment) (actor : ℕ) (db db' : Db σ τ) (id : ℕ) (body : UserPatch)
    (hkeyed : Keyed db) (h : patchUser m actor db id body = .ok db') : Result actor db db' := by
  obtain ⟨-, -, h⟩ := bind_ok h
  obtain ⟨user, huser, h⟩ := bind_ok h
  obtain ⟨accounts, haccounts, h⟩ := bind_ok h
  obtain rfl := Except.ok.inj h
  have hfound := userOr404_ok db id user huser
  obtain ⟨hmem, rfl⟩ := user_some _ id user hfound
  obtain ⟨hprotected, husers⟩ := settled_patchUser _ _ _ _ _ _ user hfound haccounts
  refine result_record actor db _ _ rfl rfl ?_ ?_ ?_ hkeyed.store
  · simp only [view, View.replay, View.replayUser, husers]
    refine congrArg (fun rows => View.mk rows _ _ _ _)
      (shown_update _ _ _ db.accounts.users user.id _ (fun _ => _) (fun _ _ _ => ⟨rfl, rfl⟩) ?_)
    exact fun u _ hne => by simp only [userSnapshot, Function.update_of_ne hne]
  · exact mem_shown _ (userSnapshot db) db.accounts.users user hmem
  · simp only [husers]
    refine .updated user _ hfound rfl fun hp => ⟨hp, fun _ => (hprotected hp).2, fun _ => ?_⟩
    cases hstatus : body.status.getD user.status with
    | active => rfl
    | disabled => exact absurd hstatus (hprotected hp).1

theorem deleteUser_result (actor : ℕ) (db db' : Db σ τ) (id : ℕ) (hkeyed : Keyed db)
    (h : deleteUser actor db id = .ok db') : Result actor db db' := by
  obtain ⟨user, huser, h⟩ := bind_ok h
  obtain ⟨_, hactor, h⟩ := bind_ok h
  obtain ⟨accounts, haccounts, h⟩ := bind_ok h
  obtain ⟨_, hrecords, h⟩ := bind_ok h
  obtain rfl := Except.ok.inj h
  have hfound := userOr404_ok db id user huser
  obtain ⟨hmem, rfl⟩ := user_some _ id user hfound
  obtain ⟨hprotected, husers⟩ := settled_deleteUser _ _ _ user hfound haccounts
  refine result_record actor db _ _ rfl rfl ?_ ?_ ?_ hkeyed.store
  · simp only [view, View.replay, View.replayUser, husers]
    exact congrArg (fun rows => View.mk rows _ _ _ _)
      (shown_filter Accounts.User.id (userSnapshot db) db.accounts.users user.id)
  · exact mem_shown _ (userSnapshot db) db.accounts.users user hmem
  · simp only [husers]
    refine .deleted user hfound hprotected (by simpa using require_ok hactor) fun c hc heq => ?_
    have hnone := require_ok hrecords
    simp only [Bool.not_eq_true', List.any_eq_false, beq_iff_eq] at hnone
    exact hnone c hc heq

/-- A request that leaves what the view shows, with a record of no entity of the view. -/
theorem result_silent (actor : ℕ) (db db' : Db σ τ) (c : PolicyChange) (hactor : c.actor = actor)
    (hchanges : db'.changes = db.changes) (hview : view db' = view db)
    (hreplay : ∀ v : View, v.replay c = v ∧ v.Tells c)
    (husers : Users actor db db'.accounts.users) (hstore : MirroredConnections.Keyed db'.store) :
    Result actor db (db'.record c) :=
  result_record actor db db' c hactor hchanges (hview.trans (hreplay _).1.symm) (hreplay _).2 husers
    hstore

/-- Accounts that are changed elsewhere than in what the view shows of the users. -/
theorem view_accounts (db : Db σ τ) (accounts : Accounts.State)
    (h : accounts.users = db.accounts.users) : view { db with accounts := accounts } = view db := by
  simp only [view, h]
  rfl

theorem users_of_eq (actor : ℕ) (db : Db σ τ) (users : List Accounts.User)
    (h : users = db.accounts.users) : Users actor db users := h ▸ .same

theorem deleteCredential_result (actor : ℕ) (db db' : Db σ τ) (id : ℕ) (credential : Text)
    (hkeyed : Keyed db) (h : deleteCredential cfg actor db id credential = .ok db') :
    Result actor db db' := by
  obtain ⟨accounts, haccounts, h⟩ := bind_ok h
  obtain rfl := Except.ok.inj h
  have husers := settled_deleteCredential _ _ _ _ haccounts
  exact result_silent actor db _ _ rfl rfl (view_accounts db accounts husers)
    (fun _ => ⟨rfl, trivial⟩) (users_of_eq actor db _ husers) hkeyed.store

theorem revokeSessions_result (m : Moment) (actor : ℕ) (db db' : Db σ τ) (id : ℕ)
    (hkeyed : Keyed db) (h : revokeSessions m actor db id = .ok db') : Result actor db db' := by
  obtain ⟨-, -, h⟩ := bind_ok h
  obtain rfl := Except.ok.inj h
  exact result_silent actor db _ _ rfl rfl (view_accounts db _ rfl) (fun _ => ⟨rfl, trivial⟩) .same
    hkeyed.store

theorem resetTotp_result (m : Moment) (actor : ℕ) (db db' : Db σ τ) (id : ℕ) (hkeyed : Keyed db)
    (h : resetTotp m actor db id = .ok db') : Result actor db db' := by
  obtain ⟨accounts, haccounts, h⟩ := bind_ok h
  obtain rfl := Except.ok.inj h
  have husers := settled_resetTotp _ _ _ _ haccounts
  exact result_silent actor db _ _ rfl rfl (view_accounts db accounts husers)
    (fun _ => ⟨rfl, trivial⟩) (users_of_eq actor db _ husers) hkeyed.store

theorem resetPassword_result (m : Moment) (actor : ℕ) (db db' : Db σ τ) (id : ℕ)
    (tempPassword : Text) (hkeyed : Keyed db)
    (h : resetPassword m actor db id tempPassword = .ok db') : Result actor db db' := by
  obtain ⟨-, -, h⟩ := bind_ok h
  obtain ⟨accounts, haccounts, h⟩ := bind_ok h
  obtain rfl := Except.ok.inj h
  obtain ⟨user, hfound, husers⟩ := settled_resetPassword _ _ _ _ _ haccounts
  obtain ⟨hmem, rfl⟩ := user_some _ id user hfound
  refine result_silent actor db _ _ rfl rfl ?_ (fun _ => ⟨rfl, trivial⟩) ?_ hkeyed.store
  · simp only [view, husers]
    refine congrArg (fun rows => View.mk rows _ _ _ _)
      (shown_congr Accounts.User.id (userSnapshot db) db.accounts.users _ fun u hu => ?_)
    split_ifs with hid
    · have hsame : u = user := List.inj_on_of_nodup_map hkeyed.users hu hmem hid
      rw [hsame]
      exact ⟨rfl, rfl⟩
    · exact ⟨rfl, rfl⟩
  · simp only [husers]
    exact .updated user _ hfound rfl fun hp => ⟨hp, id, id⟩

/-! ### Roles and policies -/

theorem createRole_result (actor : ℕ) (db db' : Db σ τ) (name : Text) (description : Option Text)
    (hkeyed : Keyed db) (h : createRole actor db name description = .ok db') :
    Result actor db db' := by
  obtain ⟨-, -, h⟩ := bind_ok h
  obtain ⟨-, -, h⟩ := bind_ok h
  obtain rfl := Except.ok.inj h
  refine result_record actor db _ _ rfl rfl ?_ trivial .same hkeyed.store
  simp only [view, View.replay, View.replayRole, shown_append]
  rfl

theorem role_some (db : Db σ τ) (id : ℕ) (role : Role) (h : db.role id = some role) :
    role ∈ db.roles ∧ role.id = id :=
  ⟨List.mem_of_find?_eq_some h, by simpa using List.find?_some h⟩

theorem deleteRole_result (actor : ℕ) (db db' : Db σ τ) (id : ℕ) (hkeyed : Keyed db)
    (h : deleteRole actor db id = .ok db') : Result actor db db' := by
  unfold deleteRole at h
  cases hfound : db.role id with
  | none =>
    rw [hfound] at h
    cases h
  | some role =>
    rw [hfound] at h
    obtain rfl := Except.ok.inj h
    obtain ⟨hmem, rfl⟩ := role_some db id role hfound
    refine result_record actor db _ _ rfl rfl ?_ (mem_shown _ Role.name db.roles role hmem) .same
      hkeyed.store
    exact congrArg₂ (fun roles policies => View.mk _ roles _ policies _)
      (shown_filter Role.id Role.name db.roles role.id)
      (shown_keep Policy.id policySnapshot db.policies fun s => s.roleId ≠ role.id)

theorem attachRole_result (actor : ℕ) (db db' : Db σ τ) (user role : ℕ) (hkeyed : Keyed db)
    (h : attachRole actor db user role = .ok db') : Result actor db db' := by
  obtain ⟨-, -, h⟩ := bind_ok h
  split_ifs at h with hassigned
  · obtain rfl := Except.ok.inj h
    exact ⟨Leads.silent _ _ _ _ rfl rfl, .same, hkeyed.store, fun _ hc => Or.inl hc⟩
  · obtain rfl := Except.ok.inj h
    exact result_record actor db _ _ rfl rfl rfl trivial .same hkeyed.store

theorem detachRole_result (actor : ℕ) (db db' : Db σ τ) (user role : ℕ) (hkeyed : Keyed db)
    (h : detachRole actor db user role = .ok db') : Result actor db db' := by
  obtain ⟨_, hassigned, h⟩ := bind_ok h
  obtain rfl := Except.ok.inj h
  have htells : (user, role) ∈ db.userRoles := by simpa using require_ok hassigned
  exact result_record actor db _ _ rfl rfl rfl htells .same hkeyed.store

theorem policyOr404_ok (db : Db σ τ) (id : ℕ) (row : Policy) (h : policyOr404 db id = .ok row) :
    row ∈ db.policies ∧ row.id = id := by
  unfold policyOr404 at h
  cases hfound : db.policy id with
  | none =>
    rw [hfound] at h
    cases h
  | some found =>
    rw [hfound] at h
    obtain rfl := Except.ok.inj h
    exact ⟨List.mem_of_find?_eq_some hfound, by simpa using List.find?_some hfound⟩

theorem createPolicy_result (actor : ℕ) (db db' : Db σ τ) (body : PolicyCreate) (hkeyed : Keyed db)
    (h : createPolicy actor db body = .ok db') : Result actor db db' := by
  obtain ⟨-, -, h⟩ := bind_ok h
  obtain ⟨-, -, h⟩ := bind_ok h
  obtain ⟨-, -, h⟩ := bind_ok h
  obtain rfl := Except.ok.inj h
  refine result_record actor db _ _ rfl rfl ?_ trivial .same hkeyed.store
  simp only [view, View.replay, View.replayPolicy, shown_append]
  rfl

theorem merged_id (body : PolicyPatch) (row new : Policy) (h : merged body row = .ok new) :
    new.id = row.id := by
  unfold merged at h
  cases hmerge : body.merge row with
  | none =>
    rw [hmerge] at h
    cases h
  | some merged =>
    rw [hmerge] at h
    obtain rfl := Except.ok.inj h
    simp only [PolicyPatch.merge, Option.bind_eq_bind, Option.bind_eq_some_iff] at hmerge
    obtain ⟨action, -, conditions, -, enabled, -, hnew⟩ := hmerge
    exact Option.some.inj hnew ▸ rfl

theorem patchPolicy_result (actor : ℕ) (db db' : Db σ τ) (id : ℕ) (body : PolicyPatch)
    (hkeyed : Keyed db) (h : patchPolicy actor db id body = .ok db') : Result actor db db' := by
  obtain ⟨row, hrow, h⟩ := bind_ok h
  obtain ⟨new, hnew, h⟩ := bind_ok h
  obtain ⟨-, -, h⟩ := bind_ok h
  obtain rfl := Except.ok.inj h
  obtain ⟨hmem, rfl⟩ := policyOr404_ok db id row hrow
  refine result_record actor db _ _ rfl rfl ?_ (mem_shown _ policySnapshot db.policies row hmem)
    .same hkeyed.store
  exact congrArg (fun rows => View.mk _ _ _ rows _) (shown_update Policy.id policySnapshot _
    db.policies row.id (policySnapshot new) (fun _ => new)
    (fun _ _ _ => ⟨merged_id body row new hnew, rfl⟩) fun _ _ _ => rfl)

theorem deletePolicy_result (actor : ℕ) (db db' : Db σ τ) (id : ℕ) (hkeyed : Keyed db)
    (h : deletePolicy actor db id = .ok db') : Result actor db db' := by
  obtain ⟨row, hrow, h⟩ := bind_ok h
  obtain rfl := Except.ok.inj h
  obtain ⟨hmem, rfl⟩ := policyOr404_ok db id row hrow
  refine result_record actor db _ _ rfl rfl ?_ (mem_shown _ policySnapshot db.policies row hmem)
    .same hkeyed.store
  exact congrArg (fun rows => View.mk _ _ _ rows _)
    (shown_filter Policy.id policySnapshot db.policies row.id)

/-! ### Resources -/

/-- A request that is one of those on resources and connections. -/
theorem store_step (store store' : Connections.Db σ τ) (e : Connections.Event σ τ vault)
    (hstore : MirroredConnections.Keyed store) (h : Connections.step A store e = store') :
    MirroredConnections.Keyed store' := h ▸ MirroredConnections.keyed_step A store e hstore

theorem resource_mem (db : Db σ τ) (id : ℕ) (r : Connections.Resource)
    (h : db.store.resource id = some r) : r ∈ db.store.resources ∧ r.id = id :=
  MirroredConnections.resource_some db.store id r h

theorem tells_resource (db : Db σ τ) (c : PolicyChange) (hentity : c.entityType = .resource)
    (hbefore : c.before = db.resourceAfter c.entityId) : (view db).Tells c := by
  rw [View.Tells, hentity, hbefore, Db.resourceAfter]
  cases hfound : db.store.resource c.entityId with
  | none => trivial
  | some r =>
    obtain ⟨hmem, hid⟩ := resource_mem db _ r hfound
    exact hid ▸ mem_shown _ published db.store.resources r hmem

/-- A record of an entity that the view does not have. -/
theorem result_connection (actor : ℕ) (db db' : Db σ τ) (c : PolicyChange)
    (hactor : c.actor = actor) (hentity : c.entityType = .resourceConnection)
    (hchanges : db'.changes = db.changes) (hview : view db' = view db)
    (husers : db'.accounts = db.accounts) (hstore : MirroredConnections.Keyed db'.store) :
    Result actor db (db'.record c) := by
  refine result_silent actor db db' c hactor hchanges hview (fun v => ⟨?_, ?_⟩)
    (users_of_eq actor db _ (congrArg _ husers)) hstore
  · rw [View.replay, hentity]
  · rw [View.Tells, hentity]
    trivial

theorem putConnection_result (env : Connections.Env vault) (actor : ℕ) (db db' : Db σ τ) (id : ℕ)
    (body : Connections.Upsert) (hkeyed : Keyed db)
    (h : putConnection A env actor db id body = .ok db') : Result actor db db' := by
  obtain ⟨store, hput, h⟩ := bind_ok h
  obtain rfl := Except.ok.inj h
  obtain ⟨r, secret, -, -, hfound, -, -, hresources, -, -⟩ :=
    Connections.putConnection_cases A env _ _ id body hput
  obtain ⟨hmem, hid⟩ := resource_mem db id r hfound
  refine result_connection actor db _ _ rfl rfl rfl ?_ rfl
    (store_step A _ _ (.putConnection env id body) hkeyed.store (by rw [Connections.step, hput]; rfl))
  simp only [view, hresources]
  refine congrArg (fun rows => View.mk _ _ _ _ rows) (shown_congr _ published _ _ fun other ho => ?_)
  split_ifs with hsame
  · have hother := MirroredConnections.same_id db.store hkeyed.store other r ho hmem hsame
    rw [hother]
    exact ⟨rfl, rfl⟩
  · exact ⟨rfl, rfl⟩

theorem deleteConnection_result (actor : ℕ) (db db' : Db σ τ) (id : ℕ) (hkeyed : Keyed db)
    (h : deleteConnection actor db id = .ok db') : Result actor db db' := by
  obtain ⟨store, hdelete, h⟩ := bind_ok h
  obtain rfl := Except.ok.inj h
  have hstore := Connections.deleteConnection_cases _ _ id hdelete
  refine result_connection actor db _ _ rfl rfl rfl ?_ rfl ?_
  · rw [hstore]
    rfl
  · have hkeep := hkeyed.store
    rw [hstore]
    exact ⟨hkeep.nodup, hkeep.resources, fun row hrow =>
      hkeep.connections row (List.mem_of_mem_filter hrow), hkeep.hidden⟩

theorem resource_of_mem (store : Connections.Db σ τ) (h : MirroredConnections.Keyed store)
    (r : Connections.Resource) (hr : r ∈ store.resources) : store.resource r.id = some r := by
  cases hfound : store.resource r.id with
  | none =>
    have hne := List.find?_eq_none.mp hfound r hr
    exact absurd (beq_self_eq_true r.id) hne
  | some other =>
    obtain ⟨hmem, hid⟩ := MirroredConnections.resource_some store r.id other hfound
    rw [MirroredConnections.same_id store h other r hmem hr hid]

theorem keyed_setResource (store : Connections.Db σ τ) (row new : Connections.Resource)
    (h : MirroredConnections.Keyed store) (hmem : row ∈ store.resources) (hid : new.id = row.id)
    (hprotocol : new.protocol = row.protocol)
    (hhidden : (Connections.tunnelOf row.protocol).isSome → row.publicHost = none →
      new.publicHost = none) :
    MirroredConnections.Keyed (store.setResource new) where
  nodup := by
    rw [MirroredConnections.setResource_ids]
    exact h.nodup
  resources := fun r hr => by
    rcases MirroredConnections.mem_setResource store new r hr with rfl | ⟨hr, -⟩
    · exact hid ▸ h.resources row hmem
    · exact h.resources r hr
  connections := h.connections
  hidden := fun r hr => by
    rcases MirroredConnections.mem_setResource store new r hr with rfl | ⟨hr, -⟩
    · rw [hprotocol]
      exact fun htunnel => hhidden htunnel (h.hidden row hmem htunnel)
    · exact h.hidden r hr

theorem patchResource_result (env : Connections.Env vault) (actor : ℕ) (db db' : Db σ τ) (id : ℕ)
    (body : Connections.ResourcePatch) (hkeyed : Keyed db)
    (h : patchResource env actor db id body = .ok db') : Result actor db db' := by
  obtain ⟨store, hpatch, h⟩ := bind_ok h
  obtain rfl := Except.ok.inj h
  obtain ⟨new, hnew, rfl⟩ := Connections.patchResource_cases env _ _ id body hpatch
  obtain ⟨row, hfound, hid, hprotocol, hhidden, -⟩ :=
    MirroredConnections.patched_ok env db.store id body new hnew
  obtain ⟨hmem, hrow⟩ := resource_mem db id row hfound
  have hstore := keyed_setResource db.store row new hkeyed.store hmem hid hprotocol hhidden
  obtain rfl : new.id = id := hid.trans hrow
  have hafter := resource_of_mem _ hstore new
    (MirroredConnections.setResource_mem db.store new row hmem hid.symm)
  refine result_record actor db _ _ rfl rfl ?_ (tells_resource db _ rfl rfl) .same hstore
  simp only [View.replay, View.replayResource, Db.resourceAfter, hafter, Option.map_some]
  exact congrArg (fun rows => View.mk _ _ _ _ rows) (shown_update Connections.Resource.id published
    published db.store.resources new.id (published new) (fun _ => new) (fun _ _ _ => ⟨rfl, rfl⟩)
    fun _ _ _ => rfl)

theorem resourceOr404_ok (db : Db σ τ) (id : ℕ) (row : Connections.Resource)
    (h : resourceOr404 db id = .ok row) : db.store.resource id = some row := by
  unfold resourceOr404 at h
  cases hfound : db.store.resource id with
  | none =>
    rw [hfound] at h
    cases h
  | some found =>
    rw [hfound] at h
    rw [Except.ok.inj h]

theorem rotatePublicPassword_result (env : Connections.Env vault) (actor : ℕ) (db db' : Db σ τ)
    (id : ℕ) (hkeyed : Keyed db) (h : rotatePublicPassword env actor db id = .ok db') :
    Result actor db db' := by
  obtain ⟨row, hrow, h⟩ := bind_ok h
  obtain ⟨-, -, h⟩ := bind_ok h
  obtain rfl := Except.ok.inj h
  obtain ⟨hmem, rfl⟩ := resource_mem db id row (resourceOr404_ok db id row hrow)
  refine result_record actor db _ _ rfl rfl ?_ trivial .same
    (keyed_setResource db.store row _ hkeyed.store hmem rfl rfl fun _ h => h)
  refine congrArg (fun rows => View.mk _ _ _ _ rows) ?_
  simp only [shown, view, Connections.Db.setResource, List.map_map]
  refine List.map_congr_left fun r hr => ?_
  simp only [Function.comp_apply]
  split_ifs with hsame
  · rw [MirroredConnections.same_id db.store hkeyed.store r row hr hmem hsame]
    rfl
  · rfl

theorem deleteResource_result (actor : ℕ) (db db' : Db σ τ) (id : ℕ) (hkeyed : Keyed db)
    (h : deleteResource actor db id = .ok db') : Result actor db db' := by
  obtain ⟨store, hdelete, h⟩ := bind_ok h
  obtain rfl := Except.ok.inj h
  obtain rfl := Connections.deleteResource_cases _ _ id hdelete
  have hkeep := hkeyed.store
  have hothers : (db.store.resources.filter fun r => r.id != id) =
      db.store.resources.filter fun r => r.id ≠ id :=
    List.filter_congr fun r _ => by rw [Bool.eq_iff_iff]; simp
  refine result_record actor db _ _ rfl rfl ?_ (tells_resource db _ rfl rfl) .same ?_
  · exact congrArg₂ (fun policies resources => View.mk _ _ _ policies resources)
      (shown_keep Policy.id policySnapshot db.policies fun s => s.resourceId ≠ id)
      ((congrArg _ hothers).trans
        (shown_filter Connections.Resource.id published db.store.resources id))
  · refine ⟨(List.filter_sublist.map _).nodup hkeep.nodup, fun r hr => ?_, fun row hrow => ?_,
      fun r hr => ?_⟩
    · exact hkeep.resources r (List.mem_of_mem_filter hr)
    · exact hkeep.connections row (List.mem_of_mem_filter hrow)
    · exact hkeep.hidden r (List.mem_of_mem_filter hr)

theorem recordConnection_result (actor resource : ℕ) (db db' : Db σ τ)
    (h : Result actor db db') : Result actor db (db'.recordConnection actor resource) := by
  unfold Db.recordConnection
  cases db'.store.connection resource with
  | none => exact h
  | some row =>
    refine ⟨h.leads.trans (Leads.one journal View.Tells db' _ _ rfl rfl trivial), h.users, h.store,
      fun c hc => ?_⟩
    rcases List.mem_append.mp hc with hc | hc
    · exact h.actors c hc
    · exact Or.inr (List.mem_singleton.mp hc ▸ rfl)

theorem createResource_result (env : Connections.Env vault) (actor : ℕ) (db db' : Db σ τ)
    (body : Connections.ResourceCreate) (hkeyed : Keyed db)
    (h : createResource A env actor db body = .ok db') : Result actor db db' := by
  obtain ⟨store, hcreate, h⟩ := bind_ok h
  obtain rfl := Except.ok.inj h
  have hstore := store_step A db.store store (.createResource env body) hkeyed.store
    (by rw [Connections.step, hcreate]; rfl)
  obtain ⟨publicHost, tunnel, new, -, hid, -, -, -, -, hresources, -, -⟩ :=
    Connections.createResource_cases A env db.store store body hcreate
  have hmem : new ∈ store.resources := by
    rw [hresources]
    exact List.mem_append_right _ (List.mem_singleton_self new)
  have hafter : store.resource db.store.next = some new := hid ▸ resource_of_mem store hstore new hmem
  refine recordConnection_result actor _ db _ (result_record actor db _ _ rfl rfl ?_ trivial .same
    hstore)
  simp only [view, View.replay, View.replayResource, Db.resourceAfter, hafter, Option.map_some,
    hresources, shown_append]
  rw [← hid]
  rfl

/-! ### Runs -/

theorem handle_result (actor : ℕ) (db db' : Db σ τ) (r : Request vault) (hkeyed : Keyed db)
    (h : handle cfg A actor db r = .ok db') : Result actor db db' := by
  cases r with
  | createUser m body => exact createUser_result cfg m actor db db' body hkeyed h
  | patchUser m id body => exact patchUser_result m actor db db' id body hkeyed h
  | deleteUser id => exact deleteUser_result actor db db' id hkeyed h
  | deleteCredential id c => exact deleteCredential_result cfg actor db db' id c hkeyed h
  | revokeSessions m id => exact revokeSessions_result m actor db db' id hkeyed h
  | resetTotp m id => exact resetTotp_result m actor db db' id hkeyed h
  | resetPassword m id t => exact resetPassword_result m actor db db' id t hkeyed h
  | createRole name d => exact createRole_result actor db db' name d hkeyed h
  | deleteRole id => exact deleteRole_result actor db db' id hkeyed h
  | attachRole user role => exact attachRole_result actor db db' user role hkeyed h
  | detachRole user role => exact detachRole_result actor db db' user role hkeyed h
  | createPolicy body => exact createPolicy_result actor db db' body hkeyed h
  | patchPolicy id body => exact patchPolicy_result actor db db' id body hkeyed h
  | deletePolicy id => exact deletePolicy_result actor db db' id hkeyed h
  | createResource env body => exact createResource_result A env actor db db' body hkeyed h
  | patchResource env id body => exact patchResource_result env actor db db' id body hkeyed h
  | rotatePublicPassword env id => exact rotatePublicPassword_result env actor db db' id hkeyed h
  | deleteResource id => exact deleteResource_result actor db db' id hkeyed h
  | putConnection env id body => exact putConnection_result A env actor db db' id body hkeyed h
  | deleteConnection id => exact deleteConnection_result actor db db' id hkeyed h

theorem users_nodup (actor : ℕ) (db : Db σ τ) (users : List Accounts.User) (h : Users actor db users)
    (hkeyed : (db.accounts.users.map Accounts.User.id).Nodup) :
    (users.map Accounts.User.id).Nodup := by
  cases h with
  | same => exact hkeyed
  | added user hnew =>
    refine List.nodup_cons.mpr ⟨fun hmem => ?_, hkeyed⟩
    obtain ⟨u, hu, hid⟩ := List.mem_map.mp hmem
    exact user_none _ _ hnew u hu hid
  | updated user new hfound hid hprotected =>
    have hids : (db.accounts.users.map fun u => if u.id = user.id then new else u).map
        Accounts.User.id = db.accounts.users.map Accounts.User.id := by
      rw [List.map_map]
      refine List.map_congr_left fun u _ => ?_
      simp only [Function.comp_apply]
      split_ifs with hsame
      · exact hid.trans hsame.symm
      · rfl
    exact hids ▸ hkeyed
  | deleted user _ _ _ _ => exact (List.filter_sublist.map _).nodup hkeyed

theorem step_result (db : Db σ τ) (e : Event vault) (hkeyed : Keyed db) :
    Leads journal View.Tells db (step cfg A db e) ∧ Keyed (step cfg A db e) := by
  cases e with
  | request actor r =>
    rw [step, serve]
    cases hadmin : requireAdmin actor db with
    | error e => exact ⟨Leads.silent _ _ _ _ rfl rfl, hkeyed⟩
    | ok u =>
      change Leads _ _ _ (commit db (handle cfg A actor db r)) ∧
        Keyed (commit db (handle cfg A actor db r))
      cases hhandle : handle cfg A actor db r with
      | error e => exact ⟨Leads.silent _ _ _ _ rfl rfl, hkeyed⟩
      | ok db' =>
        have h := handle_result cfg A actor db db' r hkeyed hhandle
        exact ⟨h.leads, users_nodup actor db _ h.users hkeyed.users, h.store⟩
  | portal actor r =>
    rw [step]
    split_ifs
    · refine ⟨Leads.one _ _ _ _ (r.change actor) rfl ?_ ?_, hkeyed.users, hkeyed.store⟩
      · cases r <;> rfl
      · cases r <;> trivial
    · exact ⟨Leads.silent _ _ _ _ rfl rfl, hkeyed⟩
  | signIn e =>
    have husers := signIn_users cfg db.accounts e
    refine ⟨Leads.silent _ _ _ _ rfl (view_accounts db _ husers), ?_, hkeyed.store⟩
    rw [step, husers]
    exact hkeyed.users
  | rotateMasterKey backend nonces =>
    exact ⟨Leads.silent _ _ _ _ rfl rfl, hkeyed.users,
      MirroredConnections.keyed_step A db.store (.rotate backend nonces) hkeyed.store⟩

def bootstrapAdmin : Accounts.User :=
  ⟨0, "root@example.org".toList, .active, .admin, "pw".toList, true⟩

/-- The tables after `bootstrap_admin`. -/
def bootstrapped : Db Unit Unit :=
  { accounts := { Passkeys.initial with users := [bootstrapAdmin] }
    displayNames := fun _ => "root".toList
    roles := []
    userRoles := []
    policies := []
    store := Connections.initial Unit Unit
    next := 0
    changes := [] }

theorem bootstrapped_keyed : Keyed bootstrapped :=
  ⟨by decide, by constructor <;> simp [bootstrapped, Connections.initial, Connections.Db.connections]⟩

def officeConfig : Config :=
  { AccountKeys.caselessConfig with emailStr := some, credential := fun _ => (0, []) }

/-- A role and its assignment, a tunnelled resource whose connection is replaced, and two requests
that are refused. -/
def officeDay : List (Event MirroredConnections.sampleVault) :=
  [.request 0 (.createRole "family".toList none), .request 0 (.attachRole 0 0),
    .request 0 (.createResource MirroredConnections.sampleEnv MirroredConnections.desktop),
    .request 0 (.putConnection MirroredConnections.sampleEnv 0 MirroredConnections.shell),
    .request 0 (.deleteUser 0), .request 1 (.detachRole 0 0)]

/-! ### Accounts that stay -/

/-- The account is there, protected, active and of the admin tier. -/
def Protected (db : Db σ τ) (id : ℕ) : Prop :=
  ∃ u ∈ db.accounts.users, u.id = id ∧ u.isProtected = true ∧ u.tier = .admin ∧ u.status = .active

/-- Who has made a change has an account. -/
def Accountable (db : Db σ τ) : Prop :=
  ∀ c ∈ db.changes, ∃ u ∈ db.accounts.users, u.id = c.actor

theorem users_protected (actor : ℕ) (db : Db σ τ) (users : List Accounts.User)
    (h : Users actor db users) (hkeyed : Keyed db) (u : Accounts.User)
    (hu : u ∈ db.accounts.users) (hprotected : u.isProtected = true) (htier : u.tier = .admin)
    (hstatus : u.status = .active) :
    ∃ u' ∈ users, u'.id = u.id ∧ u'.isProtected = true ∧ u'.tier = .admin ∧ u'.status = .active := by
  have hsame : ∀ v, db.accounts.user v.id = some v → u.id = v.id → u = v := fun v hv hid =>
    List.inj_on_of_nodup_map hkeyed.users hu (user_some _ _ v hv).1 hid
  cases h with
  | same => exact ⟨u, hu, rfl, hprotected, htier, hstatus⟩
  | added user hnew => exact ⟨u, List.mem_cons_of_mem _ hu, rfl, hprotected, htier, hstatus⟩
  | updated user new hfound hid hkeeps =>
    by_cases hid' : u.id = user.id
    · obtain rfl := hsame user hfound hid'
      obtain ⟨hp, ht, hs⟩ := hkeeps hprotected
      exact ⟨new, List.mem_map.mpr ⟨u, hu, if_pos rfl⟩, hid, hp, ht htier, hs hstatus⟩
    · exact ⟨u, List.mem_map.mpr ⟨u, hu, if_neg hid'⟩, rfl, hprotected, htier, hstatus⟩
  | deleted user hfound hunprotected _ _ =>
    refine ⟨u, List.mem_filter.mpr ⟨hu, decide_eq_true fun hid => ?_⟩, rfl, hprotected, htier,
      hstatus⟩
    rw [← hsame user hfound hid, hprotected] at hunprotected
    cases hunprotected

/-- The rows of the actor and of those who are on record stay. -/
theorem users_actor (actor : ℕ) (db : Db σ τ) (users : List Accounts.User) (h : Users actor db users)
    (id : ℕ) (hid : id = actor ∨ ∃ c ∈ db.changes, c.actor = id)
    (hu : ∃ u ∈ db.accounts.users, u.id = id) : ∃ u ∈ users, u.id = id := by
  obtain ⟨u, hu, rfl⟩ := hu
  cases h with
  | same => exact ⟨u, hu, rfl⟩
  | added user _ => exact ⟨u, List.mem_cons_of_mem _ hu, rfl⟩
  | updated user new _ hnew _ =>
    by_cases hsame : u.id = user.id
    · exact ⟨new, List.mem_map.mpr ⟨u, hu, if_pos hsame⟩, hnew.trans hsame.symm⟩
    · exact ⟨u, List.mem_map.mpr ⟨u, hu, if_neg hsame⟩, rfl⟩
  | deleted user _ _ hactor hrecords =>
    refine ⟨u, List.mem_filter.mpr ⟨hu, decide_eq_true fun hsame => ?_⟩, rfl⟩
    rcases hid with hid | ⟨c, hc, hid⟩
    · exact hactor (hsame ▸ hid)
    · exact hrecords c hc (hid.trans hsame)

theorem requireAdmin_ok (actor : ℕ) (db : Db σ τ) (h : requireAdmin actor db = .ok ()) :
    ∃ u ∈ db.accounts.users, u.id = actor := by
  unfold requireAdmin at h
  cases hfound : db.accounts.user actor with
  | none =>
    rw [hfound] at h
    cases h
  | some user => exact ⟨user, user_some _ _ _ hfound⟩

theorem accountable_record (actor : ℕ) (db db' : Db σ τ) (users : Users actor db db'.accounts.users)
    (hactor : ∃ u ∈ db.accounts.users, u.id = actor)
    (hchanges : ∀ c ∈ db'.changes, c ∈ db.changes ∨ c.actor = actor) (h : Accountable db) :
    Accountable db' := fun c hc => by
  rcases hchanges c hc with hc | hc
  · exact users_actor actor db _ users c.actor (Or.inr ⟨c, hc, rfl⟩) (h c hc)
  · exact users_actor actor db _ users c.actor (Or.inl hc) (hc ▸ hactor)

/-- One step keeps the accounts that have to stay. -/
theorem step_stays (id : ℕ) (db : Db σ τ) (e : Event vault) (hkeyed : Keyed db)
    (hprotected : Protected db id) (h : Accountable db) :
    Protected (step cfg A db e) id ∧ Accountable (step cfg A db e) := by
  cases e with
  | request actor r =>
    rw [step, serve]
    cases hadmin : requireAdmin actor db with
    | error e => exact ⟨hprotected, h⟩
    | ok u =>
      change Protected (commit db (handle cfg A actor db r)) id ∧
        Accountable (commit db (handle cfg A actor db r))
      cases hhandle : handle cfg A actor db r with
      | error e => exact ⟨hprotected, h⟩
      | ok db' =>
        have hresult := handle_result cfg A actor db db' r hkeyed hhandle
        refine ⟨?_, accountable_record actor db db' hresult.users (requireAdmin_ok actor db hadmin)
          hresult.actors h⟩
        obtain ⟨u, hu, rfl, hp, ht, hs⟩ := hprotected
        exact users_protected actor db _ hresult.users hkeyed u hu hp ht hs
  | portal actor r =>
    rw [step]
    split_ifs with hactor
    · obtain ⟨u, hu⟩ := Option.isSome_iff_exists.mp hactor
      refine ⟨hprotected, accountable_record actor db _ .same ⟨u, user_some _ _ u hu⟩
        (fun c hc => ?_) h⟩
      refine (List.mem_append.mp hc).imp_right fun hc => ?_
      rw [List.mem_singleton.mp hc]
      cases r <;> rfl
    · exact ⟨hprotected, h⟩
  | signIn e =>
    have husers := signIn_users cfg db.accounts e
    rw [step, Protected, Accountable, husers]
    exact ⟨hprotected, h⟩
  | rotateMasterKey backend nonces => exact ⟨hprotected, h⟩

/-- No run of requests takes the account of the bootstrap administrator away, disables or demotes
it, or deletes the account of someone who has made a change. -/
theorem accounts_stay (id : ℕ) (db : Db σ τ) (events : List (Event vault)) (hkeyed : Keyed db)
    (hprotected : Protected db id) (h : Accountable db) :
    Protected (events.foldl (step cfg A) db) id ∧ Accountable (events.foldl (step cfg A) db) := by
  induction events generalizing db with
  | nil => exact ⟨hprotected, h⟩
  | cons e rest ih =>
    obtain ⟨hp, ha⟩ := step_stays cfg A id db e hkeyed hprotected h
    exact ih (step cfg A db e) (step_result cfg A db e hkeyed).2 hp ha

theorem accounts_stay_sample :
    Protected (officeDay.foldl (step officeConfig plainAead) bootstrapped) 0 ∧
      Accountable (officeDay.foldl (step officeConfig plainAead) bootstrapped) :=
  accounts_stay officeConfig plainAead 0 bootstrapped officeDay bootstrapped_keyed
    ⟨bootstrapAdmin, List.mem_singleton.mpr rfl, rfl, rfl, rfl, rfl⟩ fun _ hc =>
      absurd hc List.not_mem_nil

end Hyproxy.ChangeJournal

import Hyproxy.PublicAccess
import Hyproxy.PublicGate
import Hyproxy.Runs

/-!
A public session that holds was granted under the password and the paths of its
resource as they are, as long as no session is committed between the revocation
of an operation and its commit, and none after the commit of an operation that
its password check has not seen.
-/
namespace Hyproxy.PublicRevocation

open PublicGate
open ReadCommitted (State Txn)
open Runs (Along)

def Live (g : Granted) : Prop := g.session.revokedAt = none

/-- The two rows grant the same. -/
structure SameGrant (r r' : Row) : Prop where
  password : r'.publicPasswordHash = r.publicPasswordHash
  paths : r'.publicPaths = r.publicPaths
  enabled : r'.enabled = r.enabled
  publicAccess : r'.publicAccess = r.publicAccess

/-- The row at a later time. -/
structure Ahead (r r' : Row) : Prop where
  changes : r.changes ≤ r'.changes
  same : r'.changes = r.changes → SameGrant r r'
  grants : r.grants ≤ r'.grants

/-- What the row grants is what the password check of the session has read. -/
structure Holds (g : Granted) (r : Row) : Prop where
  password : r.publicPasswordHash = some g.hash
  paths : r.publicPaths = g.paths
  enabled : r.enabled = true
  publicAccess : r.publicAccess = true

/-- The session was granted under what its resource grants now. -/
def Current (db : Db) (g : Granted) : Prop :=
  ∃ r, db.resource g.session.resource = some r ∧ r.changes = g.change ∧ Holds g r

/-- The session was granted under what its resource granted when it had changed so often. -/
def Fresh (db : Db) (g : Granted) : Prop :=
  ∃ r, db.resource g.session.resource = some r ∧ g.change ≤ r.changes ∧
    (r.changes = g.change → Holds g r)

/-- A row that has been read: a session that was live then shows that it was open. -/
def Seen (db : Db) (seen : Row) : Prop :=
  ∃ r, db.resource seen.id = some r ∧ Ahead seen r ∧
    (r.grants = seen.grants → ∀ g ∈ db.sessions, Live g → g.session.resource = seen.id →
      seen.enabled = true ∧ seen.publicAccess = true)

/-- The revocation has found every session that was granted before it. -/
def Covered (db : Db) (writes : List Write) (mark : Mark) : Prop :=
  ∃ r, db.resource mark.resource = some r ∧ mark.grants ≤ r.grants ∧
    (r.grants = mark.grants → ∀ g ∈ db.sessions, Live g → g.session.resource = mark.resource →
      ∃ now, Write.revoke g.session.id now ∈ writes)

def updates (id : ℕ) : Write → Bool
  | .updateResource other c => other == id && c.alters
  | _ => false

/-- The writes change what the resource grants. -/
def Alters (writes : List Write) (id : ℕ) : Prop := writes.any (updates id) = true

/-- The writes of an operation on the resource before it revokes. -/
def Flushed (id : ℕ) (writes : List Write) : Prop :=
  ∀ w ∈ writes, (∃ c, w = .updateResource id c) ∨ ∃ host, w = .claimHost host

/-- The writes of an operation on the resource. -/
def Administers (id : ℕ) (writes : List Write) : Prop :=
  ∀ w ∈ writes, (∃ c, w = .updateResource id c) ∨ (∃ host, w = .claimHost host) ∨
    ∃ session now, w = .revoke session now

/-- What a transaction has read and written before it stands at the point. -/
def Stands (db : Db) (writes : List Write) : Point → Prop
  | .gate _ _ => writes = []
  | .throttle _ _ seen => writes = [] ∧ Seen db seen ∧ seen.enabled = true ∧ seen.publicAccess = true
  | .insert _ _ seen hash => writes = [] ∧ Seen db seen ∧ seen.enabled = true ∧
      seen.publicAccess = true ∧ seen.publicPasswordHash = some hash
  | .rotate _ => writes = []
  | .patch _ _ => writes = []
  | .patchHost seen _ => writes = [] ∧ Seen db seen
  | .flush seen _ _ _ => writes = [] ∧ Seen db seen
  | .revoke seen _ _ _ => Flushed seen.id writes ∧ Seen db seen
  | .finish _ _ mark _ => Administers mark.resource writes ∧ Covered db writes mark
  | .write seen new _ => writes = [] ∧ Seen db seen ∧
      ((diff seen new).alters = true → ¬(seen.enabled = true ∧ seen.publicAccess = true))
  | .answer _ none => ∀ w ∈ writes, ∃ g, w = .addSession g ∧ Fresh db g
  | .answer _ (some mark) => Administers mark.resource writes ∧
      (Alters writes mark.resource → Covered db writes mark)

structure Inv (s : State Db Write Point Reply) : Prop where
  keys : (s.db.resources.map fun r => r.id).Nodup
  current : ∀ g ∈ s.db.sessions, Live g → Current s.db g
  stands : ∀ x ∈ s.txns, Stands s.db x.writes x.point

/-- The resource has changed no more than when the password check of the session read it. -/
def unchanged (db : Db) : Write → Bool
  | .addSession g => ((db.resource g.session.resource).map Row.changes) == some g.change
  | _ => true

/-- No session has been granted on the resource since the mark. -/
def ungranted (db : Db) (writes : List Write) : Point → Bool
  | .answer _ (some mark) => !writes.any (updates mark.resource) ||
      ((db.resource mark.resource).map Row.grants) == some mark.grants
  | _ => true

/-- A session is committed while its resource is as the password check has read it, and a change
while no session has been granted since its revocation, or since it read the row if it ran none. -/
def Timely (s : State Db Write Point Reply) : Event → Prop
  | .commit t => ∀ x ∈ s.txns, x.id = t →
      x.writes.all (unchanged s.db) = true ∧ ungranted s.db x.writes x.point = true
  | _ => True

instance decidableTimely (s : State Db Write Point Reply) : ∀ e, Decidable (Timely s e)
  | .commit t => inferInstanceAs (Decidable (∀ x ∈ s.txns, x.id = t →
      x.writes.all (unchanged s.db) = true ∧ ungranted s.db x.writes x.point = true))
  | .arrive _ _ _ => isTrue trivial
  | .statement _ _ => isTrue trivial
  | .rollback _ => isTrue trivial

/-! ### Rows -/

@[simp] theorem set_id (c : Columns) (r : Row) : (c.set r).id = r.id := rfl

@[simp] theorem touch_id (w : Write) (r : Row) : (w.touch r).id = r.id := by
  cases w with
  | updateResource id c =>
    simp only [Write.touch]
    split <;> rfl
  | claimHost host => rfl
  | addSession g =>
    simp only [Write.touch]
    split <;> rfl
  | revoke id now => rfl

theorem SameGrant.refl (r : Row) : SameGrant r r := ⟨rfl, rfl, rfl, rfl⟩

theorem SameGrant.trans {r r' r'' : Row} (h : SameGrant r r') (h' : SameGrant r' r'') :
    SameGrant r r'' :=
  ⟨h'.password.trans h.password, h'.paths.trans h.paths, h'.enabled.trans h.enabled,
    h'.publicAccess.trans h.publicAccess⟩

theorem Ahead.refl (r : Row) : Ahead r r := ⟨Nat.le_refl _, fun _ => .refl r, Nat.le_refl _⟩

theorem Ahead.trans {r r' r'' : Row} (h : Ahead r r') (h' : Ahead r' r'') : Ahead r r'' where
  changes := Nat.le_trans h.changes h'.changes
  same heq := by
    have hle := h.changes
    have hle' := h'.changes
    exact (h.same (by omega)).trans (h'.same (by omega))
  grants := Nat.le_trans h.grants h'.grants

theorem Holds.same {g : Granted} {r r' : Row} (h : Holds g r) (hsame : SameGrant r r') : Holds g r' :=
  ⟨hsame.password.trans h.password, hsame.paths.trans h.paths, hsame.enabled.trans h.enabled,
    hsame.publicAccess.trans h.publicAccess⟩

theorem set_changes (c : Columns) (r : Row) (h : c.alters = false) : (c.set r).changes = r.changes := by
  simp [Columns.set, h]

theorem set_same (c : Columns) (r : Row) (h : c.alters = false) : SameGrant r (c.set r) := by
  simp only [Columns.alters, Bool.or_eq_false_iff, Option.isSome_eq_false_iff,
    Option.isNone_iff_eq_none] at h
  obtain ⟨⟨⟨henabled, haccess⟩, hpaths⟩, hhash⟩ := h
  exact ⟨by simp [Columns.set, hhash], by simp [Columns.set, hpaths], by simp [Columns.set, henabled],
    by simp [Columns.set, haccess]⟩

theorem set_ahead (c : Columns) (r : Row) : Ahead r (c.set r) := by
  cases h : c.alters with
  | false =>
    exact ⟨Nat.le_of_eq (set_changes c r h).symm, fun _ => set_same c r h, Nat.le_refl _⟩
  | true =>
    refine ⟨?_, fun heq => ?_, Nat.le_refl _⟩
    · simp [Columns.set, h]
    · simp [Columns.set, h] at heq

theorem touch_ahead (w : Write) (r : Row) : Ahead r (w.touch r) := by
  cases w with
  | updateResource id c =>
    simp only [Write.touch]
    split_ifs
    · exact set_ahead c r
    · exact .refl r
  | claimHost host => exact .refl r
  | addSession g =>
    simp only [Write.touch]
    split_ifs
    · exact ⟨Nat.le_refl _, fun _ => ⟨rfl, rfl, rfl, rfl⟩, Nat.le_succ _⟩
    · exact .refl r
  | revoke id now => exact .refl r

theorem resource_apply (db : Db) (w : Write) (id : ℕ) :
    (apply db w).resource id = (db.resource id).map w.touch := by
  simp only [Db.resource, apply, List.find?_map, Function.comp_def, touch_id]

theorem resource_mem (db : Db) (id : ℕ) (r : Row) (h : db.resource id = some r) :
    r ∈ db.resources ∧ r.id = id :=
  ⟨List.mem_of_find?_eq_some h, by simpa using List.find?_some h⟩

theorem resource_of_mem (db : Db) (r : Row) (hkeys : (db.resources.map fun r => r.id).Nodup)
    (h : r ∈ db.resources) : db.resource r.id = some r := by
  cases hfound : db.resource r.id with
  | none => exact absurd (List.find?_eq_none.mp hfound r h) (by simp)
  | some r' =>
    obtain ⟨hmem, hid⟩ := resource_mem db r.id r' hfound
    rw [List.inj_on_of_nodup_map hkeys hmem h hid]

theorem keys_apply (db : Db) (w : Write) :
    (apply db w).resources.map (fun r => r.id) = db.resources.map fun r => r.id := by
  simp only [apply, List.map_map, Function.comp_def, touch_id]

theorem keys_foldl (writes : List Write) (db : Db) :
    (writes.foldl apply db).resources.map (fun r => r.id) = db.resources.map fun r => r.id := by
  induction writes generalizing db with
  | nil => rfl
  | cons w rest ih => rw [List.foldl_cons, ih, keys_apply]

/-! ### Later states -/

/-- The state after some writes: a resource that has been granted no session has no new live one. -/
def Later (db db' : Db) : Prop :=
  ∀ id r, db.resource id = some r → ∃ r', db'.resource id = some r' ∧ Ahead r r' ∧
    (r'.grants = r.grants → ∀ g ∈ db'.sessions, Live g → g.session.resource = id → g ∈ db.sessions)

theorem Later.refl (db : Db) : Later db db :=
  fun _ r hr => ⟨r, hr, .refl r, fun _ _ hg _ _ => hg⟩

theorem Later.trans {db db' db'' : Db} (h : Later db db') (h' : Later db' db'') : Later db db'' := by
  intro id r hr
  obtain ⟨r', hr', hahead, hgranted⟩ := h id r hr
  obtain ⟨r'', hr'', hahead', hgranted'⟩ := h' id r' hr'
  refine ⟨r'', hr'', hahead.trans hahead', fun heq g hg hlive hid => ?_⟩
  have hle := hahead.grants
  have hle' := hahead'.grants
  exact hgranted (by omega) g (hgranted' (by omega) g hg hlive hid) hlive hid

/-- A session that is live after a revocation was live before it. -/
theorem live_revoked (sessions : List Granted) (id : ℕ) (now : ℤ) (g : Granted)
    (hg : g ∈ (Write.revoke id now).keep sessions) (hlive : Live g) :
    g ∈ sessions ∧ g.session.id ≠ id := by
  obtain ⟨old, hold, rfl⟩ := List.mem_map.mp hg
  split_ifs at hlive with hid
  · simp [Live, Granted.revoke] at hlive
  · rw [if_neg hid]
    exact ⟨hold, hid⟩

theorem later_apply (db : Db) (w : Write) : Later db (apply db w) := by
  intro id r hr
  refine ⟨w.touch r, by rw [resource_apply, hr, Option.map_some], touch_ahead w r, ?_⟩
  intro heq g hg hlive hid
  cases w with
  | updateResource other c => exact hg
  | claimHost host => exact hg
  | addSession added =>
    rcases List.mem_append.mp hg with hg | hg
    · exact hg
    · rw [List.mem_singleton.mp hg] at hid
      have hrid := (resource_mem db id r hr).2
      rw [Write.touch, if_pos (hrid.trans hid.symm)] at heq
      exact absurd heq (Nat.succ_ne_self _)
  | revoke session now => exact (live_revoked db.sessions session now g hg hlive).1

theorem later_foldl (writes : List Write) (db : Db) : Later db (writes.foldl apply db) := by
  induction writes generalizing db with
  | nil => exact .refl db
  | cons w rest ih => exact (later_apply db w).trans (ih (apply db w))

theorem Fresh.later {db db' : Db} {g : Granted} (h : Fresh db g) (hlater : Later db db') :
    Fresh db' g := by
  obtain ⟨r, hr, hle, hholds⟩ := h
  obtain ⟨r', hr', hahead, -⟩ := hlater _ r hr
  have hle' := hahead.changes
  exact ⟨r', hr', by omega, fun heq => (hholds (by omega)).same (hahead.same (by omega))⟩

theorem Seen.later {db db' : Db} {seen : Row} (h : Seen db seen) (hlater : Later db db') :
    Seen db' seen := by
  obtain ⟨r, hr, hahead, hopen⟩ := h
  obtain ⟨r', hr', hahead', hgranted⟩ := hlater _ r hr
  refine ⟨r', hr', hahead.trans hahead', fun heq g hg hlive hid => ?_⟩
  have hle := hahead.grants
  have hle' := hahead'.grants
  exact hopen (by omega) g (hgranted (by omega) g hg hlive hid) hlive hid

theorem Covered.later {db db' : Db} {writes : List Write} {mark : Mark}
    (h : Covered db writes mark) (hlater : Later db db') : Covered db' writes mark := by
  obtain ⟨r, hr, hle, hfound⟩ := h
  obtain ⟨r', hr', hahead, hgranted⟩ := hlater _ r hr
  have hle' := hahead.grants
  refine ⟨r', hr', by omega, fun heq g hg hlive hid => ?_⟩
  exact hfound (by omega) g (hgranted (by omega) g hg hlive hid) hlive hid

theorem stands_later (db db' : Db) (writes : List Write) (p : Point) (hlater : Later db db')
    (h : Stands db writes p) : Stands db' writes p := by
  cases p with
  | gate form now => exact h
  | throttle form now seen => exact ⟨h.1, h.2.1.later hlater, h.2.2⟩
  | insert form now seen hash => exact ⟨h.1, h.2.1.later hlater, h.2.2⟩
  | rotate id => exact h
  | patch id body => exact h
  | patchHost seen body => exact ⟨h.1, h.2.later hlater⟩
  | flush seen new cleared reply => exact ⟨h.1, h.2.later hlater⟩
  | revoke seen new cleared reply => exact ⟨h.1, h.2.later hlater⟩
  | finish new cleared mark reply => exact ⟨h.1, h.2.later hlater⟩
  | write seen new reply => exact ⟨h.1, h.2.1.later hlater, h.2.2⟩
  | answer reply mark =>
    cases mark with
    | none =>
      intro w hw
      obtain ⟨g, rfl, hfresh⟩ := h w hw
      exact ⟨g, rfl, hfresh.later hlater⟩
    | some mark => exact ⟨h.1, fun halters => (h.2 halters).later hlater⟩

/-! ### Statements -/

theorem current_seen (db : Db) (r : Row) (hr : db.resource r.id = some r)
    (hcurrent : ∀ g ∈ db.sessions, Live g → Current db g) : Seen db r := by
  refine ⟨r, hr, .refl r, fun _ g hg hlive hid => ?_⟩
  obtain ⟨r', hr', -, hholds⟩ := hcurrent g hg hlive
  rw [hid, hr] at hr'
  obtain rfl := Option.some.inj hr'
  exact ⟨hholds.enabled, hholds.publicAccess⟩

theorem rowForRequest_some (db : Db) (forwarded : List Char) (r : Row)
    (h : rowForRequest db forwarded = some r) :
    r ∈ db.resources ∧ r.enabled = true ∧ r.publicAccess = true := by
  obtain ⟨host, -, hfound⟩ := Option.bind_eq_some_iff.mp h
  have hserved := List.find?_some hfound
  simp only [Bool.and_eq_true] at hserved
  exact ⟨List.mem_of_find?_eq_some hfound, hserved.1.2, hserved.2⟩

theorem updateRow_flushed (db : Db) (id : ℕ) (c : Columns) (writes : List Write)
    (h : updateRow db id c = some writes) :
    Flushed id writes ∧ (c.alters = false → ¬ Alters writes id) := by
  have hnil : Flushed id [] ∧ (c.alters = false → ¬ Alters [] id) :=
    ⟨fun w hw => absurd hw List.not_mem_nil, fun _ halters => by simp [Alters] at halters⟩
  unfold updateRow at h
  split_ifs at h with hempty
  · obtain rfl := Option.some.inj h
    exact hnil
  · cases hrow : db.resource id with
    | none =>
      rw [hrow] at h
      obtain rfl := Option.some.inj h
      exact hnil
    | some r =>
      rw [hrow] at h
      simp only at h
      split_ifs at h
      obtain rfl := Option.some.inj h
      have hclaims : ∀ w ∈ hostClaim c.publicHost, ∃ host, w = .claimHost host := by
        intro w hw
        unfold hostClaim at hw
        split at hw
        · exact ⟨_, List.mem_singleton.mp hw⟩
        · exact absurd hw List.not_mem_nil
      refine ⟨fun w hw => ?_, fun halters hany => ?_⟩
      · rcases List.mem_cons.mp hw with rfl | hw
        · exact Or.inl ⟨c, rfl⟩
        · exact Or.inr (hclaims w hw)
      · obtain ⟨w, hw, hupdates⟩ := List.any_eq_true.mp hany
        rcases List.mem_cons.mp hw with rfl | hw
        · simp [updates, halters] at hupdates
        · obtain ⟨host, rfl⟩ := hclaims w hw
          simp [updates] at hupdates

theorem Flushed.administers {id : ℕ} {writes : List Write} (h : Flushed id writes) :
    Administers id writes := by
  intro w hw
  exact (h w hw).imp_right Or.inl

theorem Administers.append {id : ℕ} {left right : List Write} (hleft : Administers id left)
    (hright : Administers id right) : Administers id (left ++ right) := by
  intro w hw
  rcases List.mem_append.mp hw with hw | hw
  · exact hleft w hw
  · exact hright w hw

theorem Covered.append {db : Db} {writes : List Write} {mark : Mark} (h : Covered db writes mark)
    (more : List Write) : Covered db (writes ++ more) mark := by
  obtain ⟨r, hr, hle, hfound⟩ := h
  refine ⟨r, hr, hle, fun heq g hg hlive hid => ?_⟩
  obtain ⟨now, hmem⟩ := hfound heq g hg hlive hid
  exact ⟨now, List.mem_append_left _ hmem⟩

/-- An operation that has not revoked yet sees the sessions as they are. -/
theorem flushed_view (id : ℕ) (writes : List Write) (db : Db) (h : Flushed id writes) :
    (writes.foldl apply db).sessions = db.sessions ∧
      ∀ other r, db.resource other = some r →
        ∃ r', (writes.foldl apply db).resource other = some r' ∧ r'.grants = r.grants := by
  induction writes generalizing db with
  | nil => exact ⟨rfl, fun other r hr => ⟨r, hr, rfl⟩⟩
  | cons w rest ih =>
    obtain ⟨hsessions, hrows⟩ := ih (apply db w) fun w hw => h w (List.mem_cons_of_mem _ hw)
    rcases h w (List.mem_cons_self ..) with ⟨c, rfl⟩ | ⟨host, rfl⟩
    · refine ⟨hsessions, fun other r hr => ?_⟩
      obtain ⟨r', hr', hgrants⟩ := hrows other ((Write.updateResource id c).touch r)
        (by rw [resource_apply, hr, Option.map_some])
      refine ⟨r', hr', hgrants.trans ?_⟩
      simp only [Write.touch]
      split <;> rfl
    · refine ⟨hsessions, fun other r hr => ?_⟩
      exact hrows other r (by rw [resource_apply, hr, Option.map_some]; rfl)

theorem mem_revocations (db : Db) (id : ℕ) (now : ℤ) (g : Granted) (hg : g ∈ db.sessions)
    (hlive : Live g) (hid : g.session.resource = id) :
    Write.revoke g.session.id now ∈ revocations db id now := by
  refine List.mem_map.mpr ⟨g, List.mem_filter.mpr ⟨hg, ?_⟩, rfl⟩
  rw [hlive, hid]
  simp

theorem revocations_administer (db : Db) (id other : ℕ) (now : ℤ) :
    Administers other (revocations db id now) := by
  intro w hw
  obtain ⟨g, -, rfl⟩ := List.mem_map.mp hw
  exact Or.inr (Or.inr ⟨g.session.id, now, rfl⟩)

theorem changed_eq {α : Type} [DecidableEq α] (old new : α) (h : old = new) : changed old new = none :=
  if_pos h

theorem merge_some (body : Patch) (seen new : Row) (h : body.merge seen = some new) :
    new.publicPasswordHash = seen.publicPasswordHash ∧
      body.enabled.getD (some seen.enabled) = some new.enabled := by
  unfold Patch.merge at h
  split at h
  · rename_i enabled publicAccess henabled haccess
    obtain rfl := Option.some.inj h
    exact ⟨rfl, henabled⟩
  · cases h

theorem paths_eq (old new : Option (List (List Char))) (h : new.getD [] = old.getD [])
    (hsome : (new.getD []).isEmpty = false) : old = new := by
  cases new with
  | none => simp at hsome
  | some new =>
    cases old with
    | none =>
      rw [Option.getD_some, Option.getD_none] at h
      simp [h] at hsome
    | some old =>
      rw [Option.getD_some, Option.getD_some] at h
      rw [h]

/-- An operation that runs no revocation leaves an open resource what it grants. -/
theorem patch_kept (seen new : Row) (body : Patch) (hmerge : body.merge seen = some new)
    (hshape : validPublicShape new = true) (hgrant : grantChanged seen new body = false)
    (henabled : seen.enabled = true) (haccess : seen.publicAccess = true) :
    (diff seen (clearPassword new)).alters = false := by
  obtain ⟨hhash, hcolumn⟩ := merge_some body seen new hmerge
  simp only [grantChanged, haccess, Bool.true_and, Bool.or_eq_false_iff, Bool.not_eq_false'] at hgrant
  obtain ⟨⟨hopen, hpaths⟩, hoff⟩ := hgrant
  have hnew : new.enabled = true := by
    cases hbody : body.enabled with
    | none =>
      rw [hbody, henabled] at hcolumn
      exact (Option.some.inj hcolumn).symm
    | some column => simpa [hbody] using hoff
  rw [hopen, Bool.true_and, decide_eq_false_iff_not, not_not] at hpaths
  have hpublic : seen.publicPaths = new.publicPaths := by
    refine paths_eq _ _ hpaths ?_
    simp only [validPublicShape, hopen, Bool.not_true, Bool.false_or, Bool.and_eq_true,
      Bool.not_eq_true'] at hshape
    exact hshape.2
  rw [clearPassword, if_pos hopen]
  simp only [diff, Columns.alters, changed_eq _ _ (henabled.trans hnew.symm),
    changed_eq _ _ (haccess.trans hopen.symm), changed_eq _ _ hpublic, changed_eq _ _ hhash.symm]
  rfl

theorem patchPoint_stands (db : Db) (seen : Row) (body : Patch) (p : Point) (hseen : Seen db seen)
    (h : patchPoint seen body = some p) : Stands db [] p := by
  unfold patchPoint at h
  cases hmerge : body.merge seen with
  | none =>
    rw [hmerge] at h
    cases h
  | some new =>
    rw [hmerge] at h
    simp only at h
    split_ifs at h with hshape hgrant
    · obtain rfl := Option.some.inj h
      exact ⟨rfl, hseen⟩
    · obtain rfl := Option.some.inj h
      refine ⟨rfl, hseen, fun halters hopen => ?_⟩
      rw [patch_kept seen new body hmerge hshape (by simpa using hgrant) hopen.1 hopen.2] at halters
      cases halters

theorem refused_stands (db : Db) (form : Form) (seen : Row) (error : String) (status retryAfter : ℕ) :
    Stands db [] (refused form seen error status retryAfter) :=
  fun _ hw => absurd hw List.not_mem_nil

theorem verify_stands (cfg : Config) (db : Db) (form : Form) (now : ℤ) (seen : Row)
    (hseen : Seen db seen) (henabled : seen.enabled = true) (haccess : seen.publicAccess = true) :
    Stands db [] (verify cfg form now seen) := by
  unfold verify
  cases hhash : seen.publicPasswordHash with
  | none => exact refused_stands db form seen _ _ _
  | some hash =>
    simp only
    split_ifs
    · exact ⟨rfl, hseen, henabled, haccess, hhash⟩
    · exact refused_stands db form seen _ _ _

theorem gate_stands (cfg : Config) (db : Db) (serial : ℕ) (now start : ℤ) (form : Form)
    (more : List Write) (p' : Point) (hkeys : (db.resources.map fun r => r.id).Nodup)
    (hcurrent : ∀ g ∈ db.sessions, Live g → Current db g)
    (h : statement cfg db serial now (.gate form start) = some (more, p')) : Stands db more p' := by
  unfold statement at h
  simp only at h
  cases hrow : rowForRequest db form.forwardedHost with
  | none =>
    rw [hrow] at h
    obtain ⟨rfl, rfl⟩ := Prod.mk.inj (Option.some.inj h)
    exact fun _ hw => absurd hw List.not_mem_nil
  | some seen =>
    rw [hrow] at h
    simp only at h
    obtain ⟨hmem, henabled, haccess⟩ := rowForRequest_some db _ seen hrow
    split_ifs at h
    · obtain ⟨rfl, rfl⟩ := Prod.mk.inj (Option.some.inj h)
      exact refused_stands db form seen _ _ _
    · obtain ⟨rfl, rfl⟩ := Prod.mk.inj (Option.some.inj h)
      exact ⟨rfl, current_seen db seen (resource_of_mem db seen hkeys hmem) hcurrent, henabled,
        haccess⟩

theorem throttle_stands (cfg : Config) (db : Db) (serial : ℕ) (now start : ℤ) (form : Form)
    (seen : Row) (more : List Write) (p' : Point) (hseen : Seen db seen)
    (henabled : seen.enabled = true) (haccess : seen.publicAccess = true)
    (h : statement cfg db serial now (.throttle form start seen) = some (more, p')) :
    Stands db more p' := by
  unfold statement at h
  simp only at h
  cases hthrottled : form.throttled with
  | none =>
    rw [hthrottled] at h
    obtain ⟨rfl, rfl⟩ := Prod.mk.inj (Option.some.inj h)
    exact verify_stands cfg db form start seen hseen henabled haccess
  | some retryAfter =>
    rw [hthrottled] at h
    obtain ⟨rfl, rfl⟩ := Prod.mk.inj (Option.some.inj h)
    exact refused_stands db form seen _ _ _

/-- The session is granted with what the row said when it was read. -/
theorem insert_fresh (cfg : Config) (db : Db) (serial : ℕ) (form : Form) (start : ℤ) (seen : Row)
    (hash : List Char) (hseen : Seen db seen) (henabled : seen.enabled = true)
    (haccess : seen.publicAccess = true) (hhash : seen.publicPasswordHash = some hash) :
    Fresh db ⟨newSession cfg serial form start seen, hash, seen.publicPaths, seen.changes⟩ := by
  obtain ⟨r, hr, hahead, -⟩ := hseen
  refine ⟨r, hr, hahead.changes, fun heq => ?_⟩
  have hsame := hahead.same heq
  exact ⟨hsame.password.trans hhash, hsame.paths, hsame.enabled.trans henabled,
    hsame.publicAccess.trans haccess⟩

theorem rotate_stands (cfg : Config) (db : Db) (serial : ℕ) (now : ℤ) (id : ℕ)
    (more : List Write) (p' : Point) (hcurrent : ∀ g ∈ db.sessions, Live g → Current db g)
    (h : statement cfg db serial now (.rotate id) = some (more, p')) : Stands db more p' := by
  unfold statement at h
  simp only at h
  cases hrow : db.resource id with
  | none =>
    rw [hrow] at h
    cases h
  | some seen =>
    rw [hrow] at h
    simp only at h
    split_ifs at h
    obtain ⟨rfl, rfl⟩ := Prod.mk.inj (Option.some.inj h)
    obtain ⟨-, rfl⟩ := resource_mem db id seen hrow
    exact ⟨rfl, current_seen db seen hrow hcurrent⟩

theorem patch_stands (cfg : Config) (db : Db) (serial : ℕ) (now : ℤ) (id : ℕ) (body : Patch)
    (more : List Write) (p' : Point) (hcurrent : ∀ g ∈ db.sessions, Live g → Current db g)
    (h : statement cfg db serial now (.patch id body) = some (more, p')) : Stands db more p' := by
  unfold statement at h
  simp only at h
  cases hrow : db.resource id with
  | none =>
    rw [hrow] at h
    cases h
  | some seen =>
    rw [hrow] at h
    simp only at h
    split_ifs at h
    obtain ⟨rfl, rfl⟩ := Prod.mk.inj (Option.some.inj h)
    obtain ⟨-, rfl⟩ := resource_mem db id seen hrow
    exact ⟨rfl, current_seen db seen hrow hcurrent⟩

/-- The sessions of the resource that the operation finds are revoked by it. -/
theorem revoke_covered (db : Db) (now : ℤ) (writes : List Write) (seen : Row)
    (hflushed : Flushed seen.id writes) (hseen : Seen db seen) :
    Covered db (writes ++ revocations (writes.foldl apply db) seen.id now)
      ⟨seen.id, (((writes.foldl apply db).resource seen.id).map Row.grants).getD 0⟩ := by
  obtain ⟨r, hr, hahead, -⟩ := hseen
  obtain ⟨hsessions, hrows⟩ := flushed_view seen.id writes db hflushed
  obtain ⟨r', hr', hgrants⟩ := hrows seen.id r hr
  refine ⟨r, hr, ?_, ?_⟩
  · simp only [hr', Option.map_some, Option.getD_some]
    omega
  · intro _ g hg hlive hid
    refine ⟨now, List.mem_append_right _ (mem_revocations _ _ _ g ?_ hlive hid)⟩
    rw [hsessions]
    exact hg

/-- An update that alters what a resource grants finds no session to revoke. -/
theorem write_covered (db : Db) (seen new : Row) (updated : List Write) (hseen : Seen db seen)
    (hclosed : (diff seen new).alters = true →
      ¬(seen.enabled = true ∧ seen.publicAccess = true))
    (hupdate : updateRow db seen.id (diff seen new) = some updated) :
    Alters updated seen.id → Covered db updated ⟨seen.id, seen.grants⟩ := by
  obtain ⟨r, hr, hahead, hopen⟩ := hseen
  obtain ⟨-, hkept⟩ := updateRow_flushed _ _ _ _ hupdate
  refine fun halters => ⟨r, hr, hahead.grants, ?_⟩
  intro heq g hg hlive hid
  cases hcolumns : (diff seen new).alters with
  | false => exact absurd halters (hkept hcolumns)
  | true => exact absurd (hopen heq g hg hlive hid) (hclosed hcolumns)

/-- A statement keeps what is known of its transaction. -/
theorem statement_stands (cfg : Config) (db : Db) (serial : ℕ) (now : ℤ) (writes more : List Write)
    (p p' : Point) (hkeys : (db.resources.map fun r => r.id).Nodup)
    (hcurrent : ∀ g ∈ db.sessions, Live g → Current db g) (hstands : Stands db writes p)
    (h : statement cfg (writes.foldl apply db) serial now p = some (more, p')) :
    Stands db (writes ++ more) p' := by
  cases p with
  | gate form start =>
    obtain rfl : writes = [] := hstands
    exact gate_stands cfg db serial now start form more p' hkeys hcurrent h
  | throttle form start seen =>
    obtain ⟨rfl, hseen, henabled, haccess⟩ := hstands
    exact throttle_stands cfg db serial now start form seen more p' hseen henabled haccess h
  | insert form start seen hash =>
    obtain ⟨rfl, hseen, henabled, haccess, hhash⟩ := hstands
    obtain ⟨rfl, rfl⟩ := Prod.mk.inj (Option.some.inj h)
    intro w hw
    exact ⟨_, List.mem_singleton.mp hw,
      insert_fresh cfg db serial form start seen hash hseen henabled haccess hhash⟩
  | rotate id =>
    obtain rfl : writes = [] := hstands
    exact rotate_stands cfg db serial now id more p' hcurrent h
  | patch id body =>
    obtain rfl : writes = [] := hstands
    exact patch_stands cfg db serial now id body more p' hcurrent h
  | patchHost seen body =>
    obtain ⟨rfl, hseen⟩ := hstands
    unfold statement at h
    simp only at h
    split_ifs at h
    cases hpoint : patchPoint seen body with
    | none =>
      rw [hpoint] at h
      cases h
    | some point =>
      rw [hpoint] at h
      obtain ⟨rfl, rfl⟩ := Prod.mk.inj (Option.some.inj h)
      exact patchPoint_stands db seen body point hseen hpoint
  | flush seen new cleared reply =>
    obtain ⟨rfl, hseen⟩ := hstands
    unfold statement at h
    simp only [List.foldl_nil] at h
    cases hupdate : updateRow db seen.id (diff seen new) with
    | none =>
      rw [hupdate] at h
      cases h
    | some updated =>
      rw [hupdate] at h
      obtain ⟨rfl, rfl⟩ := Prod.mk.inj (Option.some.inj h)
      exact ⟨(updateRow_flushed db _ _ _ hupdate).1, hseen⟩
  | revoke seen new cleared reply =>
    obtain ⟨hflushed, hseen⟩ := hstands
    obtain ⟨rfl, rfl⟩ := Prod.mk.inj (Option.some.inj h)
    exact ⟨hflushed.administers.append (revocations_administer _ _ _ _),
      revoke_covered db now writes seen hflushed hseen⟩
  | finish new cleared mark reply =>
    obtain ⟨hadmin, hcovered⟩ := hstands
    unfold statement at h
    simp only at h
    cases hupdate : updateRow (writes.foldl apply db) mark.resource (diff new cleared) with
    | none =>
      rw [hupdate] at h
      cases h
    | some updated =>
      rw [hupdate] at h
      obtain ⟨rfl, rfl⟩ := Prod.mk.inj (Option.some.inj h)
      exact ⟨hadmin.append (updateRow_flushed _ _ _ _ hupdate).1.administers,
        fun _ => hcovered.append updated⟩
  | write seen new reply =>
    obtain ⟨rfl, hseen, hclosed⟩ := hstands
    unfold statement at h
    simp only [List.foldl_nil] at h
    cases hupdate : updateRow db seen.id (diff seen new) with
    | none =>
      rw [hupdate] at h
      cases h
    | some updated =>
      rw [hupdate] at h
      obtain ⟨rfl, rfl⟩ := Prod.mk.inj (Option.some.inj h)
      exact ⟨(updateRow_flushed _ _ _ _ hupdate).1.administers,
        write_covered db seen new updated hseen hclosed hupdate⟩
  | answer reply mark => cases h

/-! ### Commits -/

/-- The sessions that are live after an operation: it has revoked none of them. -/
theorem administers_live (id : ℕ) (writes : List Write) (db : Db) (h : Administers id writes)
    (g : Granted) (hg : g ∈ (writes.foldl apply db).sessions) (hlive : Live g) :
    g ∈ db.sessions ∧ ∀ now, Write.revoke g.session.id now ∉ writes := by
  induction writes generalizing db with
  | nil => exact ⟨hg, fun _ => List.not_mem_nil⟩
  | cons w rest ih =>
    obtain ⟨hmem, hrest⟩ := ih (apply db w) (fun w hw => h w (List.mem_cons_of_mem _ hw)) hg
    have hhead : g ∈ db.sessions ∧ ∀ now, w ≠ .revoke g.session.id now := by
      rcases h w (List.mem_cons_self ..) with ⟨c, rfl⟩ | ⟨host, rfl⟩ | ⟨session, now, rfl⟩
      · exact ⟨hmem, fun _ => Write.noConfusion⟩
      · exact ⟨hmem, fun _ => Write.noConfusion⟩
      · obtain ⟨hold, hne⟩ := live_revoked db.sessions session now g hmem hlive
        exact ⟨hold, fun _ heq => hne (Write.revoke.inj heq).1.symm⟩
    refine ⟨hhead.1, fun now hnow => ?_⟩
    rcases List.mem_cons.mp hnow with heq | hnow
    · exact hhead.2 now heq.symm
    · exact hrest now hnow

/-- A resource that an operation does not alter grants the same after it. -/
theorem administers_row (id : ℕ) (writes : List Write) (db : Db) (h : Administers id writes)
    (other : ℕ) (r : Row) (hr : db.resource other = some r) (hkept : other = id → ¬ Alters writes id) :
    ∃ r', (writes.foldl apply db).resource other = some r' ∧ r'.changes = r.changes ∧
      SameGrant r r' := by
  induction writes generalizing db r with
  | nil => exact ⟨r, hr, rfl, .refl r⟩
  | cons w rest ih =>
    have hrest : other = id → ¬ Alters rest id := by
      intro hid halters
      exact hkept hid (by simp only [Alters, List.any_cons, Bool.or_eq_true]; exact Or.inr halters)
    have hhead : (w.touch r).changes = r.changes ∧ SameGrant r (w.touch r) := by
      rcases h w (List.mem_cons_self ..) with ⟨c, rfl⟩ | ⟨host, rfl⟩ | ⟨session, now, rfl⟩
      · simp only [Write.touch]
        split_ifs with hid
        · have hother := (resource_mem db other r hr).2.symm.trans hid
          have halters : c.alters = false := by
            cases hc : c.alters with
            | false => rfl
            | true => exact absurd (by simp [Alters, updates, hc]) (hkept hother)
          exact ⟨set_changes c r halters, set_same c r halters⟩
        · exact ⟨rfl, .refl r⟩
      · exact ⟨rfl, .refl r⟩
      · exact ⟨rfl, .refl r⟩
    obtain ⟨r', hr', hchanges, hsame⟩ := ih (apply db w) (fun w hw => h w (List.mem_cons_of_mem _ hw))
      (w.touch r) (by rw [resource_apply, hr, Option.map_some]) hrest
    exact ⟨r', hr', hchanges.trans hhead.1, hhead.2.trans hsame⟩

theorem Current.same {db db' : Db} {g : Granted} (h : Current db g)
    (hrow : ∀ r, db.resource g.session.resource = some r → ∃ r',
      db'.resource g.session.resource = some r' ∧ r'.changes = r.changes ∧ SameGrant r r') :
    Current db' g := by
  obtain ⟨r, hr, hchange, hholds⟩ := h
  obtain ⟨r', hr', hchanges, hsame⟩ := hrow r hr
  exact ⟨r', hr', hchanges.trans hchange, hholds.same hsame⟩

theorem Fresh.current {db : Db} {g : Granted} (h : Fresh db g)
    (hunchanged : unchanged db (.addSession g) = true) : Current db g := by
  obtain ⟨r, hr, -, hholds⟩ := h
  have hchange : r.changes = g.change := by simpa [unchanged, hr] using hunchanged
  exact ⟨r, hr, hchange, hholds hchange⟩

/-- What the commit of an operation leaves live is current. -/
theorem operation_current (db : Db) (writes : List Write) (reply : Reply) (mark : Mark)
    (hcurrent : ∀ g ∈ db.sessions, Live g → Current db g)
    (hstands : Stands db writes (.answer reply (some mark)))
    (htimely : ungranted db writes (.answer reply (some mark)) = true) :
    ∀ g ∈ (writes.foldl apply db).sessions, Live g → Current (writes.foldl apply db) g := by
  intro g hg hlive
  obtain ⟨hadmin, hcovered⟩ := hstands
  obtain ⟨hmem, hunrevoked⟩ := administers_live mark.resource writes db hadmin g hg hlive
  refine (hcurrent g hmem hlive).same fun r hr => ?_
  refine administers_row mark.resource writes db hadmin _ r hr fun hid halters => ?_
  obtain ⟨r', hr', -, hfound⟩ := hcovered halters
  have hgrants : r'.grants = mark.grants := by
    have hany : writes.any (updates mark.resource) = true := halters
    simpa [ungranted, hany, hr'] using htimely
  obtain ⟨now, hrevoke⟩ := hfound hgrants g hmem hlive hid
  exact hunrevoked now hrevoke

/-- What the commit of a submission leaves live is current. -/
theorem submission_current (db : Db) (writes : List Write)
    (hcurrent : ∀ g ∈ db.sessions, Live g → Current db g)
    (hfresh : ∀ w ∈ writes, ∃ g, w = .addSession g ∧ Fresh db g)
    (htimely : writes.all (unchanged db) = true) :
    ∀ g ∈ (writes.foldl apply db).sessions, Live g → Current (writes.foldl apply db) g := by
  induction writes generalizing db with
  | nil => exact hcurrent
  | cons w rest ih =>
    rw [List.all_cons, Bool.and_eq_true] at htimely
    obtain ⟨added, rfl, hadded⟩ := hfresh w (List.mem_cons_self ..)
    have hrow : ∀ id r, db.resource id = some r → ∃ r',
        (apply db (.addSession added)).resource id = some r' ∧ r'.changes = r.changes ∧
          SameGrant r r' := by
      intro id r hr
      refine ⟨_, by rw [resource_apply, hr, Option.map_some], ?_⟩
      simp only [Write.touch]
      split <;> exact ⟨rfl, rfl, rfl, rfl, rfl⟩
    refine ih (apply db (.addSession added)) (fun g hg hlive => ?_) (fun w hw => ?_) ?_
    · rcases List.mem_append.mp hg with hg | hg
      · exact (hcurrent g hg hlive).same fun r => hrow _ r
      · rw [List.mem_singleton.mp hg]
        exact (hadded.current htimely.1).same fun r => hrow _ r
    · obtain ⟨g, rfl, hg⟩ := hfresh w (List.mem_cons_of_mem _ hw)
      exact ⟨g, rfl, hg.later (later_apply db _)⟩
    · refine List.all_eq_true.mpr fun w hw => ?_
      have hold := List.all_eq_true.mp htimely.2 w hw
      obtain ⟨g, rfl, r, hr, -⟩ := hfresh w (List.mem_cons_of_mem _ hw)
      obtain ⟨r', hr', hchanges, -⟩ := hrow _ r hr
      simp only [unchanged, hr, hr', Option.map_some] at hold ⊢
      rw [hchanges]
      exact hold

theorem view_eq (cfg : Config) (x : Txn Write Point) (db : Db) :
    x.view (program cfg) db = x.writes.foldl apply db := rfl

theorem answer_some (cfg : Config) (p : Point) (reply : Reply)
    (h : (program cfg).answer p = some reply) : ∃ mark, p = .answer reply mark := by
  cases p with
  | answer other mark =>
    obtain rfl := Option.some.inj h
    exact ⟨mark, rfl⟩
  | _ => cases h

theorem step_inv (cfg : Config) (s : State Db Write Point Reply) (e : Event) (h : Inv s)
    (htimely : Timely s e) : Inv (step cfg s e) := by
  unfold step
  generalize ht : ReadCommitted.step (program cfg) s e = s'
  have heffect := ht ▸ ReadCommitted.step_effect (program cfg) s e
  cases heffect with
  | wait => exact ⟨h.keys, h.current, h.stands⟩
  | arrive t request now hnew =>
    refine ⟨h.keys, h.current, fun x hx => ?_⟩
    rcases List.mem_cons.mp hx with rfl | hx
    · cases request <;> rfl
    · exact h.stands x hx
  | statement x now writes p hmem hanswer hstatement hfree =>
    refine ⟨h.keys, h.current, fun y hy => ?_⟩
    rcases ReadCommitted.mem_put s _ y hy with rfl | ⟨hy, -⟩
    · exact statement_stands cfg s.db s.serial now x.writes writes x.point p h.keys h.current
        (h.stands x hmem) hstatement
    · exact h.stands y hy
  | commit x r hmem hanswer =>
    have hlater := later_foldl x.writes s.db
    obtain ⟨hunchanged, hungranted⟩ := htimely x hmem rfl
    obtain ⟨mark, hpoint⟩ := answer_some cfg x.point r hanswer
    have hstands := h.stands x hmem
    rw [hpoint] at hstands hungranted
    refine ⟨?_, ?_, fun y hy => ?_⟩
    · rw [view_eq, keys_foldl]
      exact h.keys
    · rw [view_eq]
      cases mark with
      | none => exact submission_current s.db x.writes h.current hstands hunchanged
      | some mark => exact operation_current s.db x.writes r mark h.current hstands hungranted
    · have hy := ((ReadCommitted.mem_drop s x.id y).mp hy).1
      exact stands_later s.db _ y.writes y.point hlater (h.stands y hy)
  | abandon _ t hwhy =>
    exact ⟨h.keys, h.current, fun y hy => h.stands y ((ReadCommitted.mem_drop s t y).mp hy).1⟩

theorem run_inv (cfg : Config) (resources : List Row) (events : List Event)
    (hkeys : (resources.map fun r => r.id).Nodup)
    (htimely : Along (step cfg) Timely (initial resources) events) :
    Inv (run cfg resources events) := by
  refine htimely.invariant Inv ⟨hkeys, ?_, ?_⟩ (step_inv cfg)
  · exact fun g hg => absurd hg List.not_mem_nil
  · exact fun x hx => absurd hx List.not_mem_nil

/-- In a timely run a cookie resolves to a session whose password check has read the password and
the paths of the resource as they are, and nothing that its link grants has changed since. -/
theorem live_sessions_current (cfg : Config) (authz : AuthzCheck.Config) (resources : List Row)
    (events : List Event) (hkeys : (resources.map fun r => r.id).Nodup)
    (htimely : Along (step cfg) Timely (initial resources) events) (db : AuthzCheck.Db)
    (hdb : db.publicSessions = (run cfg resources events).db.sessions.map Granted.session)
    (cookie : Option (List Char)) (resource : ℕ) (ip : List Char) (now : ℤ)
    (row : AuthzCheck.PublicSession)
    (hresolves : (AuthzCheck.resolvePublicSession authz db cookie resource ip now).1 = some row) :
    ∃ g ∈ (run cfg resources events).db.sessions, g.session = row ∧ row.resource = resource ∧
      Current (run cfg resources events).db g := by
  have hfound : AuthzCheck.publicSessionOf authz db cookie resource ip now = some row := by
    unfold AuthzCheck.resolvePublicSession at hresolves
    cases hof : AuthzCheck.publicSessionOf authz db cookie resource ip now with
    | none =>
      rw [hof] at hresolves
      cases hresolves
    | some found =>
      rw [hof] at hresolves
      exact hresolves
  have hgrants := (PublicAccess.publicSessionOf_iff authz db cookie resource ip now row).mp hfound
  have hmem := List.mem_of_find?_eq_some hgrants.stored
  rw [hdb] at hmem
  obtain ⟨g, hg, rfl⟩ := List.mem_map.mp hmem
  exact ⟨g, hg, rfl, hgrants.resource,
    (run_inv cfg resources events hkeys htimely).current g hg hgrants.unrevoked⟩

def sampleConfig : Config where
  authHost := "auth.example.org".toList
  publicSessionBindIp := false
  publicSessionTtl := 3600
  sha256Hex := id
  newToken := fun _ => "secret".toList
  generatePassword := fun _ => "new".toList
  hashPassword := fun _ password => password
  verifyPassword := fun hash password => hash == password

def sampleAuthz : AuthzCheck.Config :=
  { HostScope.sampleConfig with
    uuid := fun text => if text = "id".toList then some 9 else none
    publicSessionBindIp := false }

def sampleRow : Row where
  id := 3
  publicHost := some "a.b".toList
  ports := [443]
  enabled := true
  publicAccess := true
  publicPaths := some ["/docs/*".toList]
  protocol := .https
  host := "10.0.0.5".toList
  publicPasswordHash := some "old".toList
  publicPasswordSetAt := none
  changes := 0
  grants := 0

def sampleForm (password : List Char) : Request :=
  .gateSubmit ⟨"a.b".toList, "192.0.2.7".toList, ['c'], ['c'], password, "/docs/x".toList, none⟩

def statements (t n : ℕ) : List Event := List.replicate n (.statement t 0)

def rotation : List Event :=
  .arrive 2 (.rotatePublicPassword 3) 0 :: statements 2 4 ++ [.commit 2]

/-- A rotation, and a visitor who knows the new password. -/
def sampleRun : List Event :=
  rotation ++ .arrive 1 (sampleForm "new".toList) 0 :: statements 1 3 ++ [.commit 1]

def sampleDb (events : List Event) : AuthzCheck.Db :=
  { HostScope.sampleDb with
    publicSessions := (run sampleConfig [sampleRow] events).db.sessions.map Granted.session }

def sampleSession : AuthzCheck.PublicSession :=
  ⟨9, 3, "secret".toList, none, 3600000000, 0, none⟩

theorem live_sessions_current_sample :
    ∃ g ∈ (run sampleConfig [sampleRow] sampleRun).db.sessions, g.session = sampleSession ∧
      Current (run sampleConfig [sampleRow] sampleRun).db g := by
  obtain ⟨g, hg, hsession, -, hcurrent⟩ := live_sessions_current sampleConfig sampleAuthz [sampleRow]
    sampleRun (by decide) (by decide) (sampleDb sampleRun) rfl (some "id.secret".toList) 3 [] 0
    sampleSession (by decide)
  exact ⟨g, hg, hsession, hcurrent⟩

/-- The password is rotated while a visitor's old one is being verified. -/
def lateRun : List Event :=
  .arrive 1 (sampleForm "old".toList) 0 :: statements 1 2 ++ rotation ++ statements 1 1 ++ [.commit 1]

/-- A session granted under the old password holds after the rotation. -/
theorem late_session_holds :
    ¬∀ (cfg : Config) (authz : AuthzCheck.Config) (resources : List Row) (events : List Event)
      (db : AuthzCheck.Db), (resources.map fun r => r.id).Nodup →
      db.publicSessions = (run cfg resources events).db.sessions.map Granted.session →
      ∀ (cookie : Option (List Char)) (resource : ℕ) (ip : List Char) (now : ℤ)
        (row : AuthzCheck.PublicSession),
      (AuthzCheck.resolvePublicSession authz db cookie resource ip now).1 = some row →
      ∃ g ∈ (run cfg resources events).db.sessions, g.session = row ∧ row.resource = resource ∧
        Current (run cfg resources events).db g := by
  intro h
  obtain ⟨g, hg, -, -, r, hr, -, hholds⟩ := h sampleConfig sampleAuthz [sampleRow] lateRun
    (sampleDb lateRun) (by decide) rfl (some "id.secret".toList) 3 [] 0 sampleSession (by decide)
  have hsessions : (run sampleConfig [sampleRow] lateRun).db.sessions =
      [⟨sampleSession, "old".toList, some ["/docs/*".toList], 0⟩] := by decide
  have hpassword : ((run sampleConfig [sampleRow] lateRun).db.resource 3).map
      (fun r => r.publicPasswordHash) = some (some "new".toList) := by decide
  rw [hsessions, List.mem_singleton] at hg
  rw [hg] at hr hholds
  rw [show (sampleSession.resource) = 3 from rfl] at hr
  rw [hr, Option.map_some, hholds.password] at hpassword
  exact absurd hpassword (by decide)

/-- So does one that is committed between the revocation of a rotation and its commit. -/
example : (run sampleConfig [sampleRow] (.arrive 1 (sampleForm "old".toList) 0 :: statements 1 2 ++
    .arrive 2 (.rotatePublicPassword 3) 0 :: statements 2 3 ++ statements 1 1 ++ [.commit 1] ++
    statements 2 1 ++ [.commit 2])).db.sessions.map (fun g => (g.hash, g.session.revokedAt)) =
      [("old".toList, none)] := by decide

end Hyproxy.PublicRevocation

import Hyproxy.LoginStateLocks
import Hyproxy.RefreshTokens
import Hyproxy.Runs

/-!
The single use of a login state. At most one code is presented with a state, and
at most one gateway session created, as long as each callback still finds the
state that it deletes and none is rolled back after it presented its code.
-/

namespace Hyproxy.LoginStateUse

open GatewayLogin LoginStateLocks ReadCommitted Runs

theorem presentations_append (w : World) (s : State Db Write Point Answer) (p : Presentation)
    (hash : List Char) : presentations ⟨s, w.presented ++ [p]⟩ hash =
      presentations w hash + if p.stateHash = hash then 1 else 0 := by
  unfold presentations
  split_ifs with heq <;> simp [heq]

theorem signIns_append (w : World) (s : State Db Write Point Answer) (r : Answer)
    (hash : List Char) (hs : s.answers = w.store.answers ++ [r]) :
    signIns ⟨s, w.presented⟩ hash =
      signIns w hash + if signedInWith hash r = true then 1 else 0 := by
  unfold signIns
  rw [hs]
  split_ifs with heq <;> simp [heq]

/-- Either the step presents no code, or it is the statement of a callback that does. -/
theorem presentedBy_cases (cfg : Config) (s : State Db Write Point Answer) (e : Event Request) :
    presentedBy s e = [] ∨
      ∃ x ∈ s.txns, ∃ req row now, e = .statement x.id now ∧ x.point = .present req row ∧
        presentedBy s e = [⟨row.stateHash, req.code, row.codeVerifier⟩] ∧
        ReadCommitted.step (program cfg) s e =
          { s.wait with txns := s.put ⟨x.id, replied req row, x.writes⟩ } := by
  cases e with
  | statement t now =>
    cases hx : s.txn t with
    | none => exact Or.inl (by simp [presentedBy, hx])
    | some x =>
      obtain ⟨hmem, rfl⟩ := txn_some s t x hx
      cases hpoint : x.point with
      | present req row =>
        refine Or.inr ⟨x, hmem, req, row, now, rfl, hpoint, ?_, ?_⟩
        · simp [presentedBy, hx, hpoint, presents]
        · refine step_read (program cfg) s x now _ hx ?_ ?_
          · rw [hpoint]
            rfl
          · rw [hpoint]
            rfl
      | _ => exact Or.inl (by simp [presentedBy, hx, hpoint, presents])
  | _ => exact Or.inl rfl

theorem spent_replied (t : ℕ) (req : CallbackRequest) (row : LoginState) (writes : List Write)
    (h : Write.deleteState row.stateHash ∈ writes) : Spent ⟨t, replied req row, writes⟩ := by
  unfold replied
  split
  · exact ⟨_, h⟩
  · exact ⟨_, h⟩
  · exact ⟨_, h⟩
  · split_ifs
    · trivial
    · exact ⟨_, h⟩

theorem stands_replied (presented : List Presentation) (t : ℕ) (req : CallbackRequest)
    (row : LoginState) (writes : List Write) (h : Write.deleteState row.stateHash ∈ writes) :
    Stands presented ⟨t, replied req row, writes⟩ := by
  unfold replied
  split
  · trivial
  · trivial
  · trivial
  · split_ifs
    · exact h
    · trivial

theorem stands_mono (old new : List Presentation) (x : Txn Write Point) (h : Stands old x)
    (hnew : ∀ req row, x.point = .present req row → ∀ p ∈ new, p ∉ old →
      p.stateHash ≠ row.stateHash) : Stands new x := by
  unfold Stands at h ⊢
  split at h
  · rename_i req row hpoint
    refine ⟨h.1, fun p hp => ?_⟩
    by_cases hmem : p ∈ old
    · exact h.2 p hmem
    · exact hnew req row hpoint p hp hmem
  all_goals exact h

theorem inv_present (cfg : Config) (w : World) (x : Txn Write Point) (req : CallbackRequest)
    (row : LoginState) (h : Inv cfg w) (hx : x ∈ w.store.txns) (hpoint : x.point = .present req row)
    (hlocked : Locked (program cfg)
      { w.store.wait with txns := w.store.put ⟨x.id, replied req row, x.writes⟩ })
    (hgone : ∀ hash, Gone cfg w.store hash → Gone cfg
      { w.store.wait with txns := w.store.put ⟨x.id, replied req row, x.writes⟩ } hash) :
    Inv cfg ⟨{ w.store.wait with txns := w.store.put ⟨x.id, replied req row, x.writes⟩ },
      w.presented ++ [⟨row.stateHash, req.code, row.codeVerifier⟩]⟩ := by
  have hstands := h.stands x hx
  unfold Stands at hstands
  rw [hpoint] at hstands
  obtain ⟨hdelete, hfirst⟩ := hstands
  have hself := self_mem_put w.store x ⟨x.id, replied req row, x.writes⟩ hx rfl
  have hspent := spent_replied x.id req row x.writes hdelete
  refine ⟨hlocked, ?_, ?_, ?_, ?_, ?_, ?_, ?_, ?_⟩
  · intro y hy
    rcases mem_put w.store _ y hy with rfl | ⟨hymem, hne⟩
    · exact stands_replied _ _ _ _ _ hdelete
    · refine stands_mono w.presented _ y (h.stands y hymem) fun req' row' hpoint' p hp hnew => ?_
      rcases List.mem_append.mp hp with hp | hp
      · exact absurd hp hnew
      · rw [List.mem_singleton] at hp
        subst hp
        intro heq
        have hother := h.stands y hymem
        unfold Stands at hother
        rw [hpoint'] at hother
        exact h.locked.rows y hymem x hx hne _ hother.1 _ hdelete (congrArg Row.state heq.symm)
  · intro y hy
    rcases mem_put w.store _ y hy with rfl | ⟨hymem, _⟩
    · exact h.deletes x hx
    · exact h.deletes y hymem
  · exact fun hash hhash => (h.stored hash hhash).mono (Nat.le_succ _)
  · intro y hy hash htouch
    rcases mem_put w.store _ y hy with rfl | ⟨hymem, _⟩
    · exact (h.written x hx hash htouch).mono (Nat.le_succ _)
    · exact (h.written y hymem hash htouch).mono (Nat.le_succ _)
  · intro p hp
    rcases List.mem_append.mp hp with hp | hp
    · rcases h.passed p hp with ⟨y, hy, hydelete, hyspent⟩ | hpgone
      · refine Or.inl ⟨y, mem_put_of_ne w.store _ y hy ?_, hydelete, hyspent⟩
        intro hid
        rw [h.locked.ids y hy x hx hid] at hyspent
        unfold Spent at hyspent
        rw [hpoint] at hyspent
        exact hyspent
      · exact Or.inr (hgone _ hpgone)
    · rw [List.mem_singleton] at hp
      subst hp
      exact Or.inl ⟨_, hself, hdelete, hspent⟩
  · intro hash
    rw [presentations_append]
    split_ifs with heq
    · have hzero : presentations w hash = 0 := by
        refine List.length_eq_zero_iff.mpr (List.filter_eq_nil_iff.mpr fun p hp => ?_)
        simpa [← heq] using hfirst p hp
      exact Nat.le_of_eq (by rw [hzero])
    · exact h.once hash
  · exact fun a ha hash hsigned => hgone hash (h.signed a ha hash hsigned)
  · exact h.single

/-- Where a statement that presents nothing leaves its transaction. -/
theorem stands_statement (cfg : Config) (w : World) (x : Txn Write Point) (now : ℤ)
    (writes : List Write) (p : Point) (h : Inv cfg w) (hx : x ∈ w.store.txns)
    (hanswer : x.point.answered = none) (hpresent : presents x.point = [])
    (hstatement : statement cfg (x.view (program cfg) w.store.db) w.store.serial now x.point =
      some (writes, p))
    (hlocked : Locked (program cfg)
      { w.store.wait with txns := w.store.put ⟨x.id, p, x.writes ++ writes⟩ })
    (hkept : Kept w (.statement x.id now)) : Stands w.presented ⟨x.id, p, x.writes ++ writes⟩ := by
  have hstands := h.stands x hx
  unfold Stands at hstands
  have hguard := hkept x hx rfl
  cases hpoint : x.point with
  | addState rd ip arrived =>
    rw [hpoint] at hstatement
    simp only [statement] at hstatement
    split_ifs at hstatement <;>
      · cases hstatement
        trivial
  | gcLoginStates arrived =>
    rw [hpoint] at hstatement
    cases hstatement
    trivial
  | addSession id user =>
    rw [hpoint] at hstatement
    simp only [statement] at hstatement
    split_ifs at hstatement
    cases hstatement
    trivial
  | getState req arrived =>
    rw [hpoint] at hstands hstatement
    have hnil : x.writes = [] := hstands
    simp only [statement] at hstatement
    split at hstatement
    · cases hstatement
      trivial
    · split_ifs at hstatement
      · cases hstatement
        trivial
      · cases hstatement
        rw [hnil]
        rfl
  | deleteState req row =>
    rw [hpoint] at hstands hstatement hguard
    have hnil : x.writes = [] := hstands
    have hview : x.view (program cfg) w.store.db = w.store.db := by
      rw [Txn.view, hnil]
      rfl
    have hmem : row.stateHash ∈ hashes w.store.db.states := hguard
    simp only [statement, hview, if_pos (List.contains_iff_mem.mpr hmem)] at hstatement
    cases hstatement
    refine ⟨List.mem_append_right _ (List.mem_singleton_self _), fun q hq heq => ?_⟩
    have hself := self_mem_put w.store x
      ⟨x.id, .present req row, x.writes ++ [.deleteState row.stateHash]⟩ hx rfl
    rcases h.passed q hq with ⟨y, hy, hydelete, hyspent⟩ | hgone
    · have hne : y.id ≠ x.id := by
        intro hid
        rw [h.locked.ids y hy x hx hid] at hyspent
        unfold Spent at hyspent
        rw [hpoint] at hyspent
        exact hyspent
      exact hlocked.rows y (mem_put_of_ne w.store _ y hy hne) _ hself hne _ hydelete _
        (List.mem_append_right _ (List.mem_singleton_self _)) (congrArg Row.state heq)
    · exact hgone.deleted (heq ▸ hmem)
  | present req row =>
    rw [hpoint] at hpresent
    cases hpresent
  | getSession req row sid =>
    rw [hpoint] at hstands hstatement
    simp only [statement] at hstatement
    split at hstatement
    · cases hstatement
      trivial
    · cases hstatement
      exact List.mem_append_left _ hstands
  | addGateway req row sid user =>
    rw [hpoint] at hstands hstatement
    cases hstatement
    exact List.mem_append_left _ hstands
  | answer a =>
    rw [hpoint] at hanswer
    cases hanswer

/-- A callback that has presented its code stays past its presentation. -/
theorem spent_statement (cfg : Config) (db : Db) (serial : ℕ) (now : ℤ) (x : Txn Write Point)
    (writes : List Write) (p : Point) (hash : List Char) (hspent : Spent x)
    (hdelete : Write.deleteState hash ∈ x.writes) (hanswer : x.point.answered = none)
    (hstatement : statement cfg db serial now x.point = some (writes, p)) :
    Spent ⟨x.id, p, x.writes ++ writes⟩ := by
  unfold Spent at hspent
  split at hspent
  · rename_i req row sid hpoint
    rw [hpoint] at hstatement
    simp only [statement] at hstatement
    split at hstatement
    · cases hstatement
      exact ⟨hash, List.mem_append_left _ hdelete⟩
    · cases hstatement
      trivial
  · rename_i req row sid user hpoint
    rw [hpoint] at hstatement
    cases hstatement
    exact ⟨hash, List.mem_append_left _ hdelete⟩
  · rename_i a hpoint
    rw [hpoint] at hanswer
    cases hanswer
  · cases hspent

/-- Only a transaction at its first statement adds or deletes a state, and it does not do both. -/
theorem statement_first (cfg : Config) (db : Db) (serial : ℕ) (now : ℤ) (p q : Point)
    (writes : List Write) (h : statement cfg db serial now p = some (writes, q)) :
    (∀ hash row, Write.deleteState hash ∈ writes → Write.addState row ∉ writes) ∧
      ((∀ hash, Write.deleteState hash ∉ writes) ∧ (∀ row, Write.addState row ∉ writes) ∨
        (∃ rd ip arrived, p = .addState rd ip arrived) ∨ ∃ req row, p = .deleteState req row) := by
  cases p with
  | addState rd ip arrived =>
    refine ⟨?_, Or.inr (Or.inl ⟨rd, ip, arrived, rfl⟩)⟩
    simp only [statement] at h
    split_ifs at h <;>
      · cases h
        simp
  | deleteState req row =>
    refine ⟨?_, Or.inr (Or.inr ⟨req, row, rfl⟩)⟩
    simp only [statement] at h
    split_ifs at h <;>
      · cases h
        simp
  | gcLoginStates arrived =>
    cases h
    simp
  | addSession id user =>
    simp only [statement] at h
    split_ifs at h
    cases h
    simp
  | getState req arrived =>
    simp only [statement] at h
    split at h
    · cases h
      simp
    · split_ifs at h <;>
        · cases h
          simp
  | getSession req row sid =>
    simp only [statement] at h
    split at h <;>
      · cases h
        simp
  | _ =>
    cases h
    simp

theorem deletes_statement (cfg : Config) (w : World) (x : Txn Write Point) (now : ℤ)
    (writes : List Write) (p : Point) (h : Inv cfg w) (hx : x ∈ w.store.txns)
    (hstatement : statement cfg (x.view (program cfg) w.store.db) w.store.serial now x.point =
      some (writes, p)) (hash : List Char) (hdelete : Write.deleteState hash ∈ x.writes ++ writes)
    (row : LoginState) : Write.addState row ∉ x.writes ++ writes := by
  obtain ⟨hboth, hfirst⟩ := statement_first cfg _ _ now _ _ writes hstatement
  rcases hfirst with ⟨hnone, hadd⟩ | hfirst
  · have hold := (List.mem_append.mp hdelete).resolve_right (hnone hash)
    exact fun hrow => (List.mem_append.mp hrow).elim (h.deletes x hx hash hold row) (hadd row)
  · have hnil : x.writes = [] := by
      have hstands := h.stands x hx
      unfold Stands at hstands
      rcases hfirst with ⟨rd, ip, arrived, hpoint⟩ | ⟨req, row, hpoint⟩ <;>
        · rw [hpoint] at hstands
          exact hstands
    rw [hnil, List.nil_append] at hdelete ⊢
    exact hboth hash row hdelete

theorem inv_statement (cfg : Config) (w : World) (x : Txn Write Point) (now : ℤ)
    (writes : List Write) (p : Point) (h : Inv cfg w) (hx : x ∈ w.store.txns)
    (hanswer : x.point.answered = none) (hpresent : presents x.point = [])
    (hstatement : statement cfg (x.view (program cfg) w.store.db) w.store.serial now x.point =
      some (writes, p))
    (hlocked : Locked (program cfg)
      { w.store.wait with txns := w.store.put ⟨x.id, p, x.writes ++ writes⟩ })
    (hgone : ∀ hash, Gone cfg w.store hash → Gone cfg
      { w.store.wait with txns := w.store.put ⟨x.id, p, x.writes ++ writes⟩ } hash)
    (hkept : Kept w (.statement x.id now)) :
    Inv cfg ⟨{ w.store.wait with txns := w.store.put ⟨x.id, p, x.writes ++ writes⟩ },
      w.presented⟩ := by
  refine ⟨hlocked, ?_, ?_, ?_, ?_, ?_, h.once, ?_, h.single⟩
  · intro y hy
    rcases mem_put w.store _ y hy with rfl | ⟨hymem, _⟩
    · exact stands_statement cfg w x now writes p h hx hanswer hpresent hstatement hlocked hkept
    · exact h.stands y hymem
  · intro y hy
    rcases mem_put w.store _ y hy with rfl | ⟨hymem, _⟩
    · exact deletes_statement cfg w x now writes p h hx hstatement
    · exact h.deletes y hymem
  · exact fun hash hhash => (h.stored hash hhash).mono (Nat.le_succ _)
  · intro y hy hash htouch
    rcases mem_put w.store _ y hy with rfl | ⟨hymem, _⟩
    · obtain ⟨v, hv, hrow⟩ := htouch
      rcases List.mem_append.mp hv with hv | hv
      · exact (h.written x hx hash ⟨v, hv, hrow⟩).mono (Nat.le_succ _)
      · rcases statement_row cfg _ _ now _ _ writes hstatement v hv hash hrow with rfl | hseen
        · exact ⟨w.store.serial, Nat.lt_succ_self _, rfl⟩
        · rcases mem_hashes_foldl x.writes w.store.db hash hseen with hdb | htouch
          · exact (h.stored hash hdb).mono (Nat.le_succ _)
          · exact (h.written x hx hash htouch).mono (Nat.le_succ _)
    · exact (h.written y hymem hash htouch).mono (Nat.le_succ _)
  · intro q hq
    rcases h.passed q hq with ⟨y, hy, hydelete, hyspent⟩ | hqgone
    · by_cases hid : y.id = x.id
      · obtain rfl := h.locked.ids y hy x hx hid
        exact Or.inl ⟨_, self_mem_put w.store y _ hx rfl, List.mem_append_left _ hydelete,
          spent_statement cfg _ _ now y writes p _ hyspent hydelete hanswer hstatement⟩
      · exact Or.inl ⟨y, mem_put_of_ne w.store _ y hy hid, hydelete, hyspent⟩
    · exact Or.inr (hgone _ hqgone)
  · exact fun a ha hash hsigned => hgone hash (h.signed a ha hash hsigned)

/-- Fewer transactions are open, and none that is gone has presented a code. -/
theorem inv_fewer (cfg : Config) (w : World) (txns : List (Txn Write Point)) (h : Inv cfg w)
    (hsub : ∀ x ∈ txns, x ∈ w.store.txns) (hspent : ∀ x ∈ w.store.txns, Spent x → x ∈ txns) :
    Inv cfg ⟨{ w.store.wait with txns := txns }, w.presented⟩ where
  locked := locked_fewer (program cfg) w.store _ h.locked hsub
  stands x hx := h.stands x (hsub x hx)
  deletes x hx := h.deletes x (hsub x hx)
  stored hash hhash := (h.stored hash hhash).mono (Nat.le_succ _)
  written x hx hash htouch := (h.written x (hsub x hx) hash htouch).mono (Nat.le_succ _)
  passed := by
    intro p hp
    rcases h.passed p hp with ⟨x, hx, hdelete, hxspent⟩ | hgone
    · exact Or.inl ⟨x, hspent x hx hxspent, hdelete, hxspent⟩
    · exact Or.inr ⟨hgone.deleted, fun x hx => hgone.untouched x (hsub x hx),
        hgone.drawn.mono (Nat.le_succ _)⟩
  once := h.once
  signed a ha hash hsigned :=
    have hgone := h.signed a ha hash hsigned
    ⟨hgone.deleted, fun x hx => hgone.untouched x (hsub x hx), hgone.drawn.mono (Nat.le_succ _)⟩
  single := h.single

theorem inv_arrive (cfg : Config) (w : World) (x : Txn Write Point) (h : Inv cfg w)
    (hlocked : Locked (program cfg) { w.store.wait with txns := x :: w.store.txns })
    (hstands : Stands w.presented x) (hnil : x.writes = []) :
    Inv cfg ⟨{ w.store.wait with txns := x :: w.store.txns }, w.presented⟩ where
  locked := hlocked
  stands := List.forall_mem_cons.mpr ⟨hstands, h.stands⟩
  deletes := List.forall_mem_cons.mpr ⟨by simp [hnil], h.deletes⟩
  stored hash hhash := (h.stored hash hhash).mono (Nat.le_succ _)
  written := List.forall_mem_cons.mpr ⟨by simp [hnil, Touches],
    fun y hy hash htouch => (h.written y hy hash htouch).mono (Nat.le_succ _)⟩
  passed := by
    intro p hp
    rcases h.passed p hp with ⟨y, hy, hdelete, hspent⟩ | hgone
    · exact Or.inl ⟨y, List.mem_cons_of_mem _ hy, hdelete, hspent⟩
    · exact Or.inr ⟨hgone.deleted, List.forall_mem_cons.mpr ⟨by simp [hnil, Touches],
        hgone.untouched⟩, hgone.drawn.mono (Nat.le_succ _)⟩
  once := h.once
  signed a ha hash hsigned :=
    have hgone := h.signed a ha hash hsigned
    ⟨hgone.deleted, List.forall_mem_cons.mpr ⟨by simp [hnil, Touches], hgone.untouched⟩,
      hgone.drawn.mono (Nat.le_succ _)⟩
  single := h.single

theorem stands_begin (presented : List Presentation) (t : ℕ) (request : Request) (now : ℤ) :
    Stands presented ⟨t, begin request now, []⟩ := by
  cases request with
  | callback req =>
    simp only [begin]
    split_ifs
    · trivial
    · trivial
    · rfl
  | _ => rfl

theorem inv_commit (cfg : Config) (w : World) (x : Txn Write Point) (r : Answer) (h : Inv cfg w)
    (hx : x ∈ w.store.txns) (hanswer : x.point.answered = some r)
    (hgone : ∀ hash, Gone cfg w.store hash → Gone cfg ⟨x.view (program cfg) w.store.db,
      w.store.drop x.id, w.store.answers ++ [r], w.store.serial + 1⟩ hash) :
    Inv cfg ⟨⟨x.view (program cfg) w.store.db, w.store.drop x.id, w.store.answers ++ [r],
      w.store.serial + 1⟩, w.presented⟩ := by
  have hsub : ∀ y ∈ w.store.drop x.id, y ∈ w.store.txns := fun y hy =>
    ((mem_drop w.store x.id y).mp hy).1
  have hdeleted : ∀ hash, signedInWith hash r = true → Write.deleteState hash ∈ x.writes := by
    intro hash hsigned
    have hstands := h.stands x hx
    unfold Stands at hstands
    cases hpoint : x.point with
    | answer a =>
      rw [hpoint] at hanswer hstands
      cases hanswer
      cases r with
      | signedIn row gateway secret =>
        have heq : row.stateHash = hash := by simpa [signedInWith] using hsigned
        exact heq ▸ hstands
      | _ => cases hsigned
    | _ =>
      rw [hpoint] at hanswer
      cases hanswer
  refine ⟨locked_fewer _ w.store _ h.locked hsub, fun y hy => h.stands y (hsub y hy),
    fun y hy => h.deletes y (hsub y hy), ?_, ?_, ?_, h.once, ?_, ?_⟩
  · intro hash hhash
    rcases mem_hashes_foldl x.writes w.store.db hash hhash with hdb | htouch
    · exact (h.stored hash hdb).mono (Nat.le_succ _)
    · exact (h.written x hx hash htouch).mono (Nat.le_succ _)
  · exact fun y hy hash htouch => (h.written y (hsub y hy) hash htouch).mono (Nat.le_succ _)
  · intro p hp
    rcases h.passed p hp with ⟨y, hy, hdelete, hspent⟩ | hpgone
    · by_cases hid : y.id = x.id
      · rw [h.locked.ids y hy x hx hid] at hdelete
        exact Or.inr (gone_commit cfg w x r _ h hx hdelete)
      · exact Or.inl ⟨y, (mem_drop w.store x.id y).mpr ⟨hy, hid⟩, hdelete, hspent⟩
    · exact Or.inr (hgone _ hpgone)
  · intro a ha hash hsigned
    rcases List.mem_append.mp ha with ha | ha
    · exact hgone hash (h.signed a ha hash hsigned)
    · rw [List.mem_singleton] at ha
      subst ha
      exact gone_commit cfg w x a hash h hx (hdeleted hash hsigned)
  · intro hash
    rw [signIns_append w _ r hash rfl]
    split_ifs with hsigned
    · have hzero : signIns w hash = 0 := by
        refine List.length_eq_zero_iff.mpr (List.filter_eq_nil_iff.mpr fun a ha hsigned' => ?_)
        exact (h.signed a ha hash hsigned').untouched x hx ⟨_, hdeleted hash hsigned, rfl⟩
      exact Nat.le_of_eq (by rw [hzero])
    · exact h.single hash

theorem inv_step (cfg : Config) (w : World) (e : Event Request)
    (hinj : Function.Injective fun n => cfg.sha256Hex (cfg.newState n)) (h : Inv cfg w)
    (hkept : Kept w e) : Inv cfg (GatewayLogin.step cfg w e) := by
  have hlocked := locked_step (program cfg) w.store e h.locked
  have hgone := fun hash => gone_step cfg w.store e hash hinj
  unfold GatewayLogin.step
  rcases presentedBy_cases cfg w.store e with hnone | ⟨x, hx, req, row, now, rfl, hpoint, hby, hstep⟩
  · have hquiet : ∀ x ∈ w.store.txns, ∀ now, e = .statement x.id now → presents x.point = [] := by
      intro x hx now he
      subst he
      simpa [presentedBy, txn_of_mem (program cfg) w.store x h.locked hx] using hnone
    rw [hnone, List.append_nil]
    generalize ht : ReadCommitted.step (program cfg) w.store e = s' at hlocked hgone ⊢
    have heffect := ht ▸ step_effect (program cfg) w.store e
    cases heffect with
    | wait => exact inv_fewer cfg w w.store.txns h (fun _ hx => hx) fun _ hx _ => hx
    | arrive t request now => exact inv_arrive cfg w _ h hlocked (stands_begin _ t request now) rfl
    | statement x now writes p hmem hanswer hstatement =>
      exact inv_statement cfg w x now writes p h hmem hanswer (hquiet x hmem now rfl) hstatement
        hlocked hgone hkept
    | commit x r hmem hanswer => exact inv_commit cfg w x r h hmem hanswer hgone
    | abandon _ t hwhy =>
      refine inv_fewer cfg w _ h (fun y hy => ((mem_drop w.store t y).mp hy).1) fun y hy hspent =>
        (mem_drop w.store t y).mpr ⟨hy, fun hid => ?_⟩
      rcases hwhy with rfl | ⟨x, hx, hxid, _, now, rfl, hraise⟩
      · exact hkept y hy hid hspent
      · rw [h.locked.ids y hy x hx (hid.trans hxid.symm)] at hspent
        obtain ⟨id, user, hpoint⟩ := statement_none cfg _ _ now _ hraise
        unfold Spent at hspent
        rw [hpoint] at hspent
        exact hspent
  · rw [hby]
    rw [hstep] at hlocked hgone ⊢
    exact inv_present cfg w x req row h hx hpoint hlocked hgone

/-- The gateway sessions that writes add. -/
def addedGateways (writes : List Write) : List ℕ :=
  writes.filterMap fun w => match w with
    | .addGateway row => some row.id
    | _ => none

def gatewayOf : Answer → Option ℕ
  | .signedIn _ gateway _ => some gateway
  | _ => none

/-- The gateway session that a transaction promises at its point. -/
def promised (p : Point) : List ℕ := (p.answered.bind gatewayOf).toList

theorem gateways_foldl (writes : List Write) (db : Db) :
    (writes.foldl apply db).gateways.map GatewaySession.id =
      db.gateways.map GatewaySession.id ++ addedGateways writes := by
  induction writes generalizing db with
  | nil => simp [addedGateways]
  | cons w rest ih =>
    rw [List.foldl_cons, ih]
    cases w <;> simp [apply, Db.dropState, addedGateways]

theorem added_statement (cfg : Config) (db : Db) (serial : ℕ) (now : ℤ) (p q : Point)
    (writes : List Write) (hanswer : p.answered = none)
    (h : statement cfg db serial now p = some (writes, q)) :
    addedGateways writes = promised q := by
  cases p with
  | addState rd ip arrived =>
    simp only [statement] at h
    split_ifs at h <;>
      · cases h
        rfl
  | gcLoginStates arrived =>
    cases h
    simp [addedGateways, promised, Point.answered, gatewayOf]
  | addSession id user =>
    simp only [statement] at h
    split_ifs at h
    cases h
    rfl
  | getState req arrived =>
    simp only [statement] at h
    split at h
    · cases h
      rfl
    · split_ifs at h <;>
        · cases h
          rfl
  | deleteState req row =>
    simp only [statement] at h
    split_ifs at h <;>
      · cases h
        rfl
  | present req row =>
    cases h
    unfold replied
    split
    · rfl
    · rfl
    · rfl
    · split_ifs <;> rfl
  | getSession req row sid =>
    simp only [statement] at h
    split at h <;>
      · cases h
        rfl
  | addGateway req row sid user =>
    cases h
    rfl
  | answer a => cases hanswer

theorem promised_nil (p : Point) (h : p.answered = none) : promised p = [] := by
  rw [promised, h]
  rfl

/-- The gateway sessions are those that callbacks have answered with. -/
def Answered (s : State Db Write Point Answer) : Prop :=
  s.db.gateways.map GatewaySession.id = s.answers.filterMap gatewayOf ∧
    ∀ x ∈ s.txns, addedGateways x.writes = promised x.point

theorem answered_step (cfg : Config) (s : State Db Write Point Answer) (e : Event Request)
    (h : Answered s) : Answered (ReadCommitted.step (program cfg) s e) := by
  generalize ht : ReadCommitted.step (program cfg) s e = s'
  have heffect := ht ▸ step_effect (program cfg) s e
  cases heffect with
  | wait => exact h
  | arrive t request now =>
    refine ⟨h.1, List.forall_mem_cons.mpr ⟨?_, h.2⟩⟩
    cases request with
    | callback req =>
      simp only [program, begin]
      split_ifs <;> rfl
    | _ => rfl
  | statement x now writes p hmem hanswer hstatement =>
    refine ⟨h.1, fun y hy => ?_⟩
    rcases mem_put s _ y hy with rfl | ⟨hymem, _⟩
    · have hold : addedGateways x.writes = [] := (h.2 x hmem).trans (promised_nil _ hanswer)
      have hnew := added_statement cfg _ _ now _ _ writes hanswer hstatement
      rw [addedGateways] at hold hnew ⊢
      rw [List.filterMap_append, hold, hnew, List.nil_append]
    · exact h.2 y hymem
  | commit x r hmem hanswer =>
    refine ⟨?_, fun y hy => h.2 y ((mem_drop s x.id y).mp hy).1⟩
    have hpromised : promised x.point = [r].filterMap gatewayOf := by
      have hanswered : x.point.answered = some r := hanswer
      rw [promised, hanswered]
      cases r <;> rfl
    exact (gateways_foldl x.writes s.db).trans
      (by rw [h.1, h.2 x hmem, hpromised, List.filterMap_append])
  | abandon _ t => exact ⟨h.1, fun y hy => h.2 y ((mem_drop s t y).mp hy).1⟩

/-- In every run that keeps login states, at most one code is presented with a state, and at most
one gateway session created; the gateway sessions are those of the answered callbacks. -/
theorem login_state_used_once (cfg : Config) (events : List (Event Request))
    (hinj : Function.Injective fun n => cfg.sha256Hex (cfg.newState n))
    (hkept : Along (GatewayLogin.step cfg) Kept initial events) :
    ∀ n hash, presentations (after cfg (events.take n)) hash ≤ 1 ∧
      signIns (after cfg (events.take n)) hash ≤ 1 ∧
      (after cfg (events.take n)).store.db.gateways.map GatewaySession.id =
        (after cfg (events.take n)).store.answers.filterMap gatewayOf := by
  intro n hash
  have htake := along_take (GatewayLogin.step cfg) Kept initial events n hkept
  have hinv := htake.invariant (fun w => Inv cfg w ∧ Answered w.store)
    ⟨inv_initial cfg, rfl, by simp [initial]⟩ fun w e h hguard =>
      ⟨inv_step cfg w e hinj h.1 hguard, answered_step cfg w.store e h.2⟩
  exact ⟨hinv.1.once hash, hinv.1.single hash, hinv.2.1⟩

instance decidableDeleted (writes : List Write) :
    Decidable (∃ hash, Write.deleteState hash ∈ writes) :=
  decidable_of_iff (writes.any fun w => match w with
    | .deleteState _ => true
    | _ => false) (by
    rw [List.any_eq_true]
    constructor
    · rintro ⟨w, hw, hdelete⟩
      cases w with
      | deleteState hash => exact ⟨hash, hw⟩
      | _ => cases hdelete
    · rintro ⟨hash, hw⟩
      exact ⟨_, hw, rfl⟩)

instance decidableSpent : ∀ x : Txn Write Point, Decidable (Spent x)
  | ⟨_, .getSession _ _ _, _⟩ => isTrue trivial
  | ⟨_, .addGateway _ _ _ _, _⟩ => isTrue trivial
  | ⟨_, .answer _, writes⟩ => decidableDeleted writes
  | ⟨_, .addState _ _ _, _⟩ => isFalse not_false
  | ⟨_, .gcLoginStates _, _⟩ => isFalse not_false
  | ⟨_, .addSession _ _, _⟩ => isFalse not_false
  | ⟨_, .getState _ _, _⟩ => isFalse not_false
  | ⟨_, .deleteState _ _, _⟩ => isFalse not_false
  | ⟨_, .present _ _, _⟩ => isFalse not_false

instance decidableFinds (w : World) : ∀ p : Point, Decidable (Finds w p)
  | .deleteState _ row => inferInstanceAs (Decidable (row.stateHash ∈ hashes w.store.db.states))
  | .addState _ _ _ => isTrue trivial
  | .gcLoginStates _ => isTrue trivial
  | .addSession _ _ => isTrue trivial
  | .getState _ _ => isTrue trivial
  | .present _ _ => isTrue trivial
  | .getSession _ _ _ => isTrue trivial
  | .addGateway _ _ _ _ => isTrue trivial
  | .answer _ => isTrue trivial

instance decidableKept (w : World) : ∀ e : Event Request, Decidable (Kept w e)
  | .statement t _ =>
    inferInstanceAs (Decidable (∀ x ∈ w.store.txns, x.id = t → Finds w x.point))
  | .rollback t => inferInstanceAs (Decidable (∀ x ∈ w.store.txns, x.id = t → ¬ Spent x))
  | .arrive _ _ _ => isTrue trivial
  | .commit _ => isTrue trivial

def sampleConfig : Config :=
  ⟨600, id, fun n => List.replicate n 's', fun _ => List.replicate 43 'v', fun _ => ['n'],
    fun _ => true⟩

/-- A user with session 7 starts to sign in, and is given a state. -/
def started : List (Event Request) :=
  [.arrive 1 (.addSession 7 1) 0, .statement 1 0, .commit 1,
    .arrive 2 (.start ['u'] ['i']) 0, .statement 2 0, .commit 2]

/-- A callback arrives with the state and its code. -/
def callback (t : ℕ) (reply : Reply) : Event Request :=
  .arrive t (.callback ⟨['c'], List.replicate 4 's', [], ['i'], ['k'], reply⟩) 1

def statements (t n : ℕ) : List (Event Request) := List.replicate n (.statement t 1)

def signIn : List (Event Request) :=
  started ++ callback 3 (.tokens 7 (some ['n'])) :: statements 3 5 ++ .commit 3 ::
    callback 4 .refused :: statements 4 1 ++ [.commit 4]

theorem login_state_used_once_sample :
    signIns (after sampleConfig signIn) (List.replicate 4 's') = 1 ∧
      presentations (after sampleConfig (signIn.take 14)) (List.replicate 4 's') ≤ 1 :=
  ⟨by decide, (login_state_used_once sampleConfig signIn
    (Function.LeftInverse.injective fun n => List.length_replicate) (by decide) 14 _).1⟩

/-- Two callbacks read the state before one deletes it. -/
def duplicated : List (Event Request) :=
  started ++ callback 3 (.tokens 7 (some ['n'])) :: callback 4 .refused :: statements 3 1 ++
    statements 4 1 ++ statements 3 4 ++ .commit 3 :: statements 4 2 ++ [.commit 4]

/-- A callback is rolled back after it presented its code, and tried again. -/
def retried : List (Event Request) :=
  started ++ callback 3 (.tokens 7 (some ['n'])) :: statements 3 5 ++ .rollback 3 ::
    callback 4 .refused :: statements 4 3 ++ [.commit 4]

/-- The token endpoint receives the codes, one after the other. -/
def exchanges (presented : List Presentation) : List (Event RefreshTokens.Request) :=
  let session : Accounts.Session := ⟨1, [], [], .standard, [.pwd, .otp], 0, 1000, false, none, 0⟩
  let user : Accounts.User := ⟨1, [], .active, .standard, [], false⟩
  let code : RefreshTokens.AuthCode :=
    ⟨['c'], ['w'], 7, ['u'], ['s'], List.replicate 43 'v', 60, none⟩
  [.arrive 1 (.other [.setUser user, .addSession 7 session, .addCode code]) 0,
    .statement 1 0, .statement 1 0, .statement 1 0, .commit 1] ++
  presented.flatMap fun p =>
    .arrive 2 (.authorizationCode ⟨['w'], ['k'], p.code, ['u'], p.codeVerifier, ['a']⟩) 1 ::
      List.replicate 6 (.statement 2 1) ++ [.commit 2]

def tokenEndpoint (presented : List Presentation) : RefreshTokens.System :=
  RefreshTokens.after ⟨100, 10, id, id⟩ (exchanges presented)

theorem login_state_used_twice :
    (after sampleConfig duplicated).presented = (after sampleConfig retried).presented ∧
      presentations (after sampleConfig duplicated) (List.replicate 4 's') = 2 ∧
      presentations (after sampleConfig retried) (List.replicate 4 's') = 2 ∧
      (tokenEndpoint (after sampleConfig duplicated).presented).answers =
        [.closed .done, .issued ['c'] 1 ['a'], .closed (.code .invalidGrant)] ∧
      (tokenEndpoint (after sampleConfig duplicated).presented).db.sessions.map
        (fun entry => (entry.1, entry.2.revokedAt)) = [(7, some 1)] := by
  decide

end Hyproxy.LoginStateUse

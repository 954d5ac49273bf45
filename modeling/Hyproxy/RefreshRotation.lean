import Hyproxy.RefreshInvariant
import Hyproxy.Runs

/-!
Rotation over whole runs of interleaved transactions. While no grant finds a
token that another grant holds, each commit is a step of the ledger; while no
presentation of a used token commits with a grant of its family still open, no
token of that family is accepted afterwards.
-/

namespace Hyproxy.RefreshRotation

open ReadCommitted RefreshInvariant RefreshLedger RefreshTokens Runs TokenFamilies

/-- Rotation is linear, in a state and in the order in which its requests committed. -/
structure Rotated (s : System) : Prop where
  once : ∀ id, (s.db.tokens.filter fun row => row.parent = some id).length ≤ 1
  chain : ∀ family, Chain ((s.db.tokens.filter fun row => row.family = family).map entry)
  live : ∀ family, (s.db.tokens.filter fun row =>
    row.family = family ∧ row.usedAt = none ∧ row.revokedAt = none).length ≤ 1
  reuse : s.answers.Pairwise fun earlier later =>
    ∀ row ∈ reusedBy earlier, ∀ row' ∈ acceptedBy later, row.family ≠ row'.family

/-- What the commit of a transaction must find. -/
def Last (s : System) (x : Txn Write Point) : Prop :=
  ∀ answer ∈ x.point.answer, ∀ row ∈ reusedBy answer,
    NoneHeld s x.id fun other => other.family = row.family

/-- Grants of one token do not overlap, a used token comes from its own client, and its
presentation commits when no grant of the family is open. -/
def Apart (cfg : Config) (s : System) : Event Request → Prop
  | .statement t _ => ∀ x ∈ s.txns, x.id = t → Alone cfg s x
  | .commit t => ∀ x ∈ s.txns, x.id = t → Last s x
  | _ => True

instance (s : System) (t : ℕ) (kind : RefreshToken → Prop) [DecidablePred kind] :
    Decidable (NoneHeld s t kind) := by
  unfold NoneHeld
  infer_instance

instance (cfg : Config) (s : System) (x : Txn Write Point) : Decidable (Alone cfg s x) := by
  unfold Alone
  split <;> infer_instance

instance (s : System) (x : Txn Write Point) : Decidable (Last s x) := by
  unfold Last
  infer_instance

instance (cfg : Config) (s : System) (e : Event Request) : Decidable (Apart cfg s e) := by
  unfold Apart
  split <;> infer_instance

/-- What a commit does to the ledger: nothing, or the issue or exchange of a token. -/
inductive Commits (db db' : Db) (serial : ℕ) (ids : List ℕ) : Option RefreshToken → Prop
  | keep (hledger : ledger db' = ledger db) : Commits db db' serial ids none
  | issue (first : RefreshToken) (hledger : ledger db' = ledger db ++ [entry first])
      (hfresh : Fresh db serial first) (hid : first.id ∈ ids) (hfamily : first.family = first.id)
      (hparent : first.parent = none) (hknown : Known db' first.session) :
    Commits db db' serial ids none
  | exchange (row child : RefreshToken) (token : Entry)
      (hledger : ledger db' = (ledger db).map (spend token.id) ++ [entry child])
      (hmem : token ∈ ledger db) (hunused : token.used = false) (htoken : token.id = row.id)
      (hfresh : Fresh db serial child) (hid : child.id ∈ ids)
      (hparent : child.parent = some token.id) (hfamily : child.family = token.family)
      (hsession : child.session = token.session) : Commits db db' serial ids (some row)

theorem commits (s : System) (x : Txn Write Point) (r : Answer) (hinv : Inv s) (hmem : x ∈ s.txns)
    (hanswer : x.point.answer = some r) :
    Commits s.db (x.writes.foldl apply s.db) s.serial (added x.writes) (held x.point) := by
  have hstands := hinv.stands x hmem
  obtain ⟨t, point, writes⟩ := x
  simp only at hstands hanswer ⊢
  cases point with
  | issued hash now token =>
    obtain ⟨before, first, rfl, hquiet, hfresh, hfamily, hparent, hknown⟩ := hstands
    refine .issue first ?_ hfresh ?_ hfamily hparent ?_
    · rw [List.foldl_append, List.foldl_cons, List.foldl_nil, ledger_add,
        ledger_quiet_all before s.db hquiet]
    · simp [added]
    · rw [List.foldl_append, List.foldl_cons, List.foldl_nil]
      exact known_keeps _ _ _ hknown
  | refreshed row token =>
    obtain ⟨⟨_, e, he, hid, hfamily, hsession, hunused⟩, _, before, now, child, rfl, hquiet, hfresh,
      hparent, hchildFamily, hchildSession⟩ := hstands
    refine .exchange row child e ?_ he hunused hid hfresh ?_ (by rw [hparent, hid])
      (by rw [hchildFamily, hfamily]) (by rw [hchildSession, hsession])
    · rw [List.foldl_append, List.foldl_cons, List.foldl_cons, List.foldl_nil, ledger_add,
        ledger_use, ledger_quiet_all before s.db hquiet, hid]
    · simp [added]
  | close rest => exact .keep (ledger_quiet_all writes s.db hstands.1)
  | _ => cases hanswer

section

variable {db db' : Db} {serial : ℕ} {ids : List ℕ} {spent : Option RefreshToken}

theorem Commits.step (h : Commits db db' serial ids spent) : Step (ledger db) (ledger db') := by
  cases h with
  | keep hledger =>
    rw [hledger]
    exact .keep
  | issue first hledger hfresh hid hfamily hparent hknown =>
    rw [hledger]
    exact .issue (entry first) hfresh.2 hfamily hparent
  | exchange row child token hledger hmem hunused htoken hfresh hid hparent hfamily hsession =>
    rw [hledger]
    exact .exchange token (entry child) hmem hunused hfresh.2 hparent hfamily hsession

/-- A token after a commit was there before, or its identifier is one of those added. -/
theorem Commits.mem_ids (h : Commits db db' serial ids spent) (id : ℕ)
    (hid : id ∈ (ledger db').map Entry.id) :
    id ∈ (ledger db).map Entry.id ∨ id ∈ ids ∧ id < serial := by
  cases h with
  | keep hledger =>
    rw [hledger] at hid
    exact Or.inl hid
  | issue first hledger hfresh hmem hfamily hparent hknown =>
    rw [hledger, List.map_append, List.mem_append] at hid
    refine hid.imp_right fun hid => ?_
    obtain rfl : id = first.id := by simpa [entry] using hid
    exact ⟨hmem, hfresh.1⟩
  | exchange row child token hledger _ _ _ hfresh hmem hparent hfamily hsession =>
    rw [hledger, List.map_append, List.mem_append, List.map_map] at hid
    refine hid.imp (fun hid => ?_) fun hid => ?_
    · simpa [Function.comp_def] using hid
    · obtain rfl : id = child.id := by simpa [entry] using hid
      exact ⟨hmem, hfresh.1⟩

theorem Commits.unspent (h : Commits db db' serial ids spent) (row : RefreshToken)
    (hother : ∀ row' ∈ spent, row'.id ≠ row.id) (hrow : Unspent db row) : Unspent db' row := by
  obtain ⟨hnone, e, he, hid, hfamily, hsession, hunused⟩ := hrow
  refine ⟨hnone, e, ?_, hid, hfamily, hsession, hunused⟩
  cases h with
  | keep hledger => rwa [hledger]
  | issue first hledger _ _ _ _ _ =>
    rw [hledger]
    exact List.mem_append_left _ he
  | exchange row' child token hledger _ _ htoken _ _ _ _ _ =>
    rw [hledger]
    refine List.mem_append_left _ (List.mem_map.mpr ⟨e, he, ?_⟩)
    have hne : e.id ≠ token.id := by
      rw [hid, htoken]
      exact (hother row' rfl).symm
    rw [spend, if_neg hne]

theorem Commits.known (h : Commits db db' serial ids spent)
    (hbelow : ∀ id, Known db id → Known db' id) (hknown : ∀ e ∈ ledger db, Known db e.session) :
    ∀ e ∈ ledger db', Known db' e.session := by
  intro e he
  cases h with
  | keep hledger =>
    rw [hledger] at he
    exact hbelow _ (hknown e he)
  | issue first hledger _ _ _ _ hfirst =>
    rw [hledger, List.mem_append, List.mem_singleton] at he
    rcases he with he | rfl
    · exact hbelow _ (hknown e he)
    · exact hfirst
  | exchange row child token hledger hmem _ _ _ _ _ _ hsession =>
    rw [hledger, List.mem_append, List.mem_singleton] at he
    rcases he with he | rfl
    · obtain ⟨e', he', rfl⟩ := List.mem_map.mp he
      rw [spend_session]
      exact hbelow _ (hknown e' he')
    · have hchild := hbelow _ (hknown token hmem)
      rwa [← hsession] at hchild

end

theorem fresh_mono (db : Db) (serial serial' : ℕ) (row : RefreshToken) (hle : serial ≤ serial')
    (h : Fresh db serial row) : Fresh db serial' row :=
  ⟨h.1.trans_le hle, h.2⟩

theorem stands_serial (db : Db) (serial serial' : ℕ) (answers : List Answer) (writes : List Write)
    (p : Point) (hle : serial ≤ serial') (h : Stands db serial answers writes p) :
    Stands db serial' answers writes p := by
  cases p with
  | issued hash now token =>
    obtain ⟨before, first, hwrites, hquiet, hfresh, hrest⟩ := h
    exact ⟨before, first, hwrites, hquiet, fresh_mono db serial serial' first hle hfresh, hrest⟩
  | refreshed row token =>
    obtain ⟨hunspent, hclear, before, now, child, hwrites, hquiet, hfresh, hrest⟩ := h
    exact ⟨hunspent, hclear, before, now, child, hwrites, hquiet,
      fresh_mono db serial serial' child hle hfresh, hrest⟩
  | _ => exact h

theorem clear_snoc (answers : List Answer) (r : Answer) (family : ℕ) (h : Clear answers family)
    (hr : ∀ row ∈ reusedBy r, row.family ≠ family) : Clear (answers ++ [r]) family := by
  intro a ha
  rcases List.mem_append.mp ha with ha | ha
  · exact h a ha
  · rw [List.mem_singleton] at ha
    exact ha ▸ hr

/-- The commit of another transaction keeps what holds of an open one. -/
theorem stands_commit (s : System) (x y : Txn Write Point) (r : Answer) (hinv : Inv s)
    (hx : x ∈ s.txns) (hy : y ∈ s.txns) (hne : y.id ≠ x.id) (hanswer : x.point.answer = some r)
    (hlast : Last s x) :
    Stands (x.writes.foldl apply s.db) (s.serial + 1) (s.answers ++ [r]) y.writes y.point := by
  have hcommits := commits s x r hinv hx hanswer
  have hbelow := below_self_foldl x.writes s.db
  have hunspent : ∀ row ∈ held y.point, Unspent s.db row →
      Unspent (x.writes.foldl apply s.db) row := fun row hrow =>
    hcommits.unspent row fun row' hrow' => hinv.apart x hx y hy hne.symm row' hrow' row hrow
  have hclear : ∀ row ∈ held y.point, Clear s.answers row.family →
      Clear (s.answers ++ [r]) row.family := fun row hrow h =>
    clear_snoc s.answers r row.family h fun row' hrow' =>
      (hlast r hanswer row' hrow' y hy hne row hrow ·.symm)
  have hfresh : ∀ row, .addToken row ∈ y.writes → Fresh s.db s.serial row →
      Fresh (x.writes.foldl apply s.db) (s.serial + 1) row := by
    intro row hrow h
    refine ⟨by have := h.1; omega, fun hmem => ?_⟩
    rcases hcommits.mem_ids row.id hmem with hold | ⟨hnew, _⟩
    · exact h.2 hold
    · exact hinv.fresh x hx y hy hne.symm row.id hnew
        (List.mem_filterMap.mpr ⟨_, hrow, rfl⟩)
  have hstands := hinv.stands y hy
  obtain ⟨t, point, writes⟩ := y
  simp only at hstands hunspent hclear hfresh ⊢
  cases point with
  | liveSession session g =>
    refine ⟨hstands.1, fun row hrow => ?_⟩
    obtain ⟨hrowUnspent, hsession⟩ := hstands.2 row hrow
    exact ⟨hunspent row hrow hrowUnspent, hsession⟩
  | touch session z g =>
    refine ⟨hstands.1, fun row hrow => ?_⟩
    obtain ⟨hrowUnspent, hrowClear⟩ := hstands.2 row hrow
    exact ⟨hunspent row hrow hrowUnspent, hclear row hrow hrowClear⟩
  | getUser session z g =>
    refine ⟨hstands.1, fun row hrow => ?_⟩
    obtain ⟨hrowUnspent, hrowClear⟩ := hstands.2 row hrow
    exact ⟨hunspent row hrow hrowUnspent, hclear row hrow hrowClear⟩
  | mint session z g =>
    refine ⟨hstands.1, fun row hrow => ?_⟩
    obtain ⟨hrowUnspent, hrowClear⟩ := hstands.2 row hrow
    exact ⟨hunspent row hrow hrowUnspent, hclear row hrow hrowClear⟩
  | issued hash now token =>
    obtain ⟨before, first, rfl, hquiet, hfirst, hfamily, hparent, hknown⟩ := hstands
    exact ⟨before, first, rfl, hquiet, hfresh first (by simp) hfirst, hfamily, hparent,
      (below_foldl before _ _ hbelow).known _ hknown⟩
  | refreshed row token =>
    obtain ⟨hrowUnspent, hrowClear, before, now, child, rfl, hquiet, hchild, hrest⟩ := hstands
    exact ⟨hunspent row rfl hrowUnspent, hclear row rfl hrowClear, before, now, child, rfl, hquiet,
      hfresh child (by simp) hchild, hrest⟩
  | close rest =>
    refine ⟨hstands.1, fun row hrow => ?_⟩
    obtain ⟨hpending, e, he, hfamily, hsession⟩ := hstands.2 row hrow
    obtain ⟨e', he', hfamily', hsession'⟩ := step_keeps _ _ hcommits.step e he
    exact ⟨pending_mono _ _ row.session rest ((below_foldl writes _ _ hbelow).revoked _) hpending,
      e', he', hfamily'.trans hfamily, hsession'.trans hsession⟩
  | _ => exact hstands

theorem commit_revoked (s : System) (x : Txn Write Point) (r : Answer) (hinv : Inv s)
    (hx : x ∈ s.txns) (hanswer : x.point.answer = some r) :
    ∀ a ∈ s.answers ++ [r], ∀ row ∈ reusedBy a,
      (∃ e ∈ ledger (x.writes.foldl apply s.db), e.family = row.family) ∧
        ∀ e ∈ ledger (x.writes.foldl apply s.db), e.family = row.family →
          Revoked (x.writes.foldl apply s.db) e.session := by
  have hcommits := commits s x r hinv hx hanswer
  have hstep := hcommits.step
  have hbelow := below_self_foldl x.writes s.db
  intro a ha row hrow
  rcases List.mem_append.mp ha with ha | ha
  · obtain ⟨⟨e, he, hfamily⟩, hrevoked⟩ := hinv.revoked a ha row hrow
    obtain ⟨e', he', hfamily', _⟩ := step_keeps _ _ hstep e he
    refine ⟨⟨e', he', hfamily'.trans hfamily⟩, fun e' he' hfamily' => ?_⟩
    rcases step_family _ _ hinv.linear hstep e' he' with ⟨old, hold, hsame, hsession⟩ | hnew
    · rw [← hsession]
      exact hbelow.revoked _ (hrevoked old hold (hsame.trans hfamily'))
    · exact absurd (hfamily.trans hfamily'.symm) (hnew e he)
  · rw [List.mem_singleton] at ha
    subst ha
    have hstands := hinv.stands x hx
    obtain ⟨t, point, writes⟩ := x
    simp only at hstands hanswer hcommits hstep hbelow ⊢
    cases point with
    | issued hash now token =>
      cases hanswer
      cases hrow
    | refreshed old token =>
      cases hanswer
      cases hrow
    | close rest =>
      cases rest with
      | answer c =>
        cases hanswer
        obtain ⟨hpending, e, he, hfamily, hsession⟩ := hstands.2 row hrow
        rw [ledger_quiet_all writes s.db hstands.1]
        refine ⟨⟨e, he, hfamily⟩, fun e' he' hfamily' => ?_⟩
        rw [hinv.linear.session e' he' e he (hfamily'.trans hfamily.symm), hsession]
        exact hpending
      | _ => cases hanswer
    | _ => cases hanswer

theorem inv_initial : Inv initial where
  linear := linear_nil
  below := by simp [initial, ledger]
  known := by simp [initial, ledger]
  stands := by simp [initial]
  apart := by simp [initial]
  fresh := by simp [initial]
  revoked := by simp [initial]
  ordered := List.Pairwise.nil

/-- Transactions that only fall away keep the invariant. -/
theorem inv_fewer (s : System) (txns : List (Txn Write Point)) (h : Inv s)
    (hsub : ∀ y ∈ txns, y ∈ s.txns) : Inv { s.wait with txns := txns } where
  linear := h.linear
  below := fun e he => (h.below e he).trans (Nat.lt_succ_self _)
  known := h.known
  stands := fun y hy =>
    stands_serial _ _ _ _ _ _ (Nat.le_succ s.serial) (h.stands y (hsub y hy))
  apart := fun x hx y hy => h.apart x (hsub x hx) y (hsub y hy)
  fresh := fun x hx y hy => h.fresh x (hsub x hx) y (hsub y hy)
  revoked := h.revoked
  ordered := h.ordered

/-- One transaction begins or goes on, and the others stay as they are. -/
theorem inv_with (s : System) (x : Txn Write Point) (txns : List (Txn Write Point)) (h : Inv s)
    (hmem : ∀ y ∈ txns, y = x ∨ (y ∈ s.txns ∧ y.id ≠ x.id))
    (hstands : Stands s.db (s.serial + 1) s.answers x.writes x.point)
    (hheld : ∀ y ∈ s.txns, y.id ≠ x.id → ∀ row ∈ held x.point, ∀ row' ∈ held y.point,
      row.id ≠ row'.id)
    (hadded : ∀ y ∈ s.txns, y.id ≠ x.id → ∀ id ∈ added x.writes, id ∉ added y.writes) :
    Inv { s.wait with txns := txns } where
  linear := h.linear
  below := fun e he => (h.below e he).trans (Nat.lt_succ_self _)
  known := h.known
  stands := by
    intro y hy
    rcases hmem y hy with rfl | ⟨hy, _⟩
    · exact hstands
    · exact stands_serial _ _ _ _ _ _ (Nat.le_succ s.serial) (h.stands y hy)
  apart := by
    intro y hy z hz hne row hrow row' hrow'
    rcases hmem y hy with rfl | ⟨hy, hyne⟩ <;> rcases hmem z hz with rfl | ⟨hz, hzne⟩
    · exact absurd rfl hne
    · exact hheld z hz hzne row hrow row' hrow'
    · exact (hheld y hy hyne row' hrow' row hrow).symm
    · exact h.apart y hy z hz hne row hrow row' hrow'
  fresh := by
    intro y hy z hz hne id hid
    rcases hmem y hy with rfl | ⟨hy, hyne⟩ <;> rcases hmem z hz with rfl | ⟨hz, hzne⟩
    · exact absurd rfl hne
    · exact hadded z hz hzne id hid
    · exact fun hid' => hadded y hy hyne id hid' hid
    · exact h.fresh y hy z hz hne id hid
  revoked := h.revoked
  ordered := h.ordered

theorem stands_start (s : System) (request : Request) (now : ℤ) :
    Stands s.db (s.serial + 1) s.answers [] (start request now) ∧
      held (start request now) = none := by
  have hnil : ∀ w ∈ ([] : List Write), Quiet w := by simp
  cases request with
  | authorizationCode req =>
    simp only [start]
    split_ifs
    · exact ⟨stands_refuse _ _ _ _ _ hnil rfl, rfl⟩
    · exact ⟨hnil, rfl⟩
  | refresh req =>
    simp only [start]
    split_ifs
    · exact ⟨stands_refuse _ _ _ _ _ hnil rfl, rfl⟩
    · exact ⟨hnil, rfl⟩
  | revoke jkt token => exact ⟨hnil, rfl⟩
  | revokeUserSessions user except => exact ⟨hnil, rfl⟩
  | other writes =>
    refine ⟨stands_close _ _ _ _ _ hnil ?_, rfl⟩
    rw [closing_writes]
    rfl

theorem inv_arrive (s : System) (t : ℕ) (request : Request) (now : ℤ) (h : Inv s)
    (hnew : ∀ y ∈ s.txns, y.id ≠ t) :
    Inv { s.wait with txns := ⟨t, start request now, []⟩ :: s.txns } := by
  obtain ⟨hstands, hheld⟩ := stands_start s request now
  refine inv_with s ⟨t, start request now, []⟩ _ h ?_ hstands ?_ ?_
  · intro y hy
    rcases List.mem_cons.mp hy with hy | hy
    · exact Or.inl hy
    · exact Or.inr ⟨hy, hnew y hy⟩
  · intro y _ _ row hrow
    rw [hheld] at hrow
    cases hrow
  · intro y _ _ id hid
    cases hid

/-- An identifier that an open transaction adds was drawn before. -/
theorem added_below (s : System) (y : Txn Write Point) (h : Inv s) (hy : y ∈ s.txns) :
    ∀ id ∈ added y.writes, id < s.serial := by
  intro id hid
  have hstands := h.stands y hy
  obtain ⟨t, point, writes⟩ := y
  simp only at hstands hid
  have hnone : (∀ w ∈ writes, Quiet w) → id < s.serial := by
    intro hquiet
    rw [added_quiet writes hquiet] at hid
    cases hid
  cases point with
  | issued hash now token =>
    obtain ⟨before, first, rfl, hquiet, hfresh, _⟩ := hstands
    rw [added_append, added_quiet before hquiet] at hid
    obtain rfl : id = first.id := by simpa [added] using hid
    exact hfresh.1
  | refreshed row token =>
    obtain ⟨_, _, before, now, child, rfl, hquiet, hfresh, _⟩ := hstands
    rw [added_append, added_quiet before hquiet] at hid
    obtain rfl : id = child.id := by simpa [added] using hid
    exact hfresh.1
  | liveSession session g => exact hnone hstands.1
  | touch session z g => exact hnone hstands.1
  | getUser session z g => exact hnone hstands.1
  | mint session z g => exact hnone hstands.1
  | close rest => exact hnone hstands.1
  | _ => exact hnone hstands

theorem inv_statement (cfg : Config) (s : System) (x : Txn Write Point) (now : ℤ)
    (more : List Write) (p : Point) (h : Inv s) (hx : x ∈ s.txns) (halone : Alone cfg s x)
    (hanswer : x.point.answer = none)
    (hstatement : statement cfg (x.writes.foldl apply s.db) s.serial now x.point = some (more, p)) :
    Inv { s.wait with txns := s.put ⟨x.id, p, x.writes ++ more⟩ } := by
  refine inv_with s ⟨x.id, p, x.writes ++ more⟩ _ h (fun y hy => mem_put s _ y hy)
    (stands_statement cfg s x now more p h hx halone hanswer hstatement) ?_ ?_
  · intro y hy hne row hrow row' hrow'
    rcases held_statement cfg _ _ now x.point p more hstatement row hrow with
      hold | ⟨req, arrived, hpoint, hfind, hunused⟩
    · exact h.apart x hx y hy hne.symm row hold row' hrow'
    · unfold Alone at halone
      rw [hpoint] at halone
      have hother := halone row hfind
      rw [if_neg hunused] at hother
      exact fun heq => hother y hy hne row' hrow' heq.symm
  · intro y hy hne id hid
    rw [added_append, List.mem_append] at hid
    rcases hid with hid | hid
    · exact h.fresh x hx y hy hne.symm id hid
    · rw [added_statement cfg _ _ now x.point p more hstatement id hid]
      exact fun hold => lt_irrefl _ (added_below s y h hy _ hold)

theorem inv_commit (s : System) (x : Txn Write Point) (r : Answer) (h : Inv s) (hx : x ∈ s.txns)
    (hanswer : x.point.answer = some r) (hlast : Last s x) :
    Inv ⟨x.writes.foldl apply s.db, s.drop x.id, s.answers ++ [r], s.serial + 1⟩ where
  linear := linear_step _ _ h.linear (commits s x r h hx hanswer).step
  below := by
    intro e he
    have hcommits := commits s x r h hx hanswer
    rcases hcommits.mem_ids e.id (List.mem_map_of_mem he) with hid | ⟨_, hlt⟩
    · obtain ⟨old, hold, hid⟩ := List.mem_map.mp hid
      rw [← hid]
      exact (h.below old hold).trans (Nat.lt_succ_self _)
    · exact hlt.trans (Nat.lt_succ_self _)
  known := (commits s x r h hx hanswer).known (below_self_foldl x.writes s.db).known h.known
  stands := by
    intro y hy
    obtain ⟨hy, hne⟩ := (mem_drop s x.id y).mp hy
    exact stands_commit s x y r h hx hy hne hanswer hlast
  apart := by
    intro y hy z hz
    exact h.apart y ((mem_drop s x.id y).mp hy).1 z ((mem_drop s x.id z).mp hz).1
  fresh := by
    intro y hy z hz
    exact h.fresh y ((mem_drop s x.id y).mp hy).1 z ((mem_drop s x.id z).mp hz).1
  revoked := commit_revoked s x r h hx hanswer
  ordered := by
    refine List.pairwise_append.mpr ⟨h.ordered, List.pairwise_singleton _ _, ?_⟩
    intro a ha r' hr' row hrow row' hrow'
    rw [List.mem_singleton] at hr'
    subst hr'
    have hstands := h.stands x hx
    cases hpoint : x.point with
    | refreshed old token =>
      rw [hpoint] at hstands hanswer
      cases hanswer
      cases hrow'
      exact hstands.2.1 a ha row hrow
    | issued hash now token =>
      rw [hpoint] at hanswer
      cases hanswer
      cases hrow'
    | close rest =>
      rw [hpoint] at hanswer
      cases rest with
      | answer c =>
        cases hanswer
        cases hrow'
      | _ => cases hanswer
    | _ =>
      rw [hpoint] at hanswer
      cases hanswer

theorem inv_step (cfg : Config) (s : System) (e : Event Request) (h : Inv s)
    (hapart : Apart cfg s e) : Inv (step (program cfg) s e) := by
  generalize ht : step (program cfg) s e = s'
  have heffect := ht ▸ step_effect (program cfg) s e
  cases heffect with
  | wait => exact inv_fewer s s.txns h fun _ hy => hy
  | arrive t request now hnew => exact inv_arrive s t request now h hnew
  | statement x now writes p hmem hanswer hstatement =>
    exact inv_statement cfg s x now writes p h hmem (hapart x hmem rfl) hanswer hstatement
  | commit x r hmem hanswer => exact inv_commit s x r h hmem hanswer (hapart x hmem rfl)
  | abandon _ t => exact inv_fewer s _ h fun y hy => ((mem_drop s t y).mp hy).1

theorem filter_entry (tokens : List RefreshToken) (p : Entry → Bool) :
    (tokens.map entry).filter p = (tokens.filter fun row => p (entry row)).map entry := by
  rw [List.filter_map]
  rfl

theorem rotated_of_inv (s : System) (h : Inv s) : Rotated s where
  once := by
    intro id
    have hchildren := linear_children _ h.linear id
    rwa [ledger, filter_entry, List.length_map] at hchildren
  chain := by
    intro family
    have hchain := h.linear.chain family
    rwa [ledger, filter_entry] at hchain
  live := by
    intro family
    have hunused := linear_unused _ h.linear family
    rw [ledger, filter_entry, List.length_map] at hunused
    refine le_trans (List.Sublist.length_le (List.monotone_filter_right _ ?_)) hunused
    intro row hrow
    simp only [decide_eq_true_eq] at hrow ⊢
    exact ⟨hrow.1, by simp [entry, hrow.2.1]⟩
  reuse := h.ordered

/-- In every run of interleaved requests whose grants stay apart, rotation is linear in every
state reached. -/
theorem rotation_linear (cfg : Config) (events : List (Event Request))
    (hrun : Along (step (program cfg)) (Apart cfg) initial events) :
    ∀ n, Rotated (after cfg (events.take n)) := by
  intro n
  have htake := along_take (step (program cfg)) (Apart cfg) initial events n hrun
  exact rotated_of_inv _ (htake.invariant Inv inv_initial (inv_step cfg))

def sampleConfig : Config := ⟨100, 10, id, id⟩

/-- A user signs in and exchanges a code for the first refresh token `a`. -/
def signIn : List (Event Request) :=
  let verifier := List.replicate 43 'v'
  let session : Accounts.Session := ⟨1, [], [], .standard, [.pwd, .otp], 0, 1000, false, none, 0⟩
  let user : Accounts.User := ⟨1, [], .active, .standard, [], false⟩
  let code : AuthCode := ⟨['c'], ['w'], 7, ['u'], ['s'], verifier, 60, none⟩
  [.arrive 1 (.other [.setUser user, .addSession 7 session, .addCode code]) 0,
    .statement 1 0, .statement 1 0, .statement 1 0, .commit 1,
    .arrive 2 (.authorizationCode ⟨['w'], ['k'], ['c'], ['u'], verifier, ['a']⟩) 0,
    .statement 2 0, .statement 2 0, .statement 2 0, .statement 2 0, .statement 2 0, .commit 2]

/-- A refresh grant arrives with one token, and is to be given another. -/
def present (t : ℕ) (token newToken : Char) : Event Request :=
  .arrive t (.refresh ⟨['w'], ['k'], [token], [newToken]⟩) 1

def statements (t n : ℕ) : List (Event Request) := List.replicate n (.statement t 1)

/-- The token `a` is exchanged for `b` and presented once more, and then `b` is presented. -/
def stolenToken : List (Event Request) :=
  signIn ++ present 3 'a' 'b' :: statements 3 4 ++ .commit 3 ::
    present 4 'a' 'd' :: statements 4 5 ++ .commit 4 ::
    present 5 'b' 'e' :: statements 5 3 ++ [.commit 5]

theorem rotation_linear_stolen :
    (after sampleConfig stolenToken).answers.getLast?.map acceptedBy = some none ∧
      Rotated (after sampleConfig (stolenToken.take 40)) :=
  ⟨by decide, rotation_linear sampleConfig stolenToken (by decide) 40⟩

/-- Two grants of `a` find it before either commits. -/
def doubleGrant : List (Event Request) :=
  signIn ++ present 3 'a' 'b' :: present 4 'a' 'd' :: statements 3 1 ++ statements 4 1 ++
    statements 3 3 ++ .commit 3 :: statements 4 3 ++ [.commit 4]

/-- The second presentation of `a` commits while a grant of its child `b` is open. -/
def lateGrant : List (Event Request) :=
  signIn ++ present 3 'a' 'b' :: statements 3 4 ++ .commit 3 ::
    present 4 'b' 'd' :: present 5 'a' 'e' :: statements 4 2 ++ statements 5 5 ++ .commit 5 ::
    statements 4 2 ++ [.commit 4]

theorem overlapping_grants_fork :
    ¬ Rotated (after sampleConfig doubleGrant) ∧ ¬ Rotated (after sampleConfig lateGrant) := by
  refine ⟨fun h => absurd (h.once 10) (by decide), fun h => absurd h.reuse ?_⟩
  decide

end Hyproxy.RefreshRotation

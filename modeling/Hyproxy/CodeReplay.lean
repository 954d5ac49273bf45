import Hyproxy.CodeSpending

/-!
Authorization codes that are presented again. The request has the session of the code
and the refresh tokens of the session revoked in its own transaction. Its `UPDATE` does
not see a token that another transaction has added and not yet committed.
-/
namespace Hyproxy.CodeReplay

open CodeSpending
open ReadCommitted (Event Txn)
open RefreshInvariant (Pending)
open RefreshLedger (Known Quiet Revoked)
open RefreshTokens (AuthCode Config Db Point Request System Tail Write initial program)
open SingleUse (Ready Spent spendings)

/-- A run with what has been seen of it: the consumptions that were committed, the open transactions
that presented a consumed code with the session of the code, and the sessions of those that were
committed. -/
structure Watched where
  sys : System
  spent : List (List Char × ℤ)
  presented : List (ℕ × ℕ)
  replayed : List ℕ

/-- The transaction that the event commits. -/
def committing (s : System) : Event Request → Option (Txn Write Point)
  | .commit t => (s.txn t).filter fun x => x.point.answer.isSome
  | _ => none

/-- A consumed code reaches `consume_code`. -/
def presents (cfg : Config) (s : System) : Event Request → Option (ℕ × ℕ)
  | .statement t _ =>
    (s.txn t).bind fun x =>
      match x.point with
      | .consumeCode req _ =>
        let view := x.view (program cfg) s.db
        (view.codes.find? fun row => row.codeHash == cfg.sha256Hex req.code &&
          row.consumedAt.isSome && (view.sessions.lookup row.session).isSome).map
            fun row => (t, row.session)
      | _ => none
  | _ => none

def watch (cfg : Config) (w : Watched) (e : Event Request) : Watched where
  sys := ReadCommitted.step (program cfg) w.sys e
  spent := w.spent ++
    ((committing w.sys e).map fun x => spendings (changes x.writes)).getD []
  presented := (w.presented ++ (presents cfg w.sys e).toList).filter fun p =>
    ((ReadCommitted.step (program cfg) w.sys e).txn p.1).isSome
  replayed := w.replayed ++ ((committing w.sys e).map fun x =>
    (w.presented.filter fun p => p.1 = x.id).map Prod.snd).getD []

def begin_ : Watched := ⟨initial, [], [], []⟩

def AllRevoked (db : Db) (session : ℕ) : Prop :=
  ∀ row ∈ db.tokens, row.session = session → row.revokedAt.isSome

/-- A code that was presented again has taken its session with it. -/
def ReplaysRevoke (w : Watched) : Prop :=
  ∀ session ∈ w.replayed, Revoked w.sys.db session ∧ AllRevoked w.sys.db session

/-- The sessions whose tokens the transaction adds. -/
def addedSessions (writes : List Write) : List ℕ :=
  writes.filterMap fun
    | .addToken row => some row.session
    | _ => none

/-- The replay has yet to look for the tokens of the session. -/
def looking (session : ℕ) : Point → Bool
  | .findConsumed _ => true
  | .replayed _ => true
  | .close (.revokeTokens scope _) => scope = .session session
  | _ => false

/-- No token joins a session after a replay has looked for its tokens. -/
def Joins (w : Watched) (x : Txn Write Point) : Prop :=
  ∀ session ∈ addedSessions x.writes, session ∉ w.replayed ∧
    ∀ p ∈ w.presented, p.2 = session →
      ∀ y ∈ w.sys.txns, y.id = p.1 → looking session y.point = true

def issuing : Point → Option AuthCode
  | .close (.write (.addCode row) _) => some row
  | _ => none

/-- A code is issued under a hash of its own. -/
def Issues (view : Db) (p : Point) : Prop :=
  ∀ row ∈ issuing p, ∀ other ∈ view.codes, other.codeHash ≠ row.codeHash

def Undisturbed (cfg : Config) (w : Watched) : Event Request → Prop
  | .statement t _ =>
    ∀ x ∈ w.sys.txns, x.id = t → Issues (x.view (program cfg) w.sys.db) x.point
  | .commit t => ∀ x ∈ w.sys.txns, x.id = t → Joins w x
  | _ => True

instance (view : Db) (p : Point) : Decidable (Issues view p) :=
  inferInstanceAs (Decidable
    (∀ row ∈ issuing p, ∀ other ∈ view.codes, other.codeHash ≠ row.codeHash))

instance (w : Watched) (x : Txn Write Point) : Decidable (Joins w x) :=
  inferInstanceAs (Decidable (∀ session ∈ addedSessions x.writes, session ∉ w.replayed ∧
    ∀ p ∈ w.presented, p.2 = session →
      ∀ y ∈ w.sys.txns, y.id = p.1 → looking session y.point = true))

instance (cfg : Config) : ∀ (w : Watched) e, Decidable (Undisturbed cfg w e)
  | w, .statement t _ => inferInstanceAs (Decidable
      (∀ x ∈ w.sys.txns, x.id = t → Issues (x.view (program cfg) w.sys.db) x.point))
  | w, .commit t => inferInstanceAs (Decidable (∀ x ∈ w.sys.txns, x.id = t → Joins w x))
  | _, .arrive _ _ _ => isTrue trivial
  | _, .rollback _ => isTrue trivial

/-! ### Statements -/

def begun : Point → Bool
  | .consumeCode _ _ => false
  | _ => true

theorem begun_consumed (cfg : Config) (req : RefreshTokens.CodeRequest) (row : AuthCode) (now : ℤ) :
    begun (RefreshTokens.consumed cfg req row now) = true := by
  unfold RefreshTokens.consumed
  split_ifs <;> rfl

theorem begun_found (req : RefreshTokens.RefreshRequest) (row : RefreshTokens.RefreshToken)
    (now : ℤ) : begun (RefreshTokens.found req row now) = true := by
  simp only [RefreshTokens.found]
  split_ifs <;> rfl

theorem begun_checked (cfg : Config) (session : ℕ) (x : Accounts.Session)
    (g : RefreshTokens.Grant) : begun (RefreshTokens.checked cfg session x g) = true := by
  unfold RefreshTokens.checked
  split <;> rfl

theorem begun_select (cfg : Config) (db : Db) (p : Point) (h : begun p = true) :
    begun (RefreshTokens.select cfg db p) = true := by
  cases p with
  | consumeCode req now => cases h
  | getCode req now =>
    simp only [RefreshTokens.select]
    split
    · rfl
    · exact begun_consumed cfg req _ now
  | findConsumed req =>
    simp only [RefreshTokens.select]
    split
    · rfl
    · split_ifs <;> rfl
  | replayed session =>
    simp only [RefreshTokens.select]
    split <;> rfl
  | find req now =>
    simp only [RefreshTokens.select]
    split
    · rfl
    · exact begun_found req _ now
  | findRevoked jkt token =>
    simp only [RefreshTokens.select]
    split
    · rfl
    · split_ifs <;> rfl
  | liveSession session g =>
    simp only [RefreshTokens.select]
    split
    · rfl
    · exact begun_checked cfg session _ g
  | getUser session x g =>
    simp only [RefreshTokens.select]
    split
    · rfl
    · split_ifs <;> rfl
  | _ => rfl

/-- What a statement does to the codes: nothing, or it consumes one, or issues one. -/
inductive Codes (cfg : Config) (db : Db) : Point → List Write → Prop
  | keep (p : Point) (new : List Write) (h : changes new = []) : Codes cfg db p new
  | consume (req : RefreshTokens.CodeRequest) (now : ℤ) (row : AuthCode) (hrow : row ∈ db.codes)
      (hhash : row.codeHash = cfg.sha256Hex req.code) (hfree : row.consumedAt = none)
      (hexpires : now < row.expiresAt) :
    Codes cfg db (.consumeCode req now) [.consumeCode (cfg.sha256Hex req.code) now]
  | issue (row : AuthCode) (next : Tail) :
    Codes cfg db (.close (.write (.addCode row) next)) [.other (.addCode row)]

theorem changes_marked (ids : List ℕ) (now : ℤ) :
    changes (ids.map fun id => RefreshTokens.Write.revokeToken id now) = [] := by
  rw [changes, List.filterMap_map, List.filterMap_eq_nil_iff]
  exact fun _ _ => rfl

theorem statement_codes (cfg : Config) (db : Db) (serial : ℕ) (now : ℤ) (p p' : Point)
    (new : List Write) (h : RefreshTokens.statement cfg db serial now p = some (new, p')) :
    Codes cfg db p new ∧ begun p' = true := by
  have hselect : begun p = true → some (([] : List Write), RefreshTokens.select cfg db p) =
      some (new, p') → Codes cfg db p new ∧ begun p' = true := by
    intro hbegun heq
    obtain ⟨rfl, rfl⟩ := Prod.mk.inj (Option.some.inj heq)
    exact ⟨.keep p [] rfl, begun_select cfg db p hbegun⟩
  cases p with
  | consumeCode req arrived =>
    simp only [RefreshTokens.statement, Option.some.injEq] at h
    split_ifs at h with husable
    · obtain ⟨rfl, rfl⟩ := Prod.mk.inj h
      obtain ⟨row, hrow, hcond⟩ := List.any_eq_true.mp husable
      simp only [Bool.and_eq_true, beq_iff_eq, Option.isNone_iff_eq_none,
        decide_eq_true_eq] at hcond
      exact ⟨.consume req arrived row hrow hcond.1.1 hcond.1.2 hcond.2, rfl⟩
    · obtain ⟨rfl, rfl⟩ := Prod.mk.inj h
      exact ⟨.keep _ _ rfl, rfl⟩
  | touch session x g =>
    obtain ⟨rfl, rfl⟩ := Prod.mk.inj (Option.some.inj h)
    exact ⟨.keep _ _ rfl, rfl⟩
  | mint session x g =>
    cases g with
    | code req row arrived =>
      simp only [RefreshTokens.statement, RefreshTokens.mintRows] at h
      split_ifs at h
      obtain ⟨rfl, rfl⟩ := Prod.mk.inj (Option.some.inj h)
      exact ⟨.keep _ _ rfl, rfl⟩
    | refresh req row arrived =>
      simp only [RefreshTokens.statement, RefreshTokens.mintRows] at h
      split_ifs at h
      obtain ⟨rfl, rfl⟩ := Prod.mk.inj (Option.some.inj h)
      exact ⟨.keep _ _ rfl, rfl⟩
  | close rest =>
    obtain ⟨rfl, rfl⟩ := Prod.mk.inj (Option.some.inj h)
    refine ⟨?_, rfl⟩
    cases rest with
    | revokeTokens scope next => exact .keep _ _ rfl
    | markRevoked ids next => exact .keep _ _ (changes_marked _ now)
    | sessionOf session next =>
      refine .keep _ _ ?_
      simp only [Tail.statement]
      split <;> rfl
    | revokeSession session next => exact .keep _ _ rfl
    | write w next =>
      cases w with
      | addCode row => exact .issue row next
      | _ => exact .keep _ _ rfl
    | answer c => exact .keep _ _ rfl
  | _ => exact hselect rfl h

/-- The codes that a transaction changes are as it needs them, also after one more statement. -/
theorem statement_ready (cfg : Config) (db : Db) (x : Txn Write Point) (new : List Write)
    (hready : Ready codeTable db.codes (changes x.writes))
    (hbegins : begun x.point = false → x.writes = [])
    (hissues : Issues (x.view (program cfg) db) x.point)
    (h : Codes cfg (x.view (program cfg) db) x.point new) :
    Ready codeTable db.codes (changes (x.writes ++ new)) := by
  obtain ⟨t, p, writes⟩ := x
  dsimp only at hready hbegins hissues h ⊢
  rw [changes_append]
  cases h with
  | keep _ _ hnone =>
    rw [hnone, List.append_nil]
    exact hready
  | consume req now row hrow hhash hfree hexpires =>
    obtain rfl : writes = [] := hbegins rfl
    refine (SingleUse.ready_cons codeTable db.codes _ []).mpr
      ⟨⟨row, ?_, hfree, hexpires⟩, SingleUse.ready_nil _ _⟩
    exact (SingleUse.mem_rowsAt codeTable _ db.codes row).mpr ⟨hrow, hhash⟩
  | issue row next =>
    refine (SingleUse.ready_append codeTable db.codes _ _).mpr ⟨hready, ?_⟩
    have hview :
        (Txn.view (program cfg) ⟨t, .close (.write (.addCode row) next), writes⟩ db).codes =
          (changes writes).foldl (SingleUse.apply codeTable) db.codes := codes_foldl writes db
    rw [← hview]
    refine (SingleUse.ready_cons codeTable _ _ []).mpr ⟨?_, SingleUse.ready_nil _ _⟩
    refine List.filter_eq_nil_iff.mpr fun other hother => ?_
    exact fun heq => hissues row rfl other hother (of_decide_eq_true heq)

/-! ### Exchanges -/

/-- The codes for which tokens were issued, in the order of their commits. -/
def exchanges (answers : List RefreshTokens.Answer) : List (List Char × ℤ) :=
  answers.filterMap fun
    | .issued hash now _ => some (hash, now)
    | _ => none

/-- The code of the grant is consumed by the writes, and no other. -/
def Paid (cfg : Config) (writes : List Write) : RefreshTokens.Grant → Prop
  | .code req _ now => spendings (changes writes) = [(cfg.sha256Hex req.code, now)]
  | .refresh _ _ _ => True

/-- What the writes of a transaction have consumed when it stands at the point. -/
def Redeems (cfg : Config) (writes : List Write) : Point → Prop
  | .getCode req now => spendings (changes writes) = [(cfg.sha256Hex req.code, now)]
  | .liveSession _ grant => Paid cfg writes grant
  | .touch _ _ grant => Paid cfg writes grant
  | .getUser _ _ grant => Paid cfg writes grant
  | .mint _ _ grant => Paid cfg writes grant
  | .issued hash now _ => spendings (changes writes) = [(hash, now)]
  | _ => True

theorem paid_append (cfg : Config) (writes new : List Write) (grant : RefreshTokens.Grant)
    (hnew : changes new = []) (h : Paid cfg writes grant) : Paid cfg (writes ++ new) grant := by
  cases grant with
  | code req row now =>
    rw [Paid, changes_append, hnew, List.append_nil]
    exact h
  | refresh req row now => trivial

theorem redeems_consumed (cfg : Config) (writes : List Write) (req : RefreshTokens.CodeRequest)
    (row : AuthCode) (now : ℤ)
    (h : spendings (changes writes) = [(cfg.sha256Hex req.code, now)]) :
    Redeems cfg writes (RefreshTokens.consumed cfg req row now) := by
  unfold RefreshTokens.consumed
  split_ifs
  · trivial
  · trivial
  · trivial
  · exact h

theorem redeems_found (cfg : Config) (writes : List Write) (req : RefreshTokens.RefreshRequest)
    (row : RefreshTokens.RefreshToken) (now : ℤ) :
    Redeems cfg writes (RefreshTokens.found req row now) := by
  simp only [RefreshTokens.found]
  split_ifs <;> trivial

theorem redeems_checked (cfg : Config) (writes : List Write) (session : ℕ) (x : Accounts.Session)
    (grant : RefreshTokens.Grant) (h : Paid cfg writes grant) :
    Redeems cfg writes (RefreshTokens.checked cfg session x grant) := by
  unfold RefreshTokens.checked
  split
  · trivial
  · trivial
  · exact h
  · exact h

theorem redeems_select (cfg : Config) (db : Db) (writes : List Write) (p : Point)
    (h : Redeems cfg writes p) : Redeems cfg writes (RefreshTokens.select cfg db p) := by
  cases p with
  | getCode req now =>
    simp only [RefreshTokens.select]
    split
    · trivial
    · exact redeems_consumed cfg writes req _ now h
  | findConsumed req =>
    simp only [RefreshTokens.select]
    split
    · trivial
    · split_ifs <;> trivial
  | replayed session =>
    simp only [RefreshTokens.select]
    split <;> trivial
  | find req now =>
    simp only [RefreshTokens.select]
    split
    · trivial
    · exact redeems_found cfg writes req _ now
  | findRevoked jkt token =>
    simp only [RefreshTokens.select]
    split
    · trivial
    · split_ifs <;> trivial
  | liveSession session grant =>
    simp only [RefreshTokens.select]
    split
    · trivial
    · exact redeems_checked cfg writes session _ grant h
  | getUser session x grant =>
    simp only [RefreshTokens.select]
    split
    · trivial
    · split_ifs
      · exact h
      · trivial
  | _ => exact h

theorem redeems_start (cfg : Config) (request : Request) (now : ℤ) :
    Redeems cfg [] (RefreshTokens.start request now) := by
  cases request with
  | authorizationCode req =>
    simp only [RefreshTokens.start]
    split_ifs <;> trivial
  | refresh req =>
    simp only [RefreshTokens.start]
    split_ifs <;> trivial
  | _ => trivial

/-- Tokens are issued for a code only after the code was consumed. -/
theorem redeems_statement (cfg : Config) (db : Db) (serial : ℕ) (now : ℤ) (writes new : List Write)
    (p p' : Point) (hbegins : begun p = false → writes = []) (h : Redeems cfg writes p)
    (hstatement : RefreshTokens.statement cfg db serial now p = some (new, p')) :
    Redeems cfg (writes ++ new) p' := by
  have hselect : some (([] : List Write), RefreshTokens.select cfg db p) = some (new, p') →
      Redeems cfg (writes ++ new) p' := by
    intro heq
    obtain ⟨rfl, rfl⟩ := Prod.mk.inj (Option.some.inj heq)
    rw [List.append_nil]
    exact redeems_select cfg db writes p h
  cases p with
  | consumeCode req arrived =>
    obtain rfl := hbegins rfl
    simp only [RefreshTokens.statement, Option.some.injEq] at hstatement
    split_ifs at hstatement <;> obtain ⟨rfl, rfl⟩ := Prod.mk.inj hstatement
    · exact rfl
    · trivial
  | touch session x grant =>
    obtain ⟨rfl, rfl⟩ := Prod.mk.inj (Option.some.inj hstatement)
    exact paid_append cfg writes _ grant rfl h
  | mint session x grant =>
    cases grant with
    | code req row arrived =>
      simp only [RefreshTokens.statement, RefreshTokens.mintRows] at hstatement
      split_ifs at hstatement
      obtain ⟨rfl, rfl⟩ := Prod.mk.inj (Option.some.inj hstatement)
      exact paid_append cfg writes _ (.code req row arrived) rfl h
    | refresh req row arrived =>
      simp only [RefreshTokens.statement, RefreshTokens.mintRows] at hstatement
      split_ifs at hstatement
      obtain ⟨rfl, rfl⟩ := Prod.mk.inj (Option.some.inj hstatement)
      trivial
  | close rest =>
    obtain ⟨rfl, rfl⟩ := Prod.mk.inj (Option.some.inj hstatement)
    trivial
  | _ => exact hselect hstatement

theorem redeems_answer (cfg : Config) (writes : List Write) (p : Point) (r : RefreshTokens.Answer)
    (hanswer : p.answer = some r) (h : Redeems cfg writes p) :
    (exchanges [r]).Sublist (spendings (changes writes)) := by
  cases p with
  | issued hash now token =>
    obtain rfl := Option.some.inj hanswer
    rw [Redeems] at h
    rw [h]
    exact List.Sublist.refl _
  | refreshed row token =>
    obtain rfl := Option.some.inj hanswer
    exact List.nil_sublist _
  | close rest =>
    cases rest with
    | answer c =>
      obtain rfl := Option.some.inj hanswer
      exact List.nil_sublist _
    | _ => cases hanswer
  | _ => cases hanswer

/-! ### Replays -/

/-- Every token of the session is revoked by the writes, or was before them. -/
def Cleared (db : Db) (writes : List Write) (session : ℕ) : Prop :=
  ∀ row ∈ db.tokens, row.session = session → row.revokedAt.isSome ∨ Revokes writes row.id

/-- The tokens of the session are revoked by the end of the request. -/
def Due (db : Db) (writes : List Write) (session : ℕ) : Tail → Prop
  | .revokeTokens scope next => scope = .session session ∨ Due db writes session next
  | .markRevoked ids next =>
    (∀ row ∈ db.tokens, row.session = session →
      (row.revokedAt.isSome ∨ Revokes writes row.id) ∨ row.id ∈ ids) ∨ Due db writes session next
  | .sessionOf _ next => Due db writes session next
  | .revokeSession _ next => Due db writes session next
  | .write _ next => Due db writes session next
  | .answer _ => Cleared db writes session

theorem revokes_append (left right : List Write) (id : ℕ) :
    Revokes (left ++ right) id ↔ Revokes left id ∨ Revokes right id := by
  simp only [Revokes, List.mem_append, exists_or]

theorem due_of_cleared (db : Db) (writes : List Write) (session : ℕ) (rest : Tail)
    (h : Cleared db writes session) : Due db writes session rest := by
  induction rest with
  | revokeTokens scope next ih => exact Or.inr ih
  | markRevoked ids next ih => exact Or.inr ih
  | sessionOf other next ih => exact ih
  | revokeSession other next ih => exact ih
  | write w next ih => exact ih
  | answer c => exact h

theorem due_append (db : Db) (writes new : List Write) (session : ℕ) (rest : Tail)
    (h : Due db writes session rest) : Due db (writes ++ new) session rest := by
  have hmore : ∀ id, Revokes writes id → Revokes (writes ++ new) id := fun id hid =>
    (revokes_append writes new id).mpr (Or.inl hid)
  induction rest with
  | revokeTokens scope next ih => exact h.imp_right ih
  | markRevoked ids next ih =>
    refine h.imp (fun hall row hrow hsession => ?_) ih
    exact (hall row hrow hsession).imp_left fun hdone => hdone.imp_right (hmore row.id)
  | sessionOf other next ih => exact ih h
  | revokeSession other next ih => exact ih h
  | write w next ih => exact ih h
  | answer c => exact fun row hrow hsession => (h row hrow hsession).imp_right (hmore row.id)

/-- A token that is still to be revoked is seen by the statements. -/
theorem seen_live (db : Db) (writes : List Write) (row : RefreshTokens.RefreshToken)
    (hrow : row ∈ db.tokens) (h : ¬ (row.revokedAt.isSome ∨ Revokes writes row.id)) :
    ∃ seen ∈ (writes.foldl RefreshTokens.apply db).tokens,
      seen.id = row.id ∧ seen.session = row.session ∧ seen.revokedAt.isNone := by
  refine ⟨touchedAll writes row, token_image writes db row hrow, touchedAll_id writes row,
    touchedAll_session writes row, ?_⟩
  have hnot := mt (touchedAll_revoked writes row).mp h
  simpa using hnot

/-- A statement of the closing part brings the revocation of the tokens nearer. -/
theorem due_statement (db : Db) (writes : List Write) (now : ℤ) (session : ℕ) (rest : Tail)
    (h : Due db writes session rest) :
    Due db (writes ++ (rest.statement (writes.foldl RefreshTokens.apply db) now).1) session
      (rest.statement (writes.foldl RefreshTokens.apply db) now).2 := by
  cases rest with
  | revokeTokens scope next =>
    simp only [Tail.statement, List.append_nil]
    refine h.imp_left ?_
    rintro rfl row hrow hsession
    by_cases hdone : row.revokedAt.isSome ∨ Revokes writes row.id
    · exact Or.inl hdone
    · obtain ⟨seen, hseen, hid, hsame, hnone⟩ := seen_live db writes row hrow hdone
      refine Or.inr (List.mem_map.mpr ⟨seen, List.mem_filter.mpr ⟨hseen, ?_⟩, hid⟩)
      simp only [RefreshTokens.Scope.covers, hsame, hsession, hnone, beq_self_eq_true,
        Bool.and_self]
  | markRevoked ids next =>
    rcases h with hall | h
    · refine due_of_cleared _ _ _ _ fun row hrow hsession => ?_
      rw [revokes_append]
      by_cases hdone : row.revokedAt.isSome ∨ Revokes writes row.id
      · exact hdone.imp_right Or.inl
      · obtain ⟨seen, hseen, hid, -, hnone⟩ := seen_live db writes row hrow hdone
        have hmem := (hall row hrow hsession).resolve_left hdone
        refine Or.inr (Or.inr ⟨now, List.mem_map.mpr ⟨row.id, List.mem_filter.mpr ⟨hmem, ?_⟩, rfl⟩⟩)
        refine List.any_eq_true.mpr ⟨seen, hseen, ?_⟩
        simp only [hid, hnone, beq_self_eq_true, Bool.and_self]
    · exact due_append db writes _ session next h
  | sessionOf other next =>
    simp only [Tail.statement]
    split
    · exact due_append db writes _ session next h
    · split_ifs
      · exact due_append db writes _ session next h
      · exact due_append db writes _ session next h
  | revokeSession other next => exact due_append db writes _ session next h
  | write w next => exact due_append db writes _ session next h
  | answer c => exact due_append db writes [] session (.answer c) h

/-- Tokens of the session after another transaction that adds none to it. -/
theorem token_before (db : Db) (others : List Write) (session : ℕ)
    (h : session ∉ addedSessions others) (row : RefreshTokens.RefreshToken)
    (hrow : row ∈ (others.foldl RefreshTokens.apply db).tokens) (hsession : row.session = session) :
    ∃ old ∈ db.tokens, touchedAll others old = row := by
  rcases token_origin others db row hrow with hold | ⟨added, hadded, hsame⟩
  · exact hold
  · refine absurd (List.mem_filterMap.mpr ⟨_, hadded, ?_⟩) h
    rw [← hsession, ← hsame]

theorem done_keeps (others writes : List Write) (old : RefreshTokens.RefreshToken)
    (h : old.revokedAt.isSome ∨ Revokes writes old.id) :
    (touchedAll others old).revokedAt.isSome ∨ Revokes writes (touchedAll others old).id := by
  rw [touchedAll_id]
  exact h.imp_left fun hrevoked => (touchedAll_revoked others old).mpr (Or.inl hrevoked)

/-- The commit of a transaction that adds no token to the session. -/
theorem due_others (db : Db) (others writes : List Write) (session : ℕ) (rest : Tail)
    (hadded : session ∉ addedSessions others) (h : Due db writes session rest) :
    Due (others.foldl RefreshTokens.apply db) writes session rest := by
  induction rest with
  | revokeTokens scope next ih => exact h.imp_right ih
  | markRevoked ids next ih =>
    refine h.imp (fun hall row hrow hsession => ?_) ih
    obtain ⟨old, hold, rfl⟩ := token_before db others session hadded row hrow hsession
    rw [touchedAll_session] at hsession
    refine (hall old hold hsession).imp (done_keeps others writes old) fun hmem => ?_
    rwa [touchedAll_id]
  | sessionOf other next ih => exact ih h
  | revokeSession other next ih => exact ih h
  | write w next ih => exact ih h
  | answer c =>
    intro row hrow hsession
    obtain ⟨old, hold, rfl⟩ := token_before db others session hadded row hrow hsession
    rw [touchedAll_session] at hsession
    exact done_keeps others writes old (h old hold hsession)

/-- A session whose tokens are revoked stays so. -/
theorem revoked_others (db : Db) (others : List Write) (session : ℕ)
    (hadded : session ∉ addedSessions others) (hrevoked : Revoked db session)
    (hall : AllRevoked db session) :
    Revoked (others.foldl RefreshTokens.apply db) session ∧
      AllRevoked (others.foldl RefreshTokens.apply db) session := by
  refine ⟨RefreshLedger.revoked_keeps_all others _ session hrevoked, fun row hrow hsession => ?_⟩
  obtain ⟨old, hold, rfl⟩ := token_before db others session hadded row hrow hsession
  rw [touchedAll_session] at hsession
  exact (touchedAll_revoked others old).mpr (Or.inl (hall old hold hsession))

/-- How far a transaction has come with a code that was presented again. -/
def Stage (cfg : Config) (db : Db) (writes : List Write) (session : ℕ) : Point → Prop
  | .findConsumed req => writes = [] ∧ ∃ row ∈ db.codes,
      row.codeHash = cfg.sha256Hex req.code ∧ row.consumedAt.isSome ∧ row.session = session
  | .replayed other => writes = [] ∧ other = session
  | .close rest => (∀ w ∈ writes, Quiet w) ∧ Due db writes session rest ∧
      Pending (writes.foldl RefreshTokens.apply db) session rest
  | _ => False

theorem stage_statement (cfg : Config) (db : Db) (log : List (List Char × ℤ)) (serial : ℕ) (now : ℤ)
    (writes new : List Write) (session : ℕ) (p p' : Point) (hspent : Spent codeTable db.codes log)
    (hknown : Known db session) (h : Stage cfg db writes session p)
    (hstatement : RefreshTokens.statement cfg (writes.foldl RefreshTokens.apply db) serial now p =
      some (new, p')) : Stage cfg db (writes ++ new) session p' := by
  cases p with
  | findConsumed req =>
    obtain ⟨rfl, row, hrow, hhash, hconsumed, rfl⟩ := h
    refine ReadCommitted.read_only (fun ws q => Stage cfg db ws row.session q) hstatement ?_
    have hfind := find_code db.codes log row hspent hrow
    simp only [RefreshTokens.select, List.foldl_nil, ← hhash, hfind, hconsumed, if_true]
    exact ⟨rfl, rfl⟩
  | replayed other =>
    obtain ⟨rfl, rfl⟩ := h
    obtain ⟨x, hx⟩ := Option.isSome_iff_exists.mp hknown
    refine ReadCommitted.read_only (fun ws q => Stage cfg db ws other q) hstatement ?_
    simp only [RefreshTokens.select, List.foldl_nil, hx]
    refine ⟨fun _ hw => (by cases hw), Or.inl rfl, ?_⟩
    simp only [Pending, List.foldl_nil]
    split_ifs with hrevoked
    · exact ⟨x, hx, hrevoked⟩
    · exact Or.inl rfl
  | close rest =>
    obtain ⟨hquiet, hdue, hpending⟩ := h
    refine ReadCommitted.written (fun ws q => Stage cfg db ws session q) hstatement ⟨?_, ?_, ?_⟩
    · exact RefreshInvariant.quiet_append _ _ hquiet (RefreshInvariant.quiet_statement _ now rest)
    · exact due_statement db writes now session rest hdue
    · rw [List.foldl_append]
      exact RefreshInvariant.pending_statement _ now session rest
        (RefreshLedger.known_keeps_all writes db session hknown) hpending
  | _ => exact h.elim

theorem stage_commit (cfg : Config) (db : Db) (log : List (List Char × ℤ))
    (others writes : List Write) (session : ℕ) (p : Point) (hspent : Spent codeTable db.codes log)
    (hready : Ready codeTable db.codes (changes others))
    (hjoins : session ∈ addedSessions others → looking session p = true)
    (h : Stage cfg db writes session p) :
    Stage cfg (others.foldl RefreshTokens.apply db) writes session p := by
  cases p with
  | findConsumed req =>
    obtain ⟨hnil, row, hrow, hhash, hconsumed, hsession⟩ := h
    refine ⟨hnil, row, ?_, hhash, hconsumed, hsession⟩
    rw [codes_foldl]
    exact consumed_keeps db.codes log (changes others) row hspent hready hrow hconsumed
  | replayed other => exact h
  | close rest =>
    obtain ⟨hquiet, hdue, hpending⟩ := h
    refine ⟨hquiet, ?_, ?_⟩
    · by_cases hadded : session ∈ addedSessions others
      · have hlooking := hjoins hadded
        cases rest with
        | revokeTokens scope next => exact Or.inl (of_decide_eq_true hlooking)
        | _ => cases hlooking
      · exact due_others db others writes session rest hadded hdue
    · have hbelow := RefreshLedger.below_foldl writes _ _
        (RefreshLedger.below_self_foldl others db)
      exact RefreshInvariant.pending_mono _ _ session rest (hbelow.revoked session) hpending
  | _ => exact h.elim

/-- A replay that is answered has revoked the session and its tokens. -/
theorem stage_answered (cfg : Config) (db : Db) (writes : List Write) (session : ℕ) (p : Point)
    (hanswer : p.answer.isSome) (h : Stage cfg db writes session p) :
    Revoked (writes.foldl RefreshTokens.apply db) session ∧
      AllRevoked (writes.foldl RefreshTokens.apply db) session := by
  cases p with
  | close rest =>
    cases rest with
    | answer c =>
      obtain ⟨hquiet, hcleared, hrevoked⟩ := h
      refine ⟨hrevoked, fun row hrow hsession => ?_⟩
      rcases token_origin writes db row hrow with ⟨old, hold, rfl⟩ | ⟨added, hadded, -⟩
      · rw [touchedAll_session] at hsession
        exact (touchedAll_revoked writes old).mpr (hcleared old hold hsession)
      · exact (hquiet _ hadded).elim
    | _ => cases hanswer
  | issued hash now token => exact h.elim
  | refreshed row token => exact h.elim
  | _ => cases hanswer

end Hyproxy.CodeReplay

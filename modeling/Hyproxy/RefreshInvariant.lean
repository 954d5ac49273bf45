import Hyproxy.RefreshLedger

/-!
What holds of the open transactions of the token endpoint. A refresh grant holds
a token from the moment at which it found it unused until its transaction ends;
the token is in the ledger, unused. A request that presented a used token has
revoked the session of its family by the time it answers.
-/

namespace Hyproxy.RefreshInvariant

open ReadCommitted RefreshLedger RefreshTokens TokenFamilies

def refreshRow : Grant → Option RefreshToken
  | .code _ _ _ => none
  | .refresh _ row _ => some row

/-- The token that a transaction has found unused and is about to exchange. -/
def held : Point → Option RefreshToken
  | .liveSession _ g => refreshRow g
  | .touch _ _ g => refreshRow g
  | .getUser _ _ g => refreshRow g
  | .mint _ _ g => refreshRow g
  | .refreshed row _ => some row
  | _ => none

/-- The used token that a request presented. -/
def reused : Closing → Option RefreshToken
  | .refresh (some row) _ => if row.usedAt.isSome then some row else none
  | _ => none

def reusedBy : Answer → Option RefreshToken
  | .closed c => reused c
  | _ => none

def acceptedBy : Answer → Option RefreshToken
  | .refreshed row _ => some row
  | _ => none

/-- No other open transaction holds a token of this kind. -/
def NoneHeld (s : System) (t : ℕ) (kind : RefreshToken → Prop) : Prop :=
  ∀ y ∈ s.txns, y.id ≠ t → ∀ row ∈ held y.point, ¬ kind row

/-- What the statement of a transaction must find. -/
def Alone (cfg : Config) (s : System) (x : Txn Write Point) : Prop :=
  match x.point with
  | .find req _ =>
    ∀ row ∈ find cfg (x.view (program cfg) s.db) req.token,
      if row.usedAt.isSome then row.clientId = req.clientId
      else NoneHeld s x.id fun other => other.id = row.id
  | _ => True

/-- How a request ends. -/
def closing : Tail → Closing
  | .revokeTokens _ next => closing next
  | .markRevoked _ next => closing next
  | .sessionOf _ next => closing next
  | .revokeSession _ next => closing next
  | .write _ next => closing next
  | .answer c => c

/-- The session is revoked by the end of the request. -/
def Pending (db : Db) (session : ℕ) : Tail → Prop
  | .revokeTokens _ next => Pending db session next
  | .markRevoked _ next => Pending db session next
  | .sessionOf other next => other = session ∨ Pending db session next
  | .revokeSession other next => other = session ∨ Pending db session next
  | .write _ next => Pending db session next
  | .answer _ => Revoked db session

/-- The token is in the ledger, unused. -/
def Unspent (db : Db) (row : RefreshToken) : Prop :=
  row.usedAt = none ∧ ∃ e ∈ ledger db,
    e.id = row.id ∧ e.family = row.family ∧ e.session = row.session ∧ e.used = false

/-- No token of the family was presented after its use. -/
def Clear (answers : List Answer) (family : ℕ) : Prop :=
  ∀ a ∈ answers, ∀ row ∈ reusedBy a, row.family ≠ family

/-- The identifier of a row to be added is new. -/
def Fresh (db : Db) (serial : ℕ) (row : RefreshToken) : Prop :=
  row.id < serial ∧ row.id ∉ (ledger db).map Entry.id

def Exchanges (db : Db) (serial : ℕ) (row : RefreshToken) (writes : List Write) : Prop :=
  ∃ before now child, writes = before ++ [.useToken row.id now, .addToken child] ∧
    (∀ w ∈ before, Quiet w) ∧ Fresh db serial child ∧ child.parent = some row.id ∧
    child.family = row.family ∧ child.session = row.session

def Issues (db : Db) (serial : ℕ) (writes : List Write) : Prop :=
  ∃ before first, writes = before ++ [.addToken first] ∧ (∀ w ∈ before, Quiet w) ∧
    Fresh db serial first ∧ first.family = first.id ∧ first.parent = none ∧
    Known (before.foldl apply db) first.session

/-- What holds of an open transaction at a point, with what it has written. -/
def Stands (db : Db) (serial : ℕ) (answers : List Answer) (writes : List Write) : Point → Prop
  | .liveSession session g => (∀ w ∈ writes, Quiet w) ∧
      ∀ row ∈ refreshRow g, Unspent db row ∧ session = row.session
  | .touch _ _ g | .getUser _ _ g | .mint _ _ g => (∀ w ∈ writes, Quiet w) ∧
      ∀ row ∈ refreshRow g, Unspent db row ∧ Clear answers row.family
  | .refreshed row _ => Unspent db row ∧ Clear answers row.family ∧ Exchanges db serial row writes
  | .issued _ _ _ => Issues db serial writes
  | .close rest => (∀ w ∈ writes, Quiet w) ∧
      ∀ row ∈ reused (closing rest), Pending (writes.foldl apply db) row.session rest ∧
        ∃ e ∈ ledger db, e.family = row.family ∧ e.session = row.session
  | _ => ∀ w ∈ writes, Quiet w

/-- The identifiers of the tokens that the writes add. -/
def added (writes : List Write) : List ℕ :=
  writes.filterMap fun
    | .addToken row => some row.id
    | _ => none

structure Inv (s : System) : Prop where
  linear : Linear (ledger s.db)
  below : ∀ e ∈ ledger s.db, e.id < s.serial
  known : ∀ e ∈ ledger s.db, Known s.db e.session
  stands : ∀ x ∈ s.txns, Stands s.db s.serial s.answers x.writes x.point
  apart : ∀ x ∈ s.txns, ∀ y ∈ s.txns, x.id ≠ y.id →
    ∀ row ∈ held x.point, ∀ row' ∈ held y.point, row.id ≠ row'.id
  fresh : ∀ x ∈ s.txns, ∀ y ∈ s.txns, x.id ≠ y.id → ∀ id ∈ added x.writes, id ∉ added y.writes
  revoked : ∀ a ∈ s.answers, ∀ row ∈ reusedBy a, (∃ e ∈ ledger s.db, e.family = row.family) ∧
    ∀ e ∈ ledger s.db, e.family = row.family → Revoked s.db e.session
  ordered : s.answers.Pairwise fun earlier later =>
    ∀ row ∈ reusedBy earlier, ∀ row' ∈ acceptedBy later, row.family ≠ row'.family

theorem quiet_append (left right : List Write) (hleft : ∀ w ∈ left, Quiet w)
    (hright : ∀ w ∈ right, Quiet w) : ∀ w ∈ left ++ right, Quiet w :=
  List.forall_mem_append.mpr ⟨hleft, hright⟩

theorem added_quiet (writes : List Write) (h : ∀ w ∈ writes, Quiet w) : added writes = [] := by
  rw [added, List.filterMap_eq_nil_iff]
  intro w hw
  cases w with
  | addToken row => exact (h _ hw).elim
  | _ => rfl

theorem added_append (left right : List Write) :
    added (left ++ right) = added left ++ added right := by
  simp only [added, List.filterMap_append]

theorem pending_revoked (db : Db) (session : ℕ) (rest : Tail) (h : Revoked db session) :
    Pending db session rest := by
  induction rest with
  | answer c => exact h
  | sessionOf other next ih => exact Or.inr ih
  | revokeSession other next ih => exact Or.inr ih
  | revokeTokens scope next ih => exact ih
  | markRevoked ids next ih => exact ih
  | write w next ih => exact ih

theorem pending_mono (db db' : Db) (session : ℕ) (rest : Tail)
    (hrevoked : Revoked db session → Revoked db' session) (h : Pending db session rest) :
    Pending db' session rest := by
  induction rest with
  | answer c => exact hrevoked h
  | sessionOf other next ih => exact h.imp id ih
  | revokeSession other next ih => exact h.imp id ih
  | revokeTokens scope next ih => exact ih h
  | markRevoked ids next ih => exact ih h
  | write w next ih => exact ih h

theorem closing_statement (db : Db) (now : ℤ) (rest : Tail) :
    closing (rest.statement db now).2 = closing rest := by
  cases rest with
  | sessionOf session next =>
    simp only [Tail.statement]
    split
    · rfl
    · simp only [closing]
      split_ifs <;> rfl
  | _ => rfl

theorem quiet_statement (db : Db) (now : ℤ) (rest : Tail) :
    ∀ w ∈ (rest.statement db now).1, Quiet w := by
  cases rest with
  | markRevoked ids next =>
    intro w hw
    obtain ⟨id, _, rfl⟩ := List.mem_map.mp hw
    trivial
  | sessionOf session next =>
    simp only [Tail.statement]
    split <;> simp
  | revokeSession session next => simp [Tail.statement, Quiet]
  | write w next => simp [Tail.statement, Quiet]
  | _ => simp [Tail.statement]

/-- A statement of the closing part brings the revocation of the session nearer. -/
theorem pending_statement (db : Db) (now : ℤ) (session : ℕ) (rest : Tail)
    (hknown : Known db session) (h : Pending db session rest) :
    Pending ((rest.statement db now).1.foldl apply db) session (rest.statement db now).2 := by
  cases rest with
  | revokeTokens scope next => exact h
  | markRevoked ids next => exact pending_mono db _ session next (revoked_keeps_all _ db session) h
  | sessionOf other next =>
    rcases h with rfl | h
    · obtain ⟨x, hx⟩ := Option.isSome_iff_exists.mp hknown
      simp only [Tail.statement, hx, List.foldl_nil]
      split_ifs with hrevoked
      · exact pending_revoked db other next ⟨x, hx, hrevoked⟩
      · exact Or.inl rfl
    · simp only [Tail.statement]
      split
      · exact h
      · simp only [List.foldl_nil]
        split_ifs
        · exact h
        · exact Or.inr h
  | revokeSession other next =>
    rcases h with rfl | h
    · exact pending_revoked _ _ next ((revoked_revoke db other other now).mpr (Or.inl ⟨rfl, hknown⟩))
    · exact pending_mono db _ session next (revoked_keeps_all _ db session) h
  | write w next => exact pending_mono db _ session next (revoked_keeps_all _ db session) h
  | answer c => exact h

theorem stands_refuse (db : Db) (serial : ℕ) (answers : List Answer) (writes : List Write)
    (c : Closing) (hquiet : ∀ w ∈ writes, Quiet w) (hc : reused c = none) :
    Stands db serial answers writes (refuse c) := by
  refine ⟨hquiet, fun row hrow => ?_⟩
  rw [closing, hc] at hrow
  cases hrow

theorem reused_unused (row : RefreshToken) (e : OAuthError) (h : row.usedAt = none) :
    reused (.refresh (some row) e) = none := by
  simp [reused, h]

theorem reused_refused (g : Grant) (h : ∀ row ∈ refreshRow g, row.usedAt = none) :
    reused g.refused = none := by
  cases g with
  | code req row now => rfl
  | refresh req row now => exact reused_unused row _ (h row rfl)

theorem liveness_revoked (cfg : Config) (x : Accounts.Session) (now : ℤ)
    (h : x.revokedAt.isSome) : liveness cfg x now = .dead := by
  simp [liveness, h]

theorem find_mem (cfg : Config) (db : Db) (token : List Char) (row : RefreshToken)
    (h : find cfg db token = some row) : entry row ∈ ledger db :=
  List.mem_map_of_mem (List.mem_of_find?_eq_some h)

theorem stands_found (db : Db) (serial : ℕ) (answers : List Answer) (req : RefreshRequest)
    (row : RefreshToken) (now : ℤ) (writes : List Write) (hquiet : ∀ w ∈ writes, Quiet w)
    (hmem : entry row ∈ ledger db) (hclient : row.usedAt.isSome → row.clientId = req.clientId) :
    Stands db serial answers writes (found req row now) := by
  simp only [found]
  by_cases hused : row.usedAt.isSome
  · rw [if_neg (not_not.mpr (hclient hused)), if_pos hused]
    refine ⟨hquiet, fun row' hrow' => ?_⟩
    have hrow : row' = row := by simpa [closing, reused, hused] using hrow'.symm
    subst hrow
    exact ⟨Or.inl rfl, entry row', hmem, rfl, rfl⟩
  · have hnone : row.usedAt = none := by simpa using hused
    have hrefuse : Stands db serial answers writes (refuse (.refresh (some row) .invalidGrant)) :=
      stands_refuse db serial answers writes _ hquiet (reused_unused row _ hnone)
    rw [if_neg hused]
    split_ifs
    · exact hrefuse
    · exact hrefuse
    · exact hrefuse
    · refine ⟨hquiet, fun row' hrow' => ?_⟩
      obtain rfl : row = row' := by simpa [refreshRow] using hrow'
      exact ⟨⟨hnone, entry row, hmem, rfl, rfl, rfl, by simp [entry, hnone]⟩, rfl⟩

theorem stands_checked (cfg : Config) (s : System) (writes : List Write) (session : ℕ)
    (x : Accounts.Session) (g : Grant) (hinv : Inv s)
    (hstands : Stands s.db s.serial s.answers writes (.liveSession session g))
    (hx : (writes.foldl apply s.db).sessions.lookup session = some x) :
    Stands s.db (s.serial + 1) s.answers writes (checked cfg session x g) := by
  obtain ⟨hquiet, hrow⟩ := hstands
  have hrefused : reused g.refused = none := reused_refused g fun row h => (hrow row h).1.1
  have hpassed : liveness cfg x g.now ≠ .dead → ∀ row ∈ refreshRow g,
      Unspent s.db row ∧ Clear s.answers row.family := by
    intro hlive row hmem
    obtain ⟨hunspent, rfl⟩ := hrow row hmem
    refine ⟨hunspent, fun a ha other hother heq => hlive ?_⟩
    obtain ⟨_, e, he, _, hfamily, hsession, _⟩ := hunspent
    have hrevoked := (hinv.revoked a ha other hother).2 e he (by rw [hfamily, heq])
    obtain ⟨y, hy, hyrevoked⟩ := revoked_keeps_all writes s.db e.session hrevoked
    rw [hsession, hx, Option.some.injEq] at hy
    exact liveness_revoked cfg x g.now (hy ▸ hyrevoked)
  unfold checked
  cases hlive : liveness cfg x g.now with
  | dead => exact stands_refuse _ _ _ _ _ hquiet hrefused
  | idle =>
    refine ⟨hquiet, fun row hmem => ?_⟩
    simp only [closing, hrefused] at hmem
    cases hmem
  | touch => exact ⟨hquiet, hpassed (by rw [hlive]; decide)⟩
  | live => exact ⟨hquiet, hpassed (by rw [hlive]; decide)⟩

theorem fresh_serial (s : System) (hinv : Inv s) (row : RefreshToken) (hid : row.id = s.serial) :
    Fresh s.db (s.serial + 1) row := by
  refine ⟨by omega, ?_⟩
  intro hmem
  obtain ⟨e, he, heid⟩ := List.mem_map.mp hmem
  have hbelow := hinv.below e he
  omega

theorem stands_mint (cfg : Config) (s : System) (hinv : Inv s) (writes more : List Write)
    (session : ℕ) (x : Accounts.Session) (g : Grant) (p : Point)
    (hstands : Stands s.db s.serial s.answers writes (.mint session x g))
    (h : mintRows cfg (writes.foldl apply s.db) s.serial session x g = some (more, p)) :
    Stands s.db (s.serial + 1) s.answers (writes ++ more) p := by
  obtain ⟨hquiet, hrow⟩ := hstands
  cases g with
  | code req row now =>
    simp only [mintRows] at h
    split_ifs at h with hraise
    obtain ⟨rfl, rfl⟩ := Prod.mk.inj (Option.some.inj h)
    have hknown : Known (writes.foldl apply s.db) session := by
      rw [Bool.or_eq_true, not_or, Option.isNone_iff_eq_none] at hraise
      exact Option.isSome_iff_ne_none.mpr hraise.2
    exact ⟨writes, firstToken cfg s.serial session x req row now, rfl, hquiet,
      fresh_serial s hinv _ rfl, rfl, rfl, hknown⟩
  | refresh req row now =>
    simp only [mintRows] at h
    split_ifs at h
    obtain ⟨rfl, rfl⟩ := Prod.mk.inj (Option.some.inj h)
    obtain ⟨hunspent, hclear⟩ := hrow row rfl
    exact ⟨hunspent, hclear, writes, now, childToken cfg s.serial req row now, rfl, hquiet,
      fresh_serial s hinv _ rfl, rfl, rfl, rfl⟩

/-- The points at which nothing is asked of a transaction but quiet writes. -/
def plain : Point → Bool
  | .consumeCode _ _ | .getCode _ _ | .findConsumed _ | .replayed _ | .find _ _
  | .findRevoked _ _ | .userSessions _ _ => true
  | _ => false

theorem stands_close (db : Db) (serial : ℕ) (answers : List Answer) (writes : List Write)
    (rest : Tail) (hquiet : ∀ w ∈ writes, Quiet w) (hrest : reused (closing rest) = none) :
    Stands db serial answers writes (.close rest) := by
  refine ⟨hquiet, fun row hrow => ?_⟩
  rw [hrest] at hrow
  cases hrow

theorem closing_sessions (rows : List (ℕ × Accounts.Session)) :
    closing (rows.foldr
      (fun e next => .revokeTokens (.session e.1) (.revokeSession e.1 next)) (.answer .done)) =
      .done := by
  induction rows with
  | nil => rfl
  | cons e rows ih => exact ih

theorem closing_writes (writes : List OtherWrite) :
    closing (writes.foldr Tail.write (.answer .done)) = .done := by
  induction writes with
  | nil => rfl
  | cons w writes ih => exact ih

theorem stands_consumed (cfg : Config) (db : Db) (serial : ℕ) (answers : List Answer)
    (writes : List Write) (req : CodeRequest) (row : AuthCode) (now : ℤ)
    (hquiet : ∀ w ∈ writes, Quiet w) :
    Stands db serial answers writes (consumed cfg req row now) := by
  have hrefuse := stands_refuse db serial answers writes (.code .invalidGrant) hquiet rfl
  unfold consumed
  split_ifs
  · exact hrefuse
  · exact hrefuse
  · exact hrefuse
  · exact ⟨hquiet, fun row' hrow' => by cases hrow'⟩

/-- A statement that only reads. -/
theorem stands_select (cfg : Config) (s : System) (x : Txn Write Point)
    (halone : Alone cfg s x) (hplain : plain x.point = true)
    (hquiet : ∀ w ∈ x.writes, Quiet w) :
    Stands s.db (s.serial + 1) s.answers x.writes
      (select cfg (x.writes.foldl apply s.db) x.point) := by
  obtain ⟨t, p, writes⟩ := x
  simp only at hplain hquiet ⊢
  have hrefuse := fun c hc => stands_refuse s.db (s.serial + 1) s.answers writes c hquiet hc
  cases p with
  | consumeCode req now => exact hquiet
  | getCode req now =>
    simp only [select]
    split
    · exact hquiet
    · exact stands_consumed cfg _ _ _ _ req _ now hquiet
  | findConsumed req =>
    simp only [select]
    split
    · exact hrefuse _ rfl
    · split_ifs
      · exact hquiet
      · exact hrefuse _ rfl
  | replayed session =>
    simp only [select]
    split
    · exact hrefuse _ rfl
    · refine stands_close _ _ _ _ _ hquiet ?_
      split_ifs <;> rfl
  | find req now =>
    simp only [select]
    split
    · exact hrefuse _ rfl
    · rename_i row hfind
      have hmem := find_mem cfg _ req.token row hfind
      rw [ledger_quiet_all writes s.db hquiet] at hmem
      refine stands_found _ _ _ req row now writes hquiet hmem fun hused => ?_
      have hclient := halone row hfind
      rwa [if_pos hused] at hclient
  | findRevoked jkt token =>
    simp only [select]
    split
    · exact hrefuse _ rfl
    · split_ifs
      · exact stands_close _ _ _ _ _ hquiet rfl
      · exact hrefuse _ rfl
  | userSessions user except =>
    refine stands_close _ _ _ _ _ hquiet ?_
    rw [closing_sessions]
    rfl
  | _ => cases hplain

theorem stands_statement (cfg : Config) (s : System) (x : Txn Write Point) (now : ℤ)
    (more : List Write) (p : Point) (hinv : Inv s) (hmem : x ∈ s.txns) (halone : Alone cfg s x)
    (hanswer : x.point.answer = none)
    (h : statement cfg (x.writes.foldl apply s.db) s.serial now x.point = some (more, p)) :
    Stands s.db (s.serial + 1) s.answers (x.writes ++ more) p := by
  have hstands := hinv.stands x hmem
  by_cases hplain : plain x.point = true
  · have hquiet : ∀ w ∈ x.writes, Quiet w := by
      revert hstands hplain
      cases x.point <;> simp [plain, Stands]
    by_cases hcode : ∃ req arrived, x.point = .consumeCode req arrived
    · obtain ⟨req, arrived, hpoint⟩ := hcode
      rw [hpoint, statement, Option.some.injEq] at h
      split_ifs at h
      · obtain ⟨rfl, rfl⟩ := Prod.mk.inj h
        exact quiet_append _ _ hquiet (by simp [Quiet])
      · obtain ⟨rfl, rfl⟩ := Prod.mk.inj h
        exact quiet_append _ _ hquiet (by simp)
    · have hselect : some (([] : List Write), select cfg (x.writes.foldl apply s.db) x.point) =
          some (more, p) := by
        rw [← h]
        revert hplain hcode
        cases x.point <;> simp [plain, statement]
      obtain ⟨rfl, rfl⟩ := Prod.mk.inj (Option.some.inj hselect)
      rw [List.append_nil]
      exact stands_select cfg s x halone hplain hquiet
  · obtain ⟨t, point, writes⟩ := x
    simp only at h hstands hplain hanswer ⊢
    cases point with
    | liveSession session g =>
      obtain ⟨rfl, rfl⟩ := Prod.mk.inj (Option.some.inj h)
      rw [List.append_nil]
      simp only [select]
      split
      · exact stands_refuse _ _ _ _ _ hstands.1
          (reused_refused g fun row hrow => (hstands.2 row hrow).1.1)
      · rename_i y hy
        exact stands_checked cfg s writes session y g hinv hstands hy
    | touch session y g =>
      obtain ⟨rfl, rfl⟩ := Prod.mk.inj (Option.some.inj h)
      exact ⟨quiet_append _ _ hstands.1 (by simp [Quiet]), hstands.2⟩
    | getUser session y g =>
      obtain ⟨rfl, rfl⟩ := Prod.mk.inj (Option.some.inj h)
      rw [List.append_nil]
      have hrefuse := stands_refuse s.db (s.serial + 1) s.answers writes g.refused hstands.1
        (reused_refused g fun row hrow => (hstands.2 row hrow).1.1)
      simp only [select]
      split
      · exact hrefuse
      · split_ifs
        · exact hstands
        · exact hrefuse
    | mint session y g => exact stands_mint cfg s hinv writes more session y g p hstands h
    | issued hash now token => cases hanswer
    | refreshed row token => cases hanswer
    | close rest =>
      obtain ⟨rfl, rfl⟩ := Prod.mk.inj (Option.some.inj h)
      refine ⟨quiet_append _ _ hstands.1 (quiet_statement _ now rest), fun row hrow => ?_⟩
      rw [closing_statement] at hrow
      obtain ⟨hpending, e, he, hfamily, hsession⟩ := hstands.2 row hrow
      have hknown := known_keeps_all writes s.db _ (hinv.known e he)
      rw [hsession] at hknown
      rw [List.foldl_append]
      exact ⟨pending_statement _ now row.session rest hknown hpending, e, he, hfamily, hsession⟩
    | _ => exact absurd rfl hplain

theorem held_found (req : RefreshRequest) (row other : RefreshToken) (now : ℤ)
    (h : other ∈ held (found req row now)) : other = row ∧ ¬ row.usedAt.isSome := by
  simp only [found] at h
  split_ifs at h with _ hused
  all_goals first | (cases h; done) | skip
  exact ⟨(Option.some.inj h).symm, hused⟩

theorem held_consumed (cfg : Config) (req : CodeRequest) (row : AuthCode) (now : ℤ) :
    held (consumed cfg req row now) = none := by
  unfold consumed
  split_ifs <;> rfl

theorem held_checked (cfg : Config) (session : ℕ) (x : Accounts.Session) (g : Grant)
    (row : RefreshToken) (h : row ∈ held (checked cfg session x g)) : row ∈ refreshRow g := by
  unfold checked at h
  split at h
  · cases h
  · cases h
  · exact h
  · exact h

theorem held_select (cfg : Config) (db : Db) (point : Point) (row : RefreshToken)
    (hrow : row ∈ held (select cfg db point)) :
    row ∈ held point ∨
      ∃ req arrived, point = .find req arrived ∧ find cfg db req.token = some row ∧
        ¬ row.usedAt.isSome := by
  cases point with
  | getCode req now =>
    simp only [select] at hrow
    split at hrow
    · cases hrow
    · rw [held_consumed] at hrow
      cases hrow
  | findConsumed req =>
    simp only [select] at hrow
    split at hrow
    · cases hrow
    · split_ifs at hrow <;> cases hrow
  | replayed session =>
    simp only [select] at hrow
    split at hrow <;> cases hrow
  | find req now =>
    simp only [select] at hrow
    split at hrow
    · cases hrow
    · rename_i other hfind
      obtain ⟨rfl, hunused⟩ := held_found req other row now hrow
      exact Or.inr ⟨req, now, rfl, hfind, hunused⟩
  | findRevoked jkt token =>
    simp only [select] at hrow
    split at hrow
    · cases hrow
    · split_ifs at hrow <;> cases hrow
  | liveSession session g =>
    simp only [select] at hrow
    split at hrow
    · cases hrow
    · exact Or.inl (held_checked cfg session _ g row hrow)
  | getUser session x g =>
    simp only [select] at hrow
    split at hrow
    · cases hrow
    · split_ifs at hrow
      · exact Or.inl hrow
      · cases hrow
  | _ => exact Or.inl hrow

/-- A statement takes hold of a token only where it finds it. -/
theorem held_statement (cfg : Config) (db : Db) (serial : ℕ) (now : ℤ) (point p : Point)
    (more : List Write) (h : statement cfg db serial now point = some (more, p))
    (row : RefreshToken) (hrow : row ∈ held p) :
    row ∈ held point ∨
      ∃ req arrived, point = .find req arrived ∧ find cfg db req.token = some row ∧
        ¬ row.usedAt.isSome := by
  have hselect : some (([] : List Write), select cfg db point) = some (more, p) →
      row ∈ held (select cfg db point) := by
    intro heq
    rwa [(Prod.mk.inj (Option.some.inj heq)).2]
  cases point with
  | consumeCode req arrived =>
    rw [statement, Option.some.injEq] at h
    split_ifs at h <;> obtain ⟨rfl, rfl⟩ := Prod.mk.inj h <;> cases hrow
  | touch session x g =>
    obtain ⟨rfl, rfl⟩ := Prod.mk.inj (Option.some.inj h)
    exact Or.inl hrow
  | mint session x g =>
    cases g with
    | code req code arrived =>
      simp only [statement, mintRows] at h
      split_ifs at h
      obtain ⟨rfl, rfl⟩ := Prod.mk.inj (Option.some.inj h)
      cases hrow
    | refresh req old arrived =>
      simp only [statement, mintRows] at h
      split_ifs at h
      obtain ⟨rfl, rfl⟩ := Prod.mk.inj (Option.some.inj h)
      exact Or.inl hrow
  | close rest =>
    obtain ⟨rfl, rfl⟩ := Prod.mk.inj (Option.some.inj h)
    cases hrow
  | _ => exact held_select cfg db _ row (hselect h)

theorem added_statement (cfg : Config) (db : Db) (serial : ℕ) (now : ℤ) (point p : Point)
    (more : List Write) (h : statement cfg db serial now point = some (more, p)) :
    ∀ id ∈ added more, id = serial := by
  intro id hid
  cases point with
  | consumeCode req arrived =>
    rw [statement, Option.some.injEq] at h
    split_ifs at h <;> obtain ⟨rfl, rfl⟩ := Prod.mk.inj h <;> cases hid
  | touch session x g =>
    obtain ⟨rfl, rfl⟩ := Prod.mk.inj (Option.some.inj h)
    cases hid
  | mint session x g =>
    cases g with
    | code req code arrived =>
      simp only [statement, mintRows] at h
      split_ifs at h
      obtain ⟨rfl, rfl⟩ := Prod.mk.inj (Option.some.inj h)
      simpa [added, firstToken] using hid
    | refresh req old arrived =>
      simp only [statement, mintRows] at h
      split_ifs at h
      obtain ⟨rfl, rfl⟩ := Prod.mk.inj (Option.some.inj h)
      simpa [added, childToken] using hid
  | close rest =>
    obtain ⟨rfl, rfl⟩ := Prod.mk.inj (Option.some.inj h)
    rw [added_quiet _ (quiet_statement db now rest)] at hid
    cases hid
  | _ =>
    obtain ⟨rfl, rfl⟩ := Prod.mk.inj (Option.some.inj h)
    cases hid

end Hyproxy.RefreshInvariant

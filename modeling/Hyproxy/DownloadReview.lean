import Hyproxy.Downloads
import Hyproxy.RowDiscipline

/-!
The review of the requests for downloads. Whatever the order of the requests, the status of a row
is decided once, the row is approved exactly when a submission for it has succeeded, and a
submission that fails leaves it pending.
-/
namespace Hyproxy.DownloadReview

open AuditDetails (Detail validateDetail)
open AuditedRequests (uuidText_length)
open Downloads
open OutsideCalls
open RowDiscipline

abbrev Submission := Call ℕ (List (String × Text)) Post

/-- `add_torrent` returned. -/
def Reported (c : Submission) : Prop := addTorrent c.outcome = some (.ok ())

instance : DecidablePred Reported := fun _ => inferInstanceAs (Decidable (_ = _))

/-- `add_torrent` raised a `QbitError`. -/
def Failed (c : Submission) (text : Text) : Prop := addTorrent c.outcome = some (.error text)

/-- The status of a row may change while it is pending. -/
def Moves (old new : Option DownloadRequest) : Prop :=
  ∀ before, old = some before →
    ∃ now, new = some now ∧ (before.status = .pending ∨ now.status = before.status)

/-- What the submissions for a row say of it. -/
def Consistent (row : DownloadRequest) (calls : List Submission) : Prop :=
  (row.submittedAt.isSome = true ↔ row.status = .approved) ∧
    (calls.filter fun c => Reported c).length = if row.status = .approved then 1 else 0

def Settled (row : Option DownloadRequest) (calls : List Submission) : Prop :=
  match row with
  | none => calls.filter (fun c => Reported c) = []
  | some row => Consistent row calls

/-- The row of a transaction that is not decided: nothing has been submitted yet. -/
def Undecided (t : ℕ) (old : Option DownloadRequest) (row : DownloadRequest)
    (calls : List Submission) : Prop :=
  (∀ before, old = some before → before.status = .pending) ∧ Settled old calls ∧
    row.status = .pending ∧ Consistent row calls ∧ ∀ c ∈ calls, c.txn ≠ t

/-- What the transaction leaves of the row. -/
def Verdict (t : ℕ) (old : Option DownloadRequest) (row : DownloadRequest)
    (calls : List Submission) : Prop :=
  Moves old (some row) ∧ Settled old (calls.filter fun c => c.txn != t) ∧ Consistent row calls ∧
    ∀ c ∈ calls, c.txn = t → ∀ text, Failed c text →
      row.status = .pending ∧ row.error = some text

def Held (t : ℕ) (_ : Request) (p : Point) (old : Option DownloadRequest) (mine : DownloadRequest)
    (calls : List Submission) : Prop :=
  match p with
  | .start => False
  | .submit row => row = mine ∧ Undecided t old mine calls
  | .flush row detail _ => validateDetail detail = .ok () ∧ Verdict t old row calls
  | .finish _ => Verdict t old mine calls

theorem entityDetail_short (r : Request) (row : DownloadRequest) :
    ∀ entry ∈ entityDetail r row,
      entry.1 ∈ AuditDetails.allowedDetailKeys ∧ entry.2.short = true := by
  have hid : "entity_id" ∈ AuditDetails.allowedDetailKeys := by decide
  have htarget : "target" ∈ AuditDetails.allowedDetailKeys := by decide
  have huuid : (AuditedRequests.uuidText r.id).length ≤ 256 := by
    rw [uuidText_length]
    omega
  have htext : row.target.text.length ≤ 256 := by cases row.target <;> decide
  intro entry hentry
  simp only [entityDetail, List.mem_cons, List.not_mem_nil, or_false] at hentry
  rcases hentry with rfl | rfl
  · exact ⟨hid, AuditDetails.short_str _ huuid⟩
  · exact ⟨htarget, AuditDetails.short_str _ htext⟩

/-- The text of the failure is cut to the length that the audit trail takes. -/
theorem failureDetail_ok (r : Request) (row : DownloadRequest) (text : Text) :
    validateDetail (entityDetail r row ++ [("reason", .str (text.take 256))]) = .ok () := by
  refine AuditDetails.validateDetail_ok _ fun entry hentry => ?_
  rcases List.mem_append.mp hentry with hold | hnew
  · exact entityDetail_short r row entry hold
  · obtain rfl := List.mem_singleton.mp hnew
    have hreason : "reason" ∈ AuditDetails.allowedDetailKeys := by decide
    exact ⟨hreason, AuditDetails.short_str _ (List.length_take_le _ _)⟩

theorem moves_refl (row : Option DownloadRequest) : Moves row row :=
  fun before h => ⟨before, h, Or.inr rfl⟩

theorem moves_trans (a b c : Option DownloadRequest) (hab : Moves a b) (hbc : Moves b c) :
    Moves a c := by
  intro before hbefore
  obtain ⟨mid, hmid, hmove⟩ := hab before hbefore
  obtain ⟨now, hnow, hmove'⟩ := hbc mid hmid
  refine ⟨now, hnow, ?_⟩
  rcases hmove with hpending | hsame
  · exact Or.inl hpending
  · rw [← hsame]
    exact hmove'

theorem moves_of_pending {old : Option DownloadRequest}
    (h : ∀ before, old = some before → before.status = .pending) (row : DownloadRequest) :
    Moves old (some row) :=
  fun before hbefore => ⟨row, rfl, Or.inl (h before hbefore)⟩

theorem others_eq {t : ℕ} {calls : List Submission} (h : ∀ c ∈ calls, c.txn ≠ t) :
    (calls.filter fun c => c.txn != t) = calls :=
  List.filter_eq_self.mpr fun c hc => bne_iff_ne.mpr (h c hc)

/-- Nothing is decided yet, and only the text of an error is written. -/
theorem Undecided.verdict {t : ℕ} {old : Option DownloadRequest} {row : DownloadRequest}
    {calls : List Submission} (h : Undecided t old row calls) (error : Option Text) :
    Verdict t old { row with error := error } calls := by
  obtain ⟨hold, hsettled, -, hconsistent, hcalls⟩ := h
  refine ⟨moves_of_pending hold _, (others_eq hcalls).symm ▸ hsettled, hconsistent,
    fun c hc hid => ?_⟩
  exact absurd hid (hcalls c hc)

theorem Undecided.submit {t : ℕ} {old : Option DownloadRequest} {row : DownloadRequest}
    {calls : List Submission} (h : Undecided t old row calls) (cfg : Settings) (r : Request) :
    Held t r (submit cfg row) old row calls := by
  unfold Downloads.submit
  split_ifs
  · exact ⟨rfl, h.verdict _⟩
  · exact ⟨rfl, h.verdict _⟩
  · exact ⟨rfl, h⟩

/-- `deny_download` decides without a submission. -/
theorem Undecided.deny {t : ℕ} {old : Option DownloadRequest} {row : DownloadRequest}
    {calls : List Submission} (h : Undecided t old row calls) (r : Request) :
    Held t r (denyRow r row) old row calls := by
  obtain ⟨hold, hsettled, hpending, ⟨hsubmitted, hcount⟩, hcalls⟩ := h
  refine ⟨AuditDetails.validateDetail_ok _ (entityDetail_short r row), moves_of_pending hold _,
    (others_eq hcalls).symm ▸ hsettled, ⟨?_, ?_⟩, fun c hc hid => absurd hid (hcalls c hc)⟩
  · simpa [denied, hpending] using hsubmitted
  · simpa [denied, hpending] using hcount

/-- A submission that fails leaves the row undecided, and one that succeeds approves it. -/
theorem Undecided.submitted {t : ℕ} {old : Option DownloadRequest} {row : DownloadRequest}
    {calls : List Submission} (h : Undecided t old row calls) (r : Request) (c : Submission)
    (hc : c.txn = t) (p : Point) (hp : submitted r row c.outcome = some p) :
    Held t r p old row (calls ++ [c]) := by
  obtain ⟨hold, hsettled, hpending, ⟨hsubmitted, hcount⟩, hcalls⟩ := h
  have hothers : Settled old ((calls ++ [c]).filter fun other => other.txn != t) := by
    rw [List.filter_append, others_eq hcalls, List.filter_eq_nil_iff.mpr (by simp [hc]),
      List.append_nil]
    exact hsettled
  have hown : ∀ other ∈ calls ++ [c], other.txn = t → other = c := by
    intro other hother hid
    rcases List.mem_append.mp hother with hmem | hmem
    · exact absurd hid (hcalls other hmem)
    · exact List.mem_singleton.mp hmem
  unfold Downloads.submitted at hp
  split at hp
  · cases hp
  · rename_i text hfailed
    obtain rfl := Option.some.inj hp
    have hnot : ¬ Reported c := by simp [Reported, hfailed]
    refine ⟨failureDetail_ok r row text, moves_of_pending hold _, hothers,
      ⟨hsubmitted, ?_⟩, fun other hother hid text' htext => ?_⟩
    · simpa [List.filter_append, hnot] using hcount
    · rw [hown other hother hid, Failed, hfailed] at htext
      cases htext
      exact ⟨hpending, rfl⟩
  · rename_i hok
    obtain rfl := Option.some.inj hp
    have hyes : Reported c := hok
    refine ⟨AuditDetails.validateDetail_ok _ (entityDetail_short r row), moves_of_pending hold _,
      hothers, ⟨by simp [approved], ?_⟩, fun other hother hid text' htext => ?_⟩
    · simpa [List.filter_append, hyes, approved, hpending] using hcount
    · rw [hown other hother hid, Failed, hok] at htext
      cases htext

/-- Another exception reports nothing. -/
theorem Undecided.raised {t : ℕ} {old : Option DownloadRequest} {row : DownloadRequest}
    {calls : List Submission} (h : Undecided t old row calls) (r : Request) (c : Submission)
    (hc : Downloads.submitted r row c.outcome = none) : Settled old (calls ++ [c]) := by
  have hnot : ¬ Reported c := by
    intro hreported
    simp [Downloads.submitted, show addTorrent c.outcome = some (.ok ()) from hreported] at hc
  have hsame : (calls ++ [c]).filter (fun c => Reported c) = calls.filter fun c => Reported c := by
    simp [List.filter_append, hnot]
  have hsettled := h.2.1
  cases old with
  | none => exact hsame.trans hsettled
  | some before => exact ⟨hsettled.1, hsame ▸ hsettled.2⟩

theorem held_pendingOrError {t : ℕ} {row : DownloadRequest} {calls : List Submission}
    (r : Request) (next : DownloadRequest → Point) (hsettled : Consistent row calls)
    (hcalls : ∀ c ∈ calls, c.txn ≠ t)
    (hnext : Undecided t (some row) row calls → Held t r (next row) (some row) row calls) :
    Held t r (pendingOrError next (some row)) (some row) row calls := by
  rw [pendingOrError]
  split_ifs with hstatus
  · exact ⟨moves_refl _, (others_eq hcalls).symm ▸ hsettled, hsettled,
      fun c hc hid => absurd hid (hcalls c hc)⟩
  · have hpending : row.status = .pending := not_not.mp hstatus
    refine hnext ⟨?_, hsettled, hpending, hsettled, hcalls⟩
    rintro before ⟨⟩
    exact hpending

theorem undecided_new {t : ℕ} {calls : List Submission} (r : Request) (magnet : Text)
    (target : Target) (createdAt : ℤ) (hsettled : Settled none calls)
    (hcalls : ∀ c ∈ calls, c.txn ≠ t) :
    Undecided t none (newRow r magnet target createdAt) calls := by
  refine ⟨by simp, hsettled, rfl, ⟨by simp [newRow], ?_⟩, hcalls⟩
  rw [Settled] at hsettled
  rw [hsettled]
  rfl

/-- The first statement takes the row, if there is one to take, and goes on with it. -/
inductive First (r : Request) :
    Stand DownloadRequest (List (String × Text)) Post Point Answer → Prop
  | lock (next : Option DownloadRequest → Point) (hmiss : ∃ answer, next none = .finish answer)
      (hfound : ∀ {t row calls}, Consistent row calls → (∀ c ∈ calls, c.txn ≠ t) →
        Held t r (next (some row)) (some row) row calls) : First r (.lock next)
  | insert (row : DownloadRequest) (next : Point)
      (hnew : ∀ {t calls}, Settled none calls → (∀ c ∈ calls, c.txn ≠ t) →
        Held t r next none row calls) : First r (.insert row next)

theorem firstStatement_cases (cfg : Settings) (r : Request) : First r (firstStatement cfg r) := by
  unfold firstStatement
  cases r.operation with
  | create magnet target isAdmin createdAt =>
    refine .insert _ _ fun hsettled hcalls => ?_
    have hnew := undecided_new r magnet target createdAt hsettled hcalls
    split_ifs
    · exact hnew.submit cfg r
    · exact hnew.verdict none
  | approve =>
    refine .lock _ ⟨_, rfl⟩ fun hsettled hcalls => ?_
    exact held_pendingOrError r _ hsettled hcalls fun h => h.submit cfg r
  | deny =>
    refine .lock _ ⟨_, rfl⟩ fun hsettled hcalls => ?_
    exact held_pendingOrError r _ hsettled hcalls fun h => h.deny r

def Idle (_ : Request) (p : Point) : Prop := p = .start ∨ ∃ answer, p = .finish answer

theorem first_of_idle (cfg : Settings) {r : Request} {p : Point} (hp : Idle r p)
    {stand : Stand DownloadRequest (List (String × Text)) Post Point Answer}
    (hstand : (program cfg).stand r p = stand) (hgoes : ∀ answer, stand ≠ .answer answer) :
    First r stand := by
  rcases hp with rfl | ⟨answer, rfl⟩
  · rw [← hstand]
    exact firstStatement_cases cfg r
  · exact absurd hstand.symm (hgoes answer)

/-- The review keeps the rows and the submissions in step. -/
def discipline (cfg : Settings) : Discipline (program cfg) where
  Open _ row calls := Settled row calls
  Idle := Idle
  Held := Held
  empty _ := rfl
  start _ := Or.inl rfl
  idleWrite {r p} hp row next hstand := by
    cases first_of_idle cfg hp hstand (by simp)
  idleCall {r p} hp sent next hstand := by
    cases first_of_idle cfg hp hstand (by simp)
  heldLock {t r p row mine calls} hheld next hstand := by
    cases p with
    | start => exact hheld
    | submit | flush | finish => cases hstand
  heldInsert {t r p row mine calls} hheld new next hstand := by
    cases p with
    | start => exact hheld
    | submit | flush | finish => cases hstand
  miss {r p next} hp hstand := by
    cases first_of_idle cfg hp hstand (by simp) with
    | lock next hmiss hfound => exact Or.inr hmiss
  lock {t r p next row calls} hp hstand hopen hcalls := by
    cases first_of_idle cfg hp hstand (by simp) with
    | lock next hmiss hfound => exact hfound hopen hcalls
  insert {t r p new next calls} hp hstand hopen hcalls := by
    cases first_of_idle cfg hp hstand (by simp) with
    | insert row next hnew => exact hnew hopen hcalls
  write {t r p new next row mine calls} hheld hstand := by
    cases p with
    | start => exact hheld.elim
    | submit | finish => cases hstand
    | flush row' detail answer =>
      obtain ⟨hdetail, hverdict⟩ := hheld
      cases hstand
      exact ⟨_, if_pos hdetail, hverdict⟩
  call {t r p sent next row mine calls outcome p'} hheld hstand hnext := by
    cases p with
    | start => exact hheld.elim
    | flush | finish => cases hstand
    | submit row' =>
      obtain ⟨rfl, hundecided⟩ := hheld
      cases hstand
      exact hundecided.submitted r _ rfl p' hnext
  raise {t r p sent next row mine calls outcome} hheld hstand hnext := by
    cases p with
    | start => exact hheld.elim
    | flush | finish => cases hstand
    | submit row' =>
      obtain ⟨rfl, hundecided⟩ := hheld
      cases hstand
      exact ⟨hundecided.2.2.2.2, hundecided.raised r _ hnext⟩
  commit {t r p answer row mine calls} hheld hstand := by
    cases p with
    | start => exact hheld.elim
    | submit | flush => cases hstand
    | finish answer' => exact hheld.2.2.1
  rollback {t r p row mine calls} hheld hcalls := by
    cases p with
    | start => exact hheld.elim
    | submit row' => exact hheld.2.2.1
    | flush row' detail answer => exact others_eq hcalls ▸ hheld.2.2.1
    | finish answer => exact others_eq hcalls ▸ hheld.2.1

theorem Held.others {t : ℕ} {r : Request} {p : Point} {old : Option DownloadRequest}
    {mine : DownloadRequest} {calls : List Submission} (h : Held t r p old mine calls) :
    Settled old (calls.filter fun c => c.txn != t) := by
  cases p with
  | start => exact h.elim
  | submit row =>
    obtain ⟨-, -, hsettled, -, -, hcalls⟩ := h
    exact (others_eq hcalls).symm ▸ hsettled
  | flush row detail answer => exact h.2.2.1
  | finish answer => exact h.2.1

theorem Held.consistent {t : ℕ} {r : Request} {p : Point} {old : Option DownloadRequest}
    {mine : DownloadRequest} {calls : List Submission} (h : Held t r p old mine calls) :
    ∃ row, Consistent row calls := by
  cases p with
  | start => exact h.elim
  | submit row => exact ⟨mine, h.2.2.2.2.1⟩
  | flush row detail answer => exact ⟨row, h.2.2.2.1⟩
  | finish answer => exact ⟨mine, h.2.2.1⟩

variable {cfg : Settings} {s : State ℕ DownloadRequest Request (List (String × Text)) Post Point}

/-- The submissions of the transactions that have ended. -/
def ended (s : State ℕ DownloadRequest Request (List (String × Text)) Post Point) (k : ℕ) :
    List Submission :=
  (s.about k).filter fun c => s.txns.all fun x => x.id != c.txn

/-- A row is held by one open transaction, or all that was submitted for it has ended. -/
theorem ended_cases (hs : Sound (discipline cfg) s) (k : ℕ) :
    (Settled (s.rows k) (s.about k) ∧ ended s k = s.about k) ∨
      ∃ x ∈ s.txns, ∃ mine, Held x.id x.request x.point (s.rows k) mine (s.about k) ∧
        ended s k = (s.about k).filter fun c => c.txn != x.id := by
  have hopen : ∀ c ∈ s.about k, ∀ x ∈ s.txns, x.id = c.txn →
      (program cfg).key x.request = k ∧ x.mine ≠ none := by
    intro c hc x hx hid
    obtain ⟨hmem, hkey⟩ := List.mem_filter.mp hc
    obtain ⟨hown, hmine⟩ := (hs.callers c hmem).2 x hx hid
    exact ⟨hown.trans (beq_iff_eq.mp hkey), hmine⟩
  by_cases hholder : ∃ x ∈ s.txns, (program cfg).key x.request = k ∧ x.mine ≠ none
  · obtain ⟨x, hx, rfl, hmine⟩ := hholder
    obtain ⟨mine, hmine'⟩ := Option.ne_none_iff_exists'.mp hmine
    refine Or.inr ⟨x, hx, mine, hs.held x hx mine hmine', List.filter_congr fun c hc => ?_⟩
    rw [Bool.eq_iff_iff, List.all_eq_true, bne_iff_ne]
    refine ⟨fun hall => (bne_iff_ne.mp (hall x hx)).symm, fun hne y hy => bne_iff_ne.mpr ?_⟩
    intro hid
    obtain ⟨hkey, hheld⟩ := hopen c hc y hy hid
    exact hheld (hs.alone x hx hmine y hy (hid ▸ hne) hkey)
  · refine Or.inl ⟨hs.free k fun x hx hkey => ?_, List.filter_eq_self.mpr fun c hc => ?_⟩
    · exact not_not.mp fun hmine => hholder ⟨x, hx, hkey, hmine⟩
    · refine List.all_eq_true.mpr fun x hx => bne_iff_ne.mpr fun hid => hholder ⟨x, hx, ?_⟩
      exact hopen c hc x hx hid

theorem ended_settled (hs : Sound (discipline cfg) s) (k : ℕ) :
    Settled (s.rows k) (ended s k) := by
  rcases ended_cases hs k with ⟨hsettled, hsame⟩ | ⟨x, -, mine, hheld, hsame⟩
  · exact hsame ▸ hsettled
  · exact hsame ▸ hheld.others

theorem reported_once (hs : Sound (discipline cfg) s) (k : ℕ) :
    ((s.about k).filter fun c => Reported c).length ≤ 1 := by
  have hcount : ∀ row, Consistent row (s.about k) →
      ((s.about k).filter fun c => Reported c).length ≤ 1 := by
    intro row hrow
    rw [hrow.2]
    split_ifs <;> decide
  rcases ended_cases hs k with ⟨hsettled, -⟩ | ⟨x, -, mine, hheld, -⟩
  · cases hrow : s.rows k with
    | none =>
      rw [hrow] at hsettled
      rw [show (s.about k).filter (fun c => Reported c) = [] from hsettled]
      decide
    | some row =>
      rw [hrow] at hsettled
      exact hcount row hsettled
  · obtain ⟨row, hrow⟩ := hheld.consistent
    exact hcount row hrow

theorem approved_iff (hs : Sound (discipline cfg) s) (k : ℕ) :
    (∃ row, s.rows k = some row ∧ row.status = .approved) ↔
      ∃ c ∈ s.about k, Reported c ∧ ∀ x ∈ s.txns, x.id ≠ c.txn := by
  have hended : (∃ c ∈ s.about k, Reported c ∧ ∀ x ∈ s.txns, x.id ≠ c.txn) ↔
      0 < ((ended s k).filter fun c => Reported c).length := by
    rw [List.length_pos_iff_exists_mem]
    simp [ended, and_left_comm]
  have hsettled := ended_settled hs k
  rw [hended]
  cases hrow : s.rows k with
  | none =>
    rw [hrow] at hsettled
    rw [show (ended s k).filter (fun c => Reported c) = [] from hsettled]
    simp
  | some row =>
    rw [hrow] at hsettled
    rw [hsettled.2]
    by_cases happroved : row.status = .approved <;> simp [happroved]

theorem moves_after (cfg : Settings) (past rest : List (Event Request Post)) (k : ℕ) :
    Moves ((after (program cfg) past).rows k) ((after (program cfg) (past ++ rest)).rows k) := by
  refine rows_related (discipline cfg) Moves moves_refl moves_trans ?_ past rest k
  intro t r p answer row mine calls hheld hstand
  cases p with
  | start => exact hheld.elim
  | submit | flush => cases hstand
  | finish answer' => exact hheld.1

/-- A failed submission leaves the row pending, with its error. -/
theorem failure_recorded (cfg : Settings) (events : List (Event Request Post)) (c : Submission)
    (hc : c ∈ (after (program cfg) events).calls) (text : Text) (hfailed : Failed c text) :
    (∃ x ∈ (after (program cfg) events).txns, x.id = c.txn) ∨
      ∃ past rest row, events = past ++ .commit c.txn :: rest ∧
        (after (program cfg) (past ++ [.commit c.txn])).rows c.key = some row ∧
          row.status = .pending ∧ row.error = some text := by
  have hanswer : ∀ {r : Request} {p : Point} {sent next},
      (program cfg).stand r p = .call sent next → next c.outcome ≠ none := by
    intro r p sent next hstand
    cases p with
    | start =>
      have hfirst := firstStatement_cases cfg r
      rw [show firstStatement cfg r = .call sent next from hstand] at hfirst
      cases hfirst
    | flush | finish => cases hstand
    | submit row =>
      cases hstand
      simp [Downloads.submitted, show addTorrent c.outcome = some (.error text) from hfailed]
  rcases call_ends (discipline cfg) events c hc hanswer with hopen | ⟨past, rest, r, p, answer, row,
    mine, hsplit, hstand, hmem, hheld, hrow⟩
  · exact Or.inl hopen
  · refine Or.inr ⟨past, rest, mine, hsplit, hrow, ?_⟩
    cases p with
    | start => exact (show False from hheld).elim
    | submit | flush => cases hstand
    | finish answer' => exact hheld.2.2.2 c hmem rfl text hfailed

/-- For every order of the steps of any requests: a status changes only while it is pending, at
most one submission for a row succeeds, the row is approved when the transaction of such a
submission has ended, and a failed one leaves it pending with the error. -/
theorem review_machine (cfg : Settings) (events : List (Event Request Post)) :
    (∀ past rest k, events = past ++ rest →
      Moves ((after (program cfg) past).rows k) ((after (program cfg) events).rows k)) ∧
    (∀ k, (((after (program cfg) events).about k).filter fun c => Reported c).length ≤ 1) ∧
    (∀ k, (∃ row, (after (program cfg) events).rows k = some row ∧ row.status = .approved) ↔
      ∃ c ∈ (after (program cfg) events).about k, Reported c ∧
        ∀ x ∈ (after (program cfg) events).txns, x.id ≠ c.txn) ∧
    (∀ k row, (after (program cfg) events).rows k = some row →
      (row.submittedAt.isSome = true ↔ row.status = .approved)) ∧
    ∀ c ∈ (after (program cfg) events).calls, ∀ text, Failed c text →
      (∃ x ∈ (after (program cfg) events).txns, x.id = c.txn) ∨
        ∃ past rest row, events = past ++ .commit c.txn :: rest ∧
          (after (program cfg) (past ++ [.commit c.txn])).rows c.key = some row ∧
            row.status = .pending ∧ row.error = some text := by
  have hs := sound_after (discipline cfg) events
  refine ⟨?_, reported_once hs, approved_iff hs, fun k row hrow => ?_, ?_⟩
  · rintro past rest k rfl
    exact moves_after cfg past rest k
  · have hsettled := ended_settled hs k
    rw [hrow] at hsettled
    exact hsettled.1
  · exact fun c hc text hfailed => failure_recorded cfg events c hc text hfailed

end Hyproxy.DownloadReview

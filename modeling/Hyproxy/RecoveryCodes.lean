import Hyproxy.FactorMoves
import Mathlib.Tactic.SplitIfs

/-!
What an open transaction holds of a user's recovery codes. A recovery holds the
code that it takes; an enrollment holds the user's TOTP secret from before it
looks for the unused codes. The commits of other transactions take neither away.
-/
namespace Hyproxy.RecoveryCodes

open FactorMoves FactorTransactions

/-- The batch of the last enrollment of the user that was committed. -/
def lastBatch (user : ℕ) (answers : List Reply) : Option ℕ :=
  answers.foldl (fun last reply =>
    match reply with
    | .enrolled _ other batch _ => if other = user then some batch else last
    | _ => last) none

/-- The codes that were accepted. -/
def accepted (answers : List Reply) : List Key :=
  answers.filterMap fun reply =>
    match reply with
    | .recovered _ key => some key
    | _ => none

/-- The writes add no code. -/
def Unissued (writes : List Write) : Prop := ∀ c, Write.addCode c ∉ writes

def HoldsRow (writes : List Write) (row : Row) : Prop := ∃ w ∈ writes, w.row = row

/-- The transaction has locked an unused code of the user. -/
structure Holding (db : Db) (writes : List Write) (user : ℕ) (key : Key) : Prop where
  locked : HoldsRow writes (.code key)
  unused : ∃ c ∈ db.codes, c.key = key ∧ c.unusedBy user = true

structure Spends (db : Db) (writes : List Write) (user : ℕ) (key : Key) : Prop where
  unissued : Unissued writes
  used : ∃ now, Write.useCode key now ∈ writes
  holding : Holding db writes user key

/-- The transaction holds the secret of the user and has deleted the unused codes. -/
structure Sweeps (db : Db) (writes : List Write) (user : ℕ) : Prop where
  held : HoldsRow writes (.totp user)
  swept : ∀ c ∈ db.codes, c.unusedBy user = true → Write.deleteCode c.key ∈ writes

/-- A code that no other is. -/
structure Issued (db : Db) (answers : List Reply) (serial user batch : ℕ) (c : Code) : Prop where
  user : c.user = user
  batch : c.key.batch = batch
  bound : c.key.batch < serial
  new : ∀ other ∈ db.codes, other.key ≠ c.key
  unaccepted : c.key ∉ accepted answers

structure Renews (db : Db) (answers : List Reply) (serial : ℕ) (writes : List Write)
    (user batch : ℕ) : Prop where
  sweeps : Sweeps db writes user
  issued : ∀ c, Write.addCode c ∈ writes → Issued db answers serial user batch c

/-- The reply of a request that neither takes a code nor issues a batch. -/
def Plain : Reply → Prop
  | .recovered _ _ => False
  | .enrolled _ _ _ _ => False
  | _ => True

def Finished (db : Db) (answers : List Reply) (serial : ℕ) (writes : List Write) : Reply → Prop
  | .recovered user key => Spends db writes user key
  | .enrolled _ user batch _ => Renews db answers serial writes user batch
  | _ => Unissued writes

def EnrollStands (db : Db) (answers : List Reply) (serial : ℕ) (writes : List Write) :
    EnrollPoint → Prop
  | .unused e => ∃ now, writes = [.confirmTotp e.user.id now]
  | .remove e keys => (∃ now, writes = [.confirmTotp e.user.id now]) ∧
      ∀ c ∈ db.codes, c.unusedBy e.user.id = true → c.key ∈ keys
  | .issue e => Unissued writes ∧ Sweeps db writes e.user.id
  | .session e batch => Renews db answers serial writes e.user.id batch
  | .burn e batch _ => Renews db answers serial writes e.user.id batch
  | _ => writes = []

def RecoveryStands (db : Db) (writes : List Write) : RecoveryPoint → Prop
  | .use e key => Unissued writes ∧ Holding db writes e.user.id key
  | .old e key => Spends db writes e.user.id key
  | .mark e key _ => Spends db writes e.user.id key
  | .drop e key _ => Spends db writes e.user.id key
  | _ => writes = []

/-- What a transaction has written before it stands at the point. -/
def Stands (db : Db) (answers : List Reply) (serial : ℕ) (writes : List Write) : Point → Prop
  | .enroll p _ => EnrollStands db answers serial writes p
  | .recovery p => RecoveryStands db writes p
  | .resume _ _ failed _ => Unissued writes ∧ Plain failed
  | .settle _ _ _ failed _ => Unissued writes ∧ Plain failed
  | .reissue _ _ failed _ => Unissued writes ∧ Plain failed
  | .answer reply => Finished db answers serial writes reply
  | _ => Unissued writes

/-! ### Codes -/

theorem unusedBy_iff (user : ℕ) (c : Code) :
    c.unusedBy user = true ↔ c.user = user ∧ c.usedAt = none := by
  simp [Code.unusedBy]

theorem codes_apply (db : Db) (w : Write) : (apply db w).codes = w.setCodes db.codes := rfl

/-- A code after a write: it was there or the write adds it, and the write may mark it as used. -/
theorem origin_apply (db : Db) (w : Write) (c : Code) (h : c ∈ (apply db w).codes) :
    ∃ old, (old ∈ db.codes ∨ w = .addCode old) ∧ old.key = c.key ∧ (c.usedAt = none → old = c) := by
  rw [codes_apply] at h
  cases w with
  | useCode key now =>
    obtain ⟨old, hold, rfl⟩ := List.mem_map.mp h
    refine ⟨old, Or.inl hold, ?_, ?_⟩
    · split <;> rfl
    · split_ifs
      · intro hused
        cases hused
      · exact fun _ => rfl
  | deleteCode key => exact ⟨c, Or.inl (List.mem_of_mem_filter h), rfl, fun _ => rfl⟩
  | addCode added =>
    rcases List.mem_append.mp h with hold | hnew
    · exact ⟨c, Or.inl hold, rfl, fun _ => rfl⟩
    · rw [List.mem_singleton.mp hnew]
      exact ⟨added, Or.inr rfl, rfl, fun _ => rfl⟩
  | _ => exact ⟨c, Or.inl h, rfl, fun _ => rfl⟩

theorem origin_foldl (writes : List Write) (db : Db) (c : Code)
    (h : c ∈ (writes.foldl apply db).codes) :
    ∃ old, (old ∈ db.codes ∨ Write.addCode old ∈ writes) ∧ old.key = c.key ∧
      (c.usedAt = none → old = c) := by
  induction writes generalizing db with
  | nil => exact ⟨c, Or.inl h, rfl, fun _ => rfl⟩
  | cons w rest ih =>
    obtain ⟨mid, hmid, hkey, hsame⟩ := ih (apply db w) h
    rcases hmid with hmid | hadded
    · obtain ⟨old, hold, hkey', hsame'⟩ := origin_apply db w mid hmid
      refine ⟨old, ?_, hkey'.trans hkey, fun hunused => ?_⟩
      · rcases hold with hold | rfl
        · exact Or.inl hold
        · exact Or.inr (List.mem_cons_self ..)
      · have heq := hsame hunused
        rw [← heq] at hunused
        exact (hsame' hunused).trans heq
    · exact ⟨mid, Or.inr (List.mem_cons_of_mem _ hadded), hkey, hsame⟩

theorem kept_apply (db : Db) (w : Write) (c : Code) (h : c ∈ db.codes) (hrow : w.row ≠ .code c.key) :
    c ∈ (apply db w).codes := by
  rw [codes_apply]
  cases w with
  | useCode key now =>
    have hne : c.key ≠ key := fun heq => hrow (by rw [heq]; rfl)
    exact List.mem_map.mpr ⟨c, h, if_neg hne⟩
  | deleteCode key =>
    have hne : c.key ≠ key := fun heq => hrow (by rw [heq]; rfl)
    exact List.mem_filter.mpr ⟨h, by simpa using hne⟩
  | addCode added => exact List.mem_append_left _ h
  | _ => exact h

/-- A code that the writes leave alone is there after them. -/
theorem kept_foldl (writes : List Write) (db : Db) (c : Code) (h : c ∈ db.codes)
    (hrows : ∀ w ∈ writes, w.row ≠ .code c.key) : c ∈ (writes.foldl apply db).codes := by
  induction writes generalizing db with
  | nil => exact h
  | cons w rest ih =>
    exact ih (apply db w) (kept_apply db w c h (hrows w (List.mem_cons_self ..)))
      fun w hw => hrows w (List.mem_cons_of_mem _ hw)

/-- No unused code has the key. -/
def Spent (db : Db) (key : Key) : Prop := ∀ c ∈ db.codes, c.key = key → c.usedAt ≠ none

theorem spent_apply (db : Db) (w : Write) (key : Key) (hadds : ∀ c, w = .addCode c → c.key ≠ key)
    (h : Spent db key ∨ (∃ now, w = .useCode key now) ∨ w = .deleteCode key) :
    Spent (apply db w) key := by
  rcases h with hspent | ⟨now, rfl⟩ | rfl
  · intro c hc hkey hunused
    obtain ⟨old, hold, hsame, heq⟩ := origin_apply db w c hc
    rw [heq hunused] at hold
    rcases hold with hold | hadded
    · exact hspent c hold hkey hunused
    · exact hadds c hadded hkey
  · intro c hc hkey
    obtain ⟨old, -, rfl⟩ := List.mem_map.mp hc
    split_ifs at hkey ⊢ with hsame
    · exact Option.some_ne_none _
    · exact absurd hkey hsame
  · intro c hc hkey
    have hne := (List.mem_filter.mp hc).2
    simp [hkey] at hne

/-- After a write that uses or deletes a code no unused one has its key, unless one is added. -/
theorem spent_foldl (writes : List Write) (db : Db) (key : Key)
    (hadds : ∀ c, Write.addCode c ∈ writes → c.key ≠ key)
    (h : Spent db key ∨ (∃ now, Write.useCode key now ∈ writes) ∨ Write.deleteCode key ∈ writes) :
    Spent (writes.foldl apply db) key := by
  induction writes generalizing db with
  | nil =>
    rcases h with hspent | ⟨now, hused⟩ | hdeleted
    · exact hspent
    · cases hused
    · cases hdeleted
  | cons w rest ih =>
    have hfirst : ∀ c, w = .addCode c → c.key ≠ key := fun c hc =>
      hadds c (by rw [hc]; exact List.mem_cons_self ..)
    refine ih (apply db w) (fun c hc => hadds c (List.mem_cons_of_mem _ hc)) ?_
    rcases h with hspent | ⟨now, hused⟩ | hdeleted
    · exact Or.inl (spent_apply db w key hfirst (Or.inl hspent))
    · rcases List.mem_cons.mp hused with heq | hused
      · exact Or.inl (spent_apply db w key hfirst (Or.inr (Or.inl ⟨now, heq.symm⟩)))
      · exact Or.inr (Or.inl ⟨now, hused⟩)
    · rcases List.mem_cons.mp hdeleted with heq | hdeleted
      · exact Or.inl (spent_apply db w key hfirst (Or.inr (Or.inr heq.symm)))
      · exact Or.inr (Or.inr hdeleted)

/-! ### Answers -/

theorem lastBatch_append (user : ℕ) (answers : List Reply) (reply : Reply)
    (h : ∀ flow batch session, reply ≠ .enrolled flow user batch session) :
    lastBatch user (answers ++ [reply]) = lastBatch user answers := by
  simp only [lastBatch, List.foldl_append, List.foldl_cons, List.foldl_nil]
  cases reply with
  | enrolled flow other batch session =>
    refine if_neg fun heq => ?_
    rw [heq] at h
    exact h flow batch session rfl
  | _ => rfl

theorem lastBatch_enrolled (answers : List Reply) (flow user batch session : ℕ) :
    lastBatch user (answers ++ [.enrolled flow user batch session]) = some batch := by
  simp [lastBatch]

theorem accepted_append (answers : List Reply) (reply : Reply) :
    accepted (answers ++ [reply]) = accepted answers ++ accepted [reply] := by
  simp [accepted]

/-! ### Other transactions -/

/-- A transaction that issues codes holds the secret of their user. -/
theorem finished_issues (db : Db) (answers : List Reply) (serial : ℕ) (writes : List Write)
    (reply : Reply) (h : Finished db answers serial writes reply) (c : Code)
    (hadded : Write.addCode c ∈ writes) : HoldsRow writes (.totp c.user) := by
  cases reply with
  | recovered user key => exact absurd hadded (h.unissued c)
  | enrolled flow user batch session =>
    rw [(h.issued c hadded).user]
    exact h.sweeps.held
  | _ => exact absurd hadded (h c)

theorem finished_accepts (db : Db) (answers : List Reply) (serial : ℕ) (writes : List Write)
    (reply : Reply) (h : Finished db answers serial writes reply) (key : Key)
    (haccepted : key ∈ accepted [reply]) : ∃ now, Write.useCode key now ∈ writes := by
  cases reply with
  | recovered user other =>
    obtain rfl : key = other := List.mem_singleton.mp haccepted
    exact h.used
  | _ => cases haccepted

/-- The commit of a transaction that has written other rows. -/
structure Beside (db : Db) (answers : List Reply) (serial : ℕ) (writes others : List Write)
    (reply : Reply) : Prop where
  rows : ∀ v ∈ others, ∀ w ∈ writes, v.row ≠ w.row
  finished : Finished db answers serial others reply

section

variable {db : Db} {answers : List Reply} {serial : ℕ} {writes others : List Write} {reply : Reply}

/-- A transaction that holds the secret of a user misses no code of the user. -/
theorem Beside.found (h : Beside db answers serial writes others reply) (user : ℕ)
    (hheld : HoldsRow writes (.totp user)) (Q : Key → Prop)
    (hfound : ∀ c ∈ db.codes, c.unusedBy user = true → Q c.key) :
    ∀ c ∈ (others.foldl apply db).codes, c.unusedBy user = true → Q c.key := by
  intro c hc hunused
  obtain ⟨huser, hnone⟩ := (unusedBy_iff user c).mp hunused
  obtain ⟨old, hold, -, hsame⟩ := origin_foldl others db c hc
  rw [hsame hnone] at hold
  rcases hold with hold | hadded
  · exact hfound c hold hunused
  · obtain ⟨v, hv, hrow⟩ := finished_issues db answers serial others reply h.finished c hadded
    obtain ⟨w, hw, hrow'⟩ := hheld
    exact absurd (by rw [hrow, hrow', huser]) (h.rows v hv w hw)

theorem Beside.sweeps (h : Beside db answers serial writes others reply) (user : ℕ)
    (hsweeps : Sweeps db writes user) : Sweeps (others.foldl apply db) writes user :=
  ⟨hsweeps.held, h.found user hsweeps.held (fun key => Write.deleteCode key ∈ writes) hsweeps.swept⟩

theorem Beside.issued (h : Beside db answers serial writes others reply) (user batch : ℕ) (c : Code)
    (hadded : Write.addCode c ∈ writes) (hissued : Issued db answers serial user batch c) :
    Issued (others.foldl apply db) (answers ++ [reply]) (serial + 1) user batch c where
  user := hissued.user
  batch := hissued.batch
  bound := Nat.lt_succ_of_lt hissued.bound
  new := by
    intro other hother
    obtain ⟨old, hold, hkey, -⟩ := origin_foldl others db other hother
    rw [← hkey]
    rcases hold with hold | hold
    · exact hissued.new old hold
    · exact fun heq => h.rows _ hold _ hadded (by rw [Write.row, Write.row, heq])
  unaccepted := by
    rw [accepted_append, List.mem_append, not_or]
    refine ⟨hissued.unaccepted, fun haccepted => ?_⟩
    obtain ⟨now, hused⟩ := finished_accepts db answers serial others reply h.finished c.key haccepted
    exact h.rows _ hused _ hadded rfl

theorem Beside.renews (h : Beside db answers serial writes others reply) (user batch : ℕ)
    (hrenews : Renews db answers serial writes user batch) :
    Renews (others.foldl apply db) (answers ++ [reply]) (serial + 1) writes user batch :=
  ⟨h.sweeps user hrenews.sweeps, fun c hc => h.issued user batch c hc (hrenews.issued c hc)⟩

theorem Beside.holding (h : Beside db answers serial writes others reply) (user : ℕ) (key : Key)
    (hholding : Holding db writes user key) : Holding (others.foldl apply db) writes user key := by
  obtain ⟨⟨w, hw, hrow⟩, c, hc, rfl, hunused⟩ := hholding
  refine ⟨⟨w, hw, hrow⟩, c, kept_foldl others db c hc fun v hv => ?_, rfl, hunused⟩
  rw [← hrow]
  exact h.rows v hv w hw

theorem Beside.spends (h : Beside db answers serial writes others reply) (user : ℕ) (key : Key)
    (hspends : Spends db writes user key) : Spends (others.foldl apply db) writes user key :=
  ⟨hspends.unissued, hspends.used, h.holding user key hspends.holding⟩

theorem Beside.stands (h : Beside db answers serial writes others reply) (p : Point)
    (hstands : Stands db answers serial writes p) :
    Stands (others.foldl apply db) (answers ++ [reply]) (serial + 1) writes p := by
  cases p with
  | enroll p hashes =>
    cases p with
    | remove e keys =>
      obtain ⟨⟨now, rfl⟩, hfound⟩ := hstands
      refine ⟨⟨now, rfl⟩, h.found e.user.id ?_ (fun key => key ∈ keys) hfound⟩
      exact ⟨_, List.mem_singleton_self _, rfl⟩
    | issue e => exact ⟨hstands.1, h.sweeps e.user.id hstands.2⟩
    | session e batch => exact h.renews e.user.id batch hstands
    | burn e batch session => exact h.renews e.user.id batch hstands
    | _ => exact hstands
  | recovery p =>
    cases p with
    | use e key => exact ⟨hstands.1, h.holding e.user.id key hstands.2⟩
    | old e key => exact h.spends e.user.id key hstands
    | mark e key old => exact h.spends e.user.id key hstands
    | drop e key old => exact h.spends e.user.id key hstands
    | _ => exact hstands
  | answer own =>
    cases own with
    | recovered user key => exact h.spends user key hstands
    | enrolled flow user batch session => exact h.renews user batch hstands
    | _ => exact hstands
  | _ => exact hstands

end

/-- A step that commits nothing. -/
theorem stands_later (db : Db) (answers : List Reply) (serial : ℕ) (writes : List Write) (p : Point)
    (h : Stands db answers serial writes p) : Stands db answers (serial + 1) writes p := by
  have hrenews : ∀ user batch, Renews db answers serial writes user batch →
      Renews db answers (serial + 1) writes user batch := fun user batch h =>
    ⟨h.sweeps, fun c hc =>
      { h.issued c hc with bound := Nat.lt_succ_of_lt (h.issued c hc).bound }⟩
  cases p with
  | enroll p hashes =>
    cases p with
    | session e batch => exact hrenews e.user.id batch h
    | burn e batch session => exact hrenews e.user.id batch h
    | _ => exact h
  | answer reply =>
    cases reply with
    | enrolled flow user batch session => exact hrenews user batch h
    | _ => exact h
  | _ => exact h

/-! ### More writes -/

theorem unissued_nil : Unissued [] := fun _ => List.not_mem_nil

theorem unissued_append (left right : List Write) (hleft : Unissued left) (hright : Unissued right) :
    Unissued (left ++ right) := by
  intro c hc
  rcases List.mem_append.mp hc with hc | hc
  · exact hleft c hc
  · exact hright c hc

theorem unissued_single (w : Write) (h : ∀ c, w ≠ .addCode c) : Unissued [w] := by
  intro c hc
  exact h c (List.mem_singleton.mp hc).symm

theorem unissued_lock (db : Db) (r : Login.Form) : Unissued (lock db r) := by
  unfold lock
  cases r.flow with
  | none => exact unissued_nil
  | some id =>
    simp only
    split_ifs
    · exact unissued_single _ fun _ => Write.noConfusion
    · exact unissued_nil

theorem HoldsRow.append {writes : List Write} {row : Row} (h : HoldsRow writes row)
    (more : List Write) : HoldsRow (writes ++ more) row := by
  obtain ⟨w, hw, hrow⟩ := h
  exact ⟨w, List.mem_append_left _ hw, hrow⟩

theorem Spends.append {db : Db} {writes : List Write} {user : ℕ} {key : Key}
    (h : Spends db writes user key) (more : List Write) (hmore : Unissued more) :
    Spends db (writes ++ more) user key := by
  obtain ⟨now, hused⟩ := h.used
  exact ⟨unissued_append writes more h.unissued hmore, ⟨now, List.mem_append_left _ hused⟩,
    h.holding.locked.append more, h.holding.unused⟩

theorem Renews.append {db : Db} {answers : List Reply} {serial : ℕ} {writes : List Write}
    {user batch : ℕ} (h : Renews db answers serial writes user batch) (more : List Write)
    (hmore : Unissued more) : Renews db answers serial (writes ++ more) user batch := by
  refine ⟨⟨h.sweeps.held.append more, fun c hc hunused => ?_⟩, fun c hc => ?_⟩
  · exact List.mem_append_left _ (h.sweeps.swept c hc hunused)
  · rcases List.mem_append.mp hc with hc | hc
    · exact h.issued c hc
    · exact absurd hc (hmore c)

theorem updateFlow_stands (db view : Db) (answers : List Reply) (serial id : ℕ) (w : Write)
    (p p' : Point) (writes writes' : List Write) (h : updateFlow view id w p = some (writes', p'))
    (hs : Stands db answers serial (writes ++ [w]) p) :
    Stands db answers serial (writes ++ writes') p' := by
  obtain ⟨rfl, rfl⟩ := updateFlow_some h
  exact hs

theorem finished_plain (db : Db) (answers : List Reply) (serial : ℕ) (writes : List Write)
    (reply : Reply) (hplain : Plain reply) (h : Unissued writes) :
    Finished db answers serial writes reply := by
  cases reply with
  | recovered user key => cases hplain
  | enrolled flow user batch session => cases hplain
  | _ => exact h

/-- A request that is refused neither takes a code nor issues a batch. -/
theorem finished_refused (db : Db) (answers : List Reply) (serial : ℕ) (writes : List Write)
    (reply : Reply) (hrefuses : refuses reply = true) (h : Unissued writes) :
    Finished db answers serial writes reply := by
  refine finished_plain db answers serial writes reply ?_ h
  cases reply with
  | recovered user key => cases hrefuses
  | enrolled flow user batch session => cases hrefuses
  | _ => trivial

theorem unissued_of_setup (writes : List Write) (h : ∀ w ∈ writes, isSetup w = true) :
    Unissued writes := by
  intro c hc
  cases h _ hc

theorem mem_newCodes (serial user : ℕ) (hashes : List (List Char)) (c : Code)
    (h : c ∈ newCodes serial user hashes) : c.user = user ∧ c.usedAt = none ∧ c.key.batch = serial := by
  obtain ⟨pair, -, rfl⟩ := List.mem_map.mp h
  exact ⟨rfl, rfl, rfl⟩

theorem mem_still (db : Db) (user : ℕ) (keys : List Key) (c : Code) :
    c ∈ still db user keys ↔ c ∈ db.codes ∧ c.key ∈ keys ∧ c.unusedBy user = true := by
  simp [still]

/-- The batch of an enrollment that has deleted the unused codes. -/
theorem Sweeps.renews {db : Db} {answers : List Reply} {serial : ℕ} {writes : List Write} {user : ℕ}
    (h : Sweeps db writes user) (hunissued : Unissued writes) (hashes : List (List Char))
    (hcodes : ∀ c ∈ db.codes, c.key.batch < serial)
    (haccepted : ∀ key ∈ accepted answers, key.batch < serial) :
    Renews db answers (serial + 1) (writes ++ (newCodes serial user hashes).map .addCode) user
      serial := by
  refine ⟨⟨h.held.append _, fun c hc hunused => ?_⟩, fun c hc => ?_⟩
  · exact List.mem_append_left _ (h.swept c hc hunused)
  · rcases List.mem_append.mp hc with hc | hc
    · exact absurd hc (hunissued c)
    · obtain ⟨new, hnew, heq⟩ := List.mem_map.mp hc
      obtain rfl := Write.addCode.inj heq
      obtain ⟨huser, -, hbatch⟩ := mem_newCodes serial user hashes new hnew
      refine ⟨huser, hbatch, by omega, fun other hother heq => ?_, fun hkey => ?_⟩
      · have hbound := hcodes other hother
        rw [heq] at hbound
        omega
      · have hbound := haccepted new.key hkey
        omega

end Hyproxy.RecoveryCodes

import Hyproxy.RecoveryCodes

/-!
The unused recovery codes of a user are those of the batch that the last committed
enrollment has issued, and none is accepted twice. The enrollments of a user wait
for one another at the TOTP secret, and the recoveries at the codes.
-/
namespace Hyproxy.RecoveryBatches

open Accounts (Config)
open FactorMoves FactorTransactions
open ReadCommitted (State read_only written)
open RecoveryCodes

/-- The unused codes are of the last batch, and the accepted ones are used. -/
structure Batches (db : Db) (answers : List Reply) (serial : ℕ) : Prop where
  current : ∀ c ∈ db.codes, c.usedAt = none → lastBatch c.user answers = some c.key.batch
  spent : ∀ key ∈ accepted answers, ∀ c ∈ db.codes, c.key = key → c.usedAt ≠ none
  codeBound : ∀ c ∈ db.codes, c.key.batch < serial
  acceptedBound : ∀ key ∈ accepted answers, key.batch < serial
  once : (accepted answers).Nodup
  ordered : ∀ past user key rest, answers = past ++ .recovered user key :: rest →
    lastBatch user past = some key.batch

structure Inv (s : State Db Write Point Reply) : Prop where
  batches : Batches s.db s.answers s.serial
  stands : ∀ x ∈ s.txns, Stands s.db s.answers s.serial x.writes x.point

/-! ### Statements -/

section

variable (cfg : Config) (db : Db) (answers : List Reply) (serial : ℕ)

theorem enroll_stands (hashes : List (List Char)) (writes writes' : List Write) (p : EnrollPoint)
    (p' : Point) (hcodes : ∀ c ∈ db.codes, c.key.batch < serial)
    (haccepted : ∀ key ∈ accepted answers, key.batch < serial)
    (hstands : EnrollStands db answers (serial + 1) writes p)
    (h : enrollStatement cfg (writes.foldl apply db) serial hashes p = some (writes', p')) :
    Stands db answers (serial + 1) (writes ++ writes') p' := by
  cases enroll_move cfg _ serial hashes p writes' p' h with
  | flow a code id f hguarded =>
    obtain rfl : writes = [] := hstands
    exact rfl
  | user a code id f user huser =>
    obtain rfl : writes = [] := hstands
    exact rfl
  | verified e code row hrow hpending hcode =>
    obtain rfl : writes = [] := hstands
    exact rfl
  | failed e code =>
    obtain rfl : writes = [] := hstands
    exact unissued_nil
  | refused _ reply hopening hrefuses =>
    rw [List.append_nil]
    refine finished_refused db answers _ writes reply hrefuses ?_
    have hnil : writes = [] := by
      cases p with
      | flow a code => exact hstands
      | user a code id f => exact hstands
      | secret e code => exact hstands
      | _ => cases hopening
    rw [hnil]
    exact unissued_nil
  | confirm e =>
    obtain rfl : writes = [] := hstands
    exact ⟨e.form.now, rfl⟩
  | unused e =>
    obtain ⟨now, rfl⟩ := hstands
    refine ⟨⟨now, rfl⟩, fun c hc hunused => ?_⟩
    exact List.mem_map_of_mem (List.mem_filter.mpr ⟨hc, hunused⟩)
  | remove e keys =>
    obtain ⟨⟨now, rfl⟩, hfound⟩ := hstands
    refine ⟨?_, ?_, fun c hc hunused => ?_⟩
    · refine unissued_append _ _ (unissued_single _ fun _ => Write.noConfusion) fun c hc => ?_
      obtain ⟨row, -, heq⟩ := List.mem_map.mp hc
      cases heq
    · exact HoldsRow.append ⟨_, List.mem_singleton_self _, rfl⟩ _
    · refine List.mem_append_right _ (List.mem_map.mpr ⟨c, ?_, rfl⟩)
      exact (mem_still _ _ _ c).mpr ⟨hc, hfound c hc hunused, hunused⟩
  | issue e => exact hstands.2.renews hstands.1 hashes hcodes haccepted
  | session e batch =>
    exact Renews.append hstands _ (unissued_single _ fun _ => Write.noConfusion)
  | burn e batch session =>
    refine Renews.append hstands _ ?_
    split_ifs
    · exact unissued_single _ fun _ => Write.noConfusion
    · exact unissued_nil

/-- Locking unused codes issues none. -/
theorem unissued_locks (codes : List Code) : Unissued (codes.map fun c => .lockCode c.key) := by
  intro c hc
  obtain ⟨row, -, heq⟩ := List.mem_map.mp hc
  cases heq

theorem recovery_stands (writes writes' : List Write) (p : RecoveryPoint) (p' : Point)
    (hstands : RecoveryStands db writes p)
    (h : recoveryStatement cfg (writes.foldl apply db) p = some (writes', p')) :
    Stands db answers serial (writes ++ writes') p' := by
  cases recovery_move cfg _ p writes' p' h with
  | flow a code id f hguarded =>
    obtain rfl : writes = [] := hstands
    exact rfl
  | user a code id f user huser =>
    obtain rfl : writes = [] := hstands
    exact rfl
  | refused _ reply hopening hrefuses =>
    rw [List.append_nil]
    refine finished_refused db answers _ writes reply hrefuses ?_
    have hnil : writes = [] := by
      cases p with
      | flow a code => exact hstands
      | user a code id f => exact hstands
      | _ => cases hopening
    rw [hnil]
    exact unissued_nil
  | unused e code =>
    obtain rfl : writes = [] := hstands
    exact rfl
  | failed e code keys =>
    obtain rfl : writes = [] := hstands
    exact unissued_locks _
  | found e code keys row hfound =>
    obtain rfl : writes = [] := hstands
    have hrow := List.mem_of_find?_eq_some hfound
    obtain ⟨hcode, -, hunused⟩ := (mem_still db e.user.id keys row).mp hrow
    refine ⟨unissued_locks _, ⟨.lockCode row.key, ?_, rfl⟩, row, hcode, rfl, hunused⟩
    exact List.mem_map.mpr ⟨row, hrow, rfl⟩
  | use e key =>
    obtain ⟨hunissued, hholding⟩ := hstands
    refine ⟨?_, ⟨e.form.now, ?_⟩, hholding.locked.append _, hholding.unused⟩
    · exact unissued_append writes _ hunissued (unissued_single _ fun _ => Write.noConfusion)
    · exact List.mem_append_right _ (List.mem_singleton_self _)
  | old e key =>
    rw [List.append_nil]
    exact hstands
  | marked e key old =>
    rw [List.append_nil]
    exact hstands
  | mark e key old => exact Spends.append hstands _ (unissued_single _ fun _ => Write.noConfusion)
  | drop e key old =>
    refine Spends.append hstands _ ?_
    split_ifs
    · exact unissued_single _ fun _ => Write.noConfusion
    · exact unissued_nil

theorem totp_stands (writes writes' : List Write) (p : TotpPoint) (p' : Point)
    (hstands : Unissued writes) (h : totpStatement cfg (writes.foldl apply db) p = some (writes', p')) :
    Stands db answers serial (writes ++ writes') p' := by
  have hlocked : ∀ r, Unissued (writes ++ lock (writes.foldl apply db) r) := fun r =>
    unissued_append writes _ hstands (unissued_lock _ r)
  cases totp_move cfg _ p writes' p' h with
  | turnedAway a code => exact hlocked a.form
  | flow a code id f hguarded => exact hlocked a.form
  | resume a code id f session hcompleted =>
    rw [List.append_nil]
    exact ⟨hstands, trivial⟩
  | refused _ reply hrefuses =>
    rw [List.append_nil]
    exact finished_refused db answers _ writes reply hrefuses hstands
  | _ =>
    rw [List.append_nil]
    exact hstands

theorem assertion_stands (writes writes' : List Write) (p : AssertionPoint) (p' : Point)
    (hstands : Unissued writes)
    (h : assertionStatement cfg (writes.foldl apply db) p = some (writes', p')) :
    Stands db answers serial (writes ++ writes') p' := by
  have hlocked : ∀ r, Unissued (writes ++ lock (writes.foldl apply db) r) := fun r =>
    unissued_append writes _ hstands (unissued_lock _ r)
  have hwritten : ∀ w, (∀ c, w ≠ .addCode c) → Unissued (writes ++ [w]) := fun w hw =>
    unissued_append writes _ hstands (unissued_single w hw)
  cases assertion_move cfg _ p writes' p' h with
  | turnedAway a assertion => exact hlocked a.form
  | flow a assertion id f hguarded => exact hlocked a.form
  | resume a assertion id f session hcompleted =>
    rw [List.append_nil]
    exact ⟨hstands, trivial⟩
  | challenge e assertion challenge hchallenge => exact hwritten _ fun _ => Write.noConfusion
  | sign e credentialId count => exact hwritten _ fun _ => Write.noConfusion
  | refused _ reply hrefuses =>
    rw [List.append_nil]
    exact finished_refused db answers _ writes reply hrefuses hstands
  | _ =>
    rw [List.append_nil]
    exact hstands

theorem setup_stands (writes writes' : List Write) (p : SetupPoint) (p' : Point)
    (hstands : Unissued writes)
    (h : setupStatement cfg (writes.foldl apply db) p = some (writes', p')) :
    Stands db answers serial (writes ++ writes') p' := by
  obtain ⟨hsetup, hnext⟩ := setup_move cfg _ p writes' p' h
  have hunissued := unissued_append writes writes' hstands (unissued_of_setup writes' hsetup)
  rcases hnext with ⟨q, rfl⟩ | ⟨reply, rfl, hrefuses⟩
  · exact hunissued
  · exact finished_refused db answers _ _ reply hrefuses hunissued

theorem statement_stands (writes writes' : List Write) (p p' : Point)
    (hcodes : ∀ c ∈ db.codes, c.key.batch < serial)
    (haccepted : ∀ key ∈ accepted answers, key.batch < serial)
    (hstands : Stands db answers (serial + 1) writes p)
    (h : statement cfg (writes.foldl apply db) serial p = some (writes', p')) :
    Stands db answers (serial + 1) (writes ++ writes') p' := by
  have hwritten : Unissued writes → ∀ w, (∀ c, w ≠ .addCode c) → Unissued (writes ++ [w]) :=
    fun hunissued w hw => unissued_append writes _ hunissued (unissued_single w hw)
  cases p with
  | totp p => exact totp_stands cfg db answers _ writes writes' p p' hstands h
  | enroll p hashes =>
    exact enroll_stands cfg db answers serial hashes writes writes' p p' hcodes haccepted hstands h
  | recovery p => exact recovery_stands cfg db answers _ writes writes' p p' hstands h
  | assertion p => exact assertion_stands cfg db answers _ writes writes' p p' hstands h
  | setup p => exact setup_stands cfg db answers _ writes writes' p p' hstands h
  | resume r session failed known =>
    simp only [statement] at h
    cases hrow : (writes.foldl apply db).sessions.find? fun x => x.id == session with
    | none =>
      rw [hrow] at h
      exact read_only (Stands db answers (serial + 1)) h
        (finished_plain db answers _ writes failed hstands.2 hstands.1)
    | some x =>
      rw [hrow] at h
      exact read_only (Stands db answers (serial + 1)) h hstands
  | settle r session found failed known =>
    have hfailed : ∀ w, (∀ c, w ≠ .addCode c) →
        Finished db answers (serial + 1) (writes ++ [w]) failed :=
      fun w hw => finished_plain db answers _ _ failed hstands.2 (hwritten hstands.1 w hw)
    cases found with
    | dead =>
      exact read_only (Stands db answers (serial + 1)) h
        (finished_plain db answers _ writes failed hstands.2 hstands.1)
    | idle => exact written (Stands db answers (serial + 1)) h (hfailed _ fun _ => Write.noConfusion)
    | moved => exact written (Stands db answers (serial + 1)) h (hfailed _ fun _ => Write.noConfusion)
    | due =>
      exact written (Stands db answers (serial + 1)) h
        ⟨hwritten hstands.1 _ fun _ => Write.noConfusion, hstands.2⟩
    | live => exact read_only (Stands db answers (serial + 1)) h hstands
  | reissue r session failed known =>
    have hunissued := hwritten hstands.1 (.reissueSession session (cfg.sha256Hex r.newSecret))
      fun _ => Write.noConfusion
    cases known with
    | true => exact written (Stands db answers (serial + 1)) h hunissued
    | false =>
      exact written (Stands db answers (serial + 1)) h
        (finished_plain db answers _ _ failed hstands.2 hunissued)
  | refuse e =>
    exact updateFlow_stands db _ answers _ e.id _ _ p' writes writes' h
      (hwritten hstands _ fun _ => Write.noConfusion)
  | session e amr =>
    exact written (Stands db answers (serial + 1)) h (hwritten hstands _ fun _ => Write.noConfusion)
  | complete e session =>
    exact updateFlow_stands db _ answers _ e.id _ _ p' writes writes' h
      (hwritten hstands _ fun _ => Write.noConfusion)
  | answer reply => cases h

end

/-! ### Commits -/

section

variable {db : Db} {answers : List Reply} {serial : ℕ} {writes : List Write}

/-- The codes after a commit are those of before, and those that it adds. -/
theorem Batches.bounds (h : Batches db answers serial) (reply : Reply)
    (hadded : ∀ c, Write.addCode c ∈ writes → c.key.batch < serial)
    (haccepted : ∀ key ∈ accepted [reply], key.batch < serial) :
    (∀ c ∈ (writes.foldl apply db).codes, c.key.batch < serial + 1) ∧
      ∀ key ∈ accepted (answers ++ [reply]), key.batch < serial + 1 := by
  constructor
  · intro c hc
    obtain ⟨old, hold, hkey, -⟩ := origin_foldl writes db c hc
    rw [← hkey]
    rcases hold with hold | hold
    · exact Nat.lt_succ_of_lt (h.codeBound old hold)
    · exact Nat.lt_succ_of_lt (hadded old hold)
  · intro key hkey
    rw [accepted_append] at hkey
    rcases List.mem_append.mp hkey with hkey | hkey
    · exact Nat.lt_succ_of_lt (h.acceptedBound key hkey)
    · exact Nat.lt_succ_of_lt (haccepted key hkey)

/-- An unused code after a commit that adds none. -/
theorem unissued_codes (hunissued : Unissued writes) (c : Code)
    (hc : c ∈ (writes.foldl apply db).codes) (hunused : c.usedAt = none) : c ∈ db.codes := by
  obtain ⟨old, hold, -, hsame⟩ := origin_foldl writes db c hc
  rw [hsame hunused] at hold
  rcases hold with hold | hadded
  · exact hold
  · exact absurd hadded (hunissued c)

/-- A split of the answers after one more: the last is new or the split is one of before. -/
theorem split_append (reply last : Reply) (past rest : List Reply)
    (h : answers ++ [last] = past ++ reply :: rest) :
    (past = answers ∧ reply = last) ∨ ∃ rest', answers = past ++ reply :: rest' := by
  rcases rest.eq_nil_or_concat with rfl | ⟨rest', end', rfl⟩
  · obtain ⟨hpast, hreply⟩ := List.append_inj' h rfl
    exact Or.inl ⟨hpast.symm, (List.cons.inj hreply).1.symm⟩
  · rw [List.concat_eq_append, ← List.cons_append, ← List.append_assoc] at h
    exact Or.inr ⟨rest', (List.append_inj' h rfl).1⟩

/-- The commit of a transaction: the codes that it leaves unused are of the last batch, and a code that
it takes was unused and of the last batch. -/
theorem Batches.commit (h : Batches db answers serial) (reply : Reply)
    (hcurrent : ∀ c ∈ (writes.foldl apply db).codes, c.usedAt = none →
      lastBatch c.user (answers ++ [reply]) = some c.key.batch)
    (hadded : ∀ c, Write.addCode c ∈ writes → c.key.batch < serial ∧ c.key ∉ accepted answers)
    (htaken : ∀ user key, reply = .recovered user key → Spent (writes.foldl apply db) key ∧
      key ∉ accepted answers ∧ key.batch < serial ∧ lastBatch user answers = some key.batch) :
    Batches (writes.foldl apply db) (answers ++ [reply]) (serial + 1) := by
  have hnew : ∀ key ∈ accepted [reply], ∃ user, reply = .recovered user key := by
    intro key hkey
    cases reply with
    | recovered user other =>
      obtain rfl : key = other := List.mem_singleton.mp hkey
      exact ⟨user, rfl⟩
    | _ => cases hkey
  obtain ⟨hcodes, haccepted⟩ := h.bounds reply (fun c hc => (hadded c hc).1) (fun key hkey => by
    obtain ⟨user, heq⟩ := hnew key hkey
    exact (htaken user key heq).2.2.1)
  refine ⟨hcurrent, fun key hkey => ?_, hcodes, haccepted, ?_, fun past user key rest hsplit => ?_⟩
  · rw [accepted_append] at hkey
    rcases List.mem_append.mp hkey with hkey | hkey
    · refine spent_foldl writes db key (fun c hc heq => ?_) (Or.inl (h.spent key hkey))
      exact (hadded c hc).2 (heq ▸ hkey)
    · obtain ⟨user, heq⟩ := hnew key hkey
      exact (htaken user key heq).1
  · rw [accepted_append]
    refine List.nodup_append.mpr ⟨h.once, ?_, fun key hkey other hother => ?_⟩
    · cases reply <;> simp [accepted]
    · obtain ⟨user, heq⟩ := hnew other hother
      exact fun hsame => (htaken user other heq).2.1 (hsame ▸ hkey)
  · rcases split_append _ _ past rest hsplit with ⟨rfl, heq⟩ | ⟨rest', hbefore⟩
    · exact (htaken user key heq.symm).2.2.2
    · exact h.ordered past user key rest' hbefore

theorem Batches.commit_plain (h : Batches db answers serial) (reply : Reply) (hplain : Plain reply)
    (hunissued : Unissued writes) :
    Batches (writes.foldl apply db) (answers ++ [reply]) (serial + 1) := by
  refine h.commit reply (fun c hc hunused => ?_) (fun c hc => absurd hc (hunissued c)) ?_
  · rw [lastBatch_append _ _ _ fun _ _ _ heq => by rw [heq] at hplain; exact hplain]
    exact h.current c (unissued_codes hunissued c hc hunused) hunused
  · intro user key heq
    rw [heq] at hplain
    cases hplain

theorem Batches.commit_recovered (h : Batches db answers serial) (user : ℕ) (key : Key)
    (hspends : Spends db writes user key) :
    Batches (writes.foldl apply db) (answers ++ [.recovered user key]) (serial + 1) := by
  obtain ⟨hunissued, hused, -, c, hc, rfl, hunused⟩ := hspends
  obtain ⟨rfl, hnone⟩ := (unusedBy_iff _ c).mp hunused
  refine h.commit _ (fun other hother hunused => ?_) (fun c hc => absurd hc (hunissued c)) ?_
  · rw [lastBatch_append _ _ _ fun _ _ _ => Reply.noConfusion]
    exact h.current other (unissued_codes hunissued other hother hunused) hunused
  · intro user key heq
    obtain ⟨rfl, rfl⟩ := Reply.recovered.inj heq
    refine ⟨spent_foldl writes db c.key (fun added hadded => absurd hadded (hunissued added))
      (Or.inr (Or.inl hused)), fun haccepted => ?_, h.codeBound c hc, h.current c hc hnone⟩
    exact h.spent c.key haccepted c hc rfl hnone

theorem Batches.commit_enrolled (h : Batches db answers serial) (flow user batch session : ℕ)
    (hrenews : Renews db answers serial writes user batch) :
    Batches (writes.foldl apply db) (answers ++ [.enrolled flow user batch session]) (serial + 1) := by
  refine h.commit _ (fun c hc hunused => ?_) (fun c hc => ?_) fun _ _ => Reply.noConfusion
  · obtain ⟨old, hold, -, hsame⟩ := origin_foldl writes db c hc
    rw [hsame hunused] at hold
    rcases hold with hold | hadded
    · by_cases huser : c.user = user
      · have hdeleted := hrenews.sweeps.swept c hold ((unusedBy_iff user c).mpr ⟨huser, hunused⟩)
        have hgone := spent_foldl writes db c.key
          (fun new hnew heq => (hrenews.issued new hnew).new c hold heq.symm)
          (Or.inr (Or.inr hdeleted))
        exact absurd hunused (hgone c hc rfl)
      · rw [lastBatch_append _ _ _ fun _ _ _ heq => huser (Reply.enrolled.inj heq).2.1.symm]
        exact h.current c hold hunused
    · obtain ⟨huser, hbatch, -, -, -⟩ := hrenews.issued c hadded
      rw [huser, hbatch, lastBatch_enrolled]
  · exact ⟨(hrenews.issued c hc).bound, (hrenews.issued c hc).unaccepted⟩

theorem Batches.finished (h : Batches db answers serial) (reply : Reply)
    (hfinished : Finished db answers serial writes reply) :
    Batches (writes.foldl apply db) (answers ++ [reply]) (serial + 1) := by
  cases reply with
  | recovered user key => exact h.commit_recovered user key hfinished
  | enrolled flow user batch session => exact h.commit_enrolled flow user batch session hfinished
  | _ => exact h.commit_plain _ trivial hfinished

theorem Batches.later (h : Batches db answers serial) : Batches db answers (serial + 1) :=
  { h with
    codeBound := fun c hc => Nat.lt_succ_of_lt (h.codeBound c hc)
    acceptedBound := fun key hkey => Nat.lt_succ_of_lt (h.acceptedBound key hkey) }

end

theorem step_inv (cfg : Config) (s : State Db Write Point Reply) (e : Event)
    (hlocked : ReadCommitted.Locked (program cfg) s) (h : Inv s) : Inv (step cfg s e) := by
  have hlater : ∀ x ∈ s.txns, Stands s.db s.answers (s.serial + 1) x.writes x.point := fun x hx =>
    stands_later s.db s.answers s.serial x.writes x.point (h.stands x hx)
  unfold step
  generalize ht : ReadCommitted.step (program cfg) s e = s'
  have heffect := ht ▸ ReadCommitted.step_effect (program cfg) s e
  cases heffect with
  | wait => exact ⟨h.batches.later, hlater⟩
  | arrive t request now hnew =>
    refine ⟨h.batches.later, fun x hx => ?_⟩
    rcases List.mem_cons.mp hx with rfl | hx
    · cases request with
      | enrollTotpSubmit a code hashes => rfl
      | recoverySubmit a code => rfl
      | _ => exact unissued_nil
    · exact hlater x hx
  | statement x now writes p hmem hanswer hstatement hfree =>
    refine ⟨h.batches.later, fun y hy => ?_⟩
    rcases ReadCommitted.mem_put s _ y hy with rfl | ⟨hy, -⟩
    · exact statement_stands cfg s.db s.answers s.serial x.writes writes x.point p h.batches.codeBound
        h.batches.acceptedBound (hlater x hmem) hstatement
    · exact hlater y hy
  | commit x r hmem hanswer =>
    have hfinished := h.stands x hmem
    rw [answer_some cfg x.point r hanswer] at hfinished
    refine ⟨h.batches.finished r hfinished, fun y hy => ?_⟩
    obtain ⟨hy, hne⟩ := (ReadCommitted.mem_drop s x.id y).mp hy
    have hbeside : Beside s.db s.answers s.serial y.writes x.writes r :=
      ⟨hlocked.rows x hmem y hy (Ne.symm hne), hfinished⟩
    exact hbeside.stands y.point (h.stands y hy)
  | abandon _ t hwhy =>
    exact ⟨h.batches.later, fun y hy => hlater y ((ReadCommitted.mem_drop s t y).mp hy).1⟩

theorem start_inv (tables : Tables) : Inv (initial tables) := by
  refine ⟨⟨?_, ?_, ?_, ?_, List.nodup_nil, ?_⟩, fun x hx => absurd hx List.not_mem_nil⟩
  · exact fun c hc => absurd hc List.not_mem_nil
  · exact fun key hkey => absurd hkey List.not_mem_nil
  · exact fun c hc => absurd hc List.not_mem_nil
  · exact fun key hkey => absurd hkey List.not_mem_nil
  · intro past user key rest hsplit
    simp [initial] at hsplit

theorem run_inv (cfg : Config) (tables : Tables) (events : List Event) :
    Inv (run cfg tables events) := by
  have hinv : ∀ (s : State Db Write Point Reply), ReadCommitted.Locked (program cfg) s → Inv s →
      Inv (events.foldl (step cfg) s) := by
    induction events with
    | nil => exact fun s _ h => h
    | cons e rest ih =>
      exact fun s hlocked h =>
        ih _ (ReadCommitted.locked_step (program cfg) s e hlocked) (step_inv cfg s e hlocked h)
  refine hinv _ ⟨?_, ?_⟩ (start_inv tables)
  · exact fun x hx => absurd hx List.not_mem_nil
  · exact fun x hx => absurd hx List.not_mem_nil

/-- In every run each recovery code is accepted at most once, one that is accepted is of the batch
of the user's last enrollment before, and the unused codes of a user are of the batch of the last. -/
theorem codes_of_last_batch (cfg : Config) (tables : Tables) (events : List Event) :
    (accepted (run cfg tables events).answers).Nodup ∧
      (∀ past user key rest, (run cfg tables events).answers = past ++ .recovered user key :: rest →
        lastBatch user past = some key.batch) ∧
      ∀ c ∈ (run cfg tables events).db.codes, c.usedAt = none →
        lastBatch c.user (run cfg tables events).answers = some c.key.batch := by
  have hbatches := (run_inv cfg tables events).batches
  exact ⟨hbatches.once, hbatches.ordered, hbatches.current⟩

end Hyproxy.RecoveryBatches

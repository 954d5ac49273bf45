import Hyproxy.CodeReplay
import Hyproxy.GrantTables
import Hyproxy.RefreshRotation
import Hyproxy.Revocation

/-!
What may be used once: authorization codes and the grants of the brokers. A code is
consumed at most once and before its expiry in every run. A code that is presented
again takes its session and the tokens of the session with it, unless another
transaction adds a token to the session after the replay has looked for them.
-/
namespace Hyproxy.ConsumedOnce

open CodeReplay CodeSpending
open ReadCommitted (Event Locked Txn)
open RefreshLedger (Known)
open RefreshRotation (present sampleConfig signIn statements)
open RefreshTokens (Config Point Request System Write program)
open Runs
open SingleUse (Ready Spent spendings)

structure Inv (cfg : Config) (w : Watched) : Prop where
  locked : Locked (program cfg) w.sys
  spent : Spent codeTable w.sys.db.codes w.spent
  ready : ∀ x ∈ w.sys.txns, Ready codeTable w.sys.db.codes (changes x.writes)
  begins : ∀ x ∈ w.sys.txns, begun x.point = false → x.writes = []
  redeems : ∀ x ∈ w.sys.txns, Redeems cfg x.writes x.point
  exchanged : (exchanges w.sys.answers).Sublist w.spent
  stage : ∀ p ∈ w.presented, Known w.sys.db p.2 ∧
    ∃ x ∈ w.sys.txns, x.id = p.1 ∧ Stage cfg w.sys.db x.writes p.2 x.point
  replayed : ReplaysRevoke w

/-- A replay that is watched still has its transaction open. -/
theorem mem_presented (cfg : Config) (w : Watched) (e : Event Request) (p : ℕ × ℕ)
    (h : p ∈ (watch cfg w e).presented) :
    (p ∈ w.presented ∨ presents cfg w.sys e = some p) ∧
      ∃ y ∈ (watch cfg w e).sys.txns, y.id = p.1 := by
  obtain ⟨hp, hopen⟩ := List.mem_filter.mp h
  obtain ⟨y, hy⟩ := Option.isSome_iff_exists.mp hopen
  obtain ⟨hmem, hid⟩ := ReadCommitted.txn_some _ _ y hy
  refine ⟨?_, y, hmem, hid⟩
  rcases List.mem_append.mp hp with hp | hp
  · exact Or.inl hp
  · exact Or.inr (Option.mem_toList.mp hp)

/-- A step that commits nothing. -/
theorem inv_open (cfg : Config) (w : Watched) (e : Event Request) (h : Inv cfg w)
    (hcommits : committing w.sys e = none) (hdb : (watch cfg w e).sys.db = w.sys.db)
    (hanswers : (watch cfg w e).sys.answers = w.sys.answers)
    (htxns : ∀ y ∈ (watch cfg w e).sys.txns, y ∈ w.sys.txns ∨
      Ready codeTable w.sys.db.codes (changes y.writes) ∧ (begun y.point = false → y.writes = []) ∧
        Redeems cfg y.writes y.point)
    (hstage : ∀ p ∈ (watch cfg w e).presented, Known w.sys.db p.2 ∧
      ∃ x ∈ (watch cfg w e).sys.txns, x.id = p.1 ∧ Stage cfg w.sys.db x.writes p.2 x.point) :
    Inv cfg (watch cfg w e) where
  locked := ReadCommitted.locked_step (program cfg) w.sys e h.locked
  spent := by
    have hsame : (watch cfg w e).spent = w.spent := by
      simp only [watch, hcommits, Option.map_none, Option.getD_none, List.append_nil]
    rw [hdb, hsame]
    exact h.spent
  ready y hy := by
    rw [hdb]
    exact (htxns y hy).elim (h.ready y) And.left
  begins y hy := (htxns y hy).elim (h.begins y) fun hnew => hnew.2.1
  redeems y hy := (htxns y hy).elim (h.redeems y) fun hnew => hnew.2.2
  exchanged := by
    have hsame : (watch cfg w e).spent = w.spent := by
      simp only [watch, hcommits, Option.map_none, Option.getD_none, List.append_nil]
    rw [hanswers, hsame]
    exact h.exchanged
  stage p hp := by
    rw [hdb]
    exact hstage p hp
  replayed := by
    have hsame : (watch cfg w e).replayed = w.replayed := by
      simp only [watch, hcommits, Option.map_none, Option.getD_none, List.append_nil]
    rw [ReplaysRevoke, hdb, hsame]
    exact h.replayed

/-- Transactions only fall away. -/
theorem inv_fewer (cfg : Config) (w : Watched) (e : Event Request) (h : Inv cfg w)
    (hcommits : committing w.sys e = none) (hpresents : presents cfg w.sys e = none)
    (hdb : (watch cfg w e).sys.db = w.sys.db)
    (hanswers : (watch cfg w e).sys.answers = w.sys.answers)
    (hsub : ∀ y ∈ (watch cfg w e).sys.txns, y ∈ w.sys.txns) : Inv cfg (watch cfg w e) := by
  refine inv_open cfg w e h hcommits hdb hanswers (fun y hy => Or.inl (hsub y hy)) fun p hp => ?_
  obtain ⟨hmem, y, hy, hid⟩ := mem_presented cfg w e p hp
  rw [hpresents] at hmem
  obtain ⟨hknown, x, hx, hxid, hstage⟩ := h.stage p (hmem.resolve_right fun heq => by cases heq)
  obtain rfl := h.locked.ids x hx y (hsub y hy) (hxid.trans hid.symm)
  exact ⟨hknown, x, hy, hid, hstage⟩

theorem inv_arrive (cfg : Config) (w : Watched) (t : ℕ) (request : Request) (now : ℤ)
    (h : Inv cfg w) (hstep : (watch cfg w (.arrive t request now)).sys =
      { w.sys.wait with txns := ⟨t, RefreshTokens.start request now, []⟩ :: w.sys.txns }) :
    Inv cfg (watch cfg w (.arrive t request now)) := by
  refine inv_open cfg w _ h rfl (by rw [hstep]; rfl) (by rw [hstep]; rfl) ?_ fun p hp => ?_
  · rw [hstep]
    intro y hy
    rcases List.mem_cons.mp hy with rfl | hy
    · exact Or.inr ⟨SingleUse.ready_nil codeTable _, fun _ => rfl, redeems_start cfg request now⟩
    · exact Or.inl hy
  · obtain ⟨hmem, -⟩ := mem_presented cfg w _ p hp
    obtain ⟨hknown, x, hx, hid, hstage⟩ := h.stage p (hmem.resolve_right fun heq => by cases heq)
    rw [hstep]
    exact ⟨hknown, x, List.mem_cons_of_mem _ hx, hid, hstage⟩

/-- A statement takes each replay of its transaction one stage further. -/
theorem inv_statement (cfg : Config) (w : Watched) (x : Txn Write Point) (now : ℤ)
    (new : List Write) (p : Point) (h : Inv cfg w) (hx : x ∈ w.sys.txns)
    (hissues : Issues (x.view (program cfg) w.sys.db) x.point)
    (hstatement : RefreshTokens.statement cfg (x.view (program cfg) w.sys.db) w.sys.serial now
      x.point = some (new, p))
    (hstep : (watch cfg w (.statement x.id now)).sys =
      { w.sys.wait with txns := w.sys.put ⟨x.id, p, x.writes ++ new⟩ })
    (hpresents : ∀ q, presents cfg w.sys (.statement x.id now) = some q →
      q.1 = x.id ∧ Known w.sys.db q.2 ∧ Stage cfg w.sys.db (x.writes ++ new) q.2 p) :
    Inv cfg (watch cfg w (.statement x.id now)) := by
  obtain ⟨hcodes, hbegun⟩ := statement_codes cfg _ _ now x.point p new hstatement
  have hself := ReadCommitted.self_mem_put w.sys x ⟨x.id, p, x.writes ++ new⟩ hx rfl
  refine inv_open cfg w _ h rfl (by rw [hstep]; rfl) (by rw [hstep]; rfl) ?_ fun q hq => ?_
  · rw [hstep]
    intro y hy
    rcases ReadCommitted.mem_put w.sys _ y hy with rfl | ⟨hy, -⟩
    · refine Or.inr ⟨statement_ready cfg w.sys.db x new (h.ready x hx) (h.begins x hx) hissues
        hcodes, fun hnot => ?_, redeems_statement cfg _ _ now x.writes new x.point p (h.begins x hx)
          (h.redeems x hx) hstatement⟩
      rw [hbegun] at hnot
      cases hnot
    · exact Or.inl hy
  · rw [hstep]
    obtain ⟨hmem | hmem, -⟩ := mem_presented cfg w _ q hq
    · obtain ⟨hknown, y, hy, hid, hstage⟩ := h.stage q hmem
      by_cases hsame : y.id = x.id
      · obtain rfl := h.locked.ids y hy x hx hsame
        exact ⟨hknown, _, hself, hid, stage_statement cfg w.sys.db w.spent _ now y.writes new q.2
          y.point p h.spent hknown hstage hstatement⟩
      · exact ⟨hknown, y, ReadCommitted.mem_put_of_ne w.sys _ y hy hsame, hid, hstage⟩
    · obtain ⟨hid, hknown, hstage⟩ := hpresents q hmem
      exact ⟨hknown, _, hself, hid.symm, hstage⟩

theorem presents_some (cfg : Config) (s : System) (e : Event Request) (q : ℕ × ℕ)
    (h : presents cfg s e = some q) :
    ∃ x now req arrived, s.txn x.id = some x ∧ e = .statement x.id now ∧ q.1 = x.id ∧
      x.point = .consumeCode req arrived ∧
      Known (x.view (program cfg) s.db) q.2 ∧
      ∃ row ∈ (x.view (program cfg) s.db).codes, row.codeHash = cfg.sha256Hex req.code ∧
        row.consumedAt.isSome ∧ row.session = q.2 := by
  cases e with
  | statement t now =>
    obtain ⟨x, hx, hrow⟩ := Option.bind_eq_some_iff.mp h
    obtain ⟨-, rfl⟩ := ReadCommitted.txn_some s t x hx
    cases hpoint : x.point with
    | consumeCode req arrived =>
      rw [hpoint] at hrow
      obtain ⟨row, hfind, rfl⟩ := Option.map_eq_some_iff.mp hrow
      have hcond := List.find?_some hfind
      simp only [Bool.and_eq_true, beq_iff_eq] at hcond
      exact ⟨x, now, req, arrived, hx, rfl, rfl, hpoint, hcond.2, row,
        List.mem_of_find?_eq_some hfind, hcond.1.1, hcond.1.2, rfl⟩
    | _ =>
      rw [hpoint] at hrow
      cases hrow
  | _ => cases h

/-- A consumed code is not consumed again. -/
theorem inv_presents (cfg : Config) (w : Watched) (e : Event Request) (q : ℕ × ℕ) (h : Inv cfg w)
    (hpresents : presents cfg w.sys e = some q) : Inv cfg (watch cfg w e) := by
  obtain ⟨x, now, req, arrived, hx, rfl, hid, hpoint, hknown, row, hrow, hhash, hconsumed,
    hsession⟩ := presents_some cfg w.sys e q hpresents
  obtain ⟨hmem, -⟩ := ReadCommitted.txn_some w.sys x.id x hx
  have hnil : x.writes = [] := h.begins x hmem (by rw [hpoint]; rfl)
  have hview : x.view (program cfg) w.sys.db = w.sys.db := by rw [Txn.view, hnil]; rfl
  rw [hview] at hrow hknown
  have hnone : (w.sys.db.codes.any fun other => other.codeHash == cfg.sha256Hex req.code &&
      other.consumedAt.isNone && decide (arrived < other.expiresAt)) = false := by
    refine List.any_eq_false.mpr fun other hother hcond => ?_
    simp only [Bool.and_eq_true, beq_iff_eq] at hcond
    have hsame := SingleUse.eq_of_key codeTable _ _ h.spent other row hother hrow
      (hcond.1.1.trans hhash.symm)
    rw [hsame, Option.isNone_iff_eq_none] at hcond
    rw [hcond.1.2] at hconsumed
    cases hconsumed
  have hstatement : RefreshTokens.statement cfg (x.view (program cfg) w.sys.db) w.sys.serial now
      x.point = some ([], .findConsumed req) := by
    rw [hview, hpoint]
    simp only [RefreshTokens.statement, hnone, Bool.false_eq_true, if_false]
  refine inv_statement cfg w x now [] (.findConsumed req) h hmem ?_ hstatement ?_ fun q' hq' => ?_
  · rw [hpoint]
    exact fun row hrow => (by cases hrow)
  · rw [List.append_nil]
    exact ReadCommitted.step_read (program cfg) w.sys x now _ hx (by rw [hpoint]; rfl) hstatement
  · obtain rfl := Option.some.inj (hpresents.symm.trans hq')
    refine ⟨hid, hknown, ?_⟩
    rw [hnil]
    exact ⟨rfl, row, hrow, hhash, hconsumed, hsession⟩

theorem commit_step (cfg : Config) (s : System) (e : Event Request) (x : Txn Write Point)
    (h : committing s e = some x) :
    x ∈ s.txns ∧ e = .commit x.id ∧ ∃ r, x.point.answer = some r ∧
      ReadCommitted.step (program cfg) s e =
        ⟨x.view (program cfg) s.db, s.drop x.id, s.answers ++ [r], s.serial + 1⟩ := by
  cases e with
  | commit t =>
    obtain ⟨hx, hanswer⟩ := Option.filter_eq_some_iff.mp h
    obtain ⟨hmem, rfl⟩ := ReadCommitted.txn_some s t x hx
    obtain ⟨r, hr⟩ := Option.isSome_iff_exists.mp hanswer
    refine ⟨hmem, rfl, r, hr, ?_⟩
    have hprogram : (program cfg).answer x.point = some r := hr
    simp only [ReadCommitted.step, hx, hprogram]
  | _ => cases h

theorem inv_commit (cfg : Config) (w : Watched) (e : Event Request) (x : Txn Write Point)
    (h : Inv cfg w) (hcommits : committing w.sys e = some x) (hjoins : Joins w x) :
    Inv cfg (watch cfg w e) := by
  obtain ⟨hx, rfl, r, hanswer, hstep⟩ := commit_step cfg w.sys e x hcommits
  have hdb : (watch cfg w (.commit x.id)).sys.db = x.writes.foldl RefreshTokens.apply w.sys.db :=
    congrArg ReadCommitted.State.db hstep
  have htxns : (watch cfg w (.commit x.id)).sys.txns = w.sys.drop x.id :=
    congrArg ReadCommitted.State.txns hstep
  have hspent : (watch cfg w (.commit x.id)).spent = w.spent ++ spendings (changes x.writes) := by
    simp only [watch, hcommits, Option.map_some, Option.getD_some]
  refine ⟨ReadCommitted.locked_step (program cfg) w.sys (.commit x.id) h.locked, ?_,
    fun y hy => ?_, fun y hy => ?_, fun y hy => ?_, ?_, fun p hp => ?_, fun session hsession => ?_⟩
  · rw [hdb, codes_foldl, hspent]
    exact SingleUse.spent_all codeTable _ w.spent _ h.spent (h.ready x hx)
  · rw [htxns] at hy
    obtain ⟨hy, hne⟩ := (ReadCommitted.mem_drop w.sys x.id y).mp hy
    rw [hdb, codes_foldl]
    exact SingleUse.ready_other codeTable _ _ _ (h.ready y hy)
      (changes_apart y.writes x.writes (h.locked.rows y hy x hx hne))
  · rw [htxns] at hy
    exact h.begins y ((ReadCommitted.mem_drop w.sys x.id y).mp hy).1
  · rw [htxns] at hy
    exact h.redeems y ((ReadCommitted.mem_drop w.sys x.id y).mp hy).1
  · have hanswers : (watch cfg w (.commit x.id)).sys.answers = w.sys.answers ++ [r] :=
      congrArg ReadCommitted.State.answers hstep
    rw [hanswers, hspent, exchanges, List.filterMap_append]
    exact h.exchanged.append (redeems_answer cfg x.writes x.point r hanswer (h.redeems x hx))
  · obtain ⟨hmem, y, hy, hid⟩ := mem_presented cfg w _ p hp
    obtain ⟨hknown, z, hz, hzid, hstage⟩ := h.stage p (hmem.resolve_right fun heq => by cases heq)
    rw [htxns] at hy ⊢
    have hne : z.id ≠ x.id := by
      rw [hzid, ← hid]
      exact ((ReadCommitted.mem_drop w.sys x.id y).mp hy).2
    rw [hdb]
    refine ⟨RefreshLedger.known_keeps_all x.writes _ _ hknown, z,
      (ReadCommitted.mem_drop w.sys x.id z).mpr ⟨hz, hne⟩, hzid, ?_⟩
    refine stage_commit cfg w.sys.db w.spent x.writes z.writes p.2 z.point h.spent (h.ready x hx)
      (fun hadded => ?_) hstage
    exact (hjoins p.2 hadded).2 p (hmem.resolve_right fun heq => by cases heq) rfl z hz hzid
  · have hreplayed : (watch cfg w (.commit x.id)).replayed =
        w.replayed ++ (w.presented.filter fun p => p.1 = x.id).map Prod.snd := by
      simp only [watch, hcommits, Option.map_some, Option.getD_some]
    rw [hreplayed] at hsession
    rw [hdb]
    rcases List.mem_append.mp hsession with hold | hnew
    · obtain ⟨hrevoked, hall⟩ := h.replayed session hold
      exact revoked_others w.sys.db x.writes session (fun hadded => (hjoins session hadded).1 hold)
        hrevoked hall
    · obtain ⟨p, hp, rfl⟩ := List.mem_map.mp hnew
      obtain ⟨hp, hpid⟩ := List.mem_filter.mp hp
      obtain ⟨-, y, hy, hid, hstage⟩ := h.stage p hp
      obtain rfl := h.locked.ids y hy x hx (hid.trans (of_decide_eq_true hpid))
      exact stage_answered cfg w.sys.db y.writes p.2 y.point (Option.isSome_of_eq_some hanswer) hstage

theorem inv_step (cfg : Config) (w : Watched) (e : Event Request) (h : Inv cfg w)
    (hguard : Undisturbed cfg w e) : Inv cfg (watch cfg w e) := by
  cases hcommits : committing w.sys e with
  | some x =>
    obtain ⟨hx, rfl, -⟩ := commit_step cfg w.sys e x hcommits
    exact inv_commit cfg w _ x h hcommits (hguard x hx rfl)
  | none =>
    cases hpresents : presents cfg w.sys e with
    | some q => exact inv_presents cfg w e q h hpresents
    | none =>
      generalize ht : ReadCommitted.step (program cfg) w.sys e = s'
      have heffect := ht ▸ ReadCommitted.step_effect (program cfg) w.sys e
      have hsys : (watch cfg w e).sys = s' := ht
      cases heffect with
      | wait =>
        refine inv_fewer cfg w e h hcommits hpresents (by rw [hsys]; rfl) (by rw [hsys]; rfl) ?_
        rw [hsys]
        exact fun _ hy => hy
      | arrive t request now hnew => exact inv_arrive cfg w t request now h hsys
      | statement x now new p hx hanswer hstatement hfree =>
        refine inv_statement cfg w x now new p h hx (hguard x hx rfl) hstatement hsys ?_
        intro q hq
        rw [hpresents] at hq
        cases hq
      | commit x r hx hanswer =>
        have hsome : committing w.sys (.commit x.id) = some x := by
          rw [committing, ReadCommitted.txn_of_mem (program cfg) w.sys x h.locked hx]
          refine Option.filter_eq_some_iff.mpr ⟨rfl, ?_⟩
          exact Option.isSome_iff_exists.mpr ⟨r, hanswer⟩
        rw [hcommits] at hsome
        cases hsome
      | abandon _ t =>
        refine inv_fewer cfg w e h hcommits hpresents (by rw [hsys]; rfl) (by rw [hsys]; rfl) ?_
        rw [hsys]
        exact fun y hy => ((ReadCommitted.mem_drop w.sys t y).mp hy).1

theorem inv_begin (cfg : Config) : Inv cfg begin_ where
  locked := ⟨fun x hx => (by cases hx), fun x hx => (by cases hx)⟩
  spent := SingleUse.spent_nil codeTable
  ready x hx := by cases hx
  begins x hx := by cases hx
  redeems x hx := by cases hx
  exchanged := List.Sublist.refl _
  stage p hp := by cases hp
  replayed session hsession := by cases hsession

/-- No code and no grant is used twice, and tokens are issued for a code only with its use. Where no
token joins a session after a replay has looked for its tokens, a code that is presented again takes
its session and all tokens with it. -/
theorem single_use (cfg : Config) (events : List (Event Request))
    (grantCfg : SessionArtifacts.Config) (grantEvents : List (Event GrantTables.Request))
    (h : Along (watch cfg) (Undisturbed cfg) begin_ events) :
    Spent codeTable (events.foldl (watch cfg) begin_).sys.db.codes
        (events.foldl (watch cfg) begin_).spent ∧
      (exchanges (events.foldl (watch cfg) begin_).sys.answers).Sublist
        (events.foldl (watch cfg) begin_).spent ∧
      ReplaysRevoke (events.foldl (watch cfg) begin_) ∧
      Spent (GrantTables.grantTable grantCfg) (GrantTables.after grantCfg grantEvents).db
        (GrantTables.consumptions (GrantTables.after grantCfg grantEvents).answers) := by
  have hinv := h.invariant (Inv cfg) (inv_begin cfg) (inv_step cfg)
  exact ⟨hinv.spent, hinv.exchanged, hinv.replayed, GrantTables.grants_spent grantCfg grantEvents⟩

/-- The code of the sign-in is presented once more. -/
def again (t : ℕ) (newToken : Char) : Event Request :=
  .arrive t (.authorizationCode ⟨['w'], ['k'], ['c'], ['u'], List.replicate 43 'v', [newToken]⟩) 2

def replay : List (Event Request) := signIn ++ again 3 'd' :: statements 3 6 ++ [.commit 3]

/-- A grant for a stream is minted and consumed. -/
def watchStream : List (Event GrantTables.Request) :=
  [.arrive 1 (.issue ⟨.rtsp, ['t'], 1, ['a'], 60, none, 7⟩) 0, .statement 1 0, .commit 1,
    .arrive 2 (.consume ⟨.rtsp, ['t'], ['a'], 1, 5⟩) 5, .statement 2 5, .commit 2]

/-- One exchange of the code, and one replay. -/
theorem single_use_replay :
    (replay.foldl (watch sampleConfig) begin_).replayed = [7] ∧
      exchanges (replay.foldl (watch sampleConfig) begin_).sys.answers = [(['c'], 0)] ∧
      [(['c'], 0)].Sublist (replay.foldl (watch sampleConfig) begin_).spent ∧
      ReplaysRevoke (replay.foldl (watch sampleConfig) begin_) ∧
      Spent (GrantTables.grantTable Revocation.sampleConfig)
        (GrantTables.after Revocation.sampleConfig watchStream).db
        [⟨.rtsp, ['t'], ['a'], 1, 5⟩] := by
  have hexchanged : exchanges (replay.foldl (watch sampleConfig) begin_).sys.answers =
      [(['c'], 0)] := by decide
  obtain ⟨-, hspent, hreplays, hgrants⟩ :=
    single_use sampleConfig replay Revocation.sampleConfig watchStream (by decide)
  rw [hexchanged] at hspent
  exact ⟨by decide, hexchanged, hspent, hreplays, hgrants⟩

/-- A refresh grant mints its token before the replay looks for tokens and commits after that. -/
def rotatedMeanwhile : List (Event Request) :=
  signIn ++ present 3 'a' 'b' :: statements 3 4 ++ again 4 'd' :: statements 4 4 ++
    .commit 3 :: statements 4 2 ++ [.commit 4]

theorem minted_token_outlives_replay :
    ¬ ∀ events : List (Event Request),
      ReplaysRevoke (events.foldl (watch sampleConfig) begin_) := by
  intro h
  have hreplayed : 7 ∈ (rotatedMeanwhile.foldl (watch sampleConfig) begin_).replayed := by decide
  exact absurd (h rotatedMeanwhile 7 hreplayed).2 (by unfold AllRevoked; decide)

end Hyproxy.ConsumedOnce

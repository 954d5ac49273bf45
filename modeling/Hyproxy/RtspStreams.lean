import Hyproxy.RtspGrants
import Hyproxy.Runs
import Mathlib.Data.List.Perm.Subperm
import Mathlib.Data.Set.Function

/-!
Camera streams over whole runs of the broker, the data plane and the bridge. Each
request sent to the bridge spends a row of its own. Where the ends of the token
list agree in every such request, the row is that of the token which the bridge
decrypts, so every stream has its own grant.
-/

namespace Hyproxy.RtspStreams

open RtspGrants Runs Utf8
open DataPlane (ConsumeRequest Ground Outgoing gatewayCookie)

variable {User Ip : Type} [DecidableEq User] [DecidableEq Ip]

/-- The texts that an event puts through the digest. -/
def digested (cfg : Config Ip) : Event User Ip → List (List Char)
  | .mint m => [mintToken m.iv m.ct]
  | .connect c => [jsonText (c.token cfg)]
  | _ => []

/-- The digest tells the tokens of a run apart. -/
def CollisionFree (cfg : Config Ip) (events : List (Event User Ip)) : Prop :=
  Set.InjOn cfg.sha256Hex {t | t ∈ events.flatMap (digested cfg)}

omit [DecidableEq User] [DecidableEq Ip] in
theorem collisionFree_of_one (cfg : Config Ip) (events : List (Event User Ip)) (token : List Char)
    (hone : ∀ t ∈ events.flatMap (digested cfg), t = token) : CollisionFree cfg events := by
  intro t ht t' ht' _
  rw [hone t ht, hone t' ht']

/-- A connect of the run consumed the row with this number, when the row was for this
token, unconsumed, unexpired and minted for the address and the user of the connect. -/
def Backed (cfg : Config Ip) (events : List (Event User Ip)) (serial : ℕ) (token : List Char) :
    Prop :=
  ∃ past c rest row, events = past ++ .connect c :: rest ∧ row ∈ (after cfg past).rows ∧
    { row with consumedAt := some c.now } ∈ (after cfg (past ++ [.connect c])).rows ∧
    row.serial = serial ∧ row.tokenHash = cfg.sha256Hex token ∧
    row.consumedAt = none ∧ c.now < row.expiresAt ∧
    cfg.inet (jsonText c.request.clientIP) = some row.sourceIP ∧
    c.live (jsonText (gatewayCookie cfg.srv c.request)) = some row.user

theorem backed_snoc (cfg : Config Ip) (past : List (Event User Ip)) (e : Event User Ip)
    (serial : ℕ) (token : List Char) (h : Backed cfg past serial token) :
    Backed cfg (past ++ [e]) serial token := by
  obtain ⟨before, c, rest, row, rfl, hrow⟩ := h
  exact ⟨before, c, rest ++ [e], row, by simp, hrow⟩

omit [DecidableEq User] [DecidableEq Ip] in
theorem issueStream_ok (cfg : Config Ip) (m : Mint User) (token : List Char) (expiresAt : ℤ)
    (h : issueStream cfg m = .ok (token, expiresAt)) :
    token = mintToken m.iv m.ct ∧ expiresAt = m.now + cfg.grantTtl := by
  unfold issueStream at h
  split_ifs at h
  obtain ⟨rfl, rfl⟩ := Prod.mk.inj (Except.ok.inj h)
  exact ⟨rfl, rfl⟩

omit [DecidableEq User] [DecidableEq Ip] in
theorem mintRow_some (cfg : Config Ip) (rows : List (RtspGrant User Ip)) (next : ℕ) (m : Mint User)
    (row : RtspGrant User Ip) (h : mintRow cfg rows next m = some row) :
    row.serial = next ∧ row.tokenHash = cfg.sha256Hex (mintToken m.iv m.ct) ∧
      row.consumedAt = none := by
  unfold mintRow at h
  split at h
  · rename_i token expiresAt ip hissue hip
    split_ifs at h
    obtain rfl := Option.some.inj h
    rw [(issueStream_ok cfg m token expiresAt hissue).1]
    exact ⟨rfl, rfl, rfl⟩
  · cases h

/-- The numbers of the grants consumed for requests on their way and for streams. -/
def spent (s : State User Ip) : List ℕ :=
  s.inFlight.map Forwarded.serial ++ s.streams.map Stream.serial

/-- The rows of a reachable state. -/
structure Rows (cfg : Config Ip) (past : List (Event User Ip)) (s : State User Ip) : Prop where
  below : ∀ row ∈ s.rows, row.serial < s.next
  distinct : ∀ row ∈ s.rows, ∀ row' ∈ s.rows, row.serial = row'.serial → row = row'
  minted : ∀ row ∈ s.rows, ∃ m, Event.mint m ∈ past ∧
    row.tokenHash = cfg.sha256Hex (mintToken m.iv m.ct)

/-- Each grant number is spent once, and then on a row that stays consumed. -/
structure Spent (s : State User Ip) : Prop where
  below : ∀ n ∈ spent s, n < s.next
  consumed : ∀ row ∈ s.rows, row.serial ∈ spent s → row.consumedAt ≠ none
  nodup : (spent s).Nodup

/-- Consuming changes nothing of a row but the time of its consumption. -/
theorem rtspConsume_map (cfg : Config Ip) (live : List Char → Option User) (now : ℤ)
    (rows : List (RtspGrant User Ip)) (body : ConsumeRequest) :
    ∃ f, (rtspConsume cfg live now rows body).2 = rows.map f ∧
      ∀ row, f row = row ∨ f row = { row with consumedAt := some now } := by
  unfold rtspConsume
  split
  · exact ⟨id, by simp, fun row => Or.inl rfl⟩
  · split
    · exact ⟨id, by simp, fun row => Or.inl rfl⟩
    · refine ⟨_, rfl, fun row => ?_⟩
      split
      · exact Or.inr rfl
      · exact Or.inl rfl

/-- What a connect does to the state. -/
theorem connect_cases (cfg : Config Ip) (s : State User Ip) (c : Connect User) :
    (c.token cfg = [] ∧ connect cfg s c = s) ∨
      connect cfg s c =
        { s with rows := (rtspConsume cfg c.live c.now s.rows (c.body cfg)).2 } ∨
      ∃ g out row, c.serve cfg s.rows = .forward g out ∧ c.row? cfg s.rows = some row ∧
        connect cfg s c =
          { s with
            rows := (rtspConsume cfg c.live c.now s.rows (c.body cfg)).2
            inFlight := ⟨out.url.rawQuery, row.serial⟩ :: s.inFlight } := by
  unfold connect
  split
  · rename_i htoken
    exact Or.inl ⟨htoken, rfl⟩
  · cases hserve : c.serve cfg s.rows with
    | forward g out =>
      obtain ⟨-, -, -, -, row, -, -, hrow, -⟩ := serve_forward cfg s.rows c g out hserve
      refine Or.inr (Or.inr ⟨g, out, row, rfl, hrow, ?_⟩)
      simp only [hrow]
    | redirect location => exact Or.inr (Or.inl rfl)
    | error status text => exact Or.inr (Or.inl rfl)

omit [DecidableEq User] [DecidableEq Ip] in
theorem rows_map (cfg : Config Ip) (past : List (Event User Ip)) (s s' : State User Ip)
    (f : RtspGrant User Ip → RtspGrant User Ip) (now : ℤ) (h : Rows cfg past s)
    (hnext : s'.next = s.next) (hrows : s'.rows = s.rows.map f)
    (hf : ∀ row, f row = row ∨ f row = { row with consumedAt := some now }) :
    Rows cfg past s' := by
  have hserial : ∀ row, (f row).serial = row.serial := fun row => by
    rcases hf row with hrow | hrow <;> rw [hrow]
  have hhash : ∀ row, (f row).tokenHash = row.tokenHash := fun row => by
    rcases hf row with hrow | hrow <;> rw [hrow]
  constructor
  · rw [hrows]
    intro row hrow
    obtain ⟨old, hold, rfl⟩ := List.mem_map.mp hrow
    rw [hserial, hnext]
    exact h.below old hold
  · rw [hrows]
    intro row hrow row' hrow' heq
    obtain ⟨old, hold, rfl⟩ := List.mem_map.mp hrow
    obtain ⟨old', hold', rfl⟩ := List.mem_map.mp hrow'
    rw [hserial, hserial] at heq
    rw [h.distinct old hold old' hold' heq]
  · rw [hrows]
    intro row hrow
    obtain ⟨old, hold, rfl⟩ := List.mem_map.mp hrow
    rw [hhash]
    exact h.minted old hold

omit [DecidableEq User] [DecidableEq Ip] in
theorem rows_snoc (cfg : Config Ip) (past : List (Event User Ip)) (e : Event User Ip)
    (s : State User Ip) (h : Rows cfg past s) : Rows cfg (past ++ [e]) s := by
  refine ⟨h.below, h.distinct, fun row hrow => ?_⟩
  obtain ⟨m, hm, hhash⟩ := h.minted row hrow
  exact ⟨m, List.mem_append_left _ hm, hhash⟩

theorem rows_mint (cfg : Config Ip) (past : List (Event User Ip)) (s : State User Ip)
    (m : Mint User) (h : Rows cfg past s) : Rows cfg (past ++ [.mint m]) (mint cfg s m) := by
  have hkept := rows_snoc cfg past (.mint m) s h
  unfold mint
  cases hrow : mintRow cfg s.rows s.next m with
  | none => exact hkept
  | some new =>
    obtain ⟨hserial, hhash, hnone⟩ := mintRow_some cfg s.rows s.next m new hrow
    constructor
    · intro row hmem
      rcases List.mem_cons.mp hmem with rfl | hmem
      · exact hserial ▸ Nat.lt_succ_self _
      · exact Nat.lt_succ_of_lt (h.below row hmem)
    · intro row hmem row' hmem' heq
      rcases List.mem_cons.mp hmem with hnew | hold <;>
        rcases List.mem_cons.mp hmem' with hnew' | hold'
      · rw [hnew, hnew']
      · have := h.below row' hold'
        rw [hnew] at heq
        omega
      · have := h.below row hold
        rw [hnew'] at heq
        omega
      · exact h.distinct row hold row' hold' heq
    · intro row hmem
      rcases List.mem_cons.mp hmem with rfl | hmem
      · exact ⟨m, by simp, hhash⟩
      · exact hkept.minted row hmem

theorem rows_step (cfg : Config Ip) (past : List (Event User Ip)) (s : State User Ip)
    (e : Event User Ip) (h : Rows cfg past s) : Rows cfg (past ++ [e]) (step cfg s e) := by
  have hkept := rows_snoc cfg past e s h
  cases e with
  | mint m => exact rows_mint cfg past s m h
  | connect c =>
    obtain ⟨f, hmap, hf⟩ := rtspConsume_map cfg c.live c.now s.rows (c.body cfg)
    rcases connect_cases cfg s c with ⟨-, heq⟩ | heq | ⟨g, out, row, -, -, heq⟩
    · rwa [step, heq]
    · rw [step, heq]
      exact rows_map cfg _ s _ f c.now hkept rfl hmap hf
    · rw [step, heq]
      exact rows_map cfg _ s _ f c.now hkept rfl hmap hf
  | accept f =>
    rw [step]
    unfold accept
    split
    · split
      · exact ⟨hkept.below, hkept.distinct, hkept.minted⟩
      · exact ⟨hkept.below, hkept.distinct, hkept.minted⟩
    · exact hkept
  | finish userId => exact ⟨hkept.below, hkept.distinct, hkept.minted⟩
  | delete keep =>
    refine ⟨fun row hrow => hkept.below row (List.mem_of_mem_filter hrow), ?_,
      fun row hrow => hkept.minted row (List.mem_of_mem_filter hrow)⟩
    intro row hrow row' hrow'
    exact hkept.distinct row (List.mem_of_mem_filter hrow) row' (List.mem_of_mem_filter hrow')

theorem spent_forward (cfg : Config Ip) (past : List (Event User Ip)) (s : State User Ip)
    (c : Connect User) (g : Ground) (out : Outgoing) (row : RtspGrant User Ip)
    (h : Spent s) (hrows : Rows cfg past s) (hserve : c.serve cfg s.rows = .forward g out)
    (hrow : c.row? cfg s.rows = some row) :
    Spent { s with
      rows := (rtspConsume cfg c.live c.now s.rows (c.body cfg)).2
      inFlight := ⟨out.url.rawQuery, row.serial⟩ :: s.inFlight } := by
  obtain ⟨-, -, user, ip, row', -, -, hrow', hmem, hconsumable, hupdate⟩ :=
    serve_forward cfg s.rows c g out hserve
  obtain rfl : row = row' := Option.some.inj (hrow.symm.trans hrow')
  constructor
  · intro n hn
    rcases List.mem_cons.mp hn with rfl | hn
    · exact hrows.below row hmem
    · exact h.below n hn
  · intro new hnew hspent
    rw [hupdate] at hnew
    obtain ⟨old, hold, rfl⟩ := List.mem_map.mp hnew
    split
    · simp
    · rename_i hkeep
      rw [if_neg hkeep] at hspent
      rcases List.mem_cons.mp hspent with heq | hspent
      · obtain rfl := hrows.distinct old hold row hmem heq
        exact absurd hconsumable hkeep
      · exact h.consumed old hold hspent
  · refine List.nodup_cons.mpr ⟨fun hspent => ?_, h.nodup⟩
    exact h.consumed row hmem hspent hconsumable.2.1

theorem spent_consume (cfg : Config Ip) (s : State User Ip) (c : Connect User) (h : Spent s) :
    Spent { s with rows := (rtspConsume cfg c.live c.now s.rows (c.body cfg)).2 } := by
  obtain ⟨f, hmap, hf⟩ := rtspConsume_map cfg c.live c.now s.rows (c.body cfg)
  refine ⟨h.below, fun row hrow hspent => ?_, h.nodup⟩
  rw [hmap] at hrow
  obtain ⟨old, hold, rfl⟩ := List.mem_map.mp hrow
  rcases hf old with hsame | hchanged
  · rw [hsame] at hspent ⊢
    exact h.consumed old hold hspent
  · rw [hchanged]
    simp

omit [DecidableEq User] [DecidableEq Ip] in
theorem accept_spent (cfg : Config Ip) (s : State User Ip) (f : Forwarded) :
    (spent (accept cfg s f)).Subperm (spent s) := by
  unfold accept
  split
  · rename_i hmem
    have hperm : (f :: s.inFlight.erase f).Perm s.inFlight := (List.perm_cons_erase hmem).symm
    split
    · exact (((List.erase_sublist ..).map _).append_right _).subperm
    · refine List.Perm.subperm (List.perm_middle.trans ?_)
      exact (hperm.map Forwarded.serial).append_right _
  · exact List.Subperm.refl _

theorem spent_step (cfg : Config Ip) (past : List (Event User Ip)) (s : State User Ip)
    (e : Event User Ip) (h : Spent s) (hrows : Rows cfg past s) : Spent (step cfg s e) := by
  cases e with
  | mint m =>
    rw [step]
    unfold mint
    cases hrow : mintRow cfg s.rows s.next m with
    | none => exact h
    | some new =>
      refine ⟨fun n hn => Nat.lt_succ_of_lt (h.below n hn), fun row hmem hspent => ?_, h.nodup⟩
      rcases List.mem_cons.mp hmem with rfl | hmem
      · have hserial := (mintRow_some cfg s.rows s.next m row hrow).1
        exact absurd (h.below _ hspent) (by omega)
      · exact h.consumed row hmem hspent
  | connect c =>
    rcases connect_cases cfg s c with ⟨-, heq⟩ | heq | ⟨g, out, row, hserve, hrow, heq⟩
    · rwa [step, heq]
    · rw [step, heq]
      exact spent_consume cfg s c h
    · rw [step, heq]
      exact spent_forward cfg past s c g out row h hrows hserve hrow
  | accept f =>
    have hsub := accept_spent cfg s f
    have hframe : (accept cfg s f).rows = s.rows ∧ (accept cfg s f).next = s.next := by
      unfold accept
      split
      · split <;> exact ⟨rfl, rfl⟩
      · exact ⟨rfl, rfl⟩
    rw [step]
    refine ⟨fun n hn => ?_, fun row hmem hspent => ?_, ?_⟩
    · rw [hframe.2]
      exact h.below n (hsub.subset hn)
    · rw [hframe.1] at hmem
      exact h.consumed row hmem (hsub.subset hspent)
    · obtain ⟨l, hperm, hl⟩ := hsub
      exact hperm.nodup_iff.mp (h.nodup.sublist hl)
  | finish userId => exact ⟨h.below, h.consumed, h.nodup⟩
  | delete keep =>
    exact ⟨h.below, fun row hrow => h.consumed row (List.mem_of_mem_filter hrow), h.nodup⟩

omit [DecidableEq User] [DecidableEq Ip] in
/-- The token presented with a consumed row is the one that was minted for the row. -/
theorem consumed_token_ascii (cfg : Config Ip) (events past : List (Event User Ip))
    (s : State User Ip) (c : Connect User) (row : RtspGrant User Ip)
    (hsha : CollisionFree cfg events) (hpast : ∀ e ∈ past, e ∈ events)
    (hc : Event.connect c ∈ events) (hrows : Rows cfg past s) (hmem : row ∈ s.rows)
    (hhash : row.tokenHash = cfg.sha256Hex (jsonText (c.token cfg))) :
    Ascii (c.token cfg) ∧ jsonText (c.token cfg) = c.token cfg := by
  obtain ⟨m, hm, hminted⟩ := hrows.minted row hmem
  have hsame : mintToken m.iv m.ct = jsonText (c.token cfg) := by
    refine hsha (List.mem_flatMap.mpr ⟨.mint m, hpast _ hm, List.mem_singleton.mpr rfl⟩)
      (List.mem_flatMap.mpr ⟨.connect c, hc, List.mem_singleton.mpr rfl⟩) ?_
    rw [← hminted, hhash]
  have hascii := mintToken_ascii m.iv m.ct
  have htoken := (decode_eq_ascii_iff false (c.token cfg) _ hascii).mp hsame.symm
  exact ⟨htoken ▸ hascii, by rw [← hsame, htoken]⟩

/-- What every run keeps. -/
structure Inv (cfg : Config Ip) (events past : List (Event User Ip)) (s : State User Ip) :
    Prop where
  reached : s = after cfg past
  within : ∀ e ∈ past, e ∈ events
  rows : Rows cfg past s
  spent : Spent s

theorem inv_step (cfg : Config Ip) (events past : List (Event User Ip)) (s : State User Ip)
    (e : Event User Ip) (h : Inv cfg events past s) (he : e ∈ events) :
    Inv cfg events (past ++ [e]) (step cfg s e) := by
  refine ⟨?_, fun e' he' => ?_, rows_step cfg past s e h.rows,
    spent_step cfg past s e h.spent h.rows⟩
  · rw [h.reached, after, after, List.foldl_append]
    rfl
  · rcases List.mem_append.mp he' with hold | hnew
    · exact h.within e' hold
    · rwa [List.mem_singleton.mp hnew]

theorem inv_after (cfg : Config Ip) (events past : List (Event User Ip))
    (hpast : ∀ e ∈ past, e ∈ events) : Inv cfg events past (after cfg past) := by
  have hrun : Along (step cfg) (fun _ e => e ∈ events) .empty past :=
    along_of_forall _ _ fun _ e he => hpast e he
  refine hrun.history (Inv cfg events) ?_ (fun past s e h he => inv_step cfg events past s e h he)
  exact ⟨rfl, by simp, ⟨by simp [State.empty], by simp [State.empty], by simp [State.empty]⟩,
    ⟨by simp [spent, State.empty], by simp [State.empty], by simp [spent, State.empty]⟩⟩

/-- The requests on their way and the streams are backed. -/
structure Granted (cfg : Config Ip) (past : List (Event User Ip)) (s : State User Ip) : Prop where
  inFlight : ∀ f ∈ s.inFlight, Backed cfg past f.serial (bridgeToken f.query)
  streams : ∀ stream ∈ s.streams, Backed cfg past stream.serial stream.token

theorem granted_snoc (cfg : Config Ip) (past : List (Event User Ip)) (e : Event User Ip)
    (s : State User Ip) (h : Granted cfg past s) : Granted cfg (past ++ [e]) s :=
  ⟨fun f hf => backed_snoc cfg past e _ _ (h.inFlight f hf),
    fun stream hstream => backed_snoc cfg past e _ _ (h.streams stream hstream)⟩

/-- Where the ends agree, the connect backs its request with the token that the bridge reads. -/
theorem backed_forward (cfg : Config Ip) (events past : List (Event User Ip)) (c : Connect User)
    (g : Ground) (out : Outgoing) (row : RtspGrant User Ip) (hsha : CollisionFree cfg events)
    (hc : Event.connect c ∈ events) (h : Inv cfg events past (after cfg past))
    (hserve : c.serve cfg (after cfg past).rows = .forward g out)
    (hrow : c.row? cfg (after cfg past).rows = some row) (hagrees : c.Agrees cfg) :
    Backed cfg (past ++ [.connect c]) row.serial (bridgeToken out.url.rawQuery) := by
  obtain ⟨htoken, hquery, user, ip, row', hlive, hip, hrow', hmem, hconsumable, hupdate⟩ :=
    serve_forward cfg _ c g out hserve
  obtain rfl : row = row' := Option.some.inj (hrow.symm.trans hrow')
  have hconsumable' := hconsumable
  obtain ⟨hhash, hnone, hexpiry, rfl, rfl⟩ := hconsumable'
  obtain ⟨hascii, hjson⟩ := consumed_token_ascii cfg events past _ c row hsha h.within hc h.rows
    hmem hhash
  have hbridge := (bridgeToken_eq_iff cfg c htoken hascii).mpr hagrees
  refine ⟨past, c, [], row, rfl, hmem, ?_, rfl, ?_, hnone, hexpiry, hip, hlive⟩
  · have hafter : (after cfg (past ++ [.connect c])).rows =
        (consumeGrant cfg (after cfg past).rows (jsonText (c.token cfg)) row.sourceIP c.now
          row.user).2 := by
      rw [← hupdate, after, List.foldl_append, List.foldl_cons, List.foldl_nil, ← after, step]
      rcases connect_cases cfg (after cfg past) c with ⟨hnone, -⟩ | heq | ⟨_, _, _, -, -, heq⟩
      · exact absurd hnone htoken
      · rw [heq]
      · rw [heq]
    rw [hafter]
    exact List.mem_map.mpr ⟨row, hmem, if_pos hconsumable⟩
  · rw [hquery, hbridge, hhash, hjson]

theorem granted_connect (cfg : Config Ip) (events past : List (Event User Ip)) (c : Connect User)
    (hsha : CollisionFree cfg events) (hc : Event.connect c ∈ events)
    (hinv : Inv cfg events past (after cfg past)) (h : Granted cfg past (after cfg past))
    (hagrees : ∀ g out, c.serve cfg (after cfg past).rows = .forward g out → c.Agrees cfg) :
    Granted cfg (past ++ [.connect c]) (connect cfg (after cfg past) c) := by
  have hkept := granted_snoc cfg past (.connect c) _ h
  rcases connect_cases cfg (after cfg past) c with ⟨-, heq⟩ | heq | ⟨g, out, row, hserve, hrow, heq⟩
  · rwa [heq]
  · rw [heq]
    exact ⟨hkept.inFlight, hkept.streams⟩
  · rw [heq]
    refine ⟨fun f hf => ?_, hkept.streams⟩
    rcases List.mem_cons.mp hf with rfl | hf
    · exact backed_forward cfg events past c g out row hsha hc hinv hserve hrow
        (hagrees g out hserve)
    · exact hkept.inFlight f hf

omit [DecidableEq User] [DecidableEq Ip] in
theorem serveStream_ok (cfg : Config Ip) (active : List Char → ℕ) (query token : List Char)
    (payload : Payload) (h : serveStream cfg active query = .ok (token, payload)) :
    token = bridgeToken query ∧ cfg.decryptToken token = some payload := by
  unfold serveStream at h
  split_ifs at h
  split at h
  · cases h
  · rename_i hdecrypt
    split_ifs at h
    obtain ⟨rfl, rfl⟩ := Prod.mk.inj (Except.ok.inj h)
    exact ⟨rfl, hdecrypt⟩

theorem granted_accept (cfg : Config Ip) (past : List (Event User Ip)) (s : State User Ip)
    (f : Forwarded) (h : Granted cfg past s) : Granted cfg past (accept cfg s f) := by
  unfold accept
  split
  · rename_i hmem
    split
    · exact ⟨fun f' hf' => h.inFlight f' (List.mem_of_mem_erase hf'), h.streams⟩
    · rename_i token payload hserve
      refine ⟨fun f' hf' => h.inFlight f' (List.mem_of_mem_erase hf'), fun stream hstream => ?_⟩
      rcases List.mem_cons.mp hstream with rfl | hstream
      · rw [(serveStream_ok cfg _ _ _ _ hserve).1]
        exact h.inFlight f hmem
      · exact h.streams stream hstream
  · exact h

/-- Every step keeps streams backed, as long as the ends agree in what is sent on. -/
theorem granted_step (cfg : Config Ip) (events past : List (Event User Ip)) (e : Event User Ip)
    (hsha : CollisionFree cfg events) (he : e ∈ events)
    (hinv : Inv cfg events past (after cfg past)) (h : Granted cfg past (after cfg past))
    (hagrees : ∀ c g out, e = .connect c → c.serve cfg (after cfg past).rows = .forward g out →
      c.Agrees cfg) :
    Granted cfg (past ++ [e]) (step cfg (after cfg past) e) := by
  have hkept := granted_snoc cfg past e _ h
  cases e with
  | mint m =>
    rw [step]
    unfold mint
    split
    · exact hkept
    · exact ⟨hkept.inFlight, hkept.streams⟩
  | connect c =>
    exact granted_connect cfg events past c hsha he hinv h (fun g out => hagrees c g out rfl)
  | accept f => exact granted_accept cfg _ _ f hkept
  | finish userId => exact ⟨hkept.inFlight, hkept.streams⟩
  | delete keep => exact ⟨hkept.inFlight, hkept.streams⟩

/-- The bridge decrypts the token consumed for a request exactly when the first and the last
token of its query agree. In a run where they agree in every request sent to the
bridge, each stream has a grant of its own, for the very token that it decrypted. -/
theorem streams_granted_iff (cfg : Config Ip) (events : List (Event User Ip))
    (hsha : CollisionFree cfg events) :
    (∀ past c rest g out, events = past ++ .connect c :: rest →
      c.serve cfg (after cfg past).rows = .forward g out →
      (bridgeToken out.url.rawQuery = jsonText (c.token cfg) ↔ c.Agrees cfg)) ∧
    ((∀ past c rest g out, events = past ++ .connect c :: rest →
        c.serve cfg (after cfg past).rows = .forward g out → c.Agrees cfg) →
      ((after cfg events).streams.map Stream.serial).Nodup ∧
      ∀ stream ∈ (after cfg events).streams, Backed cfg events stream.serial stream.token) := by
  constructor
  · rintro past c rest g out rfl hserve
    have hinv := inv_after cfg (past ++ .connect c :: rest) past
      (fun e he => List.mem_append_left _ he)
    obtain ⟨htoken, hquery, _, _, row, -, -, -, hmem, hconsumable, -⟩ :=
      serve_forward cfg _ c g out hserve
    obtain ⟨hascii, hjson⟩ := consumed_token_ascii cfg _ past _ c row hsha hinv.within (by simp)
      hinv.rows hmem hconsumable.1
    rw [hjson, hquery]
    exact bridgeToken_eq_iff cfg c htoken hascii
  · intro hagrees
    have hinv := inv_after cfg events events (fun _ he => he)
    refine ⟨hinv.spent.nodup.of_append_right, ?_⟩
    have hrun : Along (step cfg) (fun s e => e ∈ events ∧ ∀ c g out, e = .connect c →
        c.serve cfg s.rows = .forward g out → c.Agrees cfg) .empty events := by
      refine (along_iff_cut _ _ _ _).mpr fun past e rest heq => ⟨by simp [heq], ?_⟩
      rintro c g out rfl hserve
      exact hagrees past c rest g out heq hserve
    have hstart : Inv cfg events [] .empty ∧ Granted cfg [] (.empty : State User Ip) :=
      ⟨inv_after cfg events [] (by simp), by simp [State.empty], by simp [State.empty]⟩
    have hgranted : Inv cfg events events (after cfg events) ∧
        Granted cfg events (after cfg events) := by
      refine Along.history
        (fun (past : List (Event User Ip)) s => Inv cfg events past s ∧ Granted cfg past s) hstart
        (fun past s e h he => ⟨inv_step cfg events past s e h.1 he.1, ?_⟩) hrun
      obtain ⟨hinv, hgranted⟩ := h
      obtain rfl := hinv.reached
      exact granted_step cfg events past e hsha he.1 hinv hgranted he.2
    exact hgranted.2.streams

/-- A connect whose grant is consumed goes on, unless its header asks for what the proxy does
not pass. -/
theorem serve_of_consumed (cfg : Config Ip) (rows : List (RtspGrant User Ip)) (c : Connect User)
    (hheader : (HttpHeader.proxyHeader (DataPlane.appHeader cfg.srv c.request)
      c.request.inbound).isSome)
    (htoken : c.token cfg ≠ [])
    (hconsume : (rtspConsume cfg c.live c.now rows (c.body cfg)).1 = some true) :
    ∃ out, c.serve cfg rows = .forward .grant out ∧ out.url.rawQuery =
      UrlQuery.cleanQueryParams cfg.srv.maxParams c.request.url.rawQuery := by
  obtain ⟨header, hheader⟩ := Option.isSome_iff_exists.mp hheader
  obtain ⟨out, hout, -, -⟩ := DataPlane.serveProxy_of_header cfg.srv .rtsp .grant
    c.request _ header hheader
  refine ⟨out, ?_, (DataPlane.serveProxy_forward _ _ _ _ _ _ _ hout).2.2.2⟩
  unfold Connect.serve DataPlane.serveGrantedWS
  simp only [Connect.token] at htoken
  simp only [Connect.body, Connect.token] at hconsume
  simp only [htoken, if_false, hconsume, hout]

/-- A row that fits the connect is consumed. -/
theorem consumed_of_row (cfg : Config Ip) (c : Connect User) (row : RtspGrant User Ip)
    (hlive : c.live (jsonText (gatewayCookie cfg.srv c.request)) = some row.user)
    (hip : cfg.inet (jsonText c.request.clientIP) = some row.sourceIP)
    (htoken : row.tokenHash = cfg.sha256Hex (jsonText (c.token cfg)))
    (hnone : row.consumedAt = none) (hexpiry : c.now < row.expiresAt) :
    (rtspConsume cfg c.live c.now [row] (c.body cfg)).1 = some true := by
  have hconsumable : Consumable cfg (jsonText (c.token cfg)) row.sourceIP c.now row.user row :=
    ⟨htoken, hnone, hexpiry, rfl, rfl⟩
  simp [rtspConsume, Connect.body, hlive, hip, consumeGrant, hconsumable]

omit [DecidableEq User] [DecidableEq Ip] in
theorem serveStream_admits (cfg : Config Ip) (active : List Char → ℕ) (query : List Char)
    (payload : Payload) (henabled : cfg.rtspEnabled = true) (htoken : bridgeToken query ≠ [])
    (hdecrypt : cfg.decryptToken (bridgeToken query) = some payload)
    (hslots : active payload.userId < cfg.maxStreamsPerUser) :
    serveStream cfg active query = .ok (bridgeToken query, payload) := by
  rw [serveStream, henabled, if_neg (by simp), if_neg htoken, hdecrypt]
  exact if_neg (by omega)

/-- A connect that is sent on and let in by the bridge opens a stream on the row it consumes. -/
theorem visit_streams (cfg : Config Ip) (s : State User Ip) (c : Connect User)
    (row : RtspGrant User Ip) (g : Ground) (out : Outgoing) (token : List Char) (payload : Payload)
    (hserve : c.serve cfg s.rows = .forward g out) (hrow : c.row? cfg s.rows = some row)
    (hadmits : serveStream cfg s.active out.url.rawQuery = .ok (token, payload)) :
    (step cfg (step cfg s (.connect c)) (.accept ⟨out.url.rawQuery, row.serial⟩)).streams =
      ⟨token, payload, row.serial⟩ :: s.streams := by
  obtain ⟨htoken, -⟩ := serve_forward cfg s.rows c g out hserve
  have hconnected : connect cfg s c =
      { s with
        rows := (rtspConsume cfg c.live c.now s.rows (c.body cfg)).2
        inFlight := ⟨out.url.rawQuery, row.serial⟩ :: s.inFlight } := by
    rw [connect, if_neg htoken]
    simp only [hserve, hrow]
  rw [step, step, hconnected, accept, if_pos (List.mem_cons_self ..), hadmits]

omit [DecidableEq User] [DecidableEq Ip] in
/-- A query with one token is read alike at both ends. -/
theorem token_of_one (cfg : Config Ip) (c : Connect User) (token : List Char)
    (hquery : UrlQuery.parseQuery cfg.srv.maxParams c.request.url.rawQuery =
      [("token".toList, token)]) : c.token cfg = token ∧ c.Agrees cfg := by
  rw [Connect.token, Connect.Agrees, hquery]
  exact ⟨rfl, rfl⟩

/-- With the one token of its query, whose row is there, a visit opens a stream. -/
theorem visit_one (cfg : Config Ip) (s : State User Ip) (c : Connect User)
    (row : RtspGrant User Ip) (token : List Char) (payload : Payload)
    (hquery : UrlQuery.parseQuery cfg.srv.maxParams c.request.url.rawQuery =
      [("token".toList, token)]) (hascii : Ascii token) (hsome : token ≠ [])
    (hheader : (HttpHeader.proxyHeader (DataPlane.appHeader cfg.srv c.request)
      c.request.inbound).isSome)
    (hrows : s.rows = [row]) (hlive : c.live (jsonText (gatewayCookie cfg.srv c.request)) =
      some row.user) (hip : cfg.inet (jsonText c.request.clientIP) = some row.sourceIP)
    (hhash : row.tokenHash = cfg.sha256Hex token) (hnone : row.consumedAt = none)
    (hexpiry : c.now < row.expiresAt) (henabled : cfg.rtspEnabled = true)
    (hdecrypt : cfg.decryptToken token = some payload)
    (hslots : s.active payload.userId < cfg.maxStreamsPerUser) :
    (step cfg (step cfg s (.connect c)) (.accept ⟨UrlQuery.cleanQueryParams cfg.srv.maxParams
      c.request.url.rawQuery, row.serial⟩)).streams = ⟨token, payload, row.serial⟩ :: s.streams := by
  obtain ⟨htoken, hagrees⟩ := token_of_one cfg c token hquery
  have hjson : jsonText token = token := (decode_eq_ascii_iff false _ _ hascii).mpr rfl
  have hconsumed := consumed_of_row cfg c row hlive hip (by rw [htoken, hjson, hhash]) hnone hexpiry
  obtain ⟨out, hserve, hsent⟩ := serve_of_consumed cfg [row] c hheader (htoken ▸ hsome) hconsumed
  rw [← hrows] at hserve
  obtain ⟨-, -, _, _, row', -, -, hrow, hmem, -⟩ := serve_forward cfg s.rows c _ out hserve
  rw [hrows] at hmem
  obtain rfl := List.mem_singleton.mp hmem
  have hbridge : bridgeToken out.url.rawQuery = token := by
    rw [hsent, (bridgeToken_eq_iff cfg c (htoken ▸ hsome) (htoken ▸ hascii)).mpr hagrees, htoken]
  have hadmits := serveStream_admits cfg s.active out.url.rawQuery payload henabled
    (hbridge ▸ hsome) (hbridge ▸ hdecrypt) hslots
  rw [hbridge] at hadmits
  rw [← hsent]
  exact visit_streams cfg s c row' _ out _ _ hserve hrow hadmits

/-- What AES makes of the streams of two cameras, under one key. -/
def cipherA : List Char :=
  [82, 149, 182, 163, 66, 39, 28, 116, 19, 65, 82, 198, 79, 206, 217, 251, 141, 35, 134, 155,
   135, 54, 201, 196, 157, 132, 57, 80, 172, 151, 117, 127, 15, 87, 5, 225, 87, 6, 189, 4, 242,
   142, 153, 127, 170, 92, 85, 149, 172, 246, 222, 103, 189, 193, 96, 243, 222, 73, 41, 154, 123,
   207, 147, 156, 4, 17, 239, 165, 70, 8, 83, 236, 239, 22, 159, 139, 88, 157, 138, 197, 233,
   156, 19, 129, 56, 200, 184, 223, 76, 10, 55, 125, 252, 140, 3, 62].map
    Char.ofNat

def cipherB : List Char :=
  [101, 187, 201, 133, 246, 0, 220, 76, 67, 70, 65, 37, 190, 122, 85, 123, 98, 207, 248, 80, 157,
   216, 139, 70, 108, 61, 178, 10, 98, 247, 125, 239, 137, 238, 59, 203, 64, 143, 88, 163, 23,
   154, 233, 43, 123, 227, 23, 78, 177, 8, 136, 43, 252, 123, 240, 199, 82, 87, 107, 17, 141, 29,
   177, 192, 79, 228, 18, 118, 59, 64, 226, 47, 117, 28, 239, 89, 53, 182, 84, 174, 52, 11, 215,
   146, 3, 102, 1, 171, 9, 105, 221, 138, 123, 89, 235, 185].map
    Char.ofNat

def tokenA : List Char := mintToken (List.replicate 16 'A') cipherA

def tokenB : List Char := mintToken (List.replicate 16 'B') cipherB

def payloadOf (camera : List Char) : Payload :=
  ⟨"rtsp://".toList ++ camera ++ ":554/".toList, "7".toList⟩

/-- Two cameras of user 7, with the digests of their tokens. -/
def sampleConfig : Config (List Char) where
  srv := ⟨"gw".toList, "pub".toList, fun _ => true, [], 3000, 10000, id⟩
  rtspEnabled := true
  grantTtl := 60000000
  maxStreamsPerUser := 4
  sha256Hex := fun t =>
    if t = tokenA then "5dcb7d479be243144878c2aa1e60d5920599007f21f0760073c138986283250d".toList
    else if t = tokenB then
      "697155a5aae542e5b23d206216be20814e304e5a8952712f6e19e822017ef480".toList
    else []
  inet := some
  decryptToken := fun t =>
    if t = tokenA then some (payloadOf "a".toList)
    else if t = tokenB then some (payloadOf "b".toList)
    else none

def sampleMint (byte : Char) (ct : List Char) : Mint ℕ where
  user := 7
  resource := some true
  connection := some "rtsp".toList
  decision := ⟨true, .allow⟩
  iv := List.replicate 16 byte
  ct := ct
  sourceIP := "192.0.2.7".toList
  now := 0

/-- The row of the token of the first camera. -/
def rowA : RtspGrant ℕ (List Char) :=
  ⟨0, sampleConfig.sha256Hex tokenA, 7, "192.0.2.7".toList, 60000000, none⟩

/-- A WebSocket connect of the same user from the same address. -/
def sampleRequest (query : List Char) : DataPlane.Request where
  method := "GET".toList
  host := "apps.example.org".toList
  url := ⟨"/rtsp/stream".toList, [], query, false, [], []⟩
  header := fun key =>
    if key = "Cookie".toList then ["gw=1.secret".toList]
    else if key = "Connection".toList then ["Upgrade".toList]
    else if key = "Upgrade".toList then ["websocket".toList]
    else []
  clientIP := "192.0.2.7".toList
  tls := true

def sampleLive (cookie : List Char) : Option ℕ :=
  if cookie = "1.secret".toList then some 7 else none

def oneToken : Connect ℕ where
  request := sampleRequest ("token=".toList ++ tokenA)
  live := sampleLive
  now := 1000000
  bytes := List.all_iff_forall_prop.mp (by decide +kernel)

def twoTokens : Connect ℕ where
  request := sampleRequest ("token=".toList ++ tokenA ++ "&token=".toList ++ tokenB)
  live := sampleLive
  now := 1000000
  bytes := List.all_iff_forall_prop.mp (by decide +kernel)

theorem after_visit (cfg : Config Ip) (m : Mint User) (c : Connect User)
    (f : Forwarded) : after cfg [.mint m, .connect c, .accept f] =
      step cfg (step cfg (mint cfg .empty m) (.connect c)) (.accept f) := rfl

def oneTokenRun : List (Event ℕ (List Char)) :=
  [.mint (sampleMint 'A' cipherA), .connect oneToken, .accept ⟨"token=".toList ++ tokenA, 0⟩]

omit [DecidableEq User] [DecidableEq Ip] in
/-- In a run that mints, connects and accepts, one request connects. -/
theorem connect_of_visit {m : Mint User} {c c' : Connect User} {a : Forwarded}
    {past rest : List (Event User Ip)}
    (heq : [.mint m, .connect c, .accept a] = past ++ .connect c' :: rest) : c' = c := by
  have hc : (Event.connect c' : Event User Ip) ∈ [.mint m, .connect c, .accept a] := by simp [heq]
  simpa using hc

/-- A run with one token opens its stream on the grant of that token. -/
theorem streams_granted_sample :
    (after sampleConfig oneTokenRun).streams = [⟨tokenA, payloadOf "a".toList, 0⟩] ∧
      Backed sampleConfig oneTokenRun 0 tokenA := by
  have hquery : UrlQuery.parseQuery sampleConfig.srv.maxParams oneToken.request.url.rawQuery =
      [("token".toList, tokenA)] := by decide +kernel
  obtain ⟨htoken, hagrees⟩ := token_of_one sampleConfig oneToken tokenA hquery
  have hascii : Ascii tokenA := mintToken_ascii _ _
  have hjson : jsonText tokenA = tokenA := (decode_eq_ascii_iff false _ _ hascii).mpr rfl
  have hdecrypt : sampleConfig.decryptToken tokenA = some (payloadOf "a".toList) := by
    decide +kernel
  have hsent : UrlQuery.cleanQueryParams sampleConfig.srv.maxParams
      oneToken.request.url.rawQuery = "token=".toList ++ tokenA := by decide +kernel
  have hstreams : (after sampleConfig oneTokenRun).streams =
      [⟨tokenA, payloadOf "a".toList, 0⟩] := by
    have hminted : mint sampleConfig .empty (sampleMint 'A' cipherA) =
        { (.empty : State ℕ (List Char)) with rows := [rowA], next := 1 } := rfl
    rw [oneTokenRun, ← hsent, after_visit, hminted]
    exact visit_one sampleConfig _ oneToken rowA tokenA _ hquery hascii (by decide)
      (by decide +kernel) rfl (by decide +kernel) (by decide +kernel) (by rw [rowA]) rfl
      (by decide) rfl hdecrypt (by decide)
  have htexts : ∀ t ∈ oneTokenRun.flatMap (digested sampleConfig), t = tokenA := by
    intro t ht
    simp only [oneTokenRun, digested, htoken, hjson, List.flatMap_cons, List.flatMap_nil,
      List.mem_append, List.mem_singleton, List.not_mem_nil, or_false] at ht
    exact ht.elim id id
  have hsha : CollisionFree sampleConfig oneTokenRun :=
    collisionFree_of_one sampleConfig oneTokenRun tokenA htexts
  refine ⟨hstreams, ((streams_granted_iff sampleConfig _ hsha).2 ?_).2 _
    (by rw [hstreams]; exact List.mem_singleton.mpr rfl)⟩
  intro past c rest g out heq _
  rw [connect_of_visit heq]
  exact hagrees

/-- `?token=A&token=B` consumes the grant of A and opens the stream of B, whose grant stays
unconsumed. -/
theorem repeated_token_diverges :
    ∃ out, twoTokens.serve sampleConfig
        (after sampleConfig [.mint (sampleMint 'A' cipherA), .mint (sampleMint 'B' cipherB)]).rows =
          .forward .grant out ∧
      bridgeToken out.url.rawQuery ≠ jsonText (twoTokens.token sampleConfig) ∧
      (after sampleConfig [.mint (sampleMint 'A' cipherA), .mint (sampleMint 'B' cipherB),
        .connect twoTokens, .accept ⟨out.url.rawQuery, 0⟩]).streams =
          [⟨tokenB, payloadOf "b".toList, 0⟩] ∧
      (after sampleConfig [.mint (sampleMint 'A' cipherA), .mint (sampleMint 'B' cipherB),
        .connect twoTokens, .accept ⟨out.url.rawQuery, 0⟩]).rows.map
          (fun row => (row.serial, row.consumedAt)) = [(1, none), (0, some 1000000)] := by
  obtain ⟨out, hout, hquery⟩ := serve_of_consumed sampleConfig
    (after sampleConfig [.mint (sampleMint 'A' cipherA), .mint (sampleMint 'B' cipherB)]).rows
    twoTokens (by decide +kernel) (by decide +kernel) (by decide +kernel)
  refine ⟨out, hout, ?_⟩
  rw [hquery]
  decide +kernel

end Hyproxy.RtspStreams

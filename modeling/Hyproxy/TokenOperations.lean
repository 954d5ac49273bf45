import Hyproxy.RefreshTokens
import Hyproxy.SessionLife

/-!
A request to the token endpoint as one operation: its statements one after the
other, with no other transaction between them. It comes to its end, it leaves
every session at least as old as it was, and tokens are issued only for an
artifact whose session is not over.
-/
namespace Hyproxy.TokenOperations

open Accounts (Session)
open ReadCommitted (Fate runAlone runAlone_finishes runAlone_invariant)
open RefreshTokens
open SessionLife

def tailRank : Tail → ℕ
  | .revokeTokens _ next => tailRank next + 2
  | .markRevoked _ next => tailRank next + 1
  | .sessionOf _ next => tailRank next + 2
  | .revokeSession _ next => tailRank next + 1
  | .write _ next => tailRank next + 1
  | .answer _ => 0

/-- The statements that are left to a transaction, at most. -/
def rank (db : Db) : Point → ℕ
  | .consumeCode _ _ => 8
  | .getCode _ _ => 7
  | .findConsumed _ => 6
  | .replayed _ => 5
  | .find _ _ => 6
  | .findRevoked _ _ => 5
  | .userSessions _ _ => 3 * db.sessions.length + 1
  | .liveSession _ _ => 5
  | .touch _ _ _ => 4
  | .getUser _ _ _ => 3
  | .mint _ _ _ => 2
  | .issued _ _ _ => 0
  | .refreshed _ _ => 0
  | .close rest => tailRank rest

def operate (cfg : Config) (serial : ℕ) (db : Db) (request : Request) (now : ℤ) : Fate Db Answer :=
  runAlone (program cfg) now (rank db (start request now) + 1) serial db (start request now)

theorem tailRank_statement (db : Db) (now : ℤ) (rest : Tail) (h : 0 < tailRank rest) :
    tailRank (rest.statement db now).2 < tailRank rest := by
  cases rest with
  | answer c => exact absurd h (lt_irrefl 0)
  | sessionOf session next =>
    simp only [Tail.statement]
    cases db.sessions.lookup session with
    | none =>
      simp only [tailRank]
      omega
    | some x =>
      simp only
      split_ifs <;> simp only [tailRank] <;> omega
  | revokeTokens scope next =>
    simp only [Tail.statement, tailRank]
    omega
  | markRevoked ids next =>
    simp only [Tail.statement, tailRank]
    omega
  | revokeSession session next =>
    simp only [Tail.statement, tailRank]
    omega
  | write w next =>
    simp only [Tail.statement, tailRank]
    omega

theorem tailRank_sessions (rows : List (ℕ × Session)) (c : Closing) :
    tailRank (rows.foldr (fun entry next =>
      .revokeTokens (.session entry.1) (.revokeSession entry.1 next)) (.answer c)) =
        3 * rows.length := by
  induction rows with
  | nil => rfl
  | cons entry rows ih =>
    simp only [List.foldr_cons, tailRank, ih, List.length_cons]
    omega

theorem rank_select (cfg : Config) (db : Db) (p : Point) (hanswer : p.answer = none)
    (hclose : ∀ rest, p ≠ .close rest) (hconsume : ∀ req now, p ≠ .consumeCode req now)
    (htouch : ∀ id x g, p ≠ .touch id x g) (hmint : ∀ id x g, p ≠ .mint id x g) (db' : Db) :
    rank db' (select cfg db p) < rank db p := by
  cases p with
  | consumeCode req now => exact absurd rfl (hconsume req now)
  | touch id x g => exact absurd rfl (htouch id x g)
  | mint id x g => exact absurd rfl (hmint id x g)
  | close rest => exact absurd rfl (hclose rest)
  | issued hash now token => cases hanswer
  | refreshed row token => cases hanswer
  | getCode req now =>
    simp only [select]
    cases db.codes.find? fun row => row.codeHash == cfg.sha256Hex req.code with
    | none => simp [rank]
    | some row =>
      simp only [consumed]
      split_ifs <;> simp [rank, refuse, tailRank]
  | findConsumed req =>
    simp only [select]
    cases db.codes.find? fun row => row.codeHash == cfg.sha256Hex req.code with
    | none => simp [rank, refuse, tailRank]
    | some row =>
      simp only
      split_ifs <;> simp [rank, refuse, tailRank]
  | replayed session =>
    simp only [select]
    cases db.sessions.lookup session with
    | none => simp [rank, refuse, tailRank]
    | some x =>
      simp only
      split_ifs <;> simp [rank, tailRank]
  | find req now =>
    simp only [select]
    cases find cfg db req.token with
    | none => simp [rank, refuse, tailRank]
    | some row =>
      simp only [found]
      split_ifs <;> simp [rank, refuse, tailRank]
  | findRevoked jkt token =>
    simp only [select]
    cases find cfg db token with
    | none => simp [rank, refuse, tailRank]
    | some row =>
      simp only
      split_ifs <;> simp [rank, refuse, tailRank]
  | userSessions user except =>
    have hrows := List.length_filter_le (fun entry : ℕ × Session =>
      entry.2.user == user && entry.2.revokedAt.isNone && except != some entry.1) db.sessions
    simp only [select, rank, tailRank_sessions]
    omega
  | liveSession session grant =>
    simp only [select]
    cases db.sessions.lookup session with
    | none => simp [rank, refuse, tailRank]
    | some x =>
      simp only [checked]
      cases liveness cfg x grant.now <;> simp [rank, refuse, tailRank]
  | getUser session x grant =>
    simp only [select]
    cases db.user x.user with
    | none => simp [rank, refuse, tailRank]
    | some u =>
      simp only
      split_ifs <;> simp [rank, refuse, tailRank]

theorem rank_statement (cfg : Config) (db : Db) (serial : ℕ) (now : ℤ) (p p' : Point)
    (writes : List Write) (hanswer : p.answer = none)
    (h : statement cfg db serial now p = some (writes, p')) (db' : Db) :
    rank db' p' < rank db p := by
  have hselect : ∀ q : Point, q.answer = none → (∀ rest, q ≠ .close rest) →
      (∀ req now, q ≠ .consumeCode req now) → (∀ id x g, q ≠ .touch id x g) →
      (∀ id x g, q ≠ .mint id x g) → select cfg db q = p' → rank db' p' < rank db q := by
    intro q hq h₁ h₂ h₃ h₄ heq
    rw [← heq]
    exact rank_select cfg db q hq h₁ h₂ h₃ h₄ db'
  cases p with
  | consumeCode req arrived =>
    simp only [statement, Option.some.injEq] at h
    split_ifs at h <;> obtain ⟨-, rfl⟩ := Prod.mk.inj h <;> simp [rank]
  | touch session x grant =>
    simp only [statement, Option.some.injEq, Prod.mk.injEq] at h
    rw [← h.2]
    simp [rank]
  | mint session x grant =>
    cases grant <;> simp only [statement, mintRows] at h <;> split_ifs at h <;>
      obtain ⟨-, rfl⟩ := Prod.mk.inj (Option.some.inj h) <;> simp [rank]
  | close rest =>
    simp only [statement, Option.some.injEq, Prod.mk.injEq] at h
    rw [← h.2]
    refine tailRank_statement db now rest ?_
    cases rest with
    | answer c => cases hanswer
    | _ => simp [tailRank]
  | issued hash now token => cases hanswer
  | refreshed row token => cases hanswer
  | _ =>
    simp only [statement, Option.some.injEq, Prod.mk.injEq] at h
    exact hselect _ hanswer (by simp) (by simp) (by simp) (by simp) h.2

/-- An operation ends with an answer or raises. -/
theorem operate_finishes (cfg : Config) (serial : ℕ) (db : Db) (request : Request) (now : ℤ) :
    operate cfg serial db request now ≠ .unfinished :=
  runAlone_finishes (program cfg) now rank
    (fun _ serial p writes p' hanswer h =>
      rank_statement cfg _ serial now p p' writes hanswer h _)
    _ serial db _ (Nat.lt_succ_self _)

/-- The write adds no session. -/
def Plain : Write → Prop
  | .other (.addSession _ _) => False
  | _ => True

/-- The rest of the request writes only what the token endpoint writes itself. -/
def PlainTail : Tail → Prop
  | .revokeTokens _ next => PlainTail next
  | .markRevoked _ next => PlainTail next
  | .sessionOf _ next => PlainTail next
  | .revokeSession _ next => PlainTail next
  | .write _ _ => False
  | .answer _ => True

theorem ages_apply (db : Db) (w : Write) (h : Plain w) : Ages db.sessions (apply db w).sessions := by
  cases w with
  | other w =>
    cases w with
    | addSession id x => exact h.elim
    | touch id now => exact ages_map db.sessions id _ fun x => older_touched x now
    | stale id => exact ages_map db.sessions id _ older_stale
    | revoke id now => exact ages_map db.sessions id _ fun x => older_revoked x now
    | _ => exact Ages.refl _
  | _ => exact Ages.refl _

theorem ages_writes (writes : List Write) (db : Db) (h : ∀ w ∈ writes, Plain w) :
    Ages db.sessions (writes.foldl apply db).sessions := by
  induction writes generalizing db with
  | nil => exact Ages.refl _
  | cons w writes ih =>
    have hhead := ages_apply db w (h w (List.mem_cons_self ..))
    exact hhead.trans (ih (apply db w) fun w' hw' => h w' (List.mem_cons_of_mem _ hw'))

theorem plain_tail_statement (db : Db) (now : ℤ) (rest : Tail) (h : PlainTail rest) :
    (∀ w ∈ (rest.statement db now).1, Plain w) ∧ PlainTail (rest.statement db now).2 := by
  cases rest with
  | write w next => exact h.elim
  | answer c => exact ⟨by simp [Tail.statement], h⟩
  | revokeTokens scope next => exact ⟨by simp [Tail.statement], h⟩
  | revokeSession session next => exact ⟨by simp [Tail.statement, Plain], h⟩
  | markRevoked ids next =>
    refine ⟨fun w hw => ?_, h⟩
    obtain ⟨id, -, rfl⟩ := List.mem_map.mp hw
    trivial
  | sessionOf session next =>
    simp only [Tail.statement]
    cases db.sessions.lookup session with
    | none => exact ⟨by simp, h⟩
    | some x =>
      refine ⟨by simp, ?_⟩
      simp only
      split_ifs <;> exact h

theorem plain_sessions (rows : List (ℕ × Session)) :
    PlainTail (rows.foldr (fun entry next =>
      .revokeTokens (.session entry.1) (.revokeSession entry.1 next)) (.answer .done)) := by
  induction rows with
  | nil => trivial
  | cons entry rows ih => exact ih

def codeSession (cfg : Config) (codes : List AuthCode) (code : List Char) : Option ℕ :=
  (codes.find? fun row => row.codeHash == cfg.sha256Hex code).map AuthCode.session

/-- The session to which the artifact of a request is linked. -/
def linkedSession (cfg : Config) (db : Db) : Request → Option ℕ
  | .authorizationCode req => codeSession cfg db.codes req.code
  | .refresh req => (find cfg db req.token).map RefreshToken.session
  | _ => none

def granted : Answer → Bool
  | .issued _ _ _ => true
  | .refreshed _ _ => true
  | .closed _ => false

/-- The requests of the token endpoint and of the revocations. -/
def Operation : Request → Prop
  | .other _ => False
  | _ => True

theorem codeSession_consume (cfg : Config) (codes : List AuthCode) (code hash : List Char)
    (now : ℤ) :
    codeSession cfg (codes.map fun row =>
      if row.codeHash = hash then { row with consumedAt := some now } else row) code =
        codeSession cfg codes code := by
  unfold codeSession
  rw [List.find?_map, Option.map_map]
  have hhash : ((fun row : AuthCode => row.codeHash == cfg.sha256Hex code) ∘ fun row : AuthCode =>
      if row.codeHash = hash then { row with consumedAt := some now } else row) =
        fun row => row.codeHash == cfg.sha256Hex code := by
    funext row
    simp only [Function.comp_apply]
    split_ifs <;> rfl
  have hsession : (AuthCode.session ∘ fun row : AuthCode =>
      if row.codeHash = hash then { row with consumedAt := some now } else row) =
        AuthCode.session := by
    funext row
    simp only [Function.comp_apply]
    split_ifs <;> rfl
  rw [hhash, hsession]

/-- Where an operation can stand: what it has found of its session so far. -/
def Stands (cfg : Config) (db₀ : Db) (link : Option ℕ) (now : ℤ) (db : Db) : Point → Prop
  | .consumeCode req arrived | .getCode req arrived => arrived = now ∧
      codeSession cfg db.codes req.code = link ∧ db.sessions = db₀.sessions
  | .find req arrived => arrived = now ∧ (find cfg db req.token).map RefreshToken.session = link ∧
      db.sessions = db₀.sessions
  | .liveSession id grant => grant.now = now ∧ link = some id ∧ db.sessions = db₀.sessions
  | .touch id _ _ | .getUser id _ _ | .mint id _ _ => link = some id ∧ LiveIn db₀.sessions id now
  | .issued _ _ _ | .refreshed _ _ => ∃ id, link = some id ∧ LiveIn db₀.sessions id now
  | .close rest => PlainTail rest
  | _ => True

theorem stands_select (cfg : Config) (db₀ db : Db) (link : Option ℕ) (now : ℤ) (p : Point)
    (h : Stands cfg db₀ link now db p) : Stands cfg db₀ link now db (select cfg db p) := by
  cases p with
  | getCode req arrived =>
    obtain ⟨harrived, hcode, hsessions⟩ := h
    simp only [select]
    cases hrow : db.codes.find? fun row => row.codeHash == cfg.sha256Hex req.code with
    | none => trivial
    | some row =>
      simp only [consumed]
      split_ifs <;> try trivial
      refine ⟨harrived, ?_, hsessions⟩
      rw [← hcode, codeSession, hrow]
      rfl
  | findConsumed req =>
    simp only [select]
    cases db.codes.find? fun row => row.codeHash == cfg.sha256Hex req.code with
    | none => trivial
    | some row =>
      simp only
      split_ifs <;> trivial
  | replayed session =>
    simp only [select]
    cases db.sessions.lookup session with
    | none => trivial
    | some x =>
      simp only
      split_ifs <;> trivial
  | find req arrived =>
    obtain ⟨harrived, htoken, hsessions⟩ := h
    simp only [select]
    cases hrow : find cfg db req.token with
    | none => trivial
    | some row =>
      simp only [found]
      split_ifs <;> try trivial
      refine ⟨harrived, ?_, hsessions⟩
      rw [← htoken, hrow]
      rfl
  | findRevoked jkt token =>
    simp only [select]
    cases find cfg db token with
    | none => trivial
    | some row =>
      simp only
      split_ifs <;> trivial
  | userSessions user except => exact plain_sessions _
  | liveSession id grant =>
    obtain ⟨hnow, hlink, hsessions⟩ := h
    simp only [select]
    cases hx : db.sessions.lookup id with
    | none => trivial
    | some x =>
      have hmem : (id, x) ∈ db₀.sessions := hsessions ▸ Sessions.mem_of_lookup _ _ _ hx
      have hlive : liveness cfg x grant.now ≠ .dead → ¬Over x now := by
        rintro hdead (hrevoked | hstale | hbound)
        · exact hdead (by simp [liveness, hrevoked])
        · exact hdead (by simp [liveness, hstale])
        · exact hdead (by simp [liveness, hnow, hbound])
      simp only [checked]
      cases hverdict : liveness cfg x grant.now with
      | dead => trivial
      | idle => trivial
      | touch => exact ⟨hlink, x, hmem, hlive (by simp [hverdict])⟩
      | live => exact ⟨hlink, x, hmem, hlive (by simp [hverdict])⟩
  | getUser id x grant =>
    simp only [select]
    cases db.user x.user with
    | none => trivial
    | some u =>
      simp only
      split_ifs
      · exact h
      · trivial
  | _ => exact h

theorem stands_statement (cfg : Config) (db₀ db : Db) (link : Option ℕ) (serial : ℕ)
    (now later : ℤ) (p p' : Point) (writes : List Write) (h : Stands cfg db₀ link now db p)
    (hstatement : statement cfg db serial later p = some (writes, p')) :
    (∀ w ∈ writes, Plain w) ∧ Stands cfg db₀ link now (writes.foldl apply db) p' := by
  cases p with
  | consumeCode req arrived =>
    obtain ⟨harrived, hcode, hsessions⟩ := h
    simp only [statement, Option.some.injEq] at hstatement
    split_ifs at hstatement <;> obtain ⟨rfl, rfl⟩ := Prod.mk.inj hstatement
    · exact ⟨by simp [Plain], harrived, (codeSession_consume cfg _ _ _ _).trans hcode, hsessions⟩
    · exact ⟨by simp, trivial⟩
  | touch id x grant =>
    simp only [statement, Option.some.injEq, Prod.mk.injEq] at hstatement
    obtain ⟨rfl, rfl⟩ := hstatement
    exact ⟨by simp [Plain], h⟩
  | mint id x grant =>
    cases grant <;> simp only [statement, mintRows] at hstatement <;> split_ifs at hstatement <;>
      obtain ⟨rfl, rfl⟩ := Prod.mk.inj (Option.some.inj hstatement) <;>
      exact ⟨by simp [Plain], id, h⟩
  | close rest =>
    simp only [statement, Option.some.injEq, Prod.mk.injEq] at hstatement
    obtain ⟨rfl, rfl⟩ := hstatement
    exact plain_tail_statement db later rest h
  | _ =>
    simp only [statement, Option.some.injEq, Prod.mk.injEq] at hstatement
    obtain ⟨rfl, rfl⟩ := hstatement
    exact ⟨by simp, stands_select cfg db₀ db link now _ h⟩

theorem stands_start (cfg : Config) (db : Db) (request : Request) (now : ℤ)
    (h : Operation request) :
    Stands cfg db (linkedSession cfg db request) now db (start request now) := by
  cases request with
  | other writes => exact h.elim
  | authorizationCode req =>
    simp only [start]
    split_ifs
    · trivial
    · exact ⟨rfl, rfl, rfl⟩
  | refresh req =>
    simp only [start]
    split_ifs
    · trivial
    · exact ⟨rfl, rfl, rfl⟩
  | revoke jkt token => trivial
  | revokeUserSessions user except => trivial

/-- An operation makes no session younger, and issues tokens only for a session that is not over. -/
theorem operate_live (cfg : Config) (serial : ℕ) (db db' : Db) (request : Request) (now : ℤ)
    (answer : Answer) (hrequest : Operation request)
    (h : operate cfg serial db request now = .commits answer db') :
    Ages db.sessions db'.sessions ∧
      (granted answer = true →
        ∃ id, linkedSession cfg db request = some id ∧ LiveIn db.sessions id now) := by
  obtain ⟨p, ⟨hages, hstands⟩, hanswer⟩ := runAlone_invariant (program cfg) now
    (fun db' p => Ages db.sessions db'.sessions ∧
      Stands cfg db (linkedSession cfg db request) now db' p)
    (fun view serial p writes p' _ hinv hstatement => by
      obtain ⟨hplain, hnext⟩ :=
        stands_statement cfg db view _ serial now now p p' writes hinv.2 hstatement
      exact ⟨hinv.1.trans (ages_writes writes view hplain), hnext⟩)
    _ serial db db' _ answer ⟨Ages.refl _, stands_start cfg db request now hrequest⟩ h
  refine ⟨hages, fun hgranted => ?_⟩
  cases p with
  | issued hash now token => exact hstands
  | refreshed row token => exact hstands
  | close rest =>
    cases rest with
    | answer c =>
      obtain rfl := Option.some.inj hanswer
      cases hgranted
    | _ => cases hanswer
  | _ => cases hanswer

end Hyproxy.TokenOperations

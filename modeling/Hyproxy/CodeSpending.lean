import Hyproxy.RefreshInvariant
import Hyproxy.SingleUse

/-!
The authorization codes as rows that may be used once, and the tokens of a session as
rows that a replay revokes. Both are read off the writes of a transaction.
-/
namespace Hyproxy.CodeSpending

open RefreshTokens SingleUse

/-- A consumption is the hash of the code with the time. -/
def codeTable : Table AuthCode (List Char × ℤ) (List Char) where
  key := AuthCode.codeHash
  consumedAt := AuthCode.consumedAt
  keyOf := Prod.fst
  time := Prod.snd
  allows e row := e.2 < row.expiresAt
  consume now row := { row with consumedAt := some now }
  key_consume _ _ := rfl
  consumedAt_consume _ _ := rfl
  allows_consume _ _ _ h := h

def change : RefreshTokens.Write → Option (Change AuthCode (List Char × ℤ))
  | .consumeCode hash now => some (.spend (hash, now))
  | .other (.addCode row) => some (.mint row)
  | _ => none

def changes (writes : List RefreshTokens.Write) : List (Change AuthCode (List Char × ℤ)) :=
  writes.filterMap change

theorem changes_append (left right : List RefreshTokens.Write) :
    changes (left ++ right) = changes left ++ changes right := List.filterMap_append

theorem codes_apply (db : Db) (w : RefreshTokens.Write) :
    (RefreshTokens.apply db w).codes =
      (change w).toList.foldl (SingleUse.apply codeTable) db.codes := by
  cases w with
  | other w =>
    cases w with
    | addSession id x =>
      simp only [RefreshTokens.apply, applyOther]
      split_ifs <;> rfl
    | _ => rfl
  | _ => rfl

theorem codes_foldl (writes : List RefreshTokens.Write) (db : Db) :
    (writes.foldl RefreshTokens.apply db).codes =
      (changes writes).foldl (SingleUse.apply codeTable) db.codes := by
  induction writes generalizing db with
  | nil => rfl
  | cons w rest ih =>
    rw [List.foldl_cons, ih, codes_apply]
    cases hchange : change w with
    | none => rw [changes, changes, List.filterMap_cons_none hchange, Option.toList_none,
        List.foldl_nil]
    | some c => rw [changes, changes, List.filterMap_cons_some hchange, Option.toList_some,
        List.foldl_cons, List.foldl_nil, List.foldl_cons]

/-- Writes that wait for each other's codes. -/
theorem change_row (w : RefreshTokens.Write) (c : Change AuthCode (List Char × ℤ))
    (h : change w = some c) : w.row = .code (c.key codeTable) := by
  cases w with
  | consumeCode hash now => cases h; rfl
  | other w =>
    cases w with
    | addCode row => cases h; rfl
    | _ => cases h
  | _ => cases h

theorem changes_apart (left right : List RefreshTokens.Write)
    (h : ∀ v ∈ left, ∀ w ∈ right, v.row ≠ w.row) :
    ∀ c ∈ changes left, ∀ d ∈ changes right, c.key codeTable ≠ d.key codeTable := by
  intro c hc d hd heq
  obtain ⟨v, hv, hvc⟩ := List.mem_filterMap.mp hc
  obtain ⟨w, hw, hwd⟩ := List.mem_filterMap.mp hd
  exact h v hv w hw (by rw [change_row v c hvc, change_row w d hwd, heq])

/-- A code that was consumed stays as it is. -/
theorem consumed_keeps (rows : List AuthCode) (log : List (List Char × ℤ))
    (cs : List (Change AuthCode (List Char × ℤ))) (row : AuthCode) (h : Spent codeTable rows log)
    (hready : Ready codeTable rows cs) (hrow : row ∈ rows) (hconsumed : row.consumedAt.isSome) :
    row ∈ cs.foldl (SingleUse.apply codeTable) rows := by
  induction cs generalizing rows log with
  | nil => exact hrow
  | cons c rest ih =>
    obtain ⟨hfinds, hrest⟩ := (ready_cons codeTable rows c rest).mp hready
    rw [List.foldl_cons]
    cases c with
    | mint a =>
      exact ih _ log (spent_mint codeTable rows log a h hfinds) hrest (List.mem_append_left _ hrow)
    | spend e =>
      refine ih _ _ (spent_spend codeTable rows log e h hfinds) hrest ?_
      obtain ⟨a, ha, hfree, -⟩ := hfinds
      obtain ⟨ha, hkey⟩ := (mem_rowsAt codeTable _ rows a).mp ha
      refine List.mem_map.mpr ⟨row, hrow, if_neg fun heq => ?_⟩
      have hsame := eq_of_key codeTable rows log h a row ha hrow (hkey.trans heq.symm)
      have hnone : row.consumedAt = none := hsame ▸ hfree
      rw [hnone] at hconsumed
      cases hconsumed

/-- The first row with the hash is the only one. -/
theorem find_code (rows : List AuthCode) (log : List (List Char × ℤ)) (row : AuthCode)
    (h : Spent codeTable rows log) (hrow : row ∈ rows) :
    rows.find? (fun other => other.codeHash == row.codeHash) = some row := by
  cases hfind : rows.find? fun other => other.codeHash == row.codeHash with
  | none =>
    have hno := List.find?_eq_none.mp hfind row hrow
    simp at hno
  | some other =>
    have hhash := List.find?_some hfind
    rw [eq_of_key codeTable rows log h other row (List.mem_of_find?_eq_some hfind) hrow
      (beq_iff_eq.mp hhash)]

/-! ### Tokens -/

/-- What a write makes of a token that is there. -/
def touched : RefreshTokens.Write → RefreshToken → RefreshToken
  | .useToken id now, row => if row.id = id then { row with usedAt := some now } else row
  | .revokeToken id now, row => if row.id = id then { row with revokedAt := some now } else row
  | _, row => row

def touchedAll (writes : List RefreshTokens.Write) (row : RefreshToken) : RefreshToken :=
  writes.foldl (fun row w => touched w row) row

def newTokens : RefreshTokens.Write → List RefreshToken
  | .addToken row => [row]
  | _ => []

def Revokes (writes : List RefreshTokens.Write) (id : ℕ) : Prop :=
  ∃ now, RefreshTokens.Write.revokeToken id now ∈ writes

theorem tokens_apply (db : Db) (w : RefreshTokens.Write) :
    (RefreshTokens.apply db w).tokens = db.tokens.map (touched w) ++ newTokens w := by
  have hid : db.tokens.map (fun row => row) = db.tokens := List.map_id _
  cases w with
  | other w =>
    cases w with
    | addSession id x =>
      simp only [RefreshTokens.apply, applyOther]
      split_ifs <;> exact (List.append_nil _).symm.trans (congrArg (· ++ []) hid.symm)
    | _ => exact (List.append_nil _).symm.trans (congrArg (· ++ []) hid.symm)
  | addToken row => exact congrArg (· ++ [row]) hid.symm
  | consumeCode hash now => exact (List.append_nil _).symm.trans (congrArg (· ++ []) hid.symm)
  | useToken id now => exact (List.append_nil _).symm
  | revokeToken id now => exact (List.append_nil _).symm

@[simp] theorem touched_id (w : RefreshTokens.Write) (row : RefreshToken) :
    (touched w row).id = row.id := by
  unfold touched
  split <;> first | rfl | (split_ifs <;> rfl)

@[simp] theorem touched_session (w : RefreshTokens.Write) (row : RefreshToken) :
    (touched w row).session = row.session := by
  unfold touched
  split <;> first | rfl | (split_ifs <;> rfl)

theorem touched_revoked (w : RefreshTokens.Write) (row : RefreshToken) :
    (touched w row).revokedAt.isSome ↔ row.revokedAt.isSome ∨ Revokes [w] row.id := by
  cases w with
  | revokeToken id now =>
    by_cases hid : row.id = id
    · simp [touched, Revokes, hid]
    · simp [touched, Revokes, hid]
  | useToken id now =>
    by_cases hid : row.id = id
    · simp [touched, Revokes, hid]
    · simp [touched, Revokes, hid]
  | _ => simp [touched, Revokes]

@[simp] theorem touchedAll_id (writes : List RefreshTokens.Write) (row : RefreshToken) :
    (touchedAll writes row).id = row.id := by
  induction writes generalizing row with
  | nil => rfl
  | cons w rest ih => exact (ih (touched w row)).trans (touched_id w row)

@[simp] theorem touchedAll_session (writes : List RefreshTokens.Write) (row : RefreshToken) :
    (touchedAll writes row).session = row.session := by
  induction writes generalizing row with
  | nil => rfl
  | cons w rest ih => exact (ih (touched w row)).trans (touched_session w row)

theorem touchedAll_revoked (writes : List RefreshTokens.Write) (row : RefreshToken) :
    (touchedAll writes row).revokedAt.isSome ↔
      row.revokedAt.isSome ∨ Revokes writes row.id := by
  induction writes generalizing row with
  | nil => simp [touchedAll, Revokes]
  | cons w rest ih =>
    have hrest := ih (touched w row)
    rw [touched_revoked, touched_id] at hrest
    have hsplit : Revokes (w :: rest) row.id ↔ Revokes [w] row.id ∨ Revokes rest row.id := by
      simp only [Revokes, List.mem_cons, List.not_mem_nil, or_false, exists_or]
    rw [hsplit, ← or_assoc]
    exact hrest

/-- A token after some writes was there before them, or they added it. -/
theorem token_origin (writes : List RefreshTokens.Write) (db : Db) (row : RefreshToken)
    (h : row ∈ (writes.foldl RefreshTokens.apply db).tokens) :
    (∃ old ∈ db.tokens, touchedAll writes old = row) ∨
      ∃ added, RefreshTokens.Write.addToken added ∈ writes ∧ added.session = row.session := by
  induction writes generalizing db with
  | nil => exact Or.inl ⟨row, h, rfl⟩
  | cons w rest ih =>
    rcases ih _ h with ⟨mid, hmid, rfl⟩ | ⟨added, hadded, hsession⟩
    · rw [tokens_apply, List.mem_append] at hmid
      rcases hmid with hmid | hnew
      · obtain ⟨old, hold, rfl⟩ := List.mem_map.mp hmid
        exact Or.inl ⟨old, hold, rfl⟩
      · right
        cases w with
        | addToken added =>
          obtain rfl := List.mem_singleton.mp hnew
          exact ⟨mid, List.mem_cons_self .., (touchedAll_session rest mid).symm⟩
        | _ => cases hnew
    · exact Or.inr ⟨added, List.mem_cons_of_mem _ hadded, hsession⟩

/-- Every token is still there after some writes. -/
theorem token_image (writes : List RefreshTokens.Write) (db : Db) (row : RefreshToken)
    (h : row ∈ db.tokens) :
    touchedAll writes row ∈ (writes.foldl RefreshTokens.apply db).tokens := by
  induction writes generalizing db row with
  | nil => exact h
  | cons w rest ih =>
    refine ih _ _ ?_
    rw [tokens_apply]
    exact List.mem_append_left _ (List.mem_map_of_mem h)

end Hyproxy.CodeSpending

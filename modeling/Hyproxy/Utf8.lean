import Hyproxy.PercentCoding

/-!
Decoding of UTF-8 with replacement. A byte is a character below 256. Decoders
differ in how much of a broken sequence one replacement character stands for:
a single byte, or the longest start of a well formed sequence. On ASCII they
agree, and nothing else decodes to ASCII.
-/
namespace Hyproxy.Utf8

open PercentCoding

def replacement : Char := Char.ofNat 0xFFFD

/-- How many continuation bytes a lead byte announces, and the range of the first one. -/
def lead (b : ℕ) : Option (ℕ × ℕ × ℕ) :=
  if 0xC2 ≤ b ∧ b ≤ 0xDF then some (1, 0x80, 0xBF)
  else if b = 0xE0 then some (2, 0xA0, 0xBF)
  else if b = 0xED then some (2, 0x80, 0x9F)
  else if 0xE1 ≤ b ∧ b ≤ 0xEF then some (2, 0x80, 0xBF)
  else if b = 0xF0 then some (3, 0x90, 0xBF)
  else if 0xF1 ≤ b ∧ b ≤ 0xF3 then some (3, 0x80, 0xBF)
  else if b = 0xF4 then some (3, 0x80, 0x8F)
  else none

/-- The number of continuation bytes present, of the `n` announced. -/
def present (lo hi : ℕ) : ℕ → List Char → ℕ
  | 0, _ => 0
  | _ + 1, [] => 0
  | n + 1, c :: rest => if lo ≤ c.toNat ∧ c.toNat ≤ hi then present 0x80 0xBF n rest + 1 else 0

/-- The code point of a complete sequence. -/
def codePoint (b n : ℕ) (rest : List Char) : ℕ :=
  (rest.take n).foldl (fun acc c => acc * 64 + (c.toNat - 0x80))
    (if n = 1 then b - 0xC0 else if n = 2 then b - 0xE0 else b - 0xF0)

def decodeLoop (maximal : Bool) : ℕ → List Char → List Char
  | 0, _ => []
  | _ + 1, [] => []
  | fuel + 1, c :: rest =>
    if c.toNat < 0x80 then c :: decodeLoop maximal fuel rest
    else
      match lead c.toNat with
      | none => replacement :: decodeLoop maximal fuel rest
      | some (n, lo, hi) =>
        if present lo hi n rest = n then
          Char.ofNat (codePoint c.toNat n rest) :: decodeLoop maximal fuel (rest.drop n)
        else
          replacement ::
            decodeLoop maximal fuel (rest.drop (if maximal then present lo hi n rest else 0))

/-- Every round consumes a byte, so the length bounds the rounds. -/
def decode (maximal : Bool) (s : List Char) : List Char := decodeLoop maximal s.length s

def Ascii (s : List Char) : Prop := ∀ c ∈ s, c.toNat < 0x80

instance : DecidablePred Ascii := fun s => List.decidableBAll (fun c : Char => c.toNat < 0x80) s

theorem present_one (lo hi : ℕ) (n : ℕ) (rest : List Char)
    (h : present lo hi (n + 1) rest = n + 1) :
    ∃ c tail, rest = c :: tail ∧ lo ≤ c.toNat ∧ c.toNat ≤ hi ∧
      present 0x80 0xBF n tail = n := by
  cases rest with
  | nil => simp [present] at h
  | cons c tail =>
    rw [present] at h
    split at h
    · rename_i hc
      exact ⟨c, tail, rfl, hc.1, hc.2, by omega⟩
    · omega

/-- A sequence that starts with a byte above ASCII stands for a character above ASCII. -/
theorem codePoint_not_ascii (b n lo hi : ℕ) (rest : List Char) (hlead : lead b = some (n, lo, hi))
    (hpresent : present lo hi n rest = n) :
    0x80 ≤ (Char.ofNat (codePoint b n rest)).toNat := by
  suffices h : 0x80 ≤ codePoint b n rest ∧
      (codePoint b n rest < 0xD800 ∨
        (0xDFFF < codePoint b n rest ∧ codePoint b n rest < 0x110000)) by
    rw [toNat_ofNat _ h.2]
    exact h.1
  unfold lead at hlead
  split_ifs at hlead
  all_goals
    simp only [Option.some.injEq, Prod.mk.injEq] at hlead
    obtain ⟨rfl, rfl, rfl⟩ := hlead
  · obtain ⟨c, t, rfl, hc, hc', -⟩ := present_one _ _ _ _ hpresent
    simp [codePoint]
    omega
  all_goals
    obtain ⟨c, t, rfl, hc, hc', hpresent⟩ := present_one _ _ _ _ hpresent
    obtain ⟨d, t, rfl, hd, hd', hpresent⟩ := present_one _ _ _ _ hpresent
    try obtain ⟨e, t, rfl, he, he', -⟩ := present_one _ _ _ _ hpresent
    simp [codePoint]
    omega

theorem decodeLoop_ascii (maximal : Bool) (fuel : ℕ) (s : List Char) (hs : Ascii s)
    (hfuel : s.length ≤ fuel) : decodeLoop maximal fuel s = s := by
  induction s generalizing fuel with
  | nil => cases fuel <;> rfl
  | cons c rest ih =>
    obtain ⟨more, rfl⟩ : ∃ more, fuel = more + 1 := ⟨fuel - 1, by simp at hfuel; omega⟩
    rw [decodeLoop, if_pos (hs c (by simp)),
      ih more (fun d hd => hs d (List.mem_cons_of_mem _ hd)) (by simpa using hfuel)]

theorem decode_ascii (maximal : Bool) (s : List Char) (hs : Ascii s) : decode maximal s = s :=
  decodeLoop_ascii maximal s.length s hs (Nat.le_refl _)

theorem ascii_of_decodeLoop (maximal : Bool) (fuel : ℕ) (s : List Char)
    (hfuel : s.length ≤ fuel) (hs : Ascii (decodeLoop maximal fuel s)) : Ascii s := by
  induction s generalizing fuel with
  | nil => simp [Ascii]
  | cons c rest ih =>
    obtain ⟨more, rfl⟩ : ∃ more, fuel = more + 1 := ⟨fuel - 1, by simp at hfuel; omega⟩
    rw [decodeLoop] at hs
    split at hs
    · rename_i hc
      have hrest := ih more (by simpa using hfuel)
        (fun d hd => hs d (List.mem_cons_of_mem _ hd))
      intro d hd
      rcases List.mem_cons.mp hd with rfl | hd
      · exact hc
      · exact hrest d hd
    · have hrep : ¬ replacement.toNat < 0x80 := by decide
      split at hs
      · exact absurd (hs replacement (by simp)) hrep
      · rename_i n lo hi hlead
        split at hs
        · rename_i hpresent
          have hlow := codePoint_not_ascii _ _ _ _ rest hlead hpresent
          exact absurd (hs _ (List.mem_cons_self ..)) (by omega)
        · exact absurd (hs replacement (by simp)) hrep

/-- Only an ASCII text decodes to ASCII, and to itself. -/
theorem decode_eq_ascii_iff (maximal : Bool) (s t : List Char) (ht : Ascii t) :
    decode maximal s = t ↔ s = t := by
  constructor
  · rintro rfl
    have hs := ascii_of_decodeLoop maximal s.length s (Nat.le_refl _) ht
    exact (decode_ascii maximal s hs).symm
  · rintro rfl
    exact decode_ascii maximal s ht

/-! ### Texts around an ASCII character -/

theorem length_drop_le (s : List Char) (n fuel : ℕ) (h : s.length ≤ fuel) :
    (s.drop n).length ≤ fuel := by
  rw [List.length_drop]
  omega

/-- More fuel than bytes changes nothing. -/
theorem decodeLoop_succ (maximal : Bool) (fuel : ℕ) (s : List Char) (h : s.length ≤ fuel) :
    decodeLoop maximal (fuel + 1) s = decodeLoop maximal fuel s := by
  induction fuel generalizing s with
  | zero =>
    obtain rfl : s = [] := by simpa using h
    rfl
  | succ fuel ih =>
    cases s with
    | nil => rfl
    | cons c rest =>
      rw [List.length_cons] at h
      have hnext : ∀ n, decodeLoop maximal (fuel + 1) (rest.drop n) =
          decodeLoop maximal fuel (rest.drop n) :=
        fun n => ih _ (length_drop_le rest n fuel (by omega))
      have hrest := ih rest (by omega)
      rw [decodeLoop, decodeLoop]
      simp only [hrest, hnext]

theorem decodeLoop_eq (maximal : Bool) (fuel : ℕ) (s : List Char) (h : s.length ≤ fuel) :
    decodeLoop maximal fuel s = decode maximal s := by
  obtain ⟨more, rfl⟩ := Nat.exists_eq_add_of_le h
  induction more with
  | zero => rfl
  | succ more ih =>
    rw [← Nat.add_assoc, decodeLoop_succ maximal _ s (Nat.le_add_right _ _),
      ih (Nat.le_add_right _ _)]

theorem lead_low (b n lo hi : ℕ) (h : lead b = some (n, lo, hi)) : 0x80 ≤ lo := by
  unfold lead at h
  split_ifs at h
  all_goals
    simp only [Option.some.injEq, Prod.mk.injEq] at h
    omega

/-- An ASCII character is no continuation byte. -/
theorem present_append (lo hi n : ℕ) (s rest : List Char) (c : Char) (hc : c.toNat < 0x80)
    (hlo : 0x80 ≤ lo) :
    present lo hi n (s ++ c :: rest) = present lo hi n s ∧ present lo hi n s ≤ s.length := by
  induction n generalizing lo hi s with
  | zero => exact ⟨rfl, Nat.zero_le _⟩
  | succ n ih =>
    cases s with
    | nil =>
      refine ⟨?_, Nat.zero_le _⟩
      have hlow : ¬ (lo ≤ c.toNat ∧ c.toNat ≤ hi) := by omega
      simp only [List.nil_append, present, if_neg hlow]
    | cons d more =>
      obtain ⟨heq, hle⟩ := ih 0x80 0xBF more (Nat.le_refl _)
      rw [List.cons_append, present, present, heq]
      split_ifs
      · exact ⟨rfl, Nat.succ_le_succ hle⟩
      · exact ⟨rfl, Nat.zero_le _⟩

theorem decodeLoop_append (maximal : Bool) (fuel : ℕ) (s rest : List Char) (c : Char)
    (hc : c.toNat < 0x80) (hfuel : (s ++ c :: rest).length ≤ fuel) :
    decodeLoop maximal fuel (s ++ c :: rest) = decode maximal s ++ c :: decode maximal rest := by
  induction fuel generalizing s with
  | zero => simp at hfuel
  | succ fuel ih =>
    cases s with
    | nil =>
      rw [List.nil_append, List.length_cons] at hfuel
      rw [List.nil_append, decodeLoop, if_pos hc, decodeLoop_eq maximal fuel rest (by omega)]
      rfl
    | cons b more =>
      rw [List.cons_append, List.length_cons] at hfuel
      have hdrop : ∀ n, n ≤ more.length →
          decodeLoop maximal fuel ((more ++ c :: rest).drop n) =
            decodeLoop maximal more.length (more.drop n) ++ c :: decode maximal rest := by
        intro n hn
        have hlength := length_drop_le (more ++ c :: rest) n fuel (by omega)
        rw [List.drop_append_of_le_length hn] at hlength ⊢
        rw [ih (more.drop n) hlength,
          decodeLoop_eq maximal more.length _ (length_drop_le more n _ (Nat.le_refl _))]
      have hmore : decodeLoop maximal fuel (more ++ c :: rest) =
          decodeLoop maximal more.length more ++ c :: decode maximal rest := by
        simpa using hdrop 0 (Nat.zero_le _)
      rw [List.cons_append, decodeLoop, decode, List.length_cons, decodeLoop]
      by_cases hb : b.toNat < 0x80
      · rw [if_pos hb, if_pos hb, hmore, List.cons_append]
      · rw [if_neg hb, if_neg hb]
        cases hlead : lead b.toNat with
        | none => simp only [hmore, List.cons_append]
        | some announced =>
          obtain ⟨n, lo, hi⟩ := announced
          obtain ⟨hpresent, hle⟩ := present_append lo hi n more rest c hc (lead_low _ _ _ _ hlead)
          simp only [hpresent]
          by_cases hwhole : present lo hi n more = n
          · have htake : (more ++ c :: rest).take n = more.take n :=
              List.take_append_of_le_length (by omega)
            simp only [if_pos hwhole, codePoint, htake, hdrop n (by omega), List.cons_append]
          · have hskip : (if maximal = true then present lo hi n more else 0) ≤ more.length := by
              split_ifs
              · exact hle
              · exact Nat.zero_le _
            simp only [if_neg hwhole, hdrop _ hskip, List.cons_append]

/-- The texts before and after an ASCII character are decoded apart. -/
theorem decode_append (maximal : Bool) (s rest : List Char) (c : Char) (hc : c.toNat < 0x80) :
    decode maximal (s ++ c :: rest) = decode maximal s ++ c :: decode maximal rest :=
  decodeLoop_append maximal _ s rest c hc (Nat.le_refl _)

/-- Nothing else decodes to an ASCII character. -/
theorem mem_of_mem_decode (maximal : Bool) (s : List Char) (c : Char) (hc : c.toNat < 0x80)
    (hmem : c ∈ decode maximal s) : c ∈ s := by
  suffices h : ∀ fuel s, c ∈ decodeLoop maximal fuel s → c ∈ s from h _ s hmem
  intro fuel
  induction fuel with
  | zero =>
    intro s hmem
    cases hmem
  | succ fuel ih =>
    intro s hmem
    cases s with
    | nil => cases hmem
    | cons b rest =>
      have hrep : c ≠ replacement := by
        intro heq
        rw [heq] at hc
        exact absurd hc (by decide)
      have hlater : ∀ n, c ∈ decodeLoop maximal fuel (rest.drop n) → c ∈ b :: rest :=
        fun n h => List.mem_cons_of_mem _ (List.mem_of_mem_drop (ih _ h))
      rw [decodeLoop] at hmem
      by_cases hb : b.toNat < 0x80
      · rw [if_pos hb] at hmem
        rcases List.mem_cons.mp hmem with rfl | hmem
        · exact List.mem_cons_self ..
        · exact List.mem_cons_of_mem _ (ih rest hmem)
      · rw [if_neg hb] at hmem
        split at hmem
        · exact List.mem_cons_of_mem _ (ih rest ((List.mem_cons.mp hmem).resolve_left hrep))
        · rename_i n lo hi hlead
          by_cases hpresent : present lo hi n rest = n
          · rw [if_pos hpresent] at hmem
            have hhigh := codePoint_not_ascii _ _ _ _ rest hlead hpresent
            refine hlater n ((List.mem_cons.mp hmem).resolve_left fun heq => ?_)
            rw [← heq] at hhigh
            omega
          · rw [if_neg hpresent] at hmem
            exact hlater _ ((List.mem_cons.mp hmem).resolve_left hrep)

/-- A text starts with an ASCII character exactly when its bytes do. -/
theorem decode_cons (maximal : Bool) (b : Char) (rest : List Char) :
    ∃ d tail, decode maximal (b :: rest) = d :: tail ∧ (d.toNat < 0x80 → d = b) := by
  rw [decode, List.length_cons, decodeLoop]
  by_cases hb : b.toNat < 0x80
  · rw [if_pos hb]
    exact ⟨b, _, rfl, fun _ => rfl⟩
  · rw [if_neg hb]
    split
    · exact ⟨replacement, _, rfl, fun h => absurd h (by decide)⟩
    · rename_i n lo hi hlead
      by_cases hpresent : present lo hi n rest = n
      · have hhigh := codePoint_not_ascii _ _ _ _ rest hlead hpresent
        rw [if_pos hpresent]
        exact ⟨_, _, rfl, fun h => absurd h (by omega)⟩
      · rw [if_neg hpresent]
        exact ⟨replacement, _, rfl, fun h => absurd h (by decide)⟩

end Hyproxy.Utf8
